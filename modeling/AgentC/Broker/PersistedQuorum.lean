import AgentC.Broker.QuorumApprovals

/-! # Quorums before and after persistence

Which members an evaluation finds to approve a rule, which records the
expansion makes, and when the evaluation of the records is that of the
approvals. -/

namespace AgentC.Broker.TeamRunQuorum

variable {role : Bytes} {rule : TeamQuorumRule} {approval : TeamRunApproval}
variable {approvals : List TeamRunApproval} {rules : List TeamQuorumRule}

section Evaluation

variable {letters : LowerCase} {membersById : Bytes → Option TeamMember}

def memberRole (letters : LowerCase) (membersById : Bytes → Option TeamMember)
    (memberId : Bytes) : Bytes :=
  match membersById memberId with
  | some member => normalized letters member.role
  | none => []

def admits (letters : LowerCase) (membersById : Bytes → Option TeamMember)
    (rule : TeamQuorumRule) (memberId : Bytes) : Bool :=
  allowsRole (toLowerSet letters rule.roleAllowlist) (memberRole letters membersById memberId)

def Active (letters : LowerCase) (membersById : Bytes → Option TeamMember)
    (memberId : Bytes) : Prop :=
  ∃ member, membersById memberId = some member ∧ isActive letters member = true

def Backs (rule : TeamQuorumRule) (approvals : List TeamRunApproval) (memberId : Bytes) : Prop :=
  ∃ approval ∈ approvals, approval.memberId = memberId ∧ approves rule approval = true

/-- The roles are those of the members, and nothing is in a list twice. -/
structure Approved.Sound (letters : LowerCase) (membersById : Bytes → Option TeamMember)
    (approved : Approved) : Prop where
  members : approved.members.Nodup
  roles : approved.roles.Nodup
  rolesOfMembers : ∀ role, role ∈ approved.roles ↔
    role ≠ [] ∧ ∃ memberId ∈ approved.members, memberRole letters membersById memberId = role

theorem Approved.sound_nil : ({} : Approved).Sound letters membersById where
  members := List.nodup_nil
  roles := List.nodup_nil
  rolesOfMembers := fun role => by simp

variable {approved : Approved} {memberId : Bytes}

theorem Approved.mem_roles_add {other : Bytes} : other ∈ (approved.add memberId role).roles ↔
      other ∈ approved.roles ∨ other ≠ [] ∧ role = other := by
  rw [Approved.add]
  dsimp only
  split
  · next present =>
    constructor
    · exact .inl
    · rintro (there | ⟨nonempty, same⟩)
      · exact there
      · subst same
        exact present.resolve_left nonempty
  · next absent =>
    rw [not_or] at absent
    rw [List.mem_append, List.mem_singleton]
    apply or_congr_right
    constructor
    · rintro same
      exact ⟨same ▸ absent.1, same.symm⟩
    · rintro ⟨_, same⟩
      exact same.symm

theorem Approved.Sound.add (sound : approved.Sound letters membersById)
    (fresh : memberId ∉ approved.members) :
    (approved.add memberId (memberRole letters membersById memberId)).Sound letters
      membersById where
  members := by
    apply List.Nodup.append sound.members (List.nodup_singleton memberId)
    simpa using fresh
  roles := by
    rw [Approved.add]
    dsimp only
    split
    · exact sound.roles
    · next absent =>
      apply List.Nodup.append sound.roles (List.nodup_singleton _)
      simpa using (not_or.mp absent).2
  rolesOfMembers := fun role => by
    rw [Approved.mem_roles_add, sound.rolesOfMembers]
    simp only [Approved.add, List.mem_append, List.mem_singleton, or_and_right, exists_or,
      exists_eq_left, and_or_left]

theorem Approved.Sound.approvedCount_eq {first second : Approved}
    (firstSound : first.Sound letters membersById) (secondSound : second.Sound letters membersById)
    (same : ∀ memberId, memberId ∈ first.members ↔ memberId ∈ second.members) :
    approvedCount rule first = approvedCount rule second := by
  have members : first.members.Perm second.members :=
    (List.perm_ext_iff_of_nodup firstSound.members secondSound.members).mpr same
  have roles : first.roles.Perm second.roles := by
    apply (List.perm_ext_iff_of_nodup firstSound.roles secondSound.roles).mpr
    intro role
    rw [firstSound.rolesOfMembers, secondSound.rolesOfMembers]
    simp only [same]
  rw [approvedCount, approvedCount, members.length_eq, roles.length_eq]

theorem approves_iff : approves rule approval = true ↔ approval.decision = approveText ∧
      (approval.ruleId = [] ∨ approval.ruleId = rule.ruleId) := by
  simp [approves]

theorem backs_cons : Backs rule (approval :: approvals) memberId ↔
      (approval.memberId = memberId ∧ approves rule approval = true) ∨
        Backs rule approvals memberId := by
  simp [Backs]

def step (letters : LowerCase) (membersById : Bytes → Option TeamMember) (rule : TeamQuorumRule)
    (approval : TeamRunApproval) (approved : Approved) : Approved :=
  if approves rule approval = true ∧ admits letters membersById rule approval.memberId = true ∧
      approval.memberId ∉ approved.members then
    approved.add approval.memberId (memberRole letters membersById approval.memberId)
  else approved

theorem Approved.Sound.step (sound : approved.Sound letters membersById) :
    (step letters membersById rule approval approved).Sound letters membersById := by
  rw [TeamRunQuorum.step]
  split
  · next added => exact sound.add added.2.2
  · exact sound

theorem mem_members_step : memberId ∈ (step letters membersById rule approval approved).members ↔
      memberId ∈ approved.members ∨ (admits letters membersById rule memberId = true ∧
        approval.memberId = memberId ∧ approves rule approval = true) := by
  rw [step]
  split
  · next added =>
    simp only [Approved.add, List.mem_append, List.mem_singleton]
    apply or_congr_right
    constructor
    · rintro same
      subst same
      exact ⟨added.2.1, rfl, added.1⟩
    · rintro ⟨_, same, _⟩
      exact same.symm
  · next passed =>
    constructor
    · exact .inl
    · rintro (there | ⟨admitted, same, backing⟩)
      · exact there
      · subst same
        by_contra fresh
        exact passed ⟨backing, admitted, fresh⟩

theorem countApprovals_cons
    (active : approves rule approval = true → Active letters membersById approval.memberId) :
    countApprovals letters membersById rule (approval :: approvals) approved =
      countApprovals letters membersById rule approvals
        (step letters membersById rule approval approved) := by
  rw [countApprovals, step]
  cases backing : approves rule approval with
  | false => simp
  | true =>
    rcases active backing with ⟨member, known, isActive⟩
    have role : memberRole letters membersById approval.memberId =
        normalized letters member.role := by
      rw [memberRole, known]
    simp only [known, isActive, admits, role]
    by_cases admitted :
      allowsRole (toLowerSet letters rule.roleAllowlist) (normalized letters member.role) = true
    · by_cases fresh : approval.memberId ∈ approved.members
      · simp [admitted, fresh]
      · simp [admitted, fresh]
    · simp [admitted]

theorem active_of_countApprovals {result : Approved}
    (counted : countApprovals letters membersById rule (approval :: approvals) approved =
      .ok result) (backing : approves rule approval = true) :
    Active letters membersById approval.memberId := by
  rw [countApprovals, backing] at counted
  cases known : membersById approval.memberId with
  | none =>
    rw [known] at counted
    exact nomatch counted
  | some member =>
    refine ⟨member, known, ?_⟩
    by_contra inactive
    rw [Bool.not_eq_true] at inactive
    simp [known, inactive] at counted

/-- What the loop finds: the members in front and those that the rule lets in
and that back it. -/
theorem countApprovals_spec {result : Approved} (sound : approved.Sound letters membersById)
    (counted : countApprovals letters membersById rule approvals approved = .ok result) :
    result.Sound letters membersById ∧ ∀ memberId, memberId ∈ result.members ↔
      memberId ∈ approved.members ∨
        (admits letters membersById rule memberId = true ∧ Backs rule approvals memberId) := by
  induction approvals generalizing approved with
  | nil =>
    cases counted
    exact ⟨sound, fun memberId => by simp [Backs]⟩
  | cons approval approvals induction =>
    rw [countApprovals_cons (active_of_countApprovals counted)] at counted
    rcases induction sound.step counted with ⟨resultSound, members⟩
    refine ⟨resultSound, fun memberId => ?_⟩
    rw [members, mem_members_step, backs_cons, or_assoc, and_or_left]

theorem countApprovals_of_active {rule : TeamQuorumRule} {approvals : List TeamRunApproval}
    (active : ∀ approval ∈ approvals, Active letters membersById approval.memberId)
    (approved : Approved) :
    ∃ result, countApprovals letters membersById rule approvals approved = .ok result := by
  induction approvals generalizing approved with
  | nil => exact ⟨approved, rfl⟩
  | cons approval approvals induction =>
    rw [countApprovals_cons fun _ => active approval (List.mem_cons_self ..)]
    exact induction (fun other there => active other (List.mem_cons_of_mem approval there)) _

def EvaluatesTo (letters : LowerCase) (membersById : Bytes → Option TeamMember)
    (approvals : List TeamRunApproval) (rule : TeamQuorumRule) (eval : TeamRunQuorumRuleEval) :
    Prop :=
  ∃ approved, countApprovals letters membersById rule approvals {} = .ok approved ∧
    eval = ruleEval rule approved

theorem evaluateRules_spec {out result : TeamRunQuorumEval}
    (evaluated : evaluateRules letters membersById approvals rules out = .ok result) :
    ∃ evals, result.rules = out.rules ++ evals ∧
      List.Forall₂ (EvaluatesTo letters membersById approvals)
        (filterTeamRunRules letters rules) evals ∧
      result.strictOk = (out.strictOk && !evals.any (blocks letters)) := by
  induction rules generalizing out with
  | nil =>
    cases evaluated
    exact ⟨[], by simp, .nil, by simp⟩
  | cons rule rules induction =>
    rw [evaluateRules] at evaluated
    cases forRuns : isTeamRunQuorumAction letters rule.action with
    | false =>
      rw [forRuns] at evaluated
      rw [filterTeamRunRules, List.filter_cons_of_neg (by simp [forRuns])]
      exact induction evaluated
    | true =>
      rw [forRuns] at evaluated
      rcases bind_eq_ok.mp evaluated with ⟨approved, counted, evaluated⟩
      rcases induction evaluated with ⟨evals, rulesOf, each, strictOk⟩
      rw [filterTeamRunRules, List.filter_cons_of_pos (by exact forRuns)]
      refine ⟨ruleEval rule approved :: evals, ?_, .cons ⟨approved, counted, rfl⟩ each, ?_⟩
      · rw [rulesOf, TeamRunQuorumEval.add, List.append_assoc, List.singleton_append]
      · simp [strictOk, TeamRunQuorumEval.add, Bool.and_assoc]

theorem evaluateRules_of_active {approvals : List TeamRunApproval}
    (active : ∀ approval ∈ approvals, Active letters membersById approval.memberId)
    (rules : List TeamQuorumRule) (out : TeamRunQuorumEval) :
    ∃ result, evaluateRules letters membersById approvals rules out = .ok result := by
  induction rules generalizing out with
  | nil => exact ⟨out, rfl⟩
  | cons rule rules induction =>
    rw [evaluateRules]
    split
    · exact induction out
    · rcases @countApprovals_of_active letters membersById rule approvals active {} with
        ⟨approved, counted⟩
      rw [counted]
      exact induction _

/-- The evaluations of a rule over two lists of approvals say the same. -/
structure SameApproved (first second : TeamRunQuorumRuleEval) : Prop where
  ruleId : second.ruleId = first.ruleId
  approved : second.approved = first.approved
  members : ∀ memberId, memberId ∈ second.approvedMemberIds ↔ memberId ∈ first.approvedMemberIds

/-- Two evaluations say the same, rule by rule. -/
structure SameOutcome (first second : TeamRunQuorumEval) : Prop where
  strictOk : second.strictOk = first.strictOk
  rules : List.Forall₂ SameApproved first.rules second.rules

theorem EvaluatesTo.members {eval : TeamRunQuorumRuleEval}
    (evaluates : EvaluatesTo letters membersById approvals rule eval) (memberId : Bytes) :
    memberId ∈ eval.approvedMemberIds ↔
      admits letters membersById rule memberId = true ∧ Backs rule approvals memberId := by
  rcases evaluates with ⟨approved, counted, evalOf⟩
  subst evalOf
  exact ((countApprovals_spec Approved.sound_nil counted).2 memberId).trans (by simp)

variable {firstApprovals secondApprovals : List TeamRunApproval}

variable {first second : TeamRunQuorumRuleEval}

theorem EvaluatesTo.sameApproved_iff
    (firstEvaluates : EvaluatesTo letters membersById firstApprovals rule first)
    (secondEvaluates : EvaluatesTo letters membersById secondApprovals rule second) :
    SameApproved first second ↔ ∀ memberId, admits letters membersById rule memberId = true →
      (Backs rule secondApprovals memberId ↔ Backs rule firstApprovals memberId) := by
  rw [show SameApproved first second ↔
    ∀ memberId, memberId ∈ second.approvedMemberIds ↔ memberId ∈ first.approvedMemberIds from ?_]
  · simp only [firstEvaluates.members, secondEvaluates.members, and_congr_right_iff]
  · constructor
    · exact SameApproved.members
    · intro members
      rcases firstEvaluates with ⟨firstApproved, firstCounted, firstEval⟩
      rcases secondEvaluates with ⟨secondApproved, secondCounted, secondEval⟩
      subst firstEval secondEval
      have firstSound := (countApprovals_spec Approved.sound_nil firstCounted).1
      have secondSound := (countApprovals_spec Approved.sound_nil secondCounted).1
      exact ⟨rfl, secondSound.approvedCount_eq firstSound members, members⟩

theorem EvaluatesTo.blocks_eq
    (firstEvaluates : EvaluatesTo letters membersById firstApprovals rule first)
    (secondEvaluates : EvaluatesTo letters membersById secondApprovals rule second)
    (same : SameApproved first second) : blocks letters second = blocks letters first := by
  rcases firstEvaluates with ⟨firstApproved, _, firstEval⟩
  rcases secondEvaluates with ⟨secondApproved, _, secondEval⟩
  subst firstEval secondEval
  have counts : approvedCount rule secondApproved = approvedCount rule firstApproved :=
    same.approved
  have missing : (ruleEval rule secondApproved).missing = (ruleEval rule firstApproved).missing := by
    simp only [ruleEval, counts]
  rw [blocks, blocks, missing]
  rfl

section Rules

variable {firstApprovals secondApprovals : List TeamRunApproval} {rules : List TeamQuorumRule}
  {firstEvals secondEvals : List TeamRunQuorumRuleEval}

theorem sameApproved_all_iff
    (firstEach : List.Forall₂ (EvaluatesTo letters membersById firstApprovals) rules firstEvals)
    (secondEach : List.Forall₂ (EvaluatesTo letters membersById secondApprovals) rules
      secondEvals) : List.Forall₂ SameApproved firstEvals secondEvals ↔ ∀ rule ∈ rules, ∀ memberId,
      admits letters membersById rule memberId = true →
        (Backs rule secondApprovals memberId ↔ Backs rule firstApprovals memberId) := by
  induction firstEach generalizing secondEvals with
  | nil =>
    cases secondEach
    simp
  | cons firstHead firstTail induction =>
    cases secondEach with
    | cons secondHead secondTail =>
      rw [List.forall_mem_cons, ← firstHead.sameApproved_iff secondHead,
        ← induction secondTail, List.forall₂_cons]

theorem any_blocks_eq
    (firstEach : List.Forall₂ (EvaluatesTo letters membersById firstApprovals) rules firstEvals)
    (secondEach : List.Forall₂ (EvaluatesTo letters membersById secondApprovals) rules secondEvals)
    (same : List.Forall₂ SameApproved firstEvals secondEvals) :
    secondEvals.any (blocks letters) = firstEvals.any (blocks letters) := by
  induction firstEach generalizing secondEvals with
  | nil =>
    cases same
    rfl
  | cons firstHead firstTail induction =>
    cases secondEach with
    | cons secondHead secondTail =>
      rcases List.forall₂_cons.mp same with ⟨head, tail⟩
      rw [List.any_cons, List.any_cons, firstHead.blocks_eq secondHead head,
        induction secondTail tail]

end Rules

theorem sameOutcome_iff {first second : TeamRunQuorumEval}
    (firstEvaluated : evaluateRules letters membersById firstApprovals rules {} = .ok first)
    (secondEvaluated : evaluateRules letters membersById secondApprovals rules {} = .ok second) :
    SameOutcome first second ↔ ∀ rule ∈ filterTeamRunRules letters rules, ∀ memberId,
      admits letters membersById rule memberId = true →
        (Backs rule secondApprovals memberId ↔ Backs rule firstApprovals memberId) := by
  rcases evaluateRules_spec firstEvaluated with ⟨firstEvals, firstRules, firstEach, firstStrict⟩
  rcases evaluateRules_spec secondEvaluated with
    ⟨secondEvals, secondRules, secondEach, secondStrict⟩
  rw [← sameApproved_all_iff firstEach secondEach]
  rw [List.nil_append] at firstRules secondRules
  subst firstRules secondRules
  constructor
  · exact SameOutcome.rules
  · intro same
    refine ⟨?_, same⟩
    rw [firstStrict, secondStrict, any_blocks_eq firstEach secondEach same]

end Evaluation

section Expansion

variable {letters : LowerCase} {membersById : Bytes → Option TeamMember}

def TeamRunApprovalRecord.key (record : TeamRunApprovalRecord) : Bytes :=
  recordKey record.ruleId record.memberId

/-- The records for the rules that an approval reaches: those it is for whose
role list lets the member in. -/
def reached (letters : LowerCase) (membersById : Bytes → Option TeamMember)
    (rules : List TeamQuorumRule) (approval : TeamRunApproval) : List TeamRunApprovalRecord :=
  let role := memberRole letters membersById approval.memberId
  ((targetRules letters rules approval).filter fun ruleId =>
    allowsRole (roleAllow letters rules ruleId) role).map (record approval role)

def Expansion.extend (expansion : Expansion) (records : List TeamRunApprovalRecord) :
    Expansion where
  seen := ((firstsBy TeamRunApprovalRecord.key expansion.seen records).map
    TeamRunApprovalRecord.key).reverse ++ expansion.seen
  out := expansion.out ++ firstsBy TeamRunApprovalRecord.key expansion.seen records

variable (expansion : Expansion)

theorem Expansion.extend_extend (front rest : List TeamRunApprovalRecord) :
    (expansion.extend front).extend rest = expansion.extend (front ++ rest) := by
  simp [Expansion.extend, firstsBy_append]

theorem expandRules_eq {ruleIds : List Bytes} :
    expandRules letters rules approval role ruleIds expansion =
      expansion.extend ((ruleIds.filter fun ruleId =>
        allowsRole (roleAllow letters rules ruleId) role).map (record approval role)) := by
  induction ruleIds generalizing expansion with
  | nil => simp [expandRules, Expansion.extend, firstsBy]
  | cons ruleId ruleIds induction =>
    have key : (record approval role ruleId).key = recordKey ruleId approval.memberId := rfl
    rw [expandRules]
    cases allowed : allowsRole (roleAllow letters rules ruleId) role with
    | false => simp [allowed, induction]
    | true =>
      by_cases seen : recordKey ruleId approval.memberId ∈ expansion.seen
      · simp [allowed, seen, induction, Expansion.extend, firstsBy, key]
      · simp [allowed, seen, induction, Expansion.extend, firstsBy, key]

/-- The approval is from an active member with a role and for rules there are. -/
structure Expandable (letters : LowerCase) (membersById : Bytes → Option TeamMember)
    (rules : List TeamQuorumRule) (approval : TeamRunApproval) : Prop where
  active : Active letters membersById approval.memberId
  rule : approval.ruleId = [] ∨ approval.ruleId ∈ ruleIds letters rules

theorem expandable_of_approvingRole
    (found : approvingRole letters membersById rules approval = .ok role) :
    Expandable letters membersById rules approval ∧
      role = memberRole letters membersById approval.memberId := by
  rw [approvingRole] at found
  rw [memberRole]
  cases known : membersById approval.memberId with
  | none =>
    rw [known] at found
    exact nomatch found
  | some member =>
    simp only [known] at found
    split at found
    · exact nomatch found
    · next active =>
      split at found
      · exact nomatch found
      · split at found
        · exact nomatch found
        · next named =>
          cases found
          refine ⟨⟨⟨member, known, by simpa using active⟩, ?_⟩, rfl⟩
          by_contra neither
          exact named (not_or.mp neither)

theorem expandApprovals_spec {expansion result : Expansion}
    (expanded : expandApprovals letters membersById rules approvals expansion = .ok result) :
    (∀ approval ∈ approvals, Expandable letters membersById rules approval) ∧
      result = expansion.extend (approvals.flatMap (reached letters membersById rules)) := by
  induction approvals generalizing expansion with
  | nil =>
    cases expanded
    exact ⟨nofun, by simp [Expansion.extend, firstsBy]⟩
  | cons approval approvals induction =>
    rw [expandApprovals] at expanded
    rcases bind_eq_ok.mp expanded with ⟨role, found, expanded⟩
    rcases expandable_of_approvingRole found with ⟨expandable, roleOf⟩
    rcases induction expanded with ⟨others, resultOf⟩
    refine ⟨List.forall_mem_cons.mpr ⟨expandable, others⟩, ?_⟩
    rw [resultOf, expandRules_eq, Expansion.extend_extend, roleOf, List.flatMap_cons, reached]

variable {records : List TeamRunApprovalRecord}

theorem expandTeamRunApprovals_spec
    (expanded : expandTeamRunApprovals letters membersById rules approvals = .ok records)
    (some : ruleIds letters rules ≠ []) :
    (∀ approval ∈ approvals, Expandable letters membersById rules approval) ∧
      records = firstsBy TeamRunApprovalRecord.key []
        (approvals.flatMap (reached letters membersById rules)) := by
  rw [expandTeamRunApprovals, if_neg some] at expanded
  rcases bind_eq_ok.mp expanded with ⟨expansion, found, recordsOf⟩
  cases recordsOf
  rcases expandApprovals_spec found with ⟨expandable, expansionOf⟩
  subst expansionOf
  exact ⟨expandable, rfl⟩

theorem mem_reached {made : TeamRunApprovalRecord}
    (member : made ∈ reached letters membersById rules approval) :
    made.memberId = approval.memberId ∧ made.ruleId ∈ targetRules letters rules approval := by
  rw [reached] at member
  rcases List.mem_map.mp member with ⟨ruleId, allowed, madeOf⟩
  subst madeOf
  exact ⟨rfl, (List.mem_filter.mp allowed).1⟩

theorem targetRules_subset (expandable : Expandable letters membersById rules approval) :
    targetRules letters rules approval ⊆ ruleIds letters rules := by
  rw [targetRules]
  split
  · exact List.Subset.refl _
  · next named =>
    intro ruleId member
    rw [List.mem_singleton.mp member]
    exact expandable.rule.resolve_left named

theorem unknownRule_eq_none
    (known : ∀ approval ∈ approvals, approval.ruleId ∈ ruleIds letters rules) :
    unknownRule letters rules approvals = none := by
  apply List.find?_eq_none.mpr
  intro approval member unknown
  have there := known approval member
  rw [ruleIds] at there
  simp [there] at unknown

theorem evaluateRules_of_evaluated {eval : TeamRunQuorumEval}
    (evaluated : evaluateTeamRunQuorum letters membersById rules approvals = .ok eval) :
    evaluateRules letters membersById approvals rules {} = .ok eval := by
  rw [evaluateTeamRunQuorum] at evaluated
  split at evaluated
  · exact nomatch evaluated
  · exact evaluated

theorem evaluates_records
    (expanded : expandTeamRunApprovals letters membersById rules approvals = .ok records)
    (some : ruleIds letters rules ≠ []) :
    ∃ replayed, evaluateTeamRunQuorum letters membersById rules
      (approvalsToTeamRunApprovals letters records) = .ok replayed := by
  rcases expandTeamRunApprovals_spec expanded some with ⟨expandable, recordsOf⟩
  have from_approval : ∀ stored ∈ approvalsToTeamRunApprovals letters records,
      Active letters membersById stored.memberId ∧ stored.ruleId ∈ ruleIds letters rules := by
    intro stored member
    rcases List.mem_map.mp member with ⟨made, kept, storedOf⟩
    subst storedOf
    rw [recordsOf] at kept
    rcases List.mem_flatMap.mp (mem_firstsBy.mp kept).2.mem with ⟨approval, given, reaches⟩
    rcases mem_reached reaches with ⟨sameMember, target⟩
    constructor
    · dsimp only
      rw [sameMember]
      exact (expandable approval given).active
    · exact targetRules_subset (expandable approval given) target
  rw [evaluateTeamRunQuorum,
    unknownRule_eq_none fun stored member => (from_approval stored member).2]
  exact evaluateRules_of_active (fun stored member => (from_approval stored member).1) rules {}

/-- The first approval that reaches a rule's id or the empty one for the member
reads as an approval. -/
def FirstApproves (letters : LowerCase) (membersById : Bytes → Option TeamMember)
    (rules : List TeamQuorumRule) (approvals : List TeamRunApproval) (rule : TeamQuorumRule)
    (memberId : Bytes) : Prop :=
  ∃ first, IsFirst TeamRunApprovalRecord.key
      (approvals.flatMap (reached letters membersById rules)) first ∧
    first.memberId = memberId ∧ (first.ruleId = [] ∨ first.ruleId = rule.ruleId) ∧
    normalized letters first.decision = approveText

theorem backs_records_iff (recordsOf : records = firstsBy TeamRunApprovalRecord.key []
      (approvals.flatMap (reached letters membersById rules))) (rule : TeamQuorumRule)
    (memberId : Bytes) : Backs rule (approvalsToTeamRunApprovals letters records) memberId ↔
      FirstApproves letters membersById rules approvals rule memberId := by
  subst recordsOf
  constructor
  · rintro ⟨stored, member, sameMember, backing⟩
    rcases List.mem_map.mp member with ⟨first, kept, storedOf⟩
    subst storedOf
    rcases approves_iff.mp backing with ⟨decision, target⟩
    exact ⟨first, (mem_firstsBy.mp kept).2, sameMember, target, decision⟩
  · rintro ⟨first, isFirst, sameMember, target, decision⟩
    have kept := mem_firstsBy.mpr ⟨List.not_mem_nil, isFirst⟩
    exact ⟨_, List.mem_map_of_mem kept, sameMember, approves_iff.mpr ⟨decision, target⟩⟩

/-- The quorum is the same after the approvals are stored exactly if, for every
rule and every member it lets in, some approval is for the rule if and only if
the first one that is recorded is. -/
theorem quorum_survives_persistence_iff {rules : List TeamQuorumRule}
    {approvals : List TeamRunApproval} {eval : TeamRunQuorumEval}
    {records : List TeamRunApprovalRecord}
    (evaluated : evaluateTeamRunQuorum letters membersById rules approvals = .ok eval)
    (expanded : expandTeamRunApprovals letters membersById rules approvals = .ok records) :
    (∃ replayed, evaluateTeamRunQuorum letters membersById rules
        (approvalsToTeamRunApprovals letters records) = .ok replayed ∧
      SameOutcome eval replayed) ↔
      ∀ rule ∈ filterTeamRunRules letters rules, ∀ memberId,
        admits letters membersById rule memberId = true →
          (FirstApproves letters membersById rules approvals rule memberId ↔
            Backs rule approvals memberId) := by
  by_cases none : ruleIds letters rules = []
  · rw [expandTeamRunApprovals, if_pos none] at expanded
    cases expanded
    have noRules : filterTeamRunRules letters rules = [] := List.map_eq_nil_iff.mp none
    rcases @evaluateRules_of_active letters membersById [] (List.forall_mem_nil _) rules {} with
      ⟨replayed, replays⟩
    have outcome := sameOutcome_iff (evaluateRules_of_evaluated evaluated) replays
    rw [noRules] at outcome ⊢
    constructor
    · intro _ rule member
      exact nomatch member
    · intro _
      exact ⟨replayed, replays, outcome.mpr (List.forall_mem_nil _)⟩
  · rcases expandTeamRunApprovals_spec expanded none with ⟨_, recordsOf⟩
    rcases evaluates_records expanded none with ⟨replayed, replays⟩
    have outcome := sameOutcome_iff (evaluateRules_of_evaluated evaluated)
      (evaluateRules_of_evaluated replays)
    simp only [backs_records_iff recordsOf] at outcome
    rw [← outcome]
    constructor
    · rintro ⟨other, otherReplays, same⟩
      rw [replays] at otherReplays
      cases otherReplays
      exact same
    · intro same
      exact ⟨replayed, replays, same⟩

end Expansion

def sampleRule : TeamQuorumRule where
  ruleId := ascii "r"
  action := ascii "team_run"
  minApprovals := 1
  roleAllowlist := []
  requireDistinctRoles := false
  quorumMode := ascii "strict"

def sampleApproval (decision : Bytes) : TeamRunApproval where
  ruleId := []
  memberId := ascii "m"
  decision := decision
  reason := []

def sampleMembers (memberId : Bytes) : Option TeamMember :=
  if memberId = ascii "m" then some { status := [], role := ascii "lead" } else none

def sampleEval : TeamRunQuorumEval where
  rules := [ruleEval sampleRule { members := [ascii "m"], roles := [ascii "lead"] }]

def sampleRecord (decision : Bytes) : TeamRunApprovalRecord :=
  record (sampleApproval decision) (ascii "lead") (ascii "r")

theorem firstApproves_sample (member : rule ∈ [sampleRule]) (memberId : Bytes) :
    FirstApproves LowerCase.asciiOnly sampleMembers [sampleRule] [sampleApproval approveText] rule
        memberId ↔ Backs rule [sampleApproval approveText] memberId := by
  cases List.mem_singleton.mp member
  have reaches : [sampleApproval approveText].flatMap (reached LowerCase.asciiOnly sampleMembers
      [sampleRule]) = [sampleRecord approveText] := by
    decide
  rw [FirstApproves, reaches]
  constructor
  · rintro ⟨first, isFirst, same, _⟩
    cases List.mem_singleton.mp isFirst.mem
    exact ⟨_, List.mem_singleton_self _, same, by decide⟩
  · rintro ⟨approval, given, same, _⟩
    cases List.mem_singleton.mp given
    exact ⟨sampleRecord approveText, by decide, same, .inr rfl, by decide⟩

theorem quorum_survives_persistence_sample :
    ∃ replayed, evaluateTeamRunQuorum LowerCase.asciiOnly sampleMembers [sampleRule]
        (approvalsToTeamRunApprovals LowerCase.asciiOnly [sampleRecord approveText]) =
          .ok replayed ∧
      SameOutcome sampleEval replayed :=
  (@quorum_survives_persistence_iff LowerCase.asciiOnly sampleMembers [sampleRule]
    [sampleApproval approveText] sampleEval [sampleRecord approveText] rfl rfl).mpr
    fun _ member memberId _ => firstApproves_sample member memberId

/-- A member denies and then approves: the run may start, and after the
approvals are stored it may not. -/
theorem denial_in_front_is_kept :
    let approvals := [sampleApproval (ascii "deny"), sampleApproval approveText]
    evaluateTeamRunQuorum LowerCase.asciiOnly sampleMembers [sampleRule] approvals =
        .ok sampleEval ∧
      expandTeamRunApprovals LowerCase.asciiOnly sampleMembers [sampleRule] approvals =
        .ok [sampleRecord (ascii "deny")] ∧
      ¬∃ replayed, evaluateTeamRunQuorum LowerCase.asciiOnly sampleMembers [sampleRule]
          (approvalsToTeamRunApprovals LowerCase.asciiOnly [sampleRecord (ascii "deny")]) =
            .ok replayed ∧
        SameOutcome sampleEval replayed := by
  refine ⟨rfl, rfl, ?_⟩
  rintro ⟨replayed, replays, same⟩
  cases replays
  exact absurd same.strictOk (by decide)

end AgentC.Broker.TeamRunQuorum
