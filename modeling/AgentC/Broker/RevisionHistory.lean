import AgentC.Broker.OrchestratorRuns

/-! # The revision history of an orchestrator run

A revision gets the version behind the highest one in the entries that its
request read, and nothing checks that these are still the stored ones. As long as
nothing was revised in between, the versions grow and the newest entry records
what the run has. -/

namespace AgentC.Broker.OrchestratorRuns

open Json
open TeamRuns (objects number optionalMember isObject_of_mem_objects)

/-! ## Entries -/

def revisionsOf (kind : RevisionKind) (run : OrchestratorRun) : List Tree :=
  readRevisionEntries (decodeMeta run.metadata) kind.versionsKey

def recordOf : RevisionKind → OrchestratorRun → List (Bytes × Tree)
  | .goal, run =>
    [(ascii "goal", .string run.goal), (ascii "goal_contract", decodeMeta run.goalContract)]
  | .rolePlan, run => [(ascii "role_plan_snapshot", decodeMeta run.rolePlanSnapshot)]

def Records (record : List (Bytes × Tree)) (entry : Tree) : Prop :=
  ∀ member ∈ record, entry.member member.1 = some member.2

def Recorded (kind : RevisionKind) (run : OrchestratorRun) : Prop :=
  ∀ entry, (revisionsOf kind run).getLast? = some entry → Records (recordOf kind run) entry

section Versions

variable {floats : FloatReading} {entries : List Tree} {entry : Tree}

theorem highestVersion_append : highestVersion floats (entries ++ [entry]) =
      max (highestVersion floats entries) ((versionOf floats entry).getD 0) := by
  rw [highestVersion, List.foldl_append]
  rfl

theorem highestVersion_nonneg : 0 ≤ highestVersion floats entries := by
  induction entries using List.reverseRecOn with
  | nil => exact Int.le_refl 0
  | append_singleton =>
    rw [highestVersion_append]
    omega

theorem le_highestVersion (member : entry ∈ entries) :
    (versionOf floats entry).getD 0 ≤ highestVersion floats entries := by
  induction entries using List.reverseRecOn with
  | nil => cases member
  | append_singleton entries last induction =>
    rw [highestVersion_append]
    rcases List.mem_append.mp member with earlier | here
    · have bound := induction earlier
      omega
    · rw [List.mem_singleton.mp here]
      omega

theorem highestVersion_lt {limit : Int} (positive : 0 < limit)
    (below : ∀ entry ∈ entries, (versionOf floats entry).getD 0 < limit) :
    highestVersion floats entries < limit := by
  induction entries using List.reverseRecOn with
  | nil => exact positive
  | append_singleton entries last induction =>
    rw [highestVersion_append]
    have earlier := induction fun entry member => below entry (List.mem_append_left _ member)
    have here := below last (List.mem_append_right _ (List.mem_singleton.mpr rfl))
    omega

theorem nextRevisionVersion_eq (below : highestVersion floats entries < 2 ^ 53) :
    nextRevisionVersion floats entries = highestVersion floats entries + 1 := by
  have positive := @highestVersion_nonneg floats entries
  apply Int.bmod_eq_of_le
  · omega
  · omega

theorem versionOf_next (below : highestVersion floats entries < 2 ^ 53)
    (version : entry.member (ascii "version") =
      some (number (nextRevisionVersion floats entries))) :
    versionOf floats entry = some (highestVersion floats entries + 1) := by
  have positive := @highestVersion_nonneg floats entries
  have sign : ¬highestVersion floats entries + 1 < 0 := by omega
  have exact := floats.exact (highestVersion floats entries + 1).natAbs (by omega)
  rw [versionOf, version, nextRevisionVersion_eq below, number, parseInt64Value, decimalInt,
    if_neg sign, exact]
  congr 1
  omega

theorem getLast?_trimRevisionEntries {limit : Nat} (positive : 0 < limit) :
    (trimRevisionEntries (entries ++ [entry]) limit).getLast? = some entry := by
  rw [trimRevisionEntries]
  split
  · exact List.getLast?_concat
  · next long =>
    rw [List.getLast?_drop, if_neg, List.getLast?_concat]
    rw [not_or] at long
    omega

theorem mem_of_mem_trimRevisionEntries {limit : Nat}
    (member : entry ∈ trimRevisionEntries entries limit) : entry ∈ entries := by
  rw [trimRevisionEntries] at member
  split at member
  · exact member
  · exact List.mem_of_mem_drop member

end Versions

/-! ## What a request makes of the metadata -/

theorem isObject_decodeMeta (column : Tree) : (decodeMeta column).isObject = true := by
  rw [decodeMeta]
  split
  · next object => exact object
  · rfl

theorem decodeMeta_of_isObject {column : Tree} (object : column.isObject = true) :
    decodeMeta column = column :=
  if_pos object

theorem isObject_given (given : Option Fields) :
    ((given.map Subtype.val).getD (.object [])).isObject = true := by
  cases given with
  | none => rfl
  | some fields => exact fields.2

theorem deepEqual_iff {left right : Tree} : deepEqual left right = true ↔ left = right :=
  @decide_eq_true_iff _ (left.decideEq right)

theorem versionsKey_mem (kind : RevisionKind) : kind.versionsKey ∈ revisionKeys := by
  cases kind <;> decide

section Merging

variable {source target : Tree} {key other : Bytes}

theorem isObject_copyIfMissing : (copyIfMissing source target key).isObject = target.isObject := by
  rw [copyIfMissing]
  split
  · exact Tree.isObject_setMember
  · rfl

theorem member_copyIfMissing_of_ne (different : other ≠ key) :
    (copyIfMissing source target key).member other = target.member other := by
  rw [copyIfMissing]
  split
  · exact Tree.member_setMember_of_ne different
  · rfl

theorem member_copyIfMissing (object : target.isObject = true)
    (same : target.member key = none ∨ target.member key = source.member key) :
    (copyIfMissing source target key).member key = source.member key := by
  rw [copyIfMissing]
  split
  · next found =>
    rw [Tree.member_setMember object, found]
  · next other =>
    rcases same with missing | there
    · cases found : source.member key with
      | none => exact missing
      | some value => exact absurd found (other value missing)
    · exact there

theorem member_foldl_copyIfMissing {keys : List Bytes} (object : target.isObject = true)
    (same : key ∈ keys ∧ target.member key = none ∨ target.member key = source.member key) :
    (keys.foldl (copyIfMissing source) target).member key = source.member key := by
  induction keys generalizing target with
  | nil => exact same.resolve_left fun missing => nomatch missing.1
  | cons first keys induction =>
    apply induction (isObject_copyIfMissing.trans object)
    by_cases here : key = first
    · subst here
      exact .inr (member_copyIfMissing object (same.imp_left And.right))
    · rw [member_copyIfMissing_of_ne here]
      exact same.imp_left fun missing => ⟨List.mem_of_ne_of_mem here missing.1, missing.2⟩

end Merging

theorem readRevisionEntries_merge {given prevMeta : Tree} (object : given.isObject = true)
    (plain : ∀ key ∈ revisionKeys, given.member key = none) (kind : RevisionKind) :
    readRevisionEntries (mergeOrchestratorRevisionHistory given prevMeta) kind.versionsKey =
      readRevisionEntries prevMeta kind.versionsKey := by
  have member := versionsKey_mem kind
  rw [readRevisionEntries, readRevisionEntries, mergeOrchestratorRevisionHistory,
    member_foldl_copyIfMissing object (.inl ⟨member, plain _ member⟩)]

theorem isObject_merge {given prevMeta : Tree} (object : given.isObject = true) :
    (mergeOrchestratorRevisionHistory given prevMeta).isObject = true := by
  have kept : ∀ (keys : List Bytes) (target : Tree), target.isObject = true →
      (keys.foldl (copyIfMissing prevMeta) target).isObject = true := by
    intro keys
    induction keys with
    | nil => exact fun target object => object
    | cons key keys induction =>
      intro target object
      exact induction _ (isObject_copyIfMissing.trans object)
  exact kept revisionKeys given object

/-! ## Revisions of a draft -/

def Draft.versionsOf (kind : RevisionKind) (draft : Draft) : List Int :=
  (draft.versions.filter fun version => version.1 = kind).map Prod.snd

def Draft.result (prevMeta : Tree) (draft : Draft) : Tree :=
  draft.metadata.getD prevMeta

def Draft.entriesOf (kind : RevisionKind) (prevMeta : Tree) (draft : Draft) : List Tree :=
  readRevisionEntries (draft.result prevMeta) kind.versionsKey

/-- A step of the draft that is about the other kind. -/
structure Leaves (kind : RevisionKind) (prevMeta : Tree) (draft next : Draft) : Prop where
  versions : next.versionsOf kind = draft.versionsOf kind
  entries : next.entriesOf kind prevMeta = draft.entriesOf kind prevMeta
  stored : draft.metadata.isSome = true → next.metadata.isSome = true

def nextRecord (prev : OrchestratorRun) (req : OrchestratorRunUpdateInput) :
    RevisionKind → List (Bytes × Tree)
  | .goal =>
    [(ascii "goal", .string ((req.goal.map trimSpace).getD (trimSpace prev.goal))),
      (ascii "goal_contract",
        (req.goalContract.map Subtype.val).getD (decodeMeta prev.goalContract))]
  | .rolePlan =>
    [(ascii "role_plan_snapshot",
      (req.rolePlanSnapshot.map Subtype.val).getD (decodeMeta prev.rolePlanSnapshot))]

/-- What a draft does about a kind: nothing, or it adds an entry. -/
inductive Revised (floats : FloatReading) (kind : RevisionKind) (prev : OrchestratorRun)
    (req : OrchestratorRunUpdateInput) (draft : Draft) : Prop
  | kept (record : nextRecord prev req kind = nextRecord prev {} kind)
      (versions : draft.versionsOf kind = [])
      (entries : draft.entriesOf kind (decodeMeta prev.metadata) = revisionsOf kind prev)
  | added (entry : Tree) (records : Records (nextRecord prev req kind) entry)
      (version : entry.member (ascii "version") =
        some (number (nextRevisionVersion floats (revisionsOf kind prev))))
      (versions : draft.versionsOf kind = [nextRevisionVersion floats (revisionsOf kind prev)])
      (stored : draft.metadata.isSome = true)
      (entries : draft.entriesOf kind (decodeMeta prev.metadata) =
        trimRevisionEntries (revisionsOf kind prev ++ [entry]) kind.maxRevisions)

section Drafts

variable {floats : FloatReading} {kind other : RevisionKind} {prev : OrchestratorRun}
  {req : OrchestratorRunUpdateInput} {prevMeta : Tree} {nowMs : Int} {updatedBy : Bytes}
  {members : List (Bytes × Tree)} {draft next : Draft}

theorem Revised.leaves (revised : Revised floats kind prev req draft)
    (leaves : Leaves kind (decodeMeta prev.metadata) draft next) :
    Revised floats kind prev req next := by
  cases revised with
  | kept record versions entries =>
    exact .kept record (leaves.versions.trans versions) (leaves.entries.trans entries)
  | added entry records version versions stored entries =>
    exact .added entry records version (leaves.versions.trans versions) (leaves.stored stored)
      (leaves.entries.trans entries)

theorem Leaves.refl : Leaves kind prevMeta draft draft :=
  ⟨rfl, rfl, id⟩

theorem member_versionsKey_of_ne (different : other ≠ kind) {metadata entries counter time : Tree} :
    (((metadata.setMember kind.versionsKey entries).setMember kind.versionKey counter).setMember
      kind.updatedKey time).member other.versionsKey = metadata.member other.versionsKey := by
  have versionsKey : other.versionsKey ≠ kind.versionsKey := by
    cases other <;> cases kind <;> first | exact absurd rfl different | decide
  have versionKey : other.versionsKey ≠ kind.versionKey := by
    cases other <;> cases kind <;> decide
  have updatedKey : other.versionsKey ≠ kind.updatedKey := by
    cases other <;> cases kind <;> decide
  rw [Tree.member_setMember_of_ne updatedKey, Tree.member_setMember_of_ne versionKey,
    Tree.member_setMember_of_ne versionsKey]

theorem member_versionsKey {metadata entries counter time : Tree}
    (object : metadata.isObject = true) :
    (((metadata.setMember kind.versionsKey entries).setMember kind.versionKey counter).setMember
      kind.updatedKey time).member kind.versionsKey = some entries := by
  have versionKey : kind.versionsKey ≠ kind.versionKey := by cases kind <;> decide
  have updatedKey : kind.versionsKey ≠ kind.updatedKey := by cases kind <;> decide
  rw [Tree.member_setMember_of_ne updatedKey, Tree.member_setMember_of_ne versionKey,
    Tree.member_setMember object]

theorem isObject_addRevision {metaBase : Tree} :
    (addRevision floats kind prevMeta metaBase nowMs updatedBy members).1.isObject =
      metaBase.isObject :=
  Tree.isObject_setMember.trans (Tree.isObject_setMember.trans Tree.isObject_setMember)

theorem leaves_revise (different : other ≠ kind) :
    Leaves other prevMeta draft (draft.revise floats kind prevMeta nowMs updatedBy members) := by
  refine ⟨?_, ?_, fun _ => rfl⟩
  · rw [Draft.versionsOf, Draft.revise, List.filter_append, List.filter_singleton,
      decide_eq_false different.symm]
    exact congrArg _ (List.append_nil _)
  · rw [Draft.entriesOf, Draft.entriesOf, readRevisionEntries, readRevisionEntries]
    congr 1
    exact member_versionsKey_of_ne different

def revisionEntry (version nowMs : Int) (updatedBy : Bytes) (members : List (Bytes × Tree)) :
    Tree :=
  .ofMembers ([(ascii "version", number version), (ascii "updated_unix_ms", number nowMs),
    (ascii "updated_by", .string updatedBy)] ++ members)

variable {key : Bytes}

theorem notMem_keys {front back : List (Bytes × Tree)} (notFront : key ∉ front.map Prod.fst)
    (notBack : key ∉ back.map Prod.fst) : key ∉ (front ++ back).map Prod.fst := by
  rw [List.map_append, List.mem_append, not_or]
  exact ⟨notFront, notBack⟩

theorem notMem_optional {name : Bytes} {value : Option Tree} (different : key ≠ name) :
    key ∉ (optionalMember name value).map Prod.fst := by
  cases value with
  | none => exact List.not_mem_nil
  | some value => exact fun member => different (List.mem_singleton.mp member)

theorem notMem_flag {name : Bytes} {value : Bool} (different : key ≠ name) :
    key ∉ (flag name value).map Prod.fst := by
  cases value with
  | false => exact List.not_mem_nil
  | true => exact fun member => different (List.mem_singleton.mp member)

theorem member_revisionEntry {version : Int} (front rest : List (Bytes × Tree)) {value : Tree}
    (others : key ∉ rest.map Prod.fst) :
    (revisionEntry version nowMs updatedBy (front ++ (key, value) :: rest)).member key =
      some value := by
  rw [revisionEntry, ← List.append_assoc]
  exact Tree.member_ofMembers _ rest others

theorem entriesOf_revise (object : (draft.result prevMeta).isObject = true)
    (fresh : draft.entriesOf kind prevMeta = readRevisionEntries prevMeta kind.versionsKey) :
    (draft.revise floats kind prevMeta nowMs updatedBy members).entriesOf kind prevMeta =
      trimRevisionEntries (readRevisionEntries prevMeta kind.versionsKey ++ [revisionEntry
        (nextRevisionVersion floats (readRevisionEntries prevMeta kind.versionsKey)) nowMs
          updatedBy members]) kind.maxRevisions := by
  have read : readRevisionEntries (draft.metadata.getD prevMeta) kind.versionsKey =
      readRevisionEntries prevMeta kind.versionsKey := fresh
  rw [Draft.result] at object
  rw [Draft.entriesOf, Draft.result, Draft.revise, Option.getD_some, addRevision, read, ite_self,
    readRevisionEntries, member_versionsKey object]
  apply List.filter_eq_self.mpr
  intro entry member
  rcases List.mem_append.mp (mem_of_mem_trimRevisionEntries member) with old | new
  · exact isObject_of_mem_objects old
  · rw [List.mem_singleton.mp new]
    exact Tree.isObject_ofMembers _

theorem versionsOf_revise (unversioned : draft.versionsOf kind = [])
    (fresh : draft.entriesOf kind prevMeta = readRevisionEntries prevMeta kind.versionsKey) :
    (draft.revise floats kind prevMeta nowMs updatedBy members).versionsOf kind =
      [nextRevisionVersion floats (readRevisionEntries prevMeta kind.versionsKey)] := by
  have read : readRevisionEntries (draft.metadata.getD prevMeta) kind.versionsKey =
      readRevisionEntries prevMeta kind.versionsKey := fresh
  rw [Draft.versionsOf, List.map_eq_nil_iff] at unversioned
  rw [Draft.versionsOf, Draft.revise, List.filter_append, unversioned, List.nil_append,
    List.filter_singleton, decide_eq_true rfl, addRevision, read, ite_self]
  rfl

theorem revised_revise (object : (draft.result (decodeMeta prev.metadata)).isObject = true)
    (unversioned : draft.versionsOf kind = [])
    (fresh : draft.entriesOf kind (decodeMeta prev.metadata) = revisionsOf kind prev)
    (unnumbered : ascii "version" ∉ members.map Prod.fst)
    (records : ∀ version, Records (nextRecord prev req kind)
      (revisionEntry version nowMs updatedBy members)) : Revised floats kind prev req
      (draft.revise floats kind (decodeMeta prev.metadata) nowMs updatedBy members) := by
  refine .added _ (records _) ?_ (versionsOf_revise unversioned fresh) rfl
    (entriesOf_revise object fresh)
  have others : ascii "version" ∉ [ascii "updated_unix_ms", ascii "updated_by"] := by decide
  exact Tree.member_ofMembers [] _ (notMem_keys others unnumbered)

theorem isObject_firstDraft :
    ((firstDraft prev req).result (decodeMeta prev.metadata)).isObject = true := by
  rw [firstDraft, Draft.result]
  cases req.metadata with
  | none => exact isObject_decodeMeta _
  | some given => exact isObject_merge given.2

theorem entriesOf_firstDraft
    (plain : ∀ given ∈ req.metadata, ∀ key ∈ revisionKeys, given.val.member key = none) :
    (firstDraft prev req).entriesOf kind (decodeMeta prev.metadata) = revisionsOf kind prev := by
  rw [firstDraft, Draft.entriesOf, Draft.result]
  cases given : req.metadata with
  | none => rfl
  | some fields => exact readRevisionEntries_merge fields.2 (plain fields given) kind

theorem isObject_reviseGoal (object : (draft.result (decodeMeta prev.metadata)).isObject = true) :
    ((reviseGoal floats prev req nowMs updatedBy draft).result
      (decodeMeta prev.metadata)).isObject = true := by
  simp only [reviseGoal]
  split
  · exact isObject_addRevision.trans object
  · exact object

theorem notMem_goalMembers {front : List (Bytes × Tree)} {key : Bytes}
    {goalChanged contractChanged : Bool} {diff : Option Tree} (notFront : key ∉ front.map Prod.fst)
    (others : key ∉ [ascii "goal_changed", ascii "goal_contract_changed",
      ascii "goal_contract_diff"]) : key ∉ (front ++ flag (ascii "goal_changed") goalChanged ++
      flag (ascii "goal_contract_changed") contractChanged ++
      optionalMember (ascii "goal_contract_diff") diff).map Prod.fst := by
  simp only [List.mem_cons, List.not_mem_nil, or_false, not_or] at others
  exact notMem_keys (notMem_keys (notMem_keys notFront (notMem_flag others.1))
    (notMem_flag others.2.1)) (notMem_optional others.2.2)

theorem reviseGoal_revised (object : (draft.result (decodeMeta prev.metadata)).isObject = true)
    (unversioned : draft.versionsOf .goal = [])
    (fresh : draft.entriesOf .goal (decodeMeta prev.metadata) = revisionsOf .goal prev) :
    Revised floats .goal prev req (reviseGoal floats prev req nowMs updatedBy draft) := by
  simp only [reviseGoal]
  split
  · apply revised_revise object unversioned fresh
    · have front : ascii "version" ∉ [ascii "goal", ascii "goal_contract"] := by decide
      exact notMem_goalMembers front (by decide)
    · intro version member among
      rcases List.mem_cons.mp among with goal | contract
      · rw [goal]
        have front : ascii "goal" ∉ [ascii "goal_contract"] := by decide
        exact member_revisionEntry [] _ (notMem_goalMembers front (by decide))
      · rw [List.mem_singleton.mp contract]
        exact member_revisionEntry [_] _ (@notMem_goalMembers [] _ _ _ _ List.not_mem_nil (by decide))
  · next same =>
    simp only [Bool.or_eq_true, decide_eq_true_eq, Bool.not_eq_true', not_or, not_not,
      Bool.not_eq_false, deepEqual_iff] at same
    refine .kept ?_ unversioned fresh
    rw [nextRecord, nextRecord, same.1, ← same.2]
    rfl

theorem reviseRolePlan_revised (object : (draft.result (decodeMeta prev.metadata)).isObject = true)
    (unversioned : draft.versionsOf .rolePlan = [])
    (fresh : draft.entriesOf .rolePlan (decodeMeta prev.metadata) = revisionsOf .rolePlan prev) :
    Revised floats .rolePlan prev req (reviseRolePlan floats prev req nowMs updatedBy draft) := by
  simp only [reviseRolePlan]
  split
  · apply revised_revise object unversioned fresh
    · have front : ascii "version" ∉ [ascii "role_plan_snapshot"] := by decide
      exact notMem_keys front (notMem_optional (by decide))
    · intro version member among
      rw [List.mem_singleton.mp among]
      exact member_revisionEntry [] _ (notMem_optional (by decide))
  · next same =>
    simp only [Bool.not_eq_true', Bool.not_eq_false, deepEqual_iff] at same
    refine .kept ?_ unversioned fresh
    rw [nextRecord, nextRecord, ← same]
    rfl

theorem leaves_reviseGoal : Leaves .rolePlan (decodeMeta prev.metadata) draft
      (reviseGoal floats prev req nowMs updatedBy draft) := by
  simp only [reviseGoal]
  split
  · exact leaves_revise nofun
  · exact .refl

theorem leaves_reviseRolePlan : Leaves .goal (decodeMeta prev.metadata) draft
      (reviseRolePlan floats prev req nowMs updatedBy draft) := by
  simp only [reviseRolePlan]
  split
  · exact leaves_revise nofun
  · exact .refl

theorem draftRevisions_revised
    (plain : ∀ given ∈ req.metadata, ∀ key ∈ revisionKeys, given.val.member key = none)
    (kind : RevisionKind) :
    Revised floats kind prev req (draftRevisions floats prev req nowMs updatedBy) := by
  cases kind with
  | goal =>
    have revised := @reviseGoal_revised floats prev req nowMs updatedBy _ isObject_firstDraft rfl
      (entriesOf_firstDraft plain)
    exact revised.leaves leaves_reviseRolePlan
  | rolePlan =>
    have left := @leaves_reviseGoal floats prev req nowMs updatedBy (firstDraft prev req)
    exact reviseRolePlan_revised (isObject_reviseGoal isObject_firstDraft) (left.versions.trans rfl)
      (left.entries.trans (entriesOf_firstDraft plain))

theorem isObject_draftRevisions : ((draftRevisions floats prev req nowMs updatedBy).result
      (decodeMeta prev.metadata)).isObject = true := by
  have object := @isObject_reviseGoal floats prev req nowMs updatedBy (firstDraft prev req)
    isObject_firstDraft
  simp only [draftRevisions, reviseRolePlan]
  split
  · exact isObject_addRevision.trans object
  · exact object

end Drafts

/-! ## What a request has read -/

def advance (known : Option OrchestratorRun) :
    (call : Call) → Response call → Option OrchestratorRun
  | .get, .ok run => some run
  | .get, .error _ => none
  | _, _ => known

def Allows (floats : FloatReading) (known : Option OrchestratorRun) : Call → Prop
  | .exec update versions =>
    ∃ (prev : OrchestratorRun) (patch : Patch) (nowMs : Int), known = some prev ∧
      update = updateOf patch.req
        (draftRevisions floats prev patch.req nowMs patch.updatedBy) ∧
      versions = (draftRevisions floats prev patch.req nowMs patch.updatedBy).versions
  | _ => True

def description (floats : FloatReading) : Description (Option OrchestratorRun) Call Response where
  advance := advance
  allowed := Allows floats

variable {update : OrchestratorRunUpdate}

section Handler

variable {floats : FloatReading} {known : Option OrchestratorRun}

theorem answerWith_follows (reply : Reply) :
    (answerWith reply).Follows (description floats) (fun _ _ => True) known :=
  Program.follows_call trivial fun _ => trivial

theorem getOrchestratorRun_follows :
    getOrchestratorRun.Follows (description floats) (fun _ _ => True) known := by
  refine Program.follows_call trivial fun found => ?_
  cases found with
  | error message => trivial
  | ok run => trivial

theorem updateOrchestratorRun_follows {versions : List (RevisionKind × Int)}
    (allowed : Allows floats known (.exec update versions)) :
    (updateOrchestratorRun update versions).Follows (description floats) (fun _ _ => True)
      known := by
  apply Program.follows_ite
  · exact fun _ => trivial
  · intro _
    apply Program.follows_ite
    · exact fun _ => trivial
    · intro _
      apply Program.follows_ite
      · exact fun _ => trivial
      · intro _
        refine Program.follows_call allowed fun affected => ?_
        cases affected with
        | error message => trivial
        | ok affected =>
          cases affected with
          | true => exact getOrchestratorRun_follows
          | false =>
            apply Program.follows_ite
            · exact fun _ => trivial
            · exact fun _ => getOrchestratorRun_follows

theorem program_follows {jsonText : Tree → Bytes} (patch : Patch) :
    ((system floats jsonText).program patch).Follows (description floats) (fun _ _ => True)
      none := by
  refine Program.follows_call trivial fun found => ?_
  cases found with
  | error message => exact answerWith_follows _
  | ok prev =>
    refine Program.follows_call trivial fun nowMs => ?_
    apply Program.follows_bind
    apply (updateOrchestratorRun_follows ⟨prev, patch, nowMs, rfl, rfl, rfl⟩).mono
    intro known outcome _
    split
    · exact answerWith_follows _
    · exact answerWith_follows _
    · exact answerWith_follows _

end Handler

/-! ## Versions in the order they were stored -/

def givenVersions (kind : RevisionKind) : RunEvent → List Int
  | ⟨_, .exec _ versions, .ok true, _, _⟩ =>
    (versions.filter fun version => version.1 = kind).map Prod.snd
  | _ => []

def assigned (kind : RevisionKind) (events : List RunEvent) : List Int :=
  events.flatMap (givenVersions kind)

/-- What the revisions of a kind depend on. -/
def revisable (kind : RevisionKind) (run : OrchestratorRun) :
    List (Bytes × Tree) × List Tree :=
  (recordOf kind run, revisionsOf kind run)

def OrchestratorRunUpdate.writesRecord (update : OrchestratorRunUpdate) : RevisionKind → Bool
  | .goal => update.goal.isSome || update.goalContract.isSome
  | .rolePlan => update.rolePlanSnapshot.isSome

def OrchestratorRunUpdate.writes (kind : RevisionKind) (update : OrchestratorRunUpdate) : Bool :=
  update.metadata.isSome || update.writesRecord kind

def Reads : RunEvent → Prop
  | ⟨_, .get, _, _, _⟩ => True
  | _ => False

def Changes (kind : RevisionKind) (event : RunEvent) : Prop :=
  revisable kind event.after ≠ revisable kind event.before

/-- No request has changed the kind since the request of a stored update read it,
and the stored versions are still exact as a `float64`. -/
def InTime (floats : FloatReading) (kind : RevisionKind) : RunEvent → List RunEvent → Prop
  | ⟨thread, .exec update _, .ok true, before, _⟩, earlier =>
    update.writes kind = true →
      SharedStore.Undisturbed Reads (Changes kind) thread earlier ∧
        ∀ entry ∈ revisionsOf kind before, (versionOf floats entry).getD 0 < 2 ^ 53
  | _, _ => True

section Storing

variable {kind : RevisionKind} {run prev : OrchestratorRun} {req : OrchestratorRunUpdateInput}
  {draft : Draft}

theorem nextRecord_congr (same : recordOf kind prev = recordOf kind run) :
    nextRecord prev req kind = nextRecord run req kind := by
  cases kind with
  | goal =>
    simp only [recordOf, List.cons.injEq, Prod.mk.injEq, Tree.string.injEq] at same
    rw [nextRecord, nextRecord, same.1.2, same.2.1.2]
  | rolePlan =>
    simp only [recordOf, List.cons.injEq, Prod.mk.injEq] at same
    rw [nextRecord, nextRecord, same.1.2]

theorem recordOf_store (trimmed : trimSpace run.goal = run.goal) :
    recordOf kind ((updateOf req draft).store run) = nextRecord run req kind := by
  have column : ∀ (given : Option Fields) (stored : Tree),
      decodeMeta ((given.map Subtype.val).getD stored) =
        (given.map Subtype.val).getD (decodeMeta stored) := by
    intro given stored
    cases given with
    | none => rfl
    | some fields => exact decodeMeta_of_isObject fields.2
  cases kind with
  | goal =>
    rw [nextRecord, trimmed, ← column]
    rfl
  | rolePlan =>
    rw [nextRecord, ← column]
    rfl

theorem nextRecord_idle (trimmed : trimSpace run.goal = run.goal) :
    nextRecord run {} kind = recordOf kind run := by
  cases kind with
  | goal =>
    rw [nextRecord, trimmed]
    rfl
  | rolePlan => rfl

theorem trimSpace_goal_store (trimmed : trimSpace run.goal = run.goal) :
    trimSpace (update.store run).goal = (update.store run).goal := by
  rw [OrchestratorRunUpdate.store]
  cases update.goal with
  | none => exact trimmed
  | some goal => exact trimSpace_trimSpace

theorem revisable_store_of_not_writes (unwritten : update.writes kind = false) :
    revisable kind (update.store run) = revisable kind run := by
  rw [OrchestratorRunUpdate.writes, Bool.or_eq_false_iff, Option.isSome_eq_false_iff,
    Option.isNone_iff_eq_none] at unwritten
  have entries : revisionsOf kind (update.store run) = revisionsOf kind run := by
    rw [revisionsOf, OrchestratorRunUpdate.store, unwritten.1]
    rfl
  rw [revisable, entries, revisable]
  congr 1
  cases kind with
  | goal =>
    have columns := unwritten.2
    rw [OrchestratorRunUpdate.writesRecord, Bool.or_eq_false_iff, Option.isSome_eq_false_iff,
      Option.isSome_eq_false_iff, Option.isNone_iff_eq_none, Option.isNone_iff_eq_none] at columns
    rw [recordOf, OrchestratorRunUpdate.store, columns.1, columns.2]
    rfl
  | rolePlan =>
    have column := unwritten.2
    rw [OrchestratorRunUpdate.writesRecord, Option.isSome_eq_false_iff,
      Option.isNone_iff_eq_none] at column
    rw [recordOf, OrchestratorRunUpdate.store, column]
    rfl

theorem revisionsOf_store (object : (draft.result (decodeMeta prev.metadata)).isObject = true)
    (same : revisionsOf kind prev = revisionsOf kind run) :
    revisionsOf kind ((updateOf req draft).store run) =
      draft.entriesOf kind (decodeMeta prev.metadata) := by
  rw [Draft.entriesOf, revisionsOf, OrchestratorRunUpdate.store]
  rw [Draft.result] at object ⊢
  cases stored : draft.metadata with
  | none =>
    rw [updateOf, stored]
    exact same.symm
  | some metadata =>
    rw [stored] at object
    rw [updateOf, stored]
    exact congrArg (readRevisionEntries · kind.versionsKey) (decodeMeta_of_isObject object)

end Storing

/-- The versions grow up to the highest of the stored entries, the newest of which
records what the run has. -/
structure Orderly (floats : FloatReading) (kind : RevisionKind) (events : List RunEvent)
    (run : OrchestratorRun) : Prop where
  recorded : Recorded kind run
  increasing : (assigned kind events).Pairwise (· > ·)
  bounded : ∀ version ∈ assigned kind events,
    version ≤ highestVersion floats (revisionsOf kind run)

section Steps

variable {floats : FloatReading} {jsonText : Tree → Bytes} {kind : RevisionKind}
  {events : List RunEvent} {event : RunEvent} {run next : OrchestratorRun}

theorem orderly_quiet (orderly : Orderly floats kind events run)
    (none : givenVersions kind event = []) (same : revisable kind next = revisable kind run) :
    Orderly floats kind (event :: events) next := by
  rw [revisable, revisable, Prod.mk.injEq] at same
  have versions : assigned kind (event :: events) = assigned kind events := by
    rw [assigned, List.flatMap_cons, none]
    rfl
  refine ⟨?_, ?_, ?_⟩
  · rw [Recorded, same.1, same.2]
    exact orderly.recorded
  · rw [versions]
    exact orderly.increasing
  · rw [versions, same.2]
    exact orderly.bounded

theorem orderly_added {entry : Tree} (orderly : Orderly floats kind events run)
    (below : highestVersion floats (revisionsOf kind run) < 2 ^ 53)
    (given : givenVersions kind event = [nextRevisionVersion floats (revisionsOf kind run)])
    (version : entry.member (ascii "version") =
      some (number (nextRevisionVersion floats (revisionsOf kind run))))
    (records : Records (recordOf kind next) entry) (entries : revisionsOf kind next =
      trimRevisionEntries (revisionsOf kind run ++ [entry]) kind.maxRevisions) :
    Orderly floats kind (event :: events) next := by
  have room : 0 < kind.maxRevisions := by cases kind <;> decide
  have newest : (revisionsOf kind next).getLast? = some entry := by
    rw [entries]
    exact getLast?_trimRevisionEntries room
  have versions : assigned kind (event :: events) =
      (highestVersion floats (revisionsOf kind run) + 1) :: assigned kind events := by
    rw [assigned, List.flatMap_cons, given, nextRevisionVersion_eq below]
    rfl
  have highest : highestVersion floats (revisionsOf kind run) + 1 ≤
      highestVersion floats (revisionsOf kind next) := by
    have bound := @le_highestVersion floats _ _ (List.mem_of_getLast? newest)
    rw [versionOf_next below version] at bound
    exact bound
  refine ⟨?_, ?_, ?_⟩
  · intro last found
    rw [newest] at found
    cases found
    exact records
  · rw [versions, List.pairwise_cons]
    refine ⟨fun earlier member => ?_, orderly.increasing⟩
    have bound := orderly.bounded earlier member
    omega
  · rw [versions]
    intro earlier member
    rcases List.mem_cons.mp member with same | old
    · rw [same]
      exact highest
    · have bound := orderly.bounded earlier old
      omega

variable {first : OrchestratorRun}

theorem current_of_undisturbed {first : OrchestratorRun} {thread : Nat}
    (trace : SharedStore.Trace (system floats jsonText) (description floats) none first events run)
    (undisturbed : SharedStore.Undisturbed Reads (Changes kind) thread events)
    {prev : OrchestratorRun}
    (read : SharedStore.known (description floats) none thread events = some prev) :
    revisable kind prev = revisable kind run := by
  have current := @SharedStore.Trace.undisturbed _ _ _ _ (system floats jsonText) _
    (description floats) none Reads (Changes kind)
    (fun known store => ∀ prev, known = some prev → revisable kind prev = revisable kind store)
    first events run thread nofun ?_ ?_ trace undisturbed
  · exact current prev read
  · rintro known ⟨other, call, response, before, after⟩ _ _ effect fresh
    have kept : ¬Reads ⟨other, call, response, before, after⟩ → ∀ prev, known = some prev →
        revisable kind prev = revisable kind after := by
      intro blind prev same
      rcases fresh.resolve_left blind with ⟨unchanged, current⟩
      exact (current prev same).trans (not_not.mp unchanged).symm
    cases call with
    | get =>
      intro prev same
      cases response with
      | error message => cases same
      | ok found =>
        cases same
        rw [effect.2 _ rfl]
        exact congrArg _ effect.1.symm
    | now => exact kept id
    | exec => exact kept id
    | reply reply => exact kept id
  · intro known event _ unchanged before prev same
    exact (before prev same).trans (not_not.mp unchanged).symm

theorem orderly_exec {first : OrchestratorRun} {thread : Nat} {versions : List (RevisionKind × Int)}
    (trace : SharedStore.Trace (system floats jsonText) (description floats) none first events run)
    (allowed : Allows floats (SharedStore.known (description floats) none thread events)
      (.exec update versions)) (orderly : Orderly floats kind events run)
    (trimmed : trimSpace run.goal = run.goal)
    (inTime : InTime floats kind ⟨thread, .exec update versions, .ok true, run, next⟩ events) :
    Orderly floats kind (⟨thread, .exec update versions, .ok true, run, next⟩ :: events)
      (update.store run) := by
  rcases allowed with ⟨prev, patch, nowMs, read, made, given⟩
  have revised := @draftRevisions_revised floats prev patch.req nowMs patch.updatedBy patch.plain kind
  have object := @isObject_draftRevisions floats prev patch.req nowMs patch.updatedBy
  have same : givenVersions kind ⟨thread, .exec update versions, .ok true, run, next⟩ =
      (draftRevisions floats prev patch.req nowMs patch.updatedBy).versionsOf kind := by
    rw [given]
    rfl
  cases written : update.writes kind with
  | false =>
    apply orderly_quiet orderly _ (revisable_store_of_not_writes written)
    rw [same]
    cases revised with
    | kept record versions entries => exact versions
    | added entry records version versions stored entries =>
      have metadata : update.metadata.isSome = true := by
        rw [made]
        exact stored
      rw [OrchestratorRunUpdate.writes, metadata] at written
      cases written
  | true =>
    rcases inTime written with ⟨undisturbed, small⟩
    have current := current_of_undisturbed trace undisturbed read
    rw [revisable, revisable, Prod.mk.injEq] at current
    have record : recordOf kind (update.store run) = nextRecord prev patch.req kind := by
      rw [made, recordOf_store trimmed, nextRecord_congr current.1]
    have stored := @revisionsOf_store kind run prev patch.req _ object current.2
    rw [← made] at stored
    cases revised with
    | kept unchanged versions entries =>
      apply orderly_quiet orderly (same.trans versions)
      rw [revisable, record, unchanged, nextRecord_congr current.1, nextRecord_idle trimmed,
        stored, entries, current.2]
      rfl
    | added entry records version versions _ entries =>
      rw [current.2] at version versions entries
      have below := highestVersion_lt (by decide) small
      apply orderly_added orderly below (same.trans versions) version
      · rw [record]
        exact records
      · rw [stored, entries]

theorem orderly_of_trace
    (trace : SharedStore.Trace (system floats jsonText) (description floats) none first events run)
    (trimmed : trimSpace first.goal = first.goal) (recorded : Recorded kind first)
    (inTime : Throughout (InTime floats kind) events) :
    trimSpace run.goal = run.goal ∧ Orderly floats kind events run := by
  induction trace with
  | nil =>
    refine ⟨trimmed, recorded, .nil, ?_⟩
    intro version member
    cases member
  | @cons events store next thread call response earlier allowed effect induction =>
    rcases induction inTime.2 with ⟨trimmed, orderly⟩
    have quiet : next = store →
        givenVersions kind ⟨thread, call, response, store, next⟩ = [] →
        trimSpace next.goal = next.goal ∧
          Orderly floats kind (⟨thread, call, response, store, next⟩ :: events) next := by
      intro same none
      rw [same] at none ⊢
      exact ⟨trimmed, orderly_quiet orderly none rfl⟩
    cases call with
    | get => exact quiet effect.1 rfl
    | now => exact quiet effect rfl
    | reply reply => exact quiet effect rfl
    | exec update versions =>
      cases response with
      | error message => exact quiet effect rfl
      | ok affected =>
        cases affected with
        | false => exact quiet effect.2 rfl
        | true =>
          have result : next = update.store store := effect.2
          have stored := orderly_exec earlier allowed orderly trimmed inTime.1
          rw [← result] at stored
          refine ⟨?_, stored⟩
          rw [result]
          exact trimSpace_goal_store trimmed

end Steps

/-! ## Runs from their creation -/

/-- The newest entries record what the run has. -/
structure Consistent (run : OrchestratorRun) : Prop where
  trimmed : trimSpace run.goal = run.goal
  recorded : ∀ kind, Recorded kind run

section Creation

variable {floats : FloatReading} {kind other : RevisionKind}
  {members : Option (List (Bytes × Tree))} {nowMs : Int} {updatedBy : Bytes} {metadata : Tree}

theorem isObject_initializeRevisions (fresh : readRevisionEntries metadata kind.versionsKey = []) :
    (initializeRevisions floats kind members nowMs updatedBy metadata).isObject =
      metadata.isObject := by
  simp only [initializeRevisions, fresh, if_true]
  cases members with
  | none => rfl
  | some members =>
    exact Tree.isObject_setMember.trans (Tree.isObject_setMember.trans Tree.isObject_setMember)

theorem readRevisionEntries_initializeRevisions_of_ne (different : other ≠ kind)
    (fresh : readRevisionEntries metadata kind.versionsKey = []) :
    readRevisionEntries (initializeRevisions floats kind members nowMs updatedBy metadata)
      other.versionsKey = readRevisionEntries metadata other.versionsKey := by
  simp only [initializeRevisions, fresh, if_true]
  cases members with
  | none => rfl
  | some members =>
    rw [readRevisionEntries, readRevisionEntries]
    congr 1
    exact member_versionsKey_of_ne different

theorem readRevisionEntries_initializeRevisions (object : metadata.isObject = true)
    (fresh : readRevisionEntries metadata kind.versionsKey = []) :
    readRevisionEntries (initializeRevisions floats kind members nowMs updatedBy metadata)
      kind.versionsKey = (members.map (revisionEntry 1 nowMs updatedBy)).toList := by
  simp only [initializeRevisions, fresh, if_true]
  cases members with
  | none => exact fresh
  | some members =>
    have entryObject : (revisionEntry 1 nowMs updatedBy members).isObject = true :=
      Tree.isObject_ofMembers _
    rw [readRevisionEntries, firstRevision, member_versionsKey object]
    exact List.filter_cons_of_pos entryObject

theorem initializeRevisions_both (object : metadata.isObject = true)
    (fresh : ∀ kind : RevisionKind, readRevisionEntries metadata kind.versionsKey = [])
    (goalMembers : List (Bytes × Tree)) (roleMembers : Option (List (Bytes × Tree))) :
    let initialized := initializeRevisions floats .rolePlan roleMembers nowMs updatedBy
      (initializeRevisions floats .goal (some goalMembers) nowMs updatedBy metadata)
    initialized.isObject = true ∧
      readRevisionEntries initialized RevisionKind.goal.versionsKey =
        [revisionEntry 1 nowMs updatedBy goalMembers] ∧
      readRevisionEntries initialized RevisionKind.rolePlan.versionsKey =
        (roleMembers.map (revisionEntry 1 nowMs updatedBy)).toList := by
  have goalObject := (@isObject_initializeRevisions floats .goal (some goalMembers) nowMs updatedBy
    metadata (fresh .goal)).trans object
  have roleFresh := (@readRevisionEntries_initializeRevisions_of_ne floats .goal .rolePlan
    (some goalMembers) nowMs updatedBy metadata nofun (fresh .goal)).trans (fresh .rolePlan)
  refine ⟨(isObject_initializeRevisions roleFresh).trans goalObject, ?_,
    readRevisionEntries_initializeRevisions goalObject roleFresh⟩
  have distinct : RevisionKind.goal ≠ .rolePlan := nofun
  rw [readRevisionEntries_initializeRevisions_of_ne distinct roleFresh,
    readRevisionEntries_initializeRevisions object (fresh .goal)]
  rfl

theorem consistent_createdRun {req : CreateInput} {rolePlan : Option Fields} {run : OrchestratorRun}
    (plain : ∀ given ∈ req.metadata, ∀ key ∈ revisionKeys, given.val.member key = none)
    (created : createdRun floats req rolePlan nowMs updatedBy = some run) : Consistent run := by
  generalize start : (req.metadata.map Subtype.val).getD (.object []) = metadata
  have facts : metadata.isObject = true ∧
      ∀ kind : RevisionKind, readRevisionEntries metadata kind.versionsKey = [] := by
    rw [← start]
    cases given : req.metadata with
    | none => exact ⟨rfl, fun _ => rfl⟩
    | some fields =>
      refine ⟨fields.2, fun kind => ?_⟩
      rw [readRevisionEntries, Option.map_some, Option.getD_some,
        plain fields given _ (versionsKey_mem kind)]
      rfl
  simp only [createdRun, initializeOrchestratorRevisionHistory, start] at created
  split at created
  · cases created
  · cases created
    have initialized := @initializeRevisions_both floats nowMs updatedBy metadata facts.1 facts.2
      [(ascii "goal", .string (trimSpace req.goal)), (ascii "goal_contract",
        (req.goalContract.map Subtype.val).getD (.object []))]
      (rolePlan.map fun plan => [(ascii "role_plan_snapshot", plan.val)])
    refine ⟨trimSpace_trimSpace, fun kind entry newest => ?_⟩
    rw [revisionsOf, decodeMeta_of_isObject initialized.1] at newest
    cases kind with
    | goal =>
      rw [initialized.2.1] at newest
      cases newest
      rw [recordOf, decodeMeta_of_isObject (isObject_given req.goalContract)]
      intro member among
      rcases List.mem_cons.mp among with goal | contract
      · rw [goal]
        have others : ascii "goal" ∉ [ascii "goal_contract"] := by decide
        exact member_revisionEntry [] _ others
      · rw [List.mem_singleton.mp contract]
        exact member_revisionEntry [_] _ List.not_mem_nil
    | rolePlan =>
      rw [initialized.2.2] at newest
      cases rolePlan with
      | none => cases newest
      | some plan =>
        cases newest
        rw [recordOf, decodeMeta_of_isObject (isObject_given (some plan))]
        intro member among
        rw [List.mem_singleton.mp among]
        exact member_revisionEntry [] _ List.not_mem_nil

end Creation

/-- As long as every update of a kind is stored before anything changes what its
request read, the versions are distinct and grow in the order in which they were
stored, and the newest entry records what the run has. -/
theorem revision_history_kept (floats : FloatReading) (jsonText : Tree → Bytes)
    (kind : RevisionKind) (first : OrchestratorRun) (events : List RunEvent)
    (state : SystemState OrchestratorRun Patch Call Response)
    (run : (system floats jsonText).Run { store := first } events state)
    (consistent : Consistent first) (inTime : Throughout (InTime floats kind) events) :
    (assigned kind events).Pairwise (· > ·) ∧ Recorded kind state.store := by
  have trace := SharedStore.Run.trace (system floats jsonText) program_follows run
  have orderly := (orderly_of_trace trace consistent.trimmed (consistent.recorded kind) inTime).2
  exact ⟨orderly.increasing, orderly.recorded⟩

/-! ## Two updates of a goal -/

def answer (time : Int) : (call : Call) → OrchestratorRun → Response call × OrchestratorRun
  | .get, run => (.ok run, run)
  | .now, run => (time, run)
  | .exec update _, run =>
    (.ok (update.selects (fun _ => []) run),
      if update.selects (fun _ => []) run then update.store run else run)
  | .reply _, run => ((), run)

theorem effect_answer (floats : FloatReading) (time : Int) (call : Call) (run : OrchestratorRun) :
    (system floats fun _ => []).effect call run (answer time call run).1
      (answer time call run).2 := by
  cases call with
  | get => exact ⟨rfl, fun found same => (Except.ok.inj same).symm⟩
  | now => rfl
  | exec => exact ⟨rfl, rfl⟩
  | reply reply => rfl

/-- A run with the goal `a`. -/
def sampleRun : OrchestratorRun where
  status := ascii "running"
  goal := ascii "a"
  goalContract := .object []
  rolePlanSnapshot := .object []
  metadata := initializeOrchestratorRevisionHistory .digitsOnly none (ascii "a") none none 0 []

theorem consistent_sampleRun : Consistent sampleRun := by
  apply @consistent_createdRun .digitsOnly 0 [] { goal := ascii "a" } none
  · exact nofun
  · rfl

def sampleUpdates (schedule : List (SharedStore.Move Patch Int)) :
    List RunEvent × SystemState OrchestratorRun Patch Call Response :=
  schedule.foldl ((system .digitsOnly fun _ => []).record answer) ([], { store := sampleRun })

theorem run_sampleUpdates (schedule : List (SharedStore.Move Patch Int)) :
    (system .digitsOnly fun _ => []).Run { store := sampleRun } (sampleUpdates schedule).1
      (sampleUpdates schedule).2 :=
  SharedStore.run_records _ (effect_answer _) .refl _

def goalPatch (goal : Bytes) : Patch where
  req := { goal := some goal }
  updatedBy := ascii "user"
  plain := nofun

def rest (thread : Nat) : List (SharedStore.Move Patch Int) :=
  List.replicate 4 (.advance thread 0)

/-- Two updates read the run before either is stored. -/
def crossedUpdates : List (SharedStore.Move Patch Int) :=
  [.start (goalPatch (ascii "b")), .advance 0 0, .start (goalPatch (ascii "c")), .advance 1 0] ++
    rest 0 ++ rest 1

/-- Both give version 2. -/
theorem revision_version_repeated :
    ¬∀ (floats : FloatReading) (jsonText : Tree → Bytes) (kind : RevisionKind)
      (first : OrchestratorRun) (events : List RunEvent)
      (state : SystemState OrchestratorRun Patch Call Response),
      (system floats jsonText).Run { store := first } events state → Consistent first →
        (assigned kind events).Pairwise (· > ·) ∧ Recorded kind state.store := by
  intro kept
  have versions := (kept _ _ .goal _ _ _ (run_sampleUpdates crossedUpdates)
    consistent_sampleRun).1
  have given : assigned .goal (sampleUpdates crossedUpdates).1 = [2, 2] := by decide
  rw [given] at versions
  exact absurd versions (by decide)

def singleUpdate : List (SharedStore.Move Patch Int) :=
  [.start (goalPatch (ascii "b")), .advance 0 0] ++ rest 0

theorem revision_history_kept_sample :
    (assigned .goal (sampleUpdates singleUpdate).1).Pairwise (· > ·) ∧
      Recorded .goal (sampleUpdates singleUpdate).2.store := by
  apply revision_history_kept _ _ _ _ _ _ (run_sampleUpdates singleUpdate) consistent_sampleRun
  refine ⟨trivial, trivial, ?_, trivial, trivial, trivial⟩
  intro _
  refine ⟨.inr ⟨fun changes => changes rfl, .inl ⟨rfl, trivial⟩⟩, ?_⟩
  decide

end AgentC.Broker.OrchestratorRuns
