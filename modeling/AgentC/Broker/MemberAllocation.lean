import AgentC.Foundation.GoStrings
import AgentC.Foundation.Selections

/-! # Agents for the roles of a team

`allocateRuntimeMembersByRole` of `broker/internal/broker/team_run_helpers.go`. -/

namespace AgentC.Broker.MemberAllocation

structure RuntimeAgentCandidate where
  agentId : Bytes
  deploymentId : Bytes := []
deriving DecidableEq, Repr

/-- The fields of `teamRuntimeMemberInput` that an allocation sets. -/
structure TeamRuntimeMemberInput where
  agentId : Bytes
  deploymentId : Bytes
  role : Bytes
deriving DecidableEq, Repr

def normalizeRole (letters : LowerCase) (role : Bytes) : Bytes :=
  letters.lower (trimSpace role)

def normalizeRoleList (letters : LowerCase) (roles : List Bytes) : List Bytes :=
  roles.foldl (fun normalized role =>
    let value := normalizeRole letters role
    if value = [] ∨ value ∈ normalized then normalized else normalized ++ [value]) []

/-- What the loop over the missing roles has left and has done. -/
structure Progress where
  candidates : List RuntimeAgentCandidate
  usedAgentIds : Bytes → Bool
  allocations : List TeamRuntimeMemberInput := []
  allocatedRoles : List Bytes := []

def use (agentId : Bytes) (usedAgentIds : Bytes → Bool) : Bytes → Bool :=
  fun other => other = agentId || usedAgentIds other

def Progress.allocate (progress : Progress) (candidate : RuntimeAgentCandidate) (role : Bytes) :
    Progress where
  candidates := progress.candidates
  usedAgentIds := use candidate.agentId progress.usedAgentIds
  allocations := progress.allocations ++ [{
    agentId := candidate.agentId
    deploymentId := candidate.deploymentId
    role }]
  allocatedRoles := progress.allocatedRoles ++ [role]

def allocateRoles (maxMembers : Int) : List Bytes → Progress → Progress
  | [], progress => progress
  | role :: roles, progress =>
    match progress.candidates.dropWhile fun candidate =>
        progress.usedAgentIds candidate.agentId with
    | [] => progress
    | candidate :: candidates =>
      let progress := { progress with candidates }
      if candidate.agentId = [] then allocateRoles maxMembers roles progress
      else
        let progress := progress.allocate candidate role
        if 0 < maxMembers ∧ maxMembers ≤ progress.allocations.length then progress
        else allocateRoles maxMembers roles progress

structure Allocated where
  allocations : List TeamRuntimeMemberInput := []
  allocatedRoles : List Bytes := []
  remaining : List Bytes := []
  warning : Bytes := []
deriving DecidableEq, Repr

def missingRoles (letters : LowerCase) (roles : List Bytes) (existingRoles : Bytes → Bool) :
    List Bytes :=
  (normalizeRoleList letters roles).filter fun role => !existingRoles role

def allocateRuntimeMembersByRole (letters : LowerCase) (roles : List Bytes)
    (candidates : List RuntimeAgentCandidate) (existingRoles usedAgentIds : Bytes → Bool)
    (maxMembers : Int) : Allocated :=
  if normalizeRoleList letters roles = [] then { warning := ascii "no roles available" }
  else
    let missing := missingRoles letters roles existingRoles
    if missing = [] then { warning := ascii "all roles already assigned" }
    else
      let progress := allocateRoles maxMembers missing { candidates, usedAgentIds }
      let remaining := missing.drop progress.allocations.length
      { allocations := progress.allocations
        allocatedRoles := progress.allocatedRoles
        remaining
        warning :=
          if progress.allocations = [] then ascii "no connected agents available for allocation"
          else if remaining ≠ [] then
            ascii "insufficient connected agents to cover all roles"
          else [] }

/-- What the loop keeps: its allocations name their roles and different agents
that were not in use. -/
structure Progress.Sound (usedAgentIds : Bytes → Bool) (progress : Progress) : Prop where
  roles : progress.allocations.map (·.role) = progress.allocatedRoles
  distinct : (progress.allocations.map (·.agentId)).Nodup
  named : ∀ allocation ∈ progress.allocations, allocation.agentId ≠ []
  unused : ∀ allocation ∈ progress.allocations, usedAgentIds allocation.agentId = false
  marked : ∀ agentId, progress.usedAgentIds agentId = true ↔
    usedAgentIds agentId = true ∨ agentId ∈ progress.allocations.map (·.agentId)

namespace Progress

variable {usedAgentIds : Bytes → Bool} {progress : Progress}

theorem Sound.allocate (sound : progress.Sound usedAgentIds) {candidate : RuntimeAgentCandidate}
    (free : progress.usedAgentIds candidate.agentId = false) (given : candidate.agentId ≠ [])
    (role : Bytes) : (progress.allocate candidate role).Sound usedAgentIds := by
  have fresh : ¬(usedAgentIds candidate.agentId = true ∨
      candidate.agentId ∈ progress.allocations.map (·.agentId)) := by
    rw [← sound.marked, free]
    exact nofun
  constructor
  · rw [Progress.allocate, List.map_append, sound.roles]
    rfl
  · rw [Progress.allocate, List.map_append, List.nodup_append]
    refine ⟨sound.distinct, List.nodup_singleton _, fun agentId old other new same => ?_⟩
    rw [List.map_singleton, List.mem_singleton] at new
    rw [same, new] at old
    exact fresh (.inr old)
  · intro allocation member
    rcases List.mem_append.mp member with old | new
    · exact sound.named allocation old
    · rw [List.mem_singleton.mp new]
      exact given
  · intro allocation member
    rcases List.mem_append.mp member with old | new
    · exact sound.unused allocation old
    · rw [List.mem_singleton.mp new]
      exact Bool.eq_false_iff.mpr fun used => fresh (.inl used)
  · intro agentId
    simp only [Progress.allocate, use, Bool.or_eq_true, decide_eq_true_iff, sound.marked,
      List.map_append, List.mem_append, List.map_singleton, List.mem_singleton]
    constructor
    · rintro (new | used | old)
      · exact .inr (.inr new)
      · exact .inl used
      · exact .inr (.inl old)
    · rintro (used | old | new)
      · exact .inr (.inl used)
      · exact .inr (.inr old)
      · exact .inl new

theorem Sound.skip (sound : progress.Sound usedAgentIds) (candidates : List RuntimeAgentCandidate) :
    { progress with candidates }.Sound usedAgentIds :=
  ⟨sound.roles, sound.distinct, sound.named, sound.unused, sound.marked⟩

end Progress

theorem free_of_dropWhile {usedAgentIds : Bytes → Bool} {candidate : RuntimeAgentCandidate}
    {candidates rest : List RuntimeAgentCandidate}
    (next : (candidates.dropWhile fun candidate => usedAgentIds candidate.agentId) =
      candidate :: rest) : usedAgentIds candidate.agentId = false := by
  have stops := List.head?_dropWhile_not (fun candidate : RuntimeAgentCandidate =>
    usedAgentIds candidate.agentId) candidates
  rw [next] at stops
  exact Bool.eq_false_iff.mpr fun used => nomatch used.symm.trans stops

theorem allocateRoles_sound {usedAgentIds : Bytes → Bool} (maxMembers : Int) {roles : List Bytes}
    {progress : Progress} (sound : progress.Sound usedAgentIds) :
    (allocateRoles maxMembers roles progress).Sound usedAgentIds := by
  induction roles generalizing progress with
  | nil => exact sound
  | cons role roles induction =>
    rw [allocateRoles]
    split
    · exact sound
    · next candidate candidates next =>
      have skipped := sound.skip candidates
      simp only
      split
      · exact induction skipped
      · next given =>
        have allocated := skipped.allocate (free_of_dropWhile next) given role
        split
        · exact allocated
        · exact induction allocated

/-- The candidates that the loop comes to, one for each role: those not in use,
each agent once. -/
def freshCandidates (usedAgentIds : Bytes → Bool) :
    List RuntimeAgentCandidate → List RuntimeAgentCandidate
  | [] => []
  | candidate :: candidates =>
    if usedAgentIds candidate.agentId then freshCandidates usedAgentIds candidates
    else if candidate.agentId = [] then candidate :: freshCandidates usedAgentIds candidates
    else candidate :: freshCandidates (use candidate.agentId usedAgentIds) candidates

def named (pair : Bytes × RuntimeAgentCandidate) : Bool :=
  pair.2.agentId ≠ []

def allocation (pair : Bytes × RuntimeAgentCandidate) : TeamRuntimeMemberInput where
  agentId := pair.2.agentId
  deploymentId := pair.2.deploymentId
  role := pair.1

/-- Not more members than the maximum, if there is one. -/
def atMost {Item : Type} (maxMembers : Int) (items : List Item) : List Item :=
  if 0 < maxMembers then items.take maxMembers.toNat else items

theorem freshCandidates_dropWhile (usedAgentIds : Bytes → Bool)
    (candidates : List RuntimeAgentCandidate) :
    freshCandidates usedAgentIds
        (candidates.dropWhile fun candidate => usedAgentIds candidate.agentId) =
      freshCandidates usedAgentIds candidates := by
  induction candidates with
  | nil => rfl
  | cons candidate candidates induction =>
    rw [List.dropWhile_cons]
    split
    · next used => rw [induction, freshCandidates, if_pos used]
    · rfl

section Limits

variable {Item : Type} {maxMembers : Int} {items more : List Item}

theorem atMost_of_below (below : 0 < maxMembers → (items.length : Int) < maxMembers) :
    atMost maxMembers items = items := by
  rw [atMost]
  split
  · next limited =>
    have fits := below limited
    exact List.take_of_length_le (by omega)
  · rfl

theorem atMost_append_of_full (limited : 0 < maxMembers)
    (full : (items.length : Int) = maxMembers) : atMost maxMembers (items ++ more) = items := by
  rw [atMost, if_pos limited]
  exact List.take_left' (by omega)

end Limits

/-- The loop gives the roles, in turn, the candidates that have an agent. -/
theorem allocations_allocateRoles {maxMembers : Int} {roles : List Bytes} {progress : Progress}
    (below : 0 < maxMembers → (progress.allocations.length : Int) < maxMembers) :
    (allocateRoles maxMembers roles progress).allocations =
      atMost maxMembers (progress.allocations ++
        ((roles.zip (freshCandidates progress.usedAgentIds progress.candidates)).filter
          named).map allocation) := by
  induction roles generalizing progress with
  | nil =>
    rw [List.zip_nil_left, List.filter_nil, List.map_nil, List.append_nil]
    exact (atMost_of_below below).symm
  | cons role roles induction =>
    rw [allocateRoles, ← freshCandidates_dropWhile]
    cases next : progress.candidates.dropWhile fun candidate =>
        progress.usedAgentIds candidate.agentId with
    | nil =>
      rw [freshCandidates, List.zip_nil_right, List.filter_nil, List.map_nil, List.append_nil]
      exact (atMost_of_below below).symm
    | cons candidate candidates =>
      have free := free_of_dropWhile next
      rw [freshCandidates, if_neg (by rw [free]; exact nofun)]
      simp only
      by_cases blank : candidate.agentId = []
      · rw [if_pos blank, if_pos blank, @induction { progress with candidates } below,
          List.zip_cons_cons, List.filter_cons_of_neg (by simp [named, blank])]
      · rw [if_neg blank, if_neg blank, List.zip_cons_cons,
          List.filter_cons_of_pos (by simp [named, blank]), List.map_cons]
        have longer : (({ progress with candidates }.allocate candidate role).allocations.length :
            Int) = progress.allocations.length + 1 := by
          simp [Progress.allocate]
        split
        · next reached =>
          have within := below reached.1
          rw [List.append_cons]
          exact (atMost_append_of_full reached.1 (by omega)).symm
        · next further =>
          rw [induction fun limited => by omega, List.append_cons]
          rfl

theorem nodup_normalizeRoleList (letters : LowerCase) (roles : List Bytes) :
    (normalizeRoleList letters roles).Nodup := by
  rw [normalizeRoleList]
  have kept : ∀ normalized : List Bytes, normalized.Nodup →
      (roles.foldl (fun normalized role =>
        let value := normalizeRole letters role
        if value = [] ∨ value ∈ normalized then normalized else normalized ++ [value])
        normalized).Nodup := by
    induction roles with
    | nil => exact fun _ nodup => nodup
    | cons role roles induction =>
      intro normalized nodup
      apply induction
      simp only
      split
      · exact nodup
      · next new =>
        rw [List.nodup_append]
        refine ⟨nodup, List.nodup_singleton _, fun value old other here same => ?_⟩
        rw [List.mem_singleton] at here
        exact new (.inr (here ▸ same ▸ old))
  exact kept [] .nil

/-- The roles that get an agent and those that remain are the missing roles. -/
structure Consistent (missing : List Bytes) (usedAgentIds : Bytes → Bool) (allocated : Allocated) :
    Prop where
  roles : allocated.allocations.map (·.role) = allocated.allocatedRoles
  named : ∀ allocation ∈ allocated.allocations, allocation.agentId ≠ []
  distinct : (allocated.allocations.map (·.agentId)).Nodup
  unused : ∀ allocation ∈ allocated.allocations, usedAgentIds allocation.agentId = false
  partition : (allocated.allocatedRoles ++ allocated.remaining).Perm missing

/-- The missing roles, each with the candidate that the loop comes to for it. -/
def window (missing : List Bytes) (usedAgentIds : Bytes → Bool)
    (candidates : List RuntimeAgentCandidate) : List (Bytes × RuntimeAgentCandidate) :=
  missing.zip (freshCandidates usedAgentIds candidates)

def memberLimit (maxMembers : Int) (pairs : List (Bytes × RuntimeAgentCandidate)) : Nat :=
  if 0 < maxMembers then maxMembers.toNat else pairs.length

theorem map_fst_window_prefix (missing : List Bytes) (usedAgentIds : Bytes → Bool)
    (candidates : List RuntimeAgentCandidate) :
    (window missing usedAgentIds candidates).map Prod.fst <+: missing := by
  rw [window]
  generalize freshCandidates usedAgentIds candidates = fresh
  induction missing generalizing fresh with
  | nil => exact List.prefix_refl []
  | cons role missing induction =>
    cases fresh with
    | nil => exact List.nil_prefix
    | cons candidate fresh => exact List.cons_prefix_cons.mpr ⟨rfl, induction fresh⟩

section Allocation

variable (missing : List Bytes) (candidates : List RuntimeAgentCandidate)
  (usedAgentIds : Bytes → Bool) (maxMembers : Int)

theorem sound_allocateRoles :
    (allocateRoles maxMembers missing { candidates, usedAgentIds }).Sound usedAgentIds := by
  apply allocateRoles_sound
  exact ⟨rfl, .nil, nofun, nofun, fun agentId => ⟨.inl, fun used => used.resolve_right nofun⟩⟩

theorem allocatedRoles_allocateRoles :
    (allocateRoles maxMembers missing { candidates, usedAgentIds }).allocatedRoles =
      (((window missing usedAgentIds candidates).filter named).take
        (memberLimit maxMembers (window missing usedAgentIds candidates))).map Prod.fst := by
  rw [← (sound_allocateRoles missing candidates usedAgentIds maxMembers).roles,
    allocations_allocateRoles fun limited => limited, List.nil_append, atMost, memberLimit]
  split
  · rw [← List.map_take, List.map_map]
    rfl
  · rw [List.map_map, List.take_of_length_le (List.length_filter_le ..)]
    rfl

end Allocation

theorem map_fst_eq_take_iff {pairs selected : List (Bytes × RuntimeAgentCandidate)}
    {missing : List Bytes} (inFront : pairs.map Prod.fst <+: missing) (nodup : missing.Nodup)
    (part : selected.Sublist pairs) : selected.map Prod.fst = missing.take selected.length ↔
      selected = pairs.take selected.length := by
  have bounded : selected.length ≤ (pairs.map Prod.fst).length := by
    rw [List.length_map]
    exact part.length_le
  have front : missing.take selected.length = (pairs.take selected.length).map Prod.fst := by
    rcases inFront with ⟨rest, rfl⟩
    rw [List.take_append_of_le_length bounded, List.map_take]
  rw [front]
  constructor
  · intro same
    have distinct : (pairs.map Prod.fst).Nodup := nodup.sublist inFront.sublist
    exact eq_of_sublist_of_map_eq distinct part (List.take_sublist ..) same
  · intro same
    rw [← same]

/-- The roles that get an agent and those that are returned as remaining make up
the missing roles exactly if no candidate without an identifier comes before one
with an identifier, as far as members may be allocated. -/
theorem allocation_consistent_iff (letters : LowerCase) (roles : List Bytes)
    (candidates : List RuntimeAgentCandidate) (existingRoles usedAgentIds : Bytes → Bool)
    (maxMembers : Int) :
    Consistent (missingRoles letters roles existingRoles) usedAgentIds
        (allocateRuntimeMembersByRole letters roles candidates existingRoles usedAgentIds
          maxMembers) ↔
      let pairs := window (missingRoles letters roles existingRoles) usedAgentIds candidates
      NoGap named (memberLimit maxMembers pairs) pairs := by
  have nodup : (missingRoles letters roles existingRoles).Nodup :=
    (nodup_normalizeRoleList letters roles).filter _
  have nothing : ∀ {warning : Bytes}, missingRoles letters roles existingRoles = [] →
      (Consistent (missingRoles letters roles existingRoles) usedAgentIds { warning } ↔
        let pairs := window (missingRoles letters roles existingRoles) usedAgentIds candidates
        NoGap named (memberLimit maxMembers pairs) pairs) := by
    intro warning none
    rw [none]
    refine ⟨fun _ before skipped after parts => ?_, fun _ => ⟨rfl, nofun, .nil, nofun, .nil⟩⟩
    exact absurd parts.symm (by simp [window])
  rw [allocateRuntimeMembersByRole]
  split
  · next none =>
    apply nothing
    rw [missingRoles, none]
    rfl
  · simp only
    split
    · next none => exact nothing none
    · have sound := sound_allocateRoles (missingRoles letters roles existingRoles) candidates
        usedAgentIds maxMembers
      have allocated := allocatedRoles_allocateRoles (missingRoles letters roles existingRoles)
        candidates usedAgentIds maxMembers
      generalize missingRoles letters roles existingRoles = missing at nodup sound allocated ⊢
      generalize allocateRoles maxMembers missing { candidates, usedAgentIds } = progress
        at sound allocated ⊢
      have counted : progress.allocations.length = progress.allocatedRoles.length := by
        rw [← sound.roles, List.length_map]
      have inFront := map_fst_window_prefix missing usedAgentIds candidates
      generalize window missing usedAgentIds candidates = pairs at allocated inFront ⊢
      have part := (List.take_sublist (memberLimit maxMembers pairs) (pairs.filter named)).trans
        List.filter_sublist
      have lengths : progress.allocatedRoles.length =
          ((pairs.filter named).take (memberLimit maxMembers pairs)).length := by
        rw [allocated, List.length_map]
      have rolesPart : progress.allocatedRoles.Sublist missing := by
        rw [allocated]
        exact (part.map Prod.fst).trans inFront.sublist
      have partition : (progress.allocatedRoles ++
          missing.drop progress.allocations.length).Perm missing ↔
            NoGap named (memberLimit maxMembers pairs) pairs := by
        rw [counted, perm_append_drop_iff nodup rolesPart, lengths, allocated,
          map_fst_eq_take_iff inFront nodup part, take_filter_eq_take_iff]
      constructor
      · intro consistent
        exact partition.mp consistent.partition
      · intro noGap
        exact ⟨sound.roles, sound.named, sound.distinct, sound.unused, partition.mpr noGap⟩

/-- The first role is passed over and the second one gets the agent, which leaves
the second one among the remaining roles. -/
theorem role_both_filled_and_open :
    let roles := [ascii "planner", ascii "executor"]
    let allocated := allocateRuntimeMembersByRole LowerCase.asciiOnly roles
      [{ agentId := [] }, { agentId := ascii "x" }] (fun _ => false) (fun _ => false) 0
    allocated.allocatedRoles = [ascii "executor"] ∧ allocated.remaining = [ascii "executor"] ∧
      ¬Consistent (missingRoles LowerCase.asciiOnly roles fun _ => false) (fun _ => false)
        allocated := by
  refine ⟨by decide, by decide, fun consistent => ?_⟩
  have missing : ascii "planner" ∈ missingRoles LowerCase.asciiOnly
      [ascii "planner", ascii "executor"] fun _ => false := by decide
  exact absurd (consistent.partition.mem_iff.mpr missing) (by decide)

end AgentC.Broker.MemberAllocation
