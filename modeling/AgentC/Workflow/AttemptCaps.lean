import AgentC.Workflow.DelegateLoop

/-! # Caps on the requests of attempts

A cap bounds a member of the request of an attempt that is absent or a positive
integer. A value of another kind passes the caps, and a value that is not
positive becomes zero, which is no limit; only what is left of a limit of the
workflow then replaces it. -/

namespace AgentC.Workflow

def Member.Within (member : Member) (cap : Int) : Prop :=
  ∃ value, member = .integer value ∧ 1 ≤ value ∧ value ≤ cap

def Member.Capable (member : Member) : Prop :=
  member = .absent ∨ ∃ value, member = .integer value ∧ 0 < value

theorem member_clampToCaps (caps request : RunRequest) (key : CapKey) :
    (clampToCaps caps request).member key = (request.member key).clampKey (caps.member key) := by
  cases key <;> rfl

variable {member : Member} {cap : Int}

theorem clampKey_integer (positive : 0 < cap) :
    member.clampKey (.integer cap) =
      match member with
      | .integer current => .integer (min (max 0 current) cap)
      | .absent => .integer cap
      | .other => .other :=
  if_neg (Int.not_le.mpr positive)

theorem within_clampKey_iff (positive : 0 < cap) :
    (member.clampKey (.integer cap)).Within cap ↔ member.Capable := by
  rw [clampKey_integer positive]
  cases member with
  | absent => exact ⟨fun _ => .inl rfl, fun _ => ⟨cap, rfl, positive, le_refl cap⟩⟩
  | other =>
    constructor
    · rintro ⟨value, impossible, _⟩
      exact nomatch impossible
    · rintro (impossible | ⟨value, impossible, _⟩)
      · exact nomatch impossible
      · exact nomatch impossible
  | integer current =>
    constructor
    · rintro ⟨value, same, least, _⟩
      have value_eq : min (max 0 current) cap = value := Member.integer.inj same
      exact .inr ⟨current, rfl, by omega⟩
    · rintro (impossible | ⟨value, same, limited⟩)
      · exact nomatch impossible
      · have value_eq : current = value := Member.integer.inj same
        exact ⟨_, rfl, by omega, by omega⟩

theorem clampKey_not_positive (positive : 0 < cap) (incapable : ¬member.Capable) :
    member.clampKey (.integer cap) = .integer 0 ∨ member.clampKey (.integer cap) = .other := by
  rw [clampKey_integer positive]
  cases member with
  | absent => exact absurd (.inl rfl) incapable
  | other => exact .inr rfl
  | integer current =>
    left
    have small : ¬0 < current := fun limited => incapable (.inr ⟨current, rfl, limited⟩)
    exact congrArg Member.integer (by omega)

theorem clampOrSet_within_of_within {left : Int} (positive : 0 < left) (fits : cap ≤ int64Max)
    (within : member.Within cap) : (member.clampOrSet left).Within cap := by
  rcases within with ⟨value, rfl, least, most⟩
  have read : (Member.integer value).toInt = some value :=
    congrArg some (min_eq_right (le_trans most fits))
  rw [Member.clampOrSet, if_neg (Int.not_le.mpr positive), read]
  dsimp only
  rw [if_pos (Int.lt_iff_add_one_le.mpr least)]
  exact ⟨_, rfl, le_min least positive, le_trans (min_le_left value left) most⟩

theorem clampOrSet_of_not_positive {left : Int} (positive : 0 < left)
    (replaced : member = .integer 0 ∨ member = .other) :
    member.clampOrSet left = .integer left := by
  rw [Member.clampOrSet, if_neg (Int.not_le.mpr positive)]
  rcases replaced with rfl | rfl
  · rfl
  · rfl

/-- A run whose request was clamped to the caps and to what was left. -/
structure DelegateRun.Clamped (limits : WorkflowLimits) (caps : RunRequest) (run : DelegateRun) :
    Prop where
  unlimited : exhaustedLimit limits run.remaining = none
  given : ∃ capped, clampAttempt caps run.request = some capped ∧
    run.given = clampToLimits limits run.remaining capped

theorem clamped_runDelegate (outside : DelegateOutside) (limits remaining : WorkflowLimits)
    (spec : DelegateSpec) : ∀ run ∈ (runDelegate outside limits spec remaining).2.runs,
      run.Clamped limits spec.attemptCaps := by
  apply @delegateLoop_invariant outside limits spec fun state =>
    ∀ run ∈ state.runs, run.Clamped limits spec.attemptCaps
  · intro index attempt state stop next invariant turn
    rcases delegateTurn_cases turn with ⟨_, same⟩ | ⟨_, makesNone⟩ | ⟨run, _, makes⟩
    · rw [same]
      exact invariant
    · rw [makesNone.runs]
      exact invariant
    · rw [makes.runs, List.forall_mem_append]
      refine ⟨invariant, fun other member => ?_⟩
      rw [List.mem_singleton.mp member]
      constructor
      · rw [makes.remaining]
        exact makes.unlimited
      · rw [makes.remaining]
        exact makes.given
  · exact fun run impossible => nomatch impossible

theorem cap_le_of_clampAttempt {caps request capped : RunRequest} {key : CapKey}
    (clamped : clampAttempt caps request = some capped) (isCap : caps.member key = .integer cap) :
    cap ≤ int64Max := by
  rw [clampAttempt] at clamped
  split at clamped
  · cases clamped
  · next quiet =>
    rw [Bool.or_eq_true, Bool.or_eq_true, Bool.or_eq_true, not_or, not_or, not_or] at quiet
    have throws : (request.member key).clampThrows (.integer cap) ≠ true := by
      rw [← isCap]
      cases key with
      | timeoutMs => exact quiet.1.1.1
      | maxSteps => exact quiet.1.1.2
      | maxToolCallsTotal => exact quiet.1.2
      | maxToolCallsPerTool => exact quiet.2
    refine Int.not_lt.mp fun large => throws ?_
    exact Bool.or_eq_true_iff.mpr (.inl (decide_eq_true large))

/-- A run is given a member within its cap if and only if its own request has no
such member or a positive integer there, or what is left of a limit of the
workflow is within the cap. -/
theorem attempt_caps_hold_iff (outside : DelegateOutside) (limits remaining : WorkflowLimits)
    (spec : DelegateSpec) {run : DelegateRun}
    (made : run ∈ (runDelegate outside limits spec remaining).2.runs) {key : CapKey} {cap : Int}
    (isCap : spec.attemptCaps.member key = .integer cap) (positive : 0 < cap) :
    (run.given.member key).Within cap ↔
      run.request.member key = .absent ∨
        (∃ value, run.request.member key = .integer value ∧ 0 < value) ∨
        0 < key.limit limits ∧ key.limit run.remaining ≤ cap := by
  rw [← or_assoc]
  change _ ↔ (run.request.member key).Capable ∨ _
  have clamped := clamped_runDelegate outside limits remaining spec run made
  rcases clamped.given with ⟨capped, isClamped, given⟩
  have fits := cap_le_of_clampAttempt isClamped isCap
  have own : capped.member key = (run.request.member key).clampKey (.integer cap) := by
    rw [clampToCaps_of_clampAttempt isClamped, member_clampToCaps, isCap]
  rw [given, clampToLimits_member, own]
  by_cases limited : 0 < key.limit limits
  · have left := limit_pos_of_exhaustedLimit clamped.unlimited limited
    rw [if_pos limited, max_eq_right (le_of_lt left)]
    by_cases capable : (run.request.member key).Capable
    · have within := (within_clampKey_iff positive).mpr capable
      exact ⟨fun _ => .inl capable, fun _ => clampOrSet_within_of_within left fits within⟩
    · rw [clampOrSet_of_not_positive left (clampKey_not_positive positive capable)]
      constructor
      · rintro ⟨value, same, _, most⟩
        have value_eq : key.limit run.remaining = value := Member.integer.inj same
        exact .inr ⟨limited, by omega⟩
      · rintro (impossible | ⟨_, most⟩)
        · exact absurd impossible capable
        · exact ⟨_, rfl, left, most⟩
  · rw [if_neg limited, within_clampKey_iff positive]
    exact ⟨.inl, fun either => either.resolve_right fun other => limited other.1⟩

def cappedAttempt (member : Member) : DelegateSpec where
  attemptCaps := { maxToolCallsTotal := .integer 5 }
  attempts := [{ request := some { maxToolCallsTotal := member } }]

def cappedOutside : DelegateOutside where
  cancels := fun _ => none
  run := fun _ _ => { runOk := true }

def cappedRuns (member : Member) : List DelegateRun :=
  (runDelegate cappedOutside {} (cappedAttempt member) {}).2.runs

theorem attempt_caps_hold_iff_sample :
    ∃ run ∈ cappedRuns (.integer 9), (run.given.member .maxToolCallsTotal).Within 5 := by
  refine ⟨_, List.mem_singleton_self _, ?_⟩
  apply (attempt_caps_hold_iff cappedOutside {} {} (cappedAttempt (.integer 9))
    (List.mem_singleton_self _) rfl (by decide)).mpr
  exact .inr (.inl ⟨9, rfl, by decide⟩)

/-- Zero passes the caps, and so does a text. -/
theorem attempt_cap_passed :
    ((cappedRuns (.integer 0)).map fun run => run.given.maxToolCallsTotal) = [.integer 0] ∧
      ((cappedRuns .other).map fun run => run.given.maxToolCallsTotal) = [.other] ∧
      ¬(Member.integer 0).Within 5 ∧ ¬Member.other.Within 5 := by
  refine ⟨rfl, rfl, ?_, ?_⟩
  · rintro ⟨value, same, least, _⟩
    have value_eq : 0 = value := Member.integer.inj same
    omega
  · rintro ⟨value, impossible, _⟩
    exact nomatch impossible

end AgentC.Workflow
