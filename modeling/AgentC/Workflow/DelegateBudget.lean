import AgentC.Workflow.DelegateLoop

/-! # The budget of a delegate task

The attempts of a delegate task share what is left of a limit at its start: as
long as no attempt uses more than its request allows, the sum stays below it. -/

namespace AgentC.Workflow

/-- What has been counted against a budget, and what is left of it. -/
structure Balanced (limit budget remaining total : Int) (counts : List Int) : Prop where
  nonnegative : 0 ≤ counts.sum
  left : 0 < limit → 0 ≤ remaining ∧ counts.sum + remaining = budget
  total : total = min int64Max counts.sum

variable {limit : Int}

theorem Balanced.spend {budget remaining total count : Int} {counts : List Int}
    (balanced : Balanced limit budget remaining total counts) (nonnegative : 0 ≤ count)
    (within : 0 < limit → count ≤ remaining) :
    Balanced limit budget (if 0 < limit then max 0 (remaining - max 0 count) else remaining)
      (saturatingAdd total count) (counts ++ [count]) := by
  have positive := balanced.nonnegative
  have total_eq := balanced.total
  have sum_eq : (counts ++ [count]).sum = counts.sum + count := by
    rw [List.sum_append, List.sum_singleton]
  constructor
  · omega
  · intro limited
    have left := balanced.left limited
    have affordable := within limited
    rw [if_pos limited]
    omega
  · rw [sum_eq, saturatingAdd]
    split
    · omega
    · split
      · omega
      · omega

/-- A count is within a limit of a request. Zero is no limit. -/
def Member.Allows (member : Member) (count : Int) : Prop :=
  match member with
  | .integer most => 0 < most → count ≤ most
  | _ => True

def CapKey.used (key : CapKey) (usage : Usage) : Int :=
  match key with
  | .timeoutMs => usage.elapsedMs
  | .maxSteps => usage.stepsExecuted
  | .maxToolCallsTotal => usage.toolCallsTotal
  | .maxToolCallsPerTool => 0

variable (limits remaining : WorkflowLimits)

theorem limit_remainingBehind (usage : Usage) (key : CapKey) :
    key.limit (remainingBehind limits remaining usage) =
      if 0 < key.limit limits then max 0 (key.limit remaining - max 0 (key.used usage))
      else key.limit remaining := by
  cases key <;> rfl

theorem used_saturatingAdd (totals usage : Usage) (key : CapKey) :
    key.used (Usage.combine saturatingAdd totals usage) =
      saturatingAdd (key.used totals) (key.used usage) := by
  cases key <;> rfl

theorem count_nonnegative {member : Member} {count : Int} (counted : member.count = some count) :
    0 ≤ count := by
  cases member with
  | integer value =>
    rw [Member.count] at counted
    split at counted
    · exact nomatch counted
    · cases counted
      exact le_max_left 0 value
  | _ =>
    cases counted
    exact le_refl 0

theorem used_nonnegative {report : RunReport} {usage : Usage} (counted : report.usage = some usage)
    (key : CapKey) : 0 ≤ key.used usage := by
  rw [RunReport.usage] at counted
  rcases Option.bind_eq_some_iff.mp counted with ⟨toolCalls, toolCalls_eq, rest⟩
  rcases Option.bind_eq_some_iff.mp rest with ⟨steps, steps_eq, rest⟩
  rcases Option.bind_eq_some_iff.mp rest with ⟨elapsed, elapsed_eq, rest⟩
  rcases Option.bind_eq_some_iff.mp rest with ⟨prompt, _, rest⟩
  rcases Option.bind_eq_some_iff.mp rest with ⟨completion, _, rest⟩
  rcases Option.bind_eq_some_iff.mp rest with ⟨reported, _, made⟩
  cases made
  cases key with
  | timeoutMs => exact count_nonnegative elapsed_eq
  | maxSteps => exact count_nonnegative steps_eq
  | maxToolCallsTotal => exact count_nonnegative toolCalls_eq
  | maxToolCallsPerTool => exact le_refl 0

/-- The run makes and reports no more than the request it is given allows. -/
structure DelegateRun.KeepsToRequest (run : DelegateRun) : Prop where
  toolCalls : run.given.maxToolCallsTotal.Allows run.result.usage.toolCallsTotal
  steps : run.given.maxSteps.Allows run.result.usage.stepsExecuted

section Runs

variable {outside : DelegateOutside} {limits : WorkflowLimits} {spec : DelegateSpec}

theorem MakesRun.used_le {attempt : DelegateAttempt} {state next : DelegateState}
    {run : DelegateRun} (makes : MakesRun limits spec.attemptCaps attempt state next run)
    {key : CapKey} (allowed : (run.given.member key).Allows (key.used run.result.usage))
    (limited : 0 < key.limit limits) : key.used run.result.usage ≤ key.limit state.remaining := by
  have left := limit_pos_of_exhaustedLimit makes.unlimited limited
  rcases makes.given with ⟨capped, _, given⟩
  rcases clampOrSet_within left with ⟨most, member_eq, positive, bounded⟩
  rw [given, clampToLimits_member, if_pos limited, max_eq_right (le_of_lt left), member_eq] at allowed
  exact le_trans (allowed positive) bounded

/-- The counts of the runs against the limit of a key. -/
def CapKey.counts (key : CapKey) (runs : List DelegateRun) : List Int :=
  runs.map fun run => key.used run.result.usage

/-- In every run of the loop the counts and what is left make up the budget. -/
theorem balanced_runDelegate (outside : DelegateOutside) (limits : WorkflowLimits)
    (spec : DelegateSpec) {remaining : WorkflowLimits} {key : CapKey}
    (nonnegative : 0 ≤ key.limit remaining)
    (allowed : ∀ run ∈ (runDelegate outside limits spec remaining).2.runs,
      (run.given.member key).Allows (key.used run.result.usage)) :
    Balanced (key.limit limits) (key.limit remaining)
      (key.limit (runDelegate outside limits spec remaining).2.remaining)
      (key.used (runDelegate outside limits spec remaining).2.totals)
      (key.counts (runDelegate outside limits spec remaining).2.runs) := by
  apply @delegateLoop_invariant outside limits spec fun state =>
    (∀ run ∈ state.runs, (run.given.member key).Allows (key.used run.result.usage)) →
      Balanced (key.limit limits) (key.limit remaining) (key.limit state.remaining)
        (key.used state.totals) (key.counts state.runs)
  · intro index attempt state stop next invariant turn allowed
    rcases delegateTurn_cases turn with ⟨_, same⟩ | ⟨_, none_⟩ | ⟨run, _, makes⟩
    · rw [same] at allowed ⊢
      exact invariant allowed
    · rw [none_.runs] at allowed
      rw [none_.runs, none_.left, none_.totals]
      exact invariant allowed
    · rw [makes.runs, List.forall_mem_append] at allowed
      rcases makes.counted with ⟨report, counted⟩
      have spent := (invariant allowed.1).spend (used_nonnegative counted key)
        (makes.used_le (allowed.2 run (List.mem_singleton_self run)))
      rw [makes.runs, makes.left, makes.totals, limit_remainingBehind, used_saturatingAdd,
        CapKey.counts, List.map_append]
      exact spent
  · intro _
    constructor
    · exact le_refl 0
    · exact fun _ => ⟨nonnegative, Int.zero_add _⟩
    · cases key <;> rfl
  · exact allowed

theorem totals_of_delegateResult {stop : DelegateStop} {state : DelegateState}
    {result : DelegateResult} (finished : delegateResult stop state = some result) :
    result.totals = state.totals := by
  rcases state with ⟨remaining, totals, rows, chosen, lastError, runs⟩
  cases stop with
  | threw => exact nomatch finished
  | cancelled error =>
    cases finished
    rfl
  | _ =>
    cases chosen with
    | none =>
      cases finished
      rfl
    | some chosen =>
      cases finished
      rfl

theorem remainingOf_nonnegative (limit used : Int) : 0 ≤ remainingOf limit used := by
  rw [remainingOf]
  split
  · exact le_max_left 0 _
  · exact le_refl 0

theorem remainingOf_le (limited : 0 < limit) (used : Int) : remainingOf limit used ≤ limit := by
  rw [remainingOf, if_pos limited]
  omega

/-- The counts of all attempts against a limit, and the total that is stored. -/
structure SharesBudget (limit remaining total : Int) (counts : List Int) : Prop where
  within : 0 < limit → counts.sum ≤ remaining
  capped : total = min int64Max counts.sum
  exact_ : 0 < limit → limit ≤ int64Max → total = counts.sum

theorem Balanced.shares {budget remaining total : Int} {counts : List Int}
    (balanced : Balanced limit budget remaining total counts)
    (bounded : 0 < limit → budget ≤ limit) : SharesBudget limit budget total counts := by
  have within : 0 < limit → counts.sum ≤ budget := by
    intro limited
    have left := balanced.left limited
    omega
  refine ⟨within, balanced.total, fun limited fits => ?_⟩
  have below := within limited
  have small := bounded limited
  rw [balanced.total]
  exact min_eq_right (by omega)

/-- If each attempt makes and reports no more tool calls and steps than its
request allows, those of all attempts are at most what is left of a limit at the
start, and the stored totals are their sums, up to what the type holds. -/
theorem delegate_attempts_share_budget (outside : DelegateOutside) (limits : WorkflowLimits)
    (used : Usage) (spec : DelegateSpec) {stop : DelegateStop} {state : DelegateState}
    (ran : runDelegate outside limits spec (remainingLimits limits used) = (stop, state))
    (keeps : ∀ run ∈ state.runs, run.KeepsToRequest) {result : DelegateResult}
    (finished : delegateResult stop state = some result) :
    SharesBudget limits.maxToolCallsTotal (remainingLimits limits used).maxToolCallsTotal
        result.totals.toolCallsTotal
        (state.runs.map fun run => run.result.usage.toolCallsTotal) ∧
      SharesBudget limits.maxStepsTotal (remainingLimits limits used).maxStepsTotal
        result.totals.stepsExecuted
        (state.runs.map fun run => run.result.usage.stepsExecuted) := by
  have state_eq : state = (runDelegate outside limits spec (remainingLimits limits used)).2 := by
    rw [ran]
  rw [totals_of_delegateResult finished]
  subst state_eq
  constructor
  · have balanced := @balanced_runDelegate outside limits spec (remainingLimits limits used)
      .maxToolCallsTotal (remainingOf_nonnegative _ _) fun run member => (keeps run member).toolCalls
    exact balanced.shares fun limited => remainingOf_le limited _
  · have balanced := @balanced_runDelegate outside limits spec (remainingLimits limits used)
      .maxSteps (remainingOf_nonnegative _ _) fun run member => (keeps run member).steps
    exact balanced.shares fun limited => remainingOf_le limited _

end Runs

def sampleAttempts (most : Int) : DelegateSpec where
  stopOnOk := false
  attempts :=
    [{ request := some { maxToolCallsTotal := .integer most } },
      { request := some { maxToolCallsTotal := .integer most } }]

def sampleOutside : DelegateOutside where
  cancels := fun _ => none
  run := fun _ request => { runOk := true, toolCallsTotal := request.maxToolCallsTotal }

def sampleDelegateRun (most : Int) (limits : WorkflowLimits) : DelegateStop × DelegateState :=
  runDelegate sampleOutside limits (sampleAttempts most) (remainingLimits limits {})

theorem keepsToRequest_of_eq {run : DelegateRun}
    (toolCalls : run.given.maxToolCallsTotal = .integer run.result.usage.toolCallsTotal)
    (steps : run.given.maxSteps = .absent) : run.KeepsToRequest := by
  constructor
  · rw [toolCalls]
    exact fun _ => le_refl _
  · rw [steps]
    exact trivial

/-- The second attempt gets what the first one has left. -/
theorem delegate_attempts_share_budget_sample :
    SharesBudget 5 5 5 ((sampleDelegateRun 3 { maxToolCallsTotal := 5 }).2.runs.map
        fun run => run.result.usage.toolCallsTotal) ∧
      SharesBudget 0 0 0 ((sampleDelegateRun 3 { maxToolCallsTotal := 5 }).2.runs.map
        fun run => run.result.usage.stepsExecuted) := by
  apply delegate_attempts_share_budget sampleOutside { maxToolCallsTotal := 5 } {}
    (sampleAttempts 3) (Prod.eta (sampleDelegateRun 3 { maxToolCallsTotal := 5 })).symm _ rfl
  intro run member
  have parts : ∀ run ∈ (sampleDelegateRun 3 { maxToolCallsTotal := 5 }).2.runs,
      run.given.maxToolCallsTotal = .integer run.result.usage.toolCallsTotal ∧
        run.given.maxSteps = .absent := by
    decide
  exact keepsToRequest_of_eq (parts run member).1 (parts run member).2

/-- Without a limit the stored total may be less than the sum. -/
theorem delegate_total_saturates :
    ∃ stop state result,
      runDelegate sampleOutside {} (sampleAttempts int64Max) (remainingLimits {} {}) =
        (stop, state) ∧
      (∀ run ∈ state.runs, run.KeepsToRequest) ∧
      delegateResult stop state = some result ∧
      result.totals.toolCallsTotal ≠
        (state.runs.map fun run => run.result.usage.toolCallsTotal).sum := by
  refine ⟨_, (sampleDelegateRun int64Max {}).2, _, rfl, ?_, rfl, by decide⟩
  intro run member
  have parts : ∀ run ∈ (sampleDelegateRun int64Max {}).2.runs,
      run.given.maxToolCallsTotal = .integer run.result.usage.toolCallsTotal ∧
        run.given.maxSteps = .absent := by
    decide
  exact keepsToRequest_of_eq (parts run member).1 (parts run member).2

def DelegateRun.summary (run : DelegateRun) : RunRequest × AttemptResult :=
  (run.given, run.result)

theorem delegateRuns_nil (stopOnOk : Bool) (caps : RunRequest)
    (attempts : List (Option RunRequest)) :
    delegateRuns limits stopOnOk caps remaining attempts [] = [] := by
  induction attempts with
  | nil => rfl
  | cons attempt attempts induction =>
    cases attempt with
    | none =>
      rw [delegateRuns]
      split
      · rfl
      · exact induction
    | some request => rfl

variable (outside : DelegateOutside)

/-- The loop makes the runs of `delegateRuns`, for the results it gets. -/
theorem runs_delegateLoop (limits : WorkflowLimits) (spec : DelegateSpec) (index : Nat)
    (attempts : List DelegateAttempt) (state : DelegateState) :
    ∃ results, (delegateLoop outside limits spec index attempts state).2.runs.map
        DelegateRun.summary = state.runs.map DelegateRun.summary ++
        delegateRuns limits spec.stopOnOk spec.attemptCaps state.remaining
          (attempts.map DelegateAttempt.requestObject) results := by
  induction attempts generalizing index state with
  | nil => exact ⟨[], (List.append_nil _).symm⟩
  | cons attempt attempts induction =>
    rcases turn : delegateTurn outside limits spec index attempt state with ⟨stop, next⟩
    rw [delegateLoop, turn, List.map_cons]
    rcases delegateTurn_cases turn with ⟨ends, same⟩ | ⟨goesOn, makesNone⟩ | ⟨run, stop_eq, makes⟩
    · rcases Option.isSome_iff_exists.mp ends with ⟨reason, stop_eq⟩
      refine ⟨[], ?_⟩
      rw [stop_eq, same, delegateRuns_nil, List.append_nil]
    · rcases induction (index + 1) next with ⟨results, runs_eq⟩
      refine ⟨results, ?_⟩
      rw [goesOn, runs_eq, makesNone.request, delegateRuns, makesNone.unlimited, makesNone.runs,
        makesNone.left]
      rfl
    · rcases makes.given with ⟨capped, clamped, given⟩
      have summary : run.summary =
          (clampToLimits limits state.remaining (clampToCaps spec.attemptCaps run.request),
            run.result) := by
        rw [DelegateRun.summary, given, clampToCaps_of_clampAttempt clamped]
      by_cases ends : (run.result.ok && spec.stopOnOk) = true
      · refine ⟨[run.result], ?_⟩
        rw [stop_eq, if_pos ends, makes.request, delegateRuns, makes.unlimited, makes.runs,
          List.map_append, List.map_singleton, summary, if_pos ends]
        rfl
      · rcases induction (index + 1) next with ⟨results, runs_eq⟩
        refine ⟨run.result :: results, ?_⟩
        rw [stop_eq, if_neg ends, runs_eq, makes.request, delegateRuns, makes.unlimited,
          makes.runs, makes.left, List.map_append, List.map_singleton, summary, if_neg ends,
          List.append_assoc]
        rfl

def DelegateSpec.delegate (spec : DelegateSpec) : Delegate where
  stopOnOk := spec.stopOnOk
  attemptCaps := spec.attemptCaps
  attempts := spec.attempts.map DelegateAttempt.requestObject

theorem toolCallsTotal_runDelegate (limits remaining : WorkflowLimits) (spec : DelegateSpec) :
    (runDelegate outside limits spec remaining).2.totals.toolCallsTotal = attemptsToolCallsTotal
        ((runDelegate outside limits spec remaining).2.runs.map DelegateRun.summary) := by
  apply @delegateLoop_invariant outside limits spec fun state =>
    state.totals.toolCallsTotal = attemptsToolCallsTotal (state.runs.map DelegateRun.summary)
  · intro index attempt state stop next invariant turn
    rcases delegateTurn_cases turn with ⟨_, same⟩ | ⟨_, makesNone⟩ | ⟨run, _, makes⟩
    · rw [same]
      exact invariant
    · rw [makesNone.runs, makesNone.totals]
      exact invariant
    · rcases makes.counted with ⟨report, counted⟩
      have nonnegative : 0 ≤ run.result.usage.toolCallsTotal :=
        used_nonnegative counted .maxToolCallsTotal
      rw [makes.runs, makes.totals, attemptsToolCallsTotal, toolCallsOf, List.map_append,
        List.map_append, List.foldl_append, ← toolCallsOf, ← attemptsToolCallsTotal, ← invariant]
      change saturatingAdd _ run.result.usage.toolCallsTotal =
        saturatingAdd _ (max 0 run.result.usage.toolCallsTotal)
      rw [max_eq_right nonnegative]
  · rfl

/-- A delegate task whose runs keep to their requests makes tool calls as the
requests of `delegateRuns` allow. -/
theorem runAllows_runDelegate (limits remaining : WorkflowLimits) (spec : DelegateSpec)
    {task : TaskRequest} (same : task.delegate = spec.delegate)
    (allowed : ∀ run ∈ (runDelegate outside limits spec remaining).2.runs,
      run.given.Allows run.result.usage.toolCallsTotal) :
    RunAllows limits remaining (ascii "delegate") task
      (runDelegate outside limits spec remaining).2.totals.toolCallsTotal := by
  rcases runs_delegateLoop outside limits spec 0 spec.attempts { remaining } with ⟨results, runs_eq⟩
  have runs_eq : (runDelegate outside limits spec remaining).2.runs.map DelegateRun.summary =
      delegateRuns limits spec.stopOnOk spec.attemptCaps remaining
        (spec.attempts.map DelegateAttempt.requestObject) results := runs_eq
  rw [RunAllows, if_pos rfl, same]
  refine ⟨results, ?_, ?_⟩
  · intro run member
    have made : run ∈ (runDelegate outside limits spec remaining).2.runs.map
        DelegateRun.summary := by
      rw [runs_eq]
      exact member
    rcases List.mem_map.mp made with ⟨source, there, rfl⟩
    exact allowed source there
  · rw [toolCallsTotal_runDelegate, runs_eq]
    rfl

theorem runAllows_runDelegate_sample :
    RunAllows { maxToolCallsTotal := 5 } (remainingLimits { maxToolCallsTotal := 5 } {})
      (ascii "delegate") { delegate := (sampleAttempts 3).delegate }
      (sampleDelegateRun 3 { maxToolCallsTotal := 5 }).2.totals.toolCallsTotal := by
  apply runAllows_runDelegate _ _ _ (sampleAttempts 3) rfl
  intro run member
  have equal : ∀ run ∈ (sampleDelegateRun 3 { maxToolCallsTotal := 5 }).2.runs,
    run.given.maxToolCallsTotal = .integer run.result.usage.toolCallsTotal := by decide
  rw [RunRequest.Allows, equal run member]

end AgentC.Workflow
