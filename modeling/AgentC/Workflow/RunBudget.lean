import AgentC.Workflow.Engine

/-! # Limits on the requests of runs

What is left of the limits of a workflow is written into the request of a run:
`daemon/src/workflow_run_budget_clamp.cpp`, and the loop over the attempts of a
`delegate` task in `daemon/src/workflow_engine.cpp`. -/

namespace AgentC.Workflow

inductive Member
  | absent
  | integer (value : Int)
  | other
deriving DecidableEq, Repr

structure RunRequest where
  maxToolCallsTotal : Member := .absent
  maxToolCallsPerTool : Member := .absent
  maxSteps : Member := .absent
  timeoutMs : Member := .absent
  maxCompletionTokens : Member := .absent
  maxTokens : Member := .absent
deriving DecidableEq, Repr

/-- `json_i64_best_effort` -/
def Member.toInt : Member → Option Int
  | .integer value => some (min int64Max value)
  | _ => none

/-- `clamp_or_set_i64` -/
def Member.clampOrSet (member : Member) (cap : Int) : Member :=
  if cap ≤ 0 then member
  else
    match member.toInt with
    | some current => .integer (if 0 < current then min current cap else cap)
    | none => .integer cap

def clampCompletionTokenCap (request : RunRequest) (cap : Int) : RunRequest :=
  if cap ≤ 0 then request
  else if request.maxCompletionTokens.toInt.isSome then
    { request with
      maxCompletionTokens := request.maxCompletionTokens.clampOrSet cap
      maxTokens :=
        if request.maxTokens.toInt.isSome then request.maxTokens.clampOrSet cap
        else request.maxTokens }
  else if request.maxTokens.toInt.isSome then
    { request with maxTokens := request.maxTokens.clampOrSet cap }
  else { request with maxCompletionTokens := .integer cap }

def remainingLimits (limits : WorkflowLimits) (used : Usage) : WorkflowLimits where
  maxToolCallsTotal := remainingOf limits.maxToolCallsTotal used.toolCallsTotal
  maxStepsTotal := remainingOf limits.maxStepsTotal used.stepsExecuted
  maxElapsedMsTotal := remainingOf limits.maxElapsedMsTotal used.elapsedMs
  maxTotalTokens := remainingOf limits.maxTotalTokens used.totalTokens

def exhaustedLimit (limits remaining : WorkflowLimits) : Option Bytes :=
  if 0 < limits.maxToolCallsTotal ∧ remaining.maxToolCallsTotal ≤ 0 then
    some (ascii "max_tool_calls_total")
  else if 0 < limits.maxStepsTotal ∧ remaining.maxStepsTotal ≤ 0 then
    some (ascii "max_steps_total")
  else if 0 < limits.maxElapsedMsTotal ∧ remaining.maxElapsedMsTotal ≤ 0 then
    some (ascii "max_elapsed_ms_total")
  else if 0 < limits.maxTotalTokens ∧ remaining.maxTotalTokens ≤ 0 then
    some (ascii "max_total_tokens")
  else none

theorem exceededLimit_eq (limits : WorkflowLimits) (used : Usage) :
    exceededLimit limits used = exhaustedLimit limits (remainingLimits limits used) :=
  rfl

def clampToLimits (limits remaining : WorkflowLimits) (request : RunRequest) : RunRequest :=
  let capped := fun (limit cap : Int) (member : Member) =>
    if 0 < limit then member.clampOrSet (max 0 cap) else member
  let clamped :=
    { request with
      maxToolCallsTotal :=
        capped limits.maxToolCallsTotal remaining.maxToolCallsTotal request.maxToolCallsTotal
      maxSteps := capped limits.maxStepsTotal remaining.maxStepsTotal request.maxSteps
      timeoutMs := capped limits.maxElapsedMsTotal remaining.maxElapsedMsTotal request.timeoutMs }
  if 0 < limits.maxTotalTokens then
    clampCompletionTokenCap clamped (max 0 remaining.maxTotalTokens)
  else clamped

/-- `workflow_apply_run_budget_clamps`: a limit of which nothing is left is an
error. -/
def workflowApplyRunBudgetClamps (limits remaining : WorkflowLimits) (request : RunRequest) :
    Except Bytes RunRequest :=
  match exhaustedLimit limits remaining with
  | some which => .error which
  | none => .ok (clampToLimits limits remaining request)

def RunRequest.Allows (request : RunRequest) (toolCalls : Int) : Prop :=
  match request.maxToolCallsTotal with
  | .integer most => toolCalls ≤ most
  | _ => True

theorem clampOrSet_within {member : Member} {cap : Int} (left : 0 < cap) :
    ∃ most, member.clampOrSet cap = .integer most ∧ 0 < most ∧ most ≤ cap := by
  rw [Member.clampOrSet, if_neg (Int.not_le.mpr left)]
  split
  · next current _ =>
    refine ⟨_, rfl, ?_⟩
    split
    · next limited => exact ⟨lt_min limited left, min_le_right current cap⟩
    · exact ⟨left, le_refl cap⟩
  · exact ⟨cap, rfl, left, le_refl cap⟩

/-! Members by their keys -/

inductive CapKey
  | timeoutMs
  | maxSteps
  | maxToolCallsTotal
  | maxToolCallsPerTool
deriving DecidableEq, Repr

def RunRequest.member (request : RunRequest) : CapKey → Member
  | .timeoutMs => request.timeoutMs
  | .maxSteps => request.maxSteps
  | .maxToolCallsTotal => request.maxToolCallsTotal
  | .maxToolCallsPerTool => request.maxToolCallsPerTool

def CapKey.limit (key : CapKey) (limits : WorkflowLimits) : Int :=
  match key with
  | .timeoutMs => limits.maxElapsedMsTotal
  | .maxSteps => limits.maxStepsTotal
  | .maxToolCallsTotal => limits.maxToolCallsTotal
  | .maxToolCallsPerTool => 0

theorem clampCompletionTokenCap_member (request : RunRequest) (cap : Int) (key : CapKey) :
    (clampCompletionTokenCap request cap).member key = request.member key := by
  rw [clampCompletionTokenCap]
  split
  · rfl
  · split
    · cases key <;> rfl
    · split
      · cases key <;> rfl
      · cases key <;> rfl

theorem clampToLimits_member (limits remaining : WorkflowLimits) (request : RunRequest)
    (key : CapKey) :
    (clampToLimits limits remaining request).member key =
      if 0 < key.limit limits then
        (request.member key).clampOrSet (max 0 (key.limit remaining))
      else request.member key := by
  rw [clampToLimits]
  split
  · rw [clampCompletionTokenCap_member]
    cases key <;> rfl
  · cases key <;> rfl

theorem clampToLimits_maxToolCallsTotal (limits remaining : WorkflowLimits)
    (request : RunRequest) :
    (clampToLimits limits remaining request).maxToolCallsTotal =
      if 0 < limits.maxToolCallsTotal then
        request.maxToolCallsTotal.clampOrSet (max 0 remaining.maxToolCallsTotal)
      else request.maxToolCallsTotal :=
  clampToLimits_member limits remaining request .maxToolCallsTotal

theorem limit_pos_of_exhaustedLimit {limits remaining : WorkflowLimits} {key : CapKey}
    (unlimited : exhaustedLimit limits remaining = none) (limited : 0 < key.limit limits) :
    0 < key.limit remaining := by
  rw [exhaustedLimit] at unlimited
  split at unlimited
  · exact nomatch unlimited
  · split at unlimited
    · exact nomatch unlimited
    · split at unlimited
      · exact nomatch unlimited
      · cases key with
        | maxToolCallsPerTool => exact absurd limited (lt_irrefl 0)
        | _ =>
          simp only [CapKey.limit] at limited ⊢
          omega

variable {limits remaining : WorkflowLimits}

theorem remaining_of_exhaustedLimit (unlimited : exhaustedLimit limits remaining = none)
    (limited : 0 < limits.maxToolCallsTotal) : 0 < remaining.maxToolCallsTotal :=
  @limit_pos_of_exhaustedLimit limits remaining .maxToolCallsTotal unlimited limited

theorem toolCalls_le_remaining {request : RunRequest} {toolCalls : Int}
    (limited : 0 < limits.maxToolCallsTotal) (left : 0 < remaining.maxToolCallsTotal)
    (allowed : (clampToLimits limits remaining request).Allows toolCalls) :
    toolCalls ≤ remaining.maxToolCallsTotal := by
  rcases clampOrSet_within left with ⟨most, member_eq, _, bounded⟩
  rw [RunRequest.Allows, clampToLimits_maxToolCallsTotal, if_pos limited,
    max_eq_right (le_of_lt left), member_eq] at allowed
  exact le_trans allowed bounded

/-- The `delegate` object of a request. An attempt without a request object is
`none`. -/
structure Delegate where
  stopOnOk : Bool := true
  attemptCaps : RunRequest := {}
  attempts : List (Option RunRequest) := []
deriving DecidableEq, Repr

/-- The `clamp_key` function of the loop. -/
def Member.clampKey (member cap : Member) : Member :=
  match cap with
  | .integer most =>
    if most ≤ 0 then member
    else
      match member with
      | .integer current => .integer (min (max 0 current) most)
      | .absent => .integer most
      | .other => .other
  | _ => member

def clampToCaps (caps request : RunRequest) : RunRequest :=
  { request with
    timeoutMs := request.timeoutMs.clampKey caps.timeoutMs
    maxSteps := request.maxSteps.clampKey caps.maxSteps
    maxToolCallsTotal := request.maxToolCallsTotal.clampKey caps.maxToolCallsTotal
    maxToolCallsPerTool := request.maxToolCallsPerTool.clampKey caps.maxToolCallsPerTool }

structure AttemptResult where
  ok : Bool := false
  usage : Usage := {}
deriving DecidableEq, Repr

def remainingBehind (limits remaining : WorkflowLimits) (usage : Usage) : WorkflowLimits where
  maxToolCallsTotal :=
    if 0 < limits.maxToolCallsTotal then
      max 0 (remaining.maxToolCallsTotal - max 0 usage.toolCallsTotal)
    else remaining.maxToolCallsTotal
  maxStepsTotal :=
    if 0 < limits.maxStepsTotal then max 0 (remaining.maxStepsTotal - max 0 usage.stepsExecuted)
    else remaining.maxStepsTotal
  maxElapsedMsTotal :=
    if 0 < limits.maxElapsedMsTotal then
      max 0 (remaining.maxElapsedMsTotal - max 0 usage.elapsedMs)
    else remaining.maxElapsedMsTotal
  maxTotalTokens :=
    if 0 < limits.maxTotalTokens then max 0 (remaining.maxTotalTokens - max 0 usage.totalTokens)
    else remaining.maxTotalTokens

/-- The runs that the loop over the attempts makes, each with the request it is
given, for the results they have. The loop is cancelled where the results end. -/
def delegateRuns (limits : WorkflowLimits) (stopOnOk : Bool) (caps : RunRequest) :
    WorkflowLimits → List (Option RunRequest) → List AttemptResult →
      List (RunRequest × AttemptResult)
  | _, [], _ => []
  | remaining, none :: attempts, results =>
    if (exhaustedLimit limits remaining).isSome then []
    else delegateRuns limits stopOnOk caps remaining attempts results
  | _, some _ :: _, [] => []
  | remaining, some request :: attempts, result :: results =>
    if (exhaustedLimit limits remaining).isSome then []
    else
      (clampToLimits limits remaining (clampToCaps caps request), result) ::
        if result.ok && stopOnOk then []
        else
          delegateRuns limits stopOnOk caps (remainingBehind limits remaining result.usage)
            attempts results

/-- The tool calls of the runs. -/
def toolCallsOf (runs : List (RunRequest × AttemptResult)) : List Int :=
  runs.map fun run => max 0 run.2.usage.toolCallsTotal

def attemptsToolCallsTotal (runs : List (RunRequest × AttemptResult)) : Int :=
  (toolCallsOf runs).foldl saturatingAdd 0

theorem remainingBehind_maxToolCallsTotal (remaining : WorkflowLimits) (usage : Usage)
    (limited : 0 < limits.maxToolCallsTotal) :
    (remainingBehind limits remaining usage).maxToolCallsTotal =
      max 0 (remaining.maxToolCallsTotal - max 0 usage.toolCallsTotal) :=
  if_pos limited

theorem sum_toolCallsOf_le {stopOnOk : Bool} {caps : RunRequest}
    {attempts : List (Option RunRequest)} {results : List AttemptResult}
    (limited : 0 < limits.maxToolCallsTotal) (nonnegative : 0 ≤ remaining.maxToolCallsTotal)
    (allowed : ∀ run ∈ delegateRuns limits stopOnOk caps remaining attempts results,
      run.1.Allows run.2.usage.toolCallsTotal) :
    (toolCallsOf (delegateRuns limits stopOnOk caps remaining attempts results)).sum ≤
      remaining.maxToolCallsTotal := by
  induction attempts generalizing remaining results with
  | nil => exact nonnegative
  | cons attempt attempts induction =>
    cases attempt with
    | none =>
      rw [delegateRuns] at allowed ⊢
      split
      · exact nonnegative
      · next left =>
        rw [if_neg left] at allowed
        exact induction nonnegative allowed
    | some request =>
      cases results with
      | nil => exact nonnegative
      | cons result results =>
        rw [delegateRuns] at allowed ⊢
        split
        · exact nonnegative
        · next left =>
          rw [if_neg left] at allowed
          have unlimited := Option.not_isSome_iff_eq_none.mp left
          have within : result.usage.toolCallsTotal ≤ remaining.maxToolCallsTotal :=
            toolCalls_le_remaining limited (remaining_of_exhaustedLimit unlimited limited)
              (allowed _ (List.mem_cons_self ..))
          have behind := remainingBehind_maxToolCallsTotal remaining result.usage limited
          rw [toolCallsOf, List.map_cons, List.sum_cons]
          dsimp only
          split
          · rw [List.map_nil, List.sum_nil]
            omega
          · next continues =>
            rw [if_neg continues] at allowed
            have further := induction (by omega)
              fun run member => allowed run (List.mem_cons_of_mem _ member)
            rw [behind, toolCallsOf] at further
            omega

theorem saturatingAdd_le (left : Int) {right : Int} (nonnegative : 0 ≤ right) :
    saturatingAdd left right ≤ left + right := by
  rw [saturatingAdd]
  split
  · omega
  · split
    · omega
    · omega

theorem foldl_saturatingAdd_le {values : List Int} (start : Int)
    (nonnegative : ∀ value ∈ values, 0 ≤ value) :
    values.foldl saturatingAdd start ≤ start + values.sum := by
  induction values generalizing start with
  | nil => exact le_of_eq (Int.add_zero start).symm
  | cons value values induction =>
    have first := saturatingAdd_le start (nonnegative value (List.mem_cons_self ..))
    have further := induction (saturatingAdd start value)
      fun other member => nonnegative other (List.mem_cons_of_mem value member)
    rw [List.foldl_cons, List.sum_cons]
    omega

theorem attemptsToolCallsTotal_le (runs : List (RunRequest × AttemptResult)) :
    attemptsToolCallsTotal runs ≤ (toolCallsOf runs).sum := by
  have bounded := @foldl_saturatingAdd_le (toolCallsOf runs) 0 fun value member => by
    rcases List.mem_map.mp member with ⟨run, _, same⟩
    rw [← same]
    exact le_max_left 0 _
  rw [Int.zero_add] at bounded
  exact bounded

def hostToolKinds : List Bytes :=
  [ascii "memory_put", ascii "memory_consolidate", ascii "memory_search", ascii "memory_timeline",
    ascii "memory_structured_query", ascii "memory_correlate", ascii "memory_query",
    ascii "http_json", ascii "agentd_call"]

structure TaskRequest where
  request : RunRequest := {}
  delegate : Delegate := {}
deriving DecidableEq, Repr

/-- The run of a task of a kind that the limits matter for makes tool calls as
the requests given to it allow. -/
def RunAllows (limits remaining : WorkflowLimits) (kind : Bytes) (task : TaskRequest)
    (toolCalls : Int) : Prop :=
  if kind = ascii "delegate" then
    ∃ results : List AttemptResult,
      let runs := delegateRuns limits task.delegate.stopOnOk task.delegate.attemptCaps remaining
        task.delegate.attempts results
      (∀ run ∈ runs, run.1.Allows run.2.usage.toolCallsTotal) ∧
        toolCalls = attemptsToolCallsTotal runs
  else if kind ∈ hostToolKinds then toolCalls ≤ 1
  else ∀ request, workflowApplyRunBudgetClamps limits remaining task.request = .ok request →
    request.Allows toolCalls

theorem RunAllows.le_remaining {kind : Bytes} {task : TaskRequest} {toolCalls : Int}
    (allows : RunAllows limits remaining kind task toolCalls)
    (unlimited : exhaustedLimit limits remaining = none) (limited : 0 < limits.maxToolCallsTotal) :
    toolCalls ≤ remaining.maxToolCallsTotal := by
  have left := remaining_of_exhaustedLimit unlimited limited
  rw [RunAllows] at allows
  split at allows
  · rcases allows with ⟨results, allowed, total⟩
    rw [total]
    exact le_trans (attemptsToolCallsTotal_le _)
      (sum_toolCallsOf_le limited (le_of_lt left) allowed)
  · split at allows
    · omega
    · rw [workflowApplyRunBudgetClamps, unlimited] at allows
      exact toolCalls_le_remaining limited left (allows _ rfl)

end AgentC.Workflow
