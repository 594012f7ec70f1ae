import AgentC.Workflow.RunBudget

/-! # The attempts of a delegate task

The loop over the attempts of a `delegate` task in `execute_claimed_task` of
`daemon/src/workflow_engine.cpp`. Each attempt is run with a request of its own,
clamped to the caps of the task and to what is left of the limits. -/

namespace AgentC.Workflow

/-- An element of `attempts`. -/
structure DelegateAttempt where
  isObject : Bool := true
  id : Option Bytes := none
  request : Option RunRequest := none
deriving DecidableEq, Repr

/-- The `delegate` object of a request. -/
structure DelegateSpec where
  stopOnOk : Bool := true
  attemptCaps : RunRequest := {}
  attempts : List DelegateAttempt := []
deriving DecidableEq, Repr

structure RunReport where
  runOk : Bool := false
  /-- What `apply_expectations` makes of the result: an error when not met. -/
  unmetExpectation : Option Bytes := none
  assistantText : Bytes := []
  error : Bytes := []
  toolCallsTotal : Member := .absent
  stepsExecuted : Member := .absent
  elapsedMs : Member := .absent
  promptTokens : Member := .absent
  completionTokens : Member := .absent
  totalTokens : Member := .absent
deriving DecidableEq, Repr

/-- A reported count, `none` where `asInt64` throws. -/
def Member.count : Member → Option Int
  | .integer value => if int64Max < value then none else some (max 0 value)
  | _ => some 0

def RunReport.ok (report : RunReport) : Bool :=
  report.runOk && report.unmetExpectation.isNone

def RunReport.usage (report : RunReport) : Option Usage := do
  let toolCallsTotal ← report.toolCallsTotal.count
  let stepsExecuted ← report.stepsExecuted.count
  let elapsedMs ← report.elapsedMs.count
  let promptTokens ← report.promptTokens.count
  let completionTokens ← report.completionTokens.count
  let reportedTokens ← report.totalTokens.count
  let totalTokens :=
    match report.totalTokens with
    | .integer _ => reportedTokens
    | _ => if 0 < promptTokens ∨ 0 < completionTokens then promptTokens + completionTokens else 0
  return { toolCallsTotal, stepsExecuted, elapsedMs, promptTokens, completionTokens, totalTokens }

/-- What is outside of the loop: the cancel check in front of each attempt, with
its error text, and the runs. -/
structure DelegateOutside where
  cancels : Nat → Option Bytes
  run : Nat → RunRequest → RunReport

/-- Whether `asInt64` throws in `clamp_key`. -/
def Member.clampThrows (member cap : Member) : Bool :=
  match cap with
  | .integer most =>
    int64Max < most || (0 < most &&
      match member with
      | .integer current => int64Max < current
      | _ => false)
  | _ => false

/-- The request of an attempt, clamped to the caps: `none` where `asInt64` throws. -/
def clampAttempt (caps request : RunRequest) : Option RunRequest :=
  if request.timeoutMs.clampThrows caps.timeoutMs ||
      request.maxSteps.clampThrows caps.maxSteps ||
      request.maxToolCallsTotal.clampThrows caps.maxToolCallsTotal ||
      request.maxToolCallsPerTool.clampThrows caps.maxToolCallsPerTool then none
  else some (clampToCaps caps request)

theorem clampToCaps_of_clampAttempt {caps request capped : RunRequest}
    (clamped : clampAttempt caps request = some capped) : capped = clampToCaps caps request := by
  rw [clampAttempt] at clamped
  split at clamped
  · exact nomatch clamped
  · exact (Option.some.inj clamped).symm

/-- An element of the `attempts` of the result. -/
structure AttemptRow where
  id : Bytes
  ok : Bool := false
  runOk : Bool := false
  expectOk : Bool := true
  usage : Option Usage := none
  assistantText : Bytes := []
  error : Bytes := []
  expectError : Bytes := []
deriving DecidableEq, Repr

/-- A run that the loop has made, for the request of an attempt and what was left
of the limits in front of it. -/
structure DelegateRun where
  request : RunRequest
  remaining : WorkflowLimits
  given : RunRequest
  result : AttemptResult
deriving DecidableEq, Repr

structure DelegateState where
  remaining : WorkflowLimits
  totals : Usage := {}
  rows : List AttemptRow := []
  /-- The first attempt that was ok, with its text. -/
  chosen : Option (Bytes × Bytes) := none
  lastError : Bytes := []
  /-- The runs made so far, which the code does not keep. -/
  runs : List DelegateRun := []
deriving DecidableEq, Repr

/-- Why the loop ends. -/
inductive DelegateStop
  | finished
  | cancelled (error : Bytes)
  | exhausted (which : Bytes)
  /-- The JSON library throws. -/
  | threw
deriving DecidableEq, Repr

def missingRequest : Bytes :=
  ascii "delegate attempt missing request object"

/-- An attempt without a request object. -/
def DelegateState.skip (state : DelegateState) (id : Bytes) : DelegateState :=
  { state with
    rows := state.rows ++ [{ id, error := missingRequest }]
    lastError := missingRequest }

def DelegateState.record (state : DelegateState) (limits : WorkflowLimits) (id : Bytes)
    (request given : RunRequest) (report : RunReport) (usage : Usage) : DelegateState :=
  let text := report.assistantText.take 8192
  let expectError := report.unmetExpectation.getD []
  let lastError := if report.error = [] then state.lastError else report.error
  { remaining := remainingBehind limits state.remaining usage
    totals := Usage.combine saturatingAdd state.totals usage
    rows := state.rows ++ [{
      id
      ok := report.ok
      runOk := report.runOk
      expectOk := report.unmetExpectation.isNone
      usage := some usage
      assistantText := text
      error := report.error
      expectError }]
    chosen := state.chosen.or (if report.ok then some (id, text) else none)
    lastError :=
      if report.unmetExpectation.isSome && lastError.isEmpty then expectError else lastError
    runs := state.runs ++ [⟨request, state.remaining, given, ⟨report.ok, usage⟩⟩] }

section Loop

variable (outside : DelegateOutside) (limits : WorkflowLimits) (spec : DelegateSpec)

/-- One turn of the loop: why it ends here, if it does, and the state behind it. -/
def delegateTurn (index : Nat) (attempt : DelegateAttempt) (state : DelegateState) :
    Option DelegateStop × DelegateState :=
  match outside.cancels index with
  | some error => (some (.cancelled error), state)
  | none =>
    match exhaustedLimit limits state.remaining with
    | some which => (some (.exhausted which), state)
    | none =>
      if !attempt.isObject then (none, state)
      else
        let id := attempt.id.getD (ascii "att_" ++ decimal index)
        match attempt.request with
        | none => (none, state.skip id)
        | some request =>
          match clampAttempt spec.attemptCaps request with
          | none => (some .threw, state)
          | some capped =>
            let given :=
              (workflowApplyRunBudgetClamps limits state.remaining capped).toOption.getD
                capped
            let report := outside.run index given
            match report.usage with
            | none => (some .threw, state)
            | some usage =>
              (if report.ok && spec.stopOnOk then some .finished else none,
                state.record limits id request given report usage)

def delegateLoop : Nat → List DelegateAttempt → DelegateState → DelegateStop × DelegateState
  | _, [], state => (.finished, state)
  | index, attempt :: attempts, state =>
    match delegateTurn outside limits spec index attempt state with
    | (some stop, next) => (stop, next)
    | (none, next) => delegateLoop (index + 1) attempts next

def runDelegate (remaining : WorkflowLimits) : DelegateStop × DelegateState :=
  delegateLoop outside limits spec 0 spec.attempts { remaining }

end Loop

structure DelegateResult where
  ok : Bool
  cancelled : Bool := false
  assistantText : Bytes := []
  error : Bytes := []
  rows : List AttemptRow := []
  chosenId : Bytes := []
  totals : Usage := {}
deriving DecidableEq, Repr

/-- The result behind the loop, `none` if the JSON library has thrown. -/
def delegateResult (stop : DelegateStop) (state : DelegateState) : Option DelegateResult :=
  let base : DelegateResult :=
    { ok := false
      rows := state.rows
      chosenId := (state.chosen.map Prod.fst).getD []
      totals := state.totals }
  match stop with
  | .threw => none
  | .cancelled error => some { base with cancelled := true, error }
  | stop =>
    match state.chosen, stop with
    | some chosen, .exhausted which =>
      some { base with
        ok := true
        assistantText := chosen.2
        error := ascii "workflow budget exceeded: " ++ which }
    | some chosen, _ => some { base with ok := true, assistantText := chosen.2 }
    | none, _ =>
      some { base with
        error :=
          if state.lastError = [] then ascii "delegate attempts all failed"
          else state.lastError }

def DelegateAttempt.requestObject (attempt : DelegateAttempt) : Option RunRequest :=
  if attempt.isObject then attempt.request else none

structure MakesNoRun (limits : WorkflowLimits) (attempt : DelegateAttempt)
    (state next : DelegateState) : Prop where
  request : attempt.requestObject = none
  unlimited : exhaustedLimit limits state.remaining = none
  runs : next.runs = state.runs
  left : next.remaining = state.remaining
  totals : next.totals = state.totals

structure MakesRun (limits : WorkflowLimits) (caps : RunRequest) (attempt : DelegateAttempt)
    (state next : DelegateState) (run : DelegateRun) : Prop where
  request : attempt.requestObject = some run.request
  remaining : run.remaining = state.remaining
  unlimited : exhaustedLimit limits state.remaining = none
  given : ∃ capped, clampAttempt caps run.request = some capped ∧
    run.given = clampToLimits limits state.remaining capped
  counted : ∃ report : RunReport, report.usage = some run.result.usage
  runs : next.runs = state.runs ++ [run]
  left : next.remaining = remainingBehind limits state.remaining run.result.usage
  totals : next.totals = Usage.combine saturatingAdd state.totals run.result.usage

variable {outside : DelegateOutside} {limits : WorkflowLimits} {spec : DelegateSpec}

theorem delegateTurn_cases {index : Nat} {attempt : DelegateAttempt} {state next : DelegateState}
    {stop : Option DelegateStop}
    (turn : delegateTurn outside limits spec index attempt state = (stop, next)) :
    (stop.isSome = true ∧ next = state) ∨
      (stop = none ∧ MakesNoRun limits attempt state next) ∨
      ∃ run, stop = (if run.result.ok && spec.stopOnOk then some .finished else none) ∧
        MakesRun limits spec.attemptCaps attempt state next run := by
  rw [delegateTurn] at turn
  split at turn
  · cases turn
    exact .inl ⟨rfl, rfl⟩
  · split at turn
    · cases turn
      exact .inl ⟨rfl, rfl⟩
    · next unlimited =>
      split at turn
      · next noObject =>
        cases turn
        have noRequest : attempt.requestObject = none := if_neg (by simpa using noObject)
        exact .inr (.inl ⟨rfl, noRequest, unlimited, rfl, rfl, rfl⟩)
      · next isObject =>
        have request_eq : attempt.requestObject = attempt.request :=
          if_pos (by simpa using isObject)
        split at turn
        · next noRequest =>
          cases turn
          exact .inr (.inl ⟨rfl, request_eq.trans noRequest, unlimited, rfl, rfl, rfl⟩)
        · next request isRequest =>
          split at turn
          · cases turn
            exact .inl ⟨rfl, rfl⟩
          · next capped clamped =>
            rw [workflowApplyRunBudgetClamps, unlimited] at turn
            dsimp only [Except.toOption, Option.getD_some] at turn
            split at turn
            · cases turn
              exact .inl ⟨rfl, rfl⟩
            · next usage counted =>
              cases turn
              exact .inr (.inr ⟨_, rfl, request_eq.trans isRequest, rfl, unlimited,
                ⟨capped, clamped, rfl⟩, ⟨_, counted⟩, rfl, rfl, rfl⟩)

theorem delegateLoop_invariant {invariant : DelegateState → Prop}
    (keeps : ∀ {index attempt state stop next}, invariant state →
      delegateTurn outside limits spec index attempt state = (stop, next) → invariant next)
    (index : Nat) (attempts : List DelegateAttempt) {state : DelegateState}
    (start : invariant state) :
    invariant (delegateLoop outside limits spec index attempts state).2 := by
  induction attempts generalizing index state with
  | nil => exact start
  | cons attempt attempts induction =>
    rw [delegateLoop]
    split
    · next stop next turn => exact keeps start turn
    · next next turn => exact induction (index + 1) (keeps start turn)

end AgentC.Workflow
