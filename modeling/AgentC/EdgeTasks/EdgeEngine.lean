import AgentC.EdgeTasks.Enqueue
import AgentC.EdgeTasks.Platform

/-! # The edge workflow engine

A round of `EdgeWorkflowEngine::worker_main` in
`daemon/src/edge_workflow_engine.cpp`: for every workflow that is queued or
running, steps are recovered from their tasks, retries are scheduled, joins are
evaluated, steps are dispatched, and the status of the workflow is computed. The
primary key of the steps makes `step_map` a function of the steps. -/

namespace AgentC.EdgeTasks

open Workflow (JsonLibrary trimCopy idIsSafe stringsOf)
open Json (decimalInt)

structure EngineOptions where
  maxScanWorkflows : Nat := 64
  maxDispatchPerTick : Nat := 64
deriving DecidableEq, Repr

/-- `parse_string_array_json` -/
def parseStringArray (json : JsonLibrary) (text : Bytes) : Option (List Bytes) :=
  if text = [] then some []
  else
    match json.parse text with
    | some (.array items) => some (stringsOf items)
    | _ => none

/-- `std::stoll` -/
def stoll (text : Bytes) : Option Int :=
  let signed := text.dropWhile isSpace
  let negative := signed.head? = some '-'.toUInt8
  let unsigned := if negative ∨ signed.head? = some '+'.toUInt8 then signed.drop 1 else signed
  let digits := unsigned.takeWhile isDigit
  let value : Int := if negative then -(digitsValue digits) else digitsValue digits
  if digits = [] ∨ value < -2 ^ 63 ∨ 2 ^ 63 ≤ value then none else some value

/-- `parse_attempt_from_idempotency_key_best_effort` -/
def attemptOfIdempotencyKey (idempotencyKey : Bytes) : Int :=
  match (idempotencyKey.tails.filter fun tail => ascii ":a" <+: tail).getLast? with
  | none => 0
  | some tail =>
    match stoll (tail.drop 2) with
    | none => 0
    | some value => if value < 0 then 0 else min value (2 ^ 31 - 1)

/-- `retry_delay_ms_best_effort` -/
def retryDelayMs (attempt backoffMs : Int) : Int :=
  let base := if backoffMs ≤ 0 then 250 else min backoffMs 600000
  min (base * 2 ^ (min (attempt - 1) 6).toNat) 3600000

structure NodeMatch where
  requiresTools : List Bytes := []
  tagsAll : List Bytes := []
  tagsAny : List Bytes := []
  tagsNone : List Bytes := []
deriving DecidableEq, Repr

def NodeMatch.ofTree (tree : Json.Tree) : NodeMatch :=
  let strings := fun key =>
    match tree.member key with
    | some (.array items) => stringsOf items
    | _ => []
  { requiresTools := strings (ascii "requires_tools")
    tagsAll := strings (ascii "tags_all")
    tagsAny := strings (ascii "tags_any")
    tagsNone := strings (ascii "tags_none") }

def NodeMatch.accepts (json : JsonLibrary) (sought : NodeMatch) (node : EdgeNodeRow) : Bool :=
  match parseStringArray json node.toolsJson, parseStringArray json node.tagsJson with
  | some tools, some tags =>
    node.nodeId ≠ [] ∧ (∀ tool ∈ sought.requiresTools, tool ≠ [] → tool ∈ tools) ∧
      (∀ tag ∈ sought.tagsAll, tag ≠ [] → tag ∈ tags) ∧
      (sought.tagsAny = [] ∨ ∃ tag ∈ sought.tagsAny, tag ≠ [] ∧ tag ∈ tags) ∧
      (∀ tag ∈ sought.tagsNone, tag ≠ [] → tag ∉ tags)
  | _, _ => false

/-- `select_node_match_any`, empty if there is no such node. -/
def selectNodeMatchAny (config : EdgeConfig) (sought : NodeMatch) : Action Bytes := do
  match ← listEdgeNodes 256 with
  | none => pure []
  | some nodes => pure (((nodes.find? (sought.accepts config.json)).map (·.nodeId)).getD [])

def chooseNode (config : EdgeConfig) (target : Json.Tree) : Action Bytes :=
  match target.member (ascii "node_id") with
  | some (.string nodeId) => pure (trimCopy nodeId)
  | _ =>
    match target.objectMember (ascii "match_any") with
    | some sought => selectNodeMatchAny config (NodeMatch.ofTree sought)
    | none => pure []

def isJoin (step : EdgeWorkflowStepRow) : Bool :=
  step.kind = ascii "join"

/-- `step_map`: the state of the step with an identifier. -/
abbrev StepStates := Bytes → Option Bytes

def stepStates (steps : List EdgeWorkflowStepRow) : StepStates := fun stepId =>
  (steps.find? fun step => step.stepId = stepId).map (·.state)

def StepStates.set (states : StepStates) (step : EdgeWorkflowStepRow) : StepStates := fun stepId =>
  if stepId = step.stepId then some step.state else states stepId

/-- `deps_satisfied_all_succeeded` -/
def depsSatisfied (deps : List Bytes) (states : StepStates) : Bool :=
  ∀ dep ∈ deps, dep ≠ [] → states dep = some TaskState.succeeded

def storeStep (step : EdgeWorkflowStepRow) : Action EdgeWorkflowStepRow := do
  let _ ← upsertEdgeWorkflowStep step
  pure step

def passOver (body : EdgeWorkflowStepRow → Action EdgeWorkflowStepRow) :
    List EdgeWorkflowStepRow → Action (List EdgeWorkflowStepRow)
  | [] => pure []
  | step :: rest => do
    let step ← body step
    let rest ← passOver body rest
    pure (step :: rest)

/-- A pass over the steps that a request to stop cuts short. -/
def passUntilStop (body : EdgeWorkflowStepRow → Action EdgeWorkflowStepRow) :
    List EdgeWorkflowStepRow → Action (List EdgeWorkflowStepRow)
  | [] => pure []
  | step :: rest => do
    if ← stopRequested then pure (step :: rest)
    else
      let step ← body step
      let rest ← passUntilStop body rest
      pure (step :: rest)

def EdgeWorkflowStepRow.recovered (step : EdgeWorkflowStepRow) (task : EdgeTaskRow) (now : Int) :
    EdgeWorkflowStepRow :=
  { step with
    state := task.state
    attempt :=
      if step.attempt ≤ 0 ∧ 0 < attemptOfIdempotencyKey task.idempotencyKey then
        attemptOfIdempotencyKey task.idempotencyKey
      else step.attempt
    updatedUtcMs := now }

def recoverStep (workflowId : Bytes) (now : Int) (step : EdgeWorkflowStepRow) :
    Action EdgeWorkflowStepRow := do
  if isJoin step ∨ step.state ≠ TaskState.pending then pure step
  else
    match ← getEdgeTask workflowId step.stepId with
    | none => pure step
    | some task => if task.state = [] then pure step else storeStep (step.recovered task now)

def EdgeWorkflowStepRow.withAttempts (step : EdgeWorkflowStepRow) : EdgeWorkflowStepRow :=
  { step with maxAttempts := max 1 step.maxAttempts, attempt := max 0 step.attempt }

def EdgeWorkflowStepRow.retried (step : EdgeWorkflowStepRow) (now : Int) : EdgeWorkflowStepRow :=
  let nextReady := now + retryDelayMs step.attempt step.backoffMs
  { step with
    nextReadyUtcMs :=
      if step.nextReadyUtcMs ≤ 0 ∨ step.nextReadyUtcMs < nextReady then nextReady
      else step.nextReadyUtcMs
    state := TaskState.pending
    updatedUtcMs := now }

def scheduleRetry (config : EdgeConfig) (workflowId : Bytes) (now : Int)
    (step : EdgeWorkflowStepRow) : Action EdgeWorkflowStepRow := do
  if isJoin step ∨ step.state ≠ TaskState.failed ∧ step.state ≠ TaskState.timedOut then pure step
  else
    let counted := step.withAttempts
    if counted.maxAttempts ≤ counted.attempt ∨
        0 < counted.deadlineUtcMs ∧ counted.deadlineUtcMs ≤ now then pure counted
    else
      let retried ← storeStep (counted.retried now)
      let _ ← insertEdgeWorkflowEvent {
        workflowId
        tsUtcMs := now
        type := ascii "step_retry_scheduled"
        dataJson := config.json.write (.ofMembers [
          (ascii "workflow_id", .string workflowId),
          (ascii "step_id", .string retried.stepId),
          (ascii "attempt_next", .number (decimalInt (retried.attempt + 1))),
          (ascii "ready_utc_ms", .number (decimalInt retried.nextReadyUtcMs))]) }
      pure retried

def hasFailed (state : Bytes) : Bool :=
  state = TaskState.failed ∨ state = TaskState.timedOut ∨ state = TaskState.canceled

def joinOutcome (step : EdgeWorkflowStepRow) (deps : List Bytes) (states : StepStates) :
    Bytes × Bytes :=
  let named := deps.filter (· ≠ [])
  let anySucceeded := named.any fun dep => states dep = some TaskState.succeeded
  let anyFailed := named.any fun dep => (states dep).any hasFailed
  let allTerminal := named.all fun dep => (states dep).any isTerminalTaskState
  let allSucceeded := named.all fun dep => states dep = some TaskState.succeeded
  let failedWith := fun error => (TaskState.failed, if step.error = [] then error else step.error)
  if step.joinMode = ascii "any" then
    if anySucceeded then (TaskState.succeeded, step.error)
    else if allTerminal then failedWith (ascii "join(any) failed: no dependency succeeded")
    else (step.state, step.error)
  else if anyFailed then failedWith (ascii "join(all) failed: dependency failed")
  else if allSucceeded then (TaskState.succeeded, step.error)
  else (step.state, step.error)

def evaluateJoin (config : EdgeConfig) (states : StepStates) (step : EdgeWorkflowStepRow) :
    Action EdgeWorkflowStepRow := do
  if ¬isJoin step ∨ isTerminalTaskState step.state then pure step
  else
    match parseStringArray config.json step.dependsOnJson with
    | none => pure step
    | some deps =>
      let (state, error) := joinOutcome step deps states
      if state = step.state then pure step
      else
        let now ← unixMsNow
        storeStep { step with state, error, updatedUtcMs := now }

def evaluateJoins (config : EdgeConfig) :
    StepStates → List EdgeWorkflowStepRow → Action (List EdgeWorkflowStepRow)
  | _, [] => pure []
  | states, step :: rest => do
    if ← stopRequested then pure (step :: rest)
    else
      let step ← evaluateJoin config states step
      let rest ← evaluateJoins config (states.set step) rest
      pure (step :: rest)

/-! ### Dispatch -/

structure DispatchState where
  workflow : EdgeWorkflowRow
  budget : Nat
  states : StepStates

def DispatchState.note (state : DispatchState) (step : EdgeWorkflowStepRow) :
    DispatchState × EdgeWorkflowStepRow :=
  ({ state with states := state.states.set step }, step)

def failStep (state : DispatchState) (step : EdgeWorkflowStepRow) (error : String) :
    Action (DispatchState × EdgeWorkflowStepRow) := do
  let now ← unixMsNow
  let failed ← storeStep { step with
    state := TaskState.failed
    error := ascii error
    updatedUtcMs := now }
  pure (state.note failed)

def EdgeWorkflowStepRow.refused (step : EdgeWorkflowStepRow) (outcome : EnqueueOutcome)
    (now : Int) : EdgeWorkflowStepRow :=
  let errorOr := fun text => if outcome.error = [] then ascii text else outcome.error
  if outcome.httpStatus = 429 ∨ 500 ≤ outcome.httpStatus then
    { step with
      nextReadyUtcMs := now + 1000
      updatedUtcMs := now
      error :=
        if step.error ≠ [] then step.error
        else if outcome.httpStatus = 429 then errorOr "rate_limited"
        else errorOr "dispatch_failed" }
  else
    { step with
      state := TaskState.failed
      error := errorOr "dispatch denied"
      updatedUtcMs := now }

def stepMode (kind : Bytes) : Option Bytes :=
  if kind = ascii "invoke_tool" then some (ascii "invoke")
  else if kind = ascii "run_agent" then some (ascii "agent")
  else none

def assignmentDeadline (step : EdgeWorkflowStepRow) : Action Int :=
  if step.deadlineUtcMs ≤ 0 then do
    let now ← unixMsNow
    pure (now + 60000)
  else pure step.deadlineUtcMs

def stepAssignment (workflowId nodeId mode : Bytes) (payload : Json.Tree) (deadlineUtcMs : Int)
    (step : EdgeWorkflowStepRow) : TaskAssignment where
  nodeId
  taskId := workflowId
  stepId := step.stepId
  idempotencyKey := ascii "wf:" ++ workflowId ++ ascii ":" ++ step.stepId ++ ascii ":a" ++
    decimalInt (step.attempt + 1)
  mode
  deadlineUtcMs
  attempt := step.attempt + 1
  payload
  trace := .object [(ascii "trace_id", .string workflowId)]

def recordDispatch (config : EdgeConfig) (now : Int) (state : DispatchState)
    (assignment : TaskAssignment) (outcome : EnqueueOutcome) (step : EdgeWorkflowStepRow) :
    Action (DispatchState × EdgeWorkflowStepRow) := do
  let queued ← storeStep { step with
    state := TaskState.queued
    attempt := step.attempt + 1
    nextReadyUtcMs := 0
    updatedUtcMs := now }
  let _ ← insertEdgeWorkflowEvent {
    workflowId := state.workflow.workflowId
    tsUtcMs := now
    type := ascii "step_dispatched"
    dataJson := config.json.write (.ofMembers ([
        (ascii "workflow_id", .string state.workflow.workflowId),
        (ascii "step_id", .string step.stepId),
        (ascii "node_id", .string assignment.nodeId),
        (ascii "attempt", .number (decimalInt (step.attempt + 1))),
        (ascii "idempotency_key", .string assignment.idempotencyKey),
        (ascii "outbox_id", .number (decimalInt outcome.outboxId))] ++
      TaskAssignment.membersWhen outcome.deduped [(ascii "deduped", .bool true)])) }
  let workflow := { state.workflow with status := WorkflowStatus.running, updatedUtcMs := now }
  let _ ← upsertEdgeWorkflow workflow
  pure ({ workflow, budget := state.budget - 1, states := state.states.set queued }, queued)

def assignStep (config : EdgeConfig) (now : Int) (state : DispatchState) (nodeId mode : Bytes)
    (payload : Json.Tree) (step : EdgeWorkflowStepRow) :
    Action (DispatchState × EdgeWorkflowStepRow) := do
  let deadlineUtcMs ← assignmentDeadline step
  let assignment :=
    stepAssignment state.workflow.workflowId nodeId mode payload deadlineUtcMs step
  let outcome ← enqueueTaskAssign config assignment
  if outcome.ok then recordDispatch config now state assignment outcome step
  else
    let refused ← storeStep (step.refused outcome now)
    pure (state.note refused)

def dispatchReady (config : EdgeConfig) (now : Int) (state : DispatchState)
    (step : EdgeWorkflowStepRow) : Action (DispatchState × EdgeWorkflowStepRow) := do
  match (config.json.parse step.targetJson).filter (·.isObject) with
  | none => failStep state step "invalid target_json"
  | some target =>
    let nodeId ← chooseNode config target
    if nodeId = [] ∨ ¬idIsSafe nodeId then failStep state step "no matching node"
    else
      match (config.json.parse step.payloadJson).filter (·.isObject) with
      | none => failStep state step "invalid payload_json"
      | some payload =>
        match stepMode step.kind with
        | none => failStep state step "unsupported step kind"
        | some mode => assignStep config now state nodeId mode payload step

def dispatchStep (config : EdgeConfig) (now : Int) (state : DispatchState)
    (step : EdgeWorkflowStepRow) : Action (DispatchState × EdgeWorkflowStepRow) := do
  let counted := step.withAttempts
  if counted.maxAttempts ≤ counted.attempt then
    let failed ← storeStep { counted with
      state := TaskState.failed
      error := if counted.error = [] then ascii "max_attempts exceeded" else counted.error
      updatedUtcMs := now }
    pure (state.note failed)
  else if 0 < counted.nextReadyUtcMs ∧ now < counted.nextReadyUtcMs then pure (state, counted)
  else
    match parseStringArray config.json counted.dependsOnJson with
    | none => pure (state, counted)
    | some deps =>
      if depsSatisfied deps state.states then dispatchReady config now state counted
      else pure (state, counted)

def canceledRow (found : Option EdgeWorkflowRow) : Option EdgeWorkflowRow :=
  found.filter fun live => live.status = WorkflowStatus.canceled

def dispatchSteps (config : EdgeConfig) (now : Int) :
    DispatchState → List EdgeWorkflowStepRow →
      Action (DispatchState × List EdgeWorkflowStepRow)
  | state, [] => pure (state, [])
  | state, step :: rest => do
    if ← stopRequested then pure (state, step :: rest)
    else if state.budget = 0 then pure (state, step :: rest)
    else if isJoin step ∨ step.state ≠ TaskState.pending then
      let (state, rest) ← dispatchSteps config now state rest
      pure (state, step :: rest)
    else
      match canceledRow (← getEdgeWorkflow state.workflow.workflowId) with
      | some live => pure ({ state with workflow := live }, step :: rest)
      | none =>
        let (state, step) ← dispatchStep config now state step
        let (state, rest) ← dispatchSteps config now state rest
        pure (state, step :: rest)

def computeWorkflowStatus (steps : List EdgeWorkflowStepRow) : Bytes × Bytes :=
  if steps.any fun step => hasFailed step.state then
    (WorkflowStatus.failed,
      ((steps.find? fun step => hasFailed step.state ∧ step.error ≠ []).map (·.error)).getD [])
  else if steps.all fun step => step.state = TaskState.succeeded then
    (WorkflowStatus.succeeded, [])
  else if steps.any fun step =>
      step.state = TaskState.queued ∨ step.state = TaskState.running then
    (WorkflowStatus.running, [])
  else (WorkflowStatus.queued, [])

def updateStatus (now : Int) (workflow : EdgeWorkflowRow) (steps : List EdgeWorkflowStepRow) :
    Action Unit :=
  let (status, error) := computeWorkflowStatus steps
  performWhen
    (workflow.status ≠ status ∨ status = WorkflowStatus.failed ∧ workflow.error ≠ error)
    (upsertEdgeWorkflow { workflow with
      status
      updatedUtcMs := now
      error := if status = WorkflowStatus.failed ∧ error ≠ [] then error else workflow.error })

def processSteps (config : EdgeConfig) (budget : Nat) (workflow : EdgeWorkflowRow)
    (steps : List EdgeWorkflowStepRow) : Action Nat := do
  let now ← unixMsNow
  let recovered ← passOver (recoverStep workflow.workflowId now) steps
  let scheduled ← passUntilStop (scheduleRetry config workflow.workflowId now) recovered
  let joined ← evaluateJoins config (stepStates scheduled) scheduled
  let (state, reached) ← dispatchSteps config now
    { workflow, budget, states := stepStates joined } joined
  match canceledRow (← getEdgeWorkflow state.workflow.workflowId) with
  | some _ => pure state.budget
  | none =>
    updateStatus now state.workflow reached
    pure state.budget

def tickWorkflow (config : EdgeConfig) (budget : Nat) (listed : EdgeWorkflowRow) :
    Action Nat := do
  let found ← getEdgeWorkflow listed.workflowId
  let workflow := (found.filter (·.workflowId ≠ [])).getD listed
  if isEndedWorkflowStatus workflow.status then pure budget
  else
    match ← listEdgeWorkflowSteps workflow.workflowId with
    | none => pure budget
    | some steps =>
      match canceledRow (← getEdgeWorkflow workflow.workflowId) with
      | some _ => pure budget
      | none => processSteps config budget workflow steps

def tickWorkflows (config : EdgeConfig) : Nat → List EdgeWorkflowRow → Action Unit
  | _, [] => pure ()
  | budget, listed :: rest => do
    if ← stopRequested then pure ()
    else if budget = 0 then pure ()
    else if listed.workflowId = [] then tickWorkflows config budget rest
    else
      let budget ← tickWorkflow config budget listed
      tickWorkflows config budget rest

/-- A round of `EdgeWorkflowEngine::worker_main`. -/
def edgeTick (config : EdgeConfig) (options : EngineOptions) : Action Unit := do
  let queued ← listEdgeWorkflowsByStatus WorkflowStatus.queued options.maxScanWorkflows
  let running ← listEdgeWorkflowsByStatus WorkflowStatus.running options.maxScanWorkflows
  tickWorkflows config options.maxDispatchPerTick (queued ++ running)

end AgentC.EdgeTasks
