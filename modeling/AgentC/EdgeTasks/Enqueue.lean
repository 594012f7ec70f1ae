import AgentC.EdgeTasks.Messages

/-! # Assigning tasks to nodes

`edge_enqueue_task_assign` of `daemon/src/edge_util.cpp`: the checks of its
arguments, the guards that the manifest of the node asks for, the stored task and
the envelope for the node. The texts of database errors are left out. -/

namespace AgentC.EdgeTasks

open Workflow (trimCopy idIsSafe stringsOf)
open Json (decimalInt)

structure EdgeToolMeta where
  sideEffectLevel : Bytes := []
  resourceLock : Bytes := []
  hazards : List Bytes := []
  maxPerMinute : Int := 0
  cooldownMs : Int := 0
deriving DecidableEq, Repr

def EdgeToolMeta.hasRateLimit (tool : EdgeToolMeta) : Bool :=
  0 < tool.maxPerMinute ∨ 0 < tool.cooldownMs

/-- A limit: a number of type `int` that is not negative, or one of type
`unsigned`, cut to the largest `int`. -/
def limitNumber (config : EdgeConfig) (limits : Json.Tree) (key : Bytes) : Int :=
  match limits.member key with
  | some (.number token) =>
    match config.numbers.int64 token with
    | some value =>
      if -2 ^ 31 ≤ value ∧ value < 2 ^ 31 then max 0 value
      else if 0 ≤ value ∧ value < 2 ^ 32 then min (2 ^ 31 - 1) value
      else 0
    | none => 0
  | _ => 0

def toolMeta (config : EdgeConfig) (tool : Json.Tree) : EdgeToolMeta :=
  let limits := (tool.objectMember (ascii "rate_limit")).getD (.object [])
  { sideEffectLevel := tool.text (ascii "side_effect_level")
    resourceLock := trimCopy (tool.text (ascii "resource_lock"))
    hazards :=
      match tool.member (ascii "hazards") with
      | some (.array items) => stringsOf items
      | _ => []
    maxPerMinute := limitNumber config limits (ascii "max_per_minute")
    cooldownMs := limitNumber config limits (ascii "cooldown_ms") }

def toolMetaFromManifest (config : EdgeConfig) (manifest : Json.Tree) (toolName : Bytes) :
    Except Bytes EdgeToolMeta :=
  if ¬manifest.isObject then .error (ascii "manifest is not an object")
  else if toolName = [] then .error (ascii "tool_name is empty")
  else
    match manifest.member (ascii "tools") with
    | some (.array tools) =>
      match tools.find? fun tool => tool.isObject ∧ tool.text (ascii "name") = toolName with
      | some tool => .ok (toolMeta config tool)
      | none => .error (ascii "tool not found in manifest")
    | _ => .error (ascii "manifest.tools missing/invalid")

/-- `edge_tool_parameters_schema_from_manifest_best_effort` -/
def parametersSchemaFromManifest (manifest : Json.Tree) (toolName : Bytes) :
    Except Bytes (Option Json.Tree) :=
  if ¬manifest.isObject ∨ toolName = [] then .ok none
  else
    match manifest.member (ascii "tools") with
    | some (.array tools) =>
      match tools.find? fun tool =>
          tool.isObject ∧ trimCopy (tool.text (ascii "name")) = toolName with
      | some tool =>
        .ok ((tool.objectMember (ascii "parameters_schema")).or
          (tool.objectMember (ascii "parameters")))
      | none => .error (ascii "tool not found in manifest")
    | _ => .ok none

def EdgeToolRateStateRow.inWindow (state : EdgeToolRateStateRow) (now : Int) :
    EdgeToolRateStateRow :=
  if state.windowStartUtcMs ≤ 0 ∨ 60000 ≤ now - state.windowStartUtcMs ∨
      now - state.windowStartUtcMs < 0 then
    { state with windowStartUtcMs := now, windowCount := 0 }
  else state

def nextRateState (tool : EdgeToolMeta) (state : EdgeToolRateStateRow) (now : Int) :
    Except Bytes EdgeToolRateStateRow :=
  let since := now - state.lastCallUtcMs
  if 0 < tool.cooldownMs ∧ 0 < state.lastCallUtcMs ∧ 0 ≤ since ∧ since < tool.cooldownMs then
    .error (ascii "rate_limited: cooldown")
  else
    let window := state.inWindow now
    if 0 < tool.maxPerMinute ∧ tool.maxPerMinute ≤ window.windowCount then
      .error (ascii "rate_limited: max_per_minute")
    else .ok { window with windowCount := window.windowCount + 1, lastCallUtcMs := now }

def timeOrNow (time : Int) : Action Int :=
  if 0 < time then pure time else unixMsNow

/-- `edge_rate_limit_check_best_effort`: the rate state to commit, if there is a
limit. -/
def checkRateLimit (nodeId toolName : Bytes) (tool : EdgeToolMeta) (nowUtcMs : Int) :
    Action (Except Bytes (Option EdgeToolRateStateRow)) := do
  if ¬tool.hasRateLimit ∨ nodeId = [] ∨ toolName = [] then pure (.ok none)
  else
    let now ← timeOrNow nowUtcMs
    let state ← getEdgeToolRateState nodeId toolName
    match nextRateState tool (state.getD { nodeId, toolName }) now with
    | .ok next => pure (.ok (some next))
    | .error error => pure (.error error)

/-- `edge_rate_limit_commit_best_effort` -/
def commitRateLimit (next : Option EdgeToolRateStateRow) : Action Unit :=
  match next with
  | some state =>
    performWhen (state.nodeId ≠ [] ∧ state.toolName ≠ []) (upsertEdgeToolRateState state)
  | none => pure ()

/-- The arguments of `edge_enqueue_task_assign`. -/
structure TaskAssignment where
  nodeId : Bytes
  taskId : Bytes
  stepId : Bytes
  idempotencyKey : Bytes
  mode : Bytes
  deadlineUtcMs : Int
  attempt : Int := 0
  payload : Json.Tree
  trace : Json.Tree := .null
  allowHazards : List Bytes := []
  allowHighSideEffect : Bool := false
  enforceSafety : Bool := true
  enforceRateLimit : Bool := true

structure Refusal where
  httpStatus : Nat
  error : Bytes
deriving DecidableEq, Repr

/-- What `edge_enqueue_task_assign` returns. -/
structure EnqueueOutcome where
  ok : Bool := false
  httpStatus : Nat := 500
  error : Bytes := []
  deduped : Bool := false
  outboxId : Nat := 0
deriving DecidableEq, Repr

def Refusal.outcome (refusal : Refusal) : EnqueueOutcome where
  httpStatus := refusal.httpStatus
  error := refusal.error

namespace TaskAssignment

variable (config : EdgeConfig) (assignment : TaskAssignment)

def traceId : Bytes :=
  trimCopy (assignment.trace.text (ascii "trace_id"))

def toolName : Bytes :=
  if assignment.mode = ascii "invoke" then trimCopy (assignment.payload.text (ascii "tool")) else []

def traceGiven : Bool :=
  match assignment.trace with
  | .null => true
  | trace => trace.isObject

def refusal : Option Refusal :=
  if ¬idIsSafe assignment.nodeId then some ⟨400, ascii "missing/invalid node_id"⟩
  else if ¬idIsSafe assignment.taskId then some ⟨400, ascii "missing/invalid task_id"⟩
  else if ¬idIsSafe assignment.stepId then some ⟨400, ascii "missing/invalid step_id"⟩
  else if ¬idIsSafe assignment.idempotencyKey then
    some ⟨400, ascii "missing/invalid idempotency_key"⟩
  else if assignment.mode ≠ ascii "invoke" ∧ assignment.mode ≠ ascii "agent" ∨
      assignment.deadlineUtcMs ≤ 0 ∨ ¬assignment.payload.isObject then
    some ⟨400, ascii "missing/invalid task fields"⟩
  else if ¬assignment.traceGiven then some ⟨400, ascii "invalid trace (expected object)"⟩
  else if assignment.traceId ≠ [] ∧ ¬traceIdIsSafe assignment.traceId then
    some ⟨400, ascii "invalid trace.trace_id"⟩
  else if assignment.mode = ascii "invoke" ∧ assignment.toolName = [] then
    some ⟨400, ascii "missing payload.tool for mode=invoke"⟩
  else none

def manifestMeta (node : Option EdgeNodeRow) : Except Refusal (Json.Tree × EdgeToolMeta) :=
  match node with
  | none => .error ⟨404, ascii "node not found"⟩
  | some node =>
    if node.manifestJson = [] then .error ⟨409, ascii "node has no manifest (caps unknown)"⟩
    else
      match (config.json.parse node.manifestJson).filter (·.isObject) with
      | none => .error ⟨500, ascii "stored manifest parse failed"⟩
      | some manifest =>
        match toolMetaFromManifest config manifest assignment.toolName with
        | .error error =>
          .error ⟨409, ascii "tool not present in node manifest: " ++ error⟩
        | .ok tool => .ok (manifest, tool)

def argsRefusal (manifest : Json.Tree) : Option Refusal :=
  match assignment.payload.objectMember (ascii "args") with
  | none => some ⟨400, ascii "payload.args must be an object for mode=invoke"⟩
  | some args =>
    match parametersSchemaFromManifest manifest assignment.toolName with
    | .error error => some ⟨409, ascii "tool not present in node manifest: " ++ error⟩
    | .ok none => none
    | .ok (some schema) =>
      (Json.schemaError config.numbers schema (ascii "args") args).map fun error =>
        ⟨400, if error = [] then ascii "invalid tool args" else error⟩

def safetyRefusal (tool : EdgeToolMeta) : Option Refusal :=
  if ¬assignment.enforceSafety then none
  else if ascii "privacy_camera" ∈ tool.hazards ∧
      ascii "privacy_camera" ∉ assignment.allowHazards then
    some ⟨403, ascii "denied: hazard privacy_camera"⟩
  else if tool.sideEffectLevel = ascii "high" ∧ ¬assignment.allowHighSideEffect then
    some ⟨403,
      ascii "denied: side_effect_level high (set allow_high_side_effect=true to override)"⟩
  else none

def lockedRefusal (resourceLock : Bytes) (holder : TaskKey) : Refusal where
  httpStatus := 429
  error := ascii "resource_locked: " ++ resourceLock ++
    (if holder.1 ≠ [] ∧ holder.2 ≠ [] then
      ascii " (held by " ++ holder.1 ++ ascii "/" ++ holder.2 ++ ascii ")"
    else [])

/-- What is behind the guards: the lock of the tool and a rate state to commit. -/
structure Clearance where
  resourceLock : Bytes := []
  rateState : Option EdgeToolRateStateRow := none

def guardCall (manifest : Json.Tree) (tool : EdgeToolMeta) :
    Action (Except Refusal Clearance) := do
  match (assignment.argsRefusal config manifest).or (assignment.safetyRefusal tool) with
  | some refusal => pure (.error refusal)
  | none =>
    if assignment.enforceRateLimit then
      let now ← unixMsNow
      match ← checkRateLimit assignment.nodeId assignment.toolName tool now with
      | .error error =>
        pure (.error ⟨429, if error = [] then ascii "rate_limited" else error⟩)
      | .ok rateState => pure (.ok { resourceLock := tool.resourceLock, rateState })
    else pure (.ok { resourceLock := tool.resourceLock })

def guardTool : Action (Except Refusal Clearance) := do
  match assignment.manifestMeta config (← getEdgeNode assignment.nodeId) with
  | .error refusal => pure (.error refusal)
  | .ok (manifest, tool) =>
    if tool.resourceLock = [] then assignment.guardCall config manifest tool
    else
      match ← getEdgeTaskLockConflict assignment.nodeId tool.resourceLock with
      | some holder => pure (.error (lockedRefusal tool.resourceLock holder))
      | none => assignment.guardCall config manifest tool

def clear : Action (Except Refusal Clearance) :=
  if assignment.mode = ascii "invoke" ∧
      (assignment.enforceSafety ∨ assignment.enforceRateLimit) then
    assignment.guardTool config
  else pure (.ok {})

def membersWhen (condition : Bool) (members : List (Bytes × Json.Tree)) :
    List (Bytes × Json.Tree) :=
  if condition then members else []

def attemptMember : List (Bytes × Json.Tree) :=
  membersWhen (0 < assignment.attempt)
    [(ascii "attempt", .number (decimalInt assignment.attempt))]

def traceMember : List (Bytes × Json.Tree) :=
  membersWhen assignment.trace.isObject [(ascii "trace", assignment.trace)]

def queuedRow (resourceLock : Bytes) (now : Int) : EdgeTaskRow where
  taskId := assignment.taskId
  stepId := assignment.stepId
  nodeId := assignment.nodeId
  idempotencyKey := assignment.idempotencyKey
  traceId := assignment.traceId
  resourceLock
  mode := assignment.mode
  toolName := assignment.toolName
  deadlineUtcMs := assignment.deadlineUtcMs
  payloadJson := config.json.write assignment.payload
  state := TaskState.queued
  createdUtcMs := now
  updatedUtcMs := now

def queuedEvent (now : Int) : EdgeTaskEventRow where
  taskId := assignment.taskId
  stepId := assignment.stepId
  tsUtcMs := now
  state := TaskState.queued
  dataJson := config.json.write (.ofMembers ([
      (ascii "task_id", .string assignment.taskId),
      (ascii "step_id", .string assignment.stepId),
      (ascii "node_id", .string assignment.nodeId),
      (ascii "state", .string TaskState.queued),
      (ascii "mode", .string assignment.mode),
      (ascii "deadline_utc_ms", .number (decimalInt assignment.deadlineUtcMs))] ++
    assignment.attemptMember ++
    membersWhen (assignment.toolName ≠ []) [(ascii "tool", .string assignment.toolName)] ++
    assignment.traceMember))

def nodeToPrefix (nodeId : Bytes) : Bytes :=
  if nodeId = [] then []
  else if ascii "node:" <+: nodeId then nodeId
  else ascii "node:" ++ nodeId

def body : Json.Tree :=
  .ofMembers ([
      (ascii "node_id", .string assignment.nodeId),
      (ascii "task_id", .string assignment.taskId),
      (ascii "step_id", .string assignment.stepId),
      (ascii "idempotency_key", .string assignment.idempotencyKey),
      (ascii "mode", .string assignment.mode),
      (ascii "deadline_utc_ms", .number (decimalInt assignment.deadlineUtcMs)),
      (ascii "payload", assignment.payload)] ++
    assignment.attemptMember)

/-- The `TASK_ASSIGN` envelope. -/
def envelope (msgId : Bytes) (now : Int) : Json.Tree :=
  .ofMembers ([
      (ascii "msg_id", .string msgId),
      (ascii "ts_utc_ms", .number (decimalInt now)),
      (ascii "type", .string (ascii "TASK_ASSIGN")),
      (ascii "from", .string (ascii "platform")),
      (ascii "to", .string (nodeToPrefix assignment.nodeId)),
      (ascii "body", assignment.body)] ++
    assignment.traceMember)

def send (deduped : Bool) (rateState : Option EdgeToolRateStateRow) :
    Action EnqueueOutcome := do
  let now ← unixMsNow
  let msgId ← makeUuidishMsgId
  match ← insertEdgeOutboxMessage {
      nodeId := assignment.nodeId
      tsUtcMs := now
      envelope := assignment.envelope msgId now } with
  | none => pure { error := ascii "failed to enqueue outbox message: ", deduped }
  | some outboxId =>
    commitRateLimit rateState
    pure { ok := true, httpStatus := 200, deduped, outboxId }

def assign (clearance : Clearance) : Action EnqueueOutcome := do
  let now ← unixMsNow
  if ← upsertEdgeTask (assignment.queuedRow config clearance.resourceLock now) then
    let _ ← insertEdgeTaskEvent (assignment.queuedEvent config now)
    assignment.send false clearance.rateState
  else pure { error := ascii "failed to persist edge task: " }

def backfillTrace (existing : EdgeTaskRow) : Action Unit :=
  if assignment.traceId ≠ [] ∧ existing.traceId = [] then do
    let now ← unixMsNow
    let _ ← upsertEdgeTask { existing with traceId := assignment.traceId, updatedUtcMs := now }
  else pure ()

def assignAgain (existing : EdgeTaskRow) : Action EnqueueOutcome :=
  if existing.taskId ≠ assignment.taskId ∨ existing.stepId ≠ assignment.stepId then
    pure {
      httpStatus := 409
      error := ascii "idempotency_key collision with different task_id/step_id"
      deduped := true }
  else do
    assignment.backfillTrace existing
    assignment.send true none

end TaskAssignment

def enqueueTaskAssign (config : EdgeConfig) (assignment : TaskAssignment) :
    Action EnqueueOutcome := do
  match assignment.refusal with
  | some refusal => pure refusal.outcome
  | none =>
    match ← getEdgeTaskByNodeIdempotency assignment.nodeId assignment.idempotencyKey with
    | some existing => assignment.assignAgain existing
    | none =>
      match ← assignment.clear config with
      | .error refusal => pure refusal.outcome
      | .ok clearance => assignment.assign config clearance

end AgentC.EdgeTasks
