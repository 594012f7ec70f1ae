import AgentC.EdgeTasks.TaskUpdates
import AgentC.Workflow.SubmittedDependencies

/-! # Messages of nodes

`handle_edge_message_endpoint` of `daemon/src/edge_interop_endpoints.cpp` for the
messages about tasks and for `NODE_CAPS_RSP`, from the accepted envelope on: the
inbox with its guards, the handlers, and the response. -/

namespace AgentC.EdgeTasks

open Workflow (trimCopy idIsSafe)

inductive MessageType
  | taskAck
  | taskEvent
  | taskDone
  | taskFailed
  | nodeCapsRsp
deriving DecidableEq, Repr

def MessageType.text : MessageType → Bytes
  | .taskAck => ascii "TASK_ACK"
  | .taskEvent => ascii "TASK_EVENT"
  | .taskDone => ascii "TASK_DONE"
  | .taskFailed => ascii "TASK_FAILED"
  | .nodeCapsRsp => ascii "NODE_CAPS_RSP"

/-- An envelope that has passed the checks of its members and of its
authentication. -/
structure Envelope where
  msgId : Bytes
  tsUtcMs : Int := 0
  type : MessageType
  fromId : Bytes := []
  toId : Bytes := []
  body : Json.Tree
  trace : Option Json.Tree := none
  auth : Option Json.Tree := none
  /-- The envelope as a whole. -/
  tree : Json.Tree := .object []
  msgId_ne : msgId ≠ [] := by decide
  msgId_length_le : msgId.length ≤ 128 := by decide
  body_isObject : body.isObject = true := by rfl

/-- The sequence guard of an envelope, or the status that refuses it. -/
def seqGuard (config : EdgeConfig) (envelope : Envelope) :
    Except Nat (Option EdgeInboxAuthSeqGuard) :=
  match (if config.edgeAuthRequireSeq then envelope.auth else none).filter (·.isObject) with
  | none => .ok none
  | some auth =>
    let nodeId := nodeIdOf envelope.fromId
    if nodeId = [] ∨ ¬idIsSafe nodeId then .error 401
    else
      match auth.member (ascii "seq") with
      | some (.number token) =>
        match (config.numbers.int64 token).filter (0 ≤ ·) with
        | some seq => .ok (some { nodeId, seq })
        | none => .error 401
      | _ => .error 401

def stepEventData (config : EdgeConfig) (update : TaskUpdate) (row : EdgeTaskRow) : Json.Tree :=
  let errorText := update.errorTextEff config row
  TaskUpdate.setWhen (update.idempotencyMismatch row) "_ignored_by_platform" (.bool true) <|
    TaskUpdate.setWhen (errorText ≠ []) "error" (.string errorText) <|
      TaskUpdate.setWhen (update.gotIdem ≠ []) "idempotency_key" (.string update.gotIdem) <|
        Json.Tree.ofMembers [
          (ascii "workflow_id", .string update.taskId),
          (ascii "step_id", .string update.stepId),
          (ascii "state", .string (update.effectiveState config row))]

/-- The step of an edge workflow that an updated task belongs to. -/
def reflectIntoStep (config : EdgeConfig) (update : TaskUpdate) (row : EdgeTaskRow) :
    Action Unit := do
  let effectiveState := update.effectiveState config row
  let errorText := update.errorTextEff config row
  if update.applies row ∨ update.state = effectiveState then
    match ← getEdgeWorkflow update.taskId with
    | none => pure ()
    | some _ =>
      match ← listEdgeWorkflowSteps update.taskId with
      | none => pure ()
      | some steps =>
        match steps.find? fun step => step.stepId = update.stepId with
        | none => pure ()
        | some step =>
          performWhen (step.state ≠ effectiveState) <|
            upsertEdgeWorkflowStep { step with
              state := effectiveState
              updatedUtcMs := update.tsUtcMs
              error := if errorText ≠ [] then errorText else step.error }
          let _ ← insertEdgeWorkflowEvent {
            workflowId := update.taskId
            tsUtcMs := update.tsUtcMs
            type := ascii "step_state"
            dataJson := config.json.write (stepEventData config update row) }
  else pure ()

def updateTaskState (config : EdgeConfig) (update : TaskUpdate) : Action Unit := do
  if update.taskId = [] ∨ update.stepId = [] ∨ update.state = [] then pure ()
  else
    match ← getEdgeTask update.taskId update.stepId with
    | none => pure ()
    | some row =>
      performWhen (update.written config row).isSome (upsertEdgeTask (update.rowBehind config row))
      let _ ← insertEdgeTaskEvent (update.event config row)
      reflectIntoStep config update row

structure TaskFields where
  taskId : Bytes
  stepId : Bytes
  idempotencyKey : Bytes
deriving DecidableEq, Repr

def taskFields (body : Json.Tree) : TaskFields where
  taskId := body.text (ascii "task_id")
  stepId := body.text (ascii "step_id")
  idempotencyKey := trimCopy (body.text (ascii "idempotency_key"))

def TaskFields.valid (fields : TaskFields) : Bool :=
  idIsSafe fields.taskId && idIsSafe fields.stepId && idIsSafe fields.idempotencyKey

def Envelope.eventData (envelope : Envelope) : Json.Tree :=
  match envelope.trace with
  | some trace => envelope.body.setMember (ascii "trace") trace
  | none => envelope.body

def Envelope.update (envelope : Envelope) (now : Int) (state resultJson errorText : Bytes) :
    TaskUpdate where
  taskId := envelope.body.text (ascii "task_id")
  stepId := envelope.body.text (ascii "step_id")
  state
  resultJson
  errorText
  eventData := envelope.eventData
  fromId := envelope.fromId
  tsUtcMs := if 0 < envelope.tsUtcMs then envelope.tsUtcMs else now

/-- `TASK_ACK` -/
def handleTaskAck (config : EdgeConfig) (envelope : Envelope) (now : Int) : Action Nat := do
  if ¬(taskFields envelope.body).valid then pure 400
  else
    match envelope.body.boolMember (ascii "accepted") with
    | none => pure 400
    | some true =>
      updateTaskState config (envelope.update now TaskState.queued [] [])
      pure 200
    | some false =>
      let reason := envelope.body.text (ascii "reason")
      updateTaskState config (envelope.update now TaskState.failed []
        (if reason = [] then ascii "rejected" else reason))
      pure 200

def resultJsonOf (config : EdgeConfig) (envelope : Envelope) : Bytes :=
  match envelope.body.member (ascii "result") with
  | some result => config.json.write result
  | none => []

/-- `TASK_EVENT` -/
def handleTaskEvent (config : EdgeConfig) (envelope : Envelope) (now : Int) : Action Nat := do
  let state := envelope.body.text (ascii "state")
  if state = [] ∨ ¬(taskFields envelope.body).valid then pure 400
  else
    updateTaskState config (envelope.update now state (resultJsonOf config envelope)
      (envelope.body.text (ascii "error")))
    pure 200

/-- `edge_tool_result_schema_from_manifest_best_effort` -/
def resultSchemaFromManifest (manifest : Json.Tree) (toolName : Bytes) : Option Json.Tree :=
  match manifest.member (ascii "tools") with
  | some (.array tools) =>
    (tools.find? fun tool => tool.isObject ∧ trimCopy (tool.text (ascii "name")) = toolName).bind
      (·.objectMember (ascii "result_schema"))
  | _ => none

def resultSchema (config : EdgeConfig) (manifestJson toolName : Bytes) : Option Json.Tree :=
  if manifestJson = [] ∨ toolName = [] then none
  else ((config.json.parse manifestJson).filter (·.isObject)).bind fun manifest =>
    resultSchemaFromManifest manifest toolName

def resultSchemaError (config : EdgeConfig) (schema result : Json.Tree) : Bytes :=
  if ¬result.isObject then ascii "result must be an object"
  else
    match result.member (ascii "data") with
    | none => ascii "missing result.data"
    | some data =>
      match Json.schemaError config.numbers schema (ascii "result.data") data with
      | some error => if error = [] then ascii "result_schema mismatch" else error
      | none => []

/-- The guardrail of `TASK_DONE`: the error of the result under the schema in the
manifest of the node. -/
def checkResultSchema (config : EdgeConfig) (fields : TaskFields) (result : Json.Tree) :
    Action Bytes := do
  match ← getEdgeTask fields.taskId fields.stepId with
  | none => pure []
  | some row =>
    if row.mode = ascii "invoke" ∧ row.nodeId ≠ [] ∧ row.toolName ≠ [] then
      match ← getEdgeNode row.nodeId with
      | none => pure []
      | some node =>
        match resultSchema config node.manifestJson row.toolName with
        | none => pure []
        | some schema => pure (resultSchemaError config schema result)
    else pure []

/-- The update of a finished task: a success, unless its result does not fit. -/
def doneUpdate (config : EdgeConfig) (envelope : Envelope) (now : Int) (result : Json.Tree)
    (schemaError : Bytes) : TaskUpdate :=
  if schemaError = [] then
    envelope.update now TaskState.succeeded (config.json.write result) []
  else
    { envelope.update now TaskState.failed [] (ascii "result_schema_mismatch: " ++ schemaError) with
      eventData := envelope.eventData.setMember (ascii "_result_schema_error")
        (.string schemaError) }

/-- `TASK_DONE` -/
def handleTaskDone (config : EdgeConfig) (envelope : Envelope) (now : Int) : Action Nat := do
  if ¬(taskFields envelope.body).valid then pure 400
  else
    match envelope.body.member (ascii "result") with
    | none => pure 400
    | some result =>
      let error ← checkResultSchema config (taskFields envelope.body) result
      updateTaskState config (doneUpdate config envelope now result error)
      pure 200

/-- `TASK_FAILED` -/
def handleTaskFailed (config : EdgeConfig) (envelope : Envelope) (now : Int) : Action Nat := do
  let error := envelope.body.text (ascii "error")
  if ¬(taskFields envelope.body).valid ∨ error = [] then pure 400
  else
    updateTaskState config (envelope.update now TaskState.failed [] error)
    pure 200

def manifestToolNames (manifest : Json.Tree) : Json.Tree :=
  match manifest.member (ascii "tools") with
  | some (.array tools) =>
    .array (tools.filterMap fun tool =>
      match tool.member (ascii "name") with
      | some (.string name) => some (.string name)
      | _ => none)
  | _ => .array []

/-- `NODE_CAPS_RSP` -/
def handleNodeCapsRsp (config : EdgeConfig) (envelope : Envelope) (now : Int) : Action Nat := do
  let nodeId := trimCopy (envelope.body.text (ascii "node_id"))
  match envelope.body.objectMember (ascii "manifest") with
  | none => pure 400
  | some manifest =>
    if ¬idIsSafe nodeId then pure 400
    else
      match config.manifestCertStatus manifest with
      | some status => pure status
      | none =>
        let capsSha256 := trimCopy (manifest.text (ascii "caps_sha256"))
        if capsSha256 ≠ [] ∧ ¬sha256TokenIsSafe capsSha256 then pure 400
        else
          let stored ← upsertEdgeNode {
            nodeId
            capsSha256
            manifestJson := config.json.write manifest
            tagsJson :=
              match manifest.member (ascii "tags") with
              | some (.array tags) => config.json.write (.array tags)
              | _ => ascii "[]"
            toolsJson := config.json.write (manifestToolNames manifest)
            lastHeartbeatUtcMs := if 0 < envelope.tsUtcMs then envelope.tsUtcMs else now }
          pure (if stored then 200 else 500)

def handleMessage (config : EdgeConfig) (envelope : Envelope) (now : Int) : Action Nat :=
  match envelope.type with
  | .taskAck => handleTaskAck config envelope now
  | .taskEvent => handleTaskEvent config envelope now
  | .taskDone => handleTaskDone config envelope now
  | .taskFailed => handleTaskFailed config envelope now
  | .nodeCapsRsp => handleNodeCapsRsp config envelope now

/-- The handler with the guard behind it, which marks the message as processed
unless the response asks for a retry. -/
def processMessage (config : EdgeConfig) (envelope : Envelope) (now : Int) : Action Unit := do
  let status ← handleMessage config envelope now
  performWhen (status < 500) (markEdgeInboxMessageProcessed envelope.msgId)
  respond status

def inboxRow (config : EdgeConfig) (envelope : Envelope) (tsUtcMs : Int) : EdgeInboxMessageRow where
  msgId := envelope.msgId
  tsUtcMs
  type := envelope.type.text
  fromId := envelope.fromId
  toId := envelope.toId
  envelopeJson := config.json.write envelope.tree

/-- The message is stored, and processed unless it was before. -/
def storeMessage (config : EdgeConfig) (envelope : Envelope) (now tsUtcMs : Int) :
    Action Unit := do
  match seqGuard config envelope with
  | .error status => respond status
  | .ok guard =>
    match ← insertEdgeInboxMessageWithSeqGuard (inboxRow config envelope tsUtcMs) guard with
    | .failed => respond 500
    | .seqRejected => respond 401
    | .stored => processMessage config envelope now
    | .deduped =>
      let processed ← getEdgeInboxMessageProcessed envelope.msgId
      if processed = some true then respond 200
      else processMessage config envelope now

/-- `handle_edge_message_endpoint` -/
def handleEdgeMessage (config : EdgeConfig) (envelope : Envelope) : Action Unit := do
  let now ← unixMsNow
  if 0 < envelope.tsUtcMs then storeMessage config envelope now envelope.tsUtcMs
  else
    let tsUtcMs ← unixMsNow
    storeMessage config envelope now tsUtcMs

def sampleNumbers : Json.NumberLibrary where
  int64 := fun token => if token = ascii "1" then some 1 else none
  isIntegral := fun token => token = ascii "1"
  same := fun left right => left = right

def sampleConfig : EdgeConfig where
  json := Workflow.sampleLibrary
  numbers := sampleNumbers
  sha256Hex := fun bytes =>
    if bytes = ascii "\x7b\x7d" then
      ascii "44136fa355b3678a1146ad16f7e8649e94fb4fc21fe77e8310c060f61caaff8a"
    else []
  base64Decode := fun _ => none
  ed25519Verify := fun _ _ _ => false
  hmacSha256 := fun _ _ => []

/-- A task of the node `a`. -/
def sampleTask : EdgeTaskRow where
  taskId := ascii "t"
  stepId := ascii "s"
  nodeId := ascii "a"
  idempotencyKey := ascii "k"
  mode := ascii "invoke"
  toolName := ascii "f"
  payloadJson := ascii "\x7b\x7d"
  state := TaskState.running
  createdUtcMs := 1
  updatedUtcMs := 1

def sampleMessage (type : MessageType) (fromId : Bytes) (members : List (Bytes × Json.Tree)) :
    Envelope where
  msgId := ascii "m"
  tsUtcMs := 5
  type
  fromId
  body := .ofMembers ([(ascii "task_id", .string (ascii "t")),
    (ascii "step_id", .string (ascii "s")),
    (ascii "idempotency_key", .string (ascii "k"))] ++ members)
  body_isObject := Json.Tree.isObject_ofMembers _

end AgentC.EdgeTasks
