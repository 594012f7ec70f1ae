import AgentC.Foundation.Interleaving
import AgentC.Foundation.KeyedTable
import AgentC.Json.Values
import AgentC.Workflow.Submission

/-! # Tables of the edge platform

The tables `edge_inbox_messages`, `edge_nodes`, `edge_tasks`, `edge_task_events`,
`edge_outbox_messages`, `edge_workflows`, `edge_workflow_steps`,
`edge_workflow_events` and `edge_tool_rate_state`, and the operations on them of
`daemon/src/agent_db_edge_tasks.cpp`, `daemon/src/agent_db_edge_nodes.cpp` and
`daemon/src/agent_db_edge_workflows.cpp`. Columns that no modelled function
reads are left out. -/

namespace AgentC.EdgeTasks

open Workflow.Store (listingLimit)

/-! ## States

A node may report any text as the state of a task. -/

namespace TaskState

def pending : Bytes := ascii "PENDING"
def queued : Bytes := ascii "QUEUED"
def running : Bytes := ascii "RUNNING"
def succeeded : Bytes := ascii "SUCCEEDED"
def failed : Bytes := ascii "FAILED"
def timedOut : Bytes := ascii "TIMED_OUT"
def canceled : Bytes := ascii "CANCELED"

end TaskState

def isTerminalTaskState (state : Bytes) : Bool :=
  state = TaskState.succeeded ∨ state = TaskState.failed ∨ state = TaskState.timedOut ∨
    state = TaskState.canceled

structure EdgeInboxMessageRow where
  msgId : Bytes
  tsUtcMs : Int := 0
  type : Bytes
  fromId : Bytes := []
  toId : Bytes := []
  envelopeJson : Bytes
deriving DecidableEq, Repr

/-- A row of the inbox, with the column that `mark_edge_inbox_message_processed`
sets. -/
structure InboxEntry extends EdgeInboxMessageRow where
  processed : Bool := false
deriving DecidableEq, Repr

structure EdgeInboxAuthSeqGuard where
  nodeId : Bytes
  seq : Int := 0
deriving DecidableEq, Repr

structure EdgeNodeRow where
  nodeId : Bytes
  capsSha256 : Bytes := []
  manifestJson : Bytes := []
  tagsJson : Bytes := []
  toolsJson : Bytes := []
  lastHeartbeatUtcMs : Int := 0
deriving DecidableEq, Repr

/-- A row of the table of nodes, with the column that the sequence guard keeps. -/
structure NodeEntry extends EdgeNodeRow where
  lastAuthSeq : Option Int := none
deriving DecidableEq, Repr

structure EdgeTaskRow where
  taskId : Bytes
  stepId : Bytes
  nodeId : Bytes
  idempotencyKey : Bytes
  traceId : Bytes := []
  resourceLock : Bytes := []
  mode : Bytes
  toolName : Bytes := []
  deadlineUtcMs : Int := 0
  payloadJson : Bytes
  state : Bytes
  createdUtcMs : Int := 0
  updatedUtcMs : Int := 0
  resultJson : Bytes := []
  resultSha256 : Bytes := []
  attestJson : Bytes := []
  error : Bytes := []
deriving DecidableEq, Repr

abbrev TaskKey := Bytes × Bytes

def EdgeTaskRow.key (row : EdgeTaskRow) : TaskKey :=
  (row.taskId, row.stepId)

def EdgeTaskRow.active (row : EdgeTaskRow) : Bool :=
  row.state = TaskState.queued ∨ row.state = TaskState.running

structure EdgeTaskEventRow where
  taskId : Bytes
  stepId : Bytes
  tsUtcMs : Int := 0
  state : Bytes
  dataJson : Bytes
deriving DecidableEq, Repr

/-- The envelope is stored as its compact text. -/
structure EdgeOutboxMessageRow where
  nodeId : Bytes
  tsUtcMs : Int := 0
  envelope : Json.Tree

structure EdgeWorkflowRow where
  workflowId : Bytes
  goal : Bytes := []
  status : Bytes
  priority : Int := 0
  specJson : Bytes
  createdUtcMs : Int := 0
  updatedUtcMs : Int := 0
  error : Bytes := []
deriving DecidableEq, Repr

structure EdgeWorkflowStepRow where
  workflowId : Bytes
  stepId : Bytes
  kind : Bytes
  dependsOnJson : Bytes
  targetJson : Bytes
  payloadJson : Bytes
  joinMode : Bytes := []
  deadlineUtcMs : Int := 0
  attempt : Int := 0
  maxAttempts : Int := 1
  nextReadyUtcMs : Int := 0
  backoffMs : Int := 0
  state : Bytes
  createdUtcMs : Int := 0
  updatedUtcMs : Int := 0
  error : Bytes := []
deriving DecidableEq, Repr

def EdgeWorkflowStepRow.key (row : EdgeWorkflowStepRow) : TaskKey :=
  (row.workflowId, row.stepId)

structure EdgeWorkflowEventRow where
  workflowId : Bytes
  tsUtcMs : Int := 0
  type : Bytes
  dataJson : Bytes
deriving DecidableEq, Repr

structure EdgeToolRateStateRow where
  nodeId : Bytes
  toolName : Bytes
  windowStartUtcMs : Int := 0
  windowCount : Int := 0
  lastCallUtcMs : Int := 0
deriving DecidableEq, Repr

structure Store where
  inbox : List InboxEntry := []
  nodes : List NodeEntry := []
  tasks : List EdgeTaskRow := []
  taskEvents : List EdgeTaskEventRow := []
  outbox : List EdgeOutboxMessageRow := []
  workflows : List EdgeWorkflowRow := []
  steps : List EdgeWorkflowStepRow := []
  workflowEvents : List EdgeWorkflowEventRow := []
  rateStates : List EdgeToolRateStateRow := []

namespace Store

variable (store : Store)

inductive InboxOutcome
  | failed
  | stored
  | deduped
  | seqRejected
deriving DecidableEq, Repr

/-- The statement on `edge_nodes`: the row of the node gets the sequence number,
unless it has one that is not smaller. -/
def bumpSeq (guard : EdgeInboxAuthSeqGuard) : Option (List NodeEntry) :=
  match lookupBy (·.nodeId) guard.nodeId store.nodes with
  | some node =>
    if node.lastAuthSeq.all (· < guard.seq) then
      some (store.nodes.map fun entry =>
        if entry.nodeId = guard.nodeId then { entry with lastAuthSeq := some guard.seq } else entry)
    else none
  | none => some (store.nodes ++ [{ nodeId := guard.nodeId, lastAuthSeq := some guard.seq }])

/-- `AgentDb::insert_edge_inbox_message_with_seq_guard`: one transaction, which
is rolled back when the sequence number is rejected. -/
def insertEdgeInboxMessageWithSeqGuard (nowUtcMs : Int) (row : EdgeInboxMessageRow)
    (guard : Option EdgeInboxAuthSeqGuard) : InboxOutcome × Store :=
  if row.msgId = [] ∨ row.type = [] ∨ row.envelopeJson = [] then (.failed, store)
  else if guard.any fun guard => guard.nodeId = [] ∨ guard.seq < 0 then (.failed, store)
  else if (lookupBy (·.msgId) row.msgId store.inbox).isSome then (.deduped, store)
  else
    let inserted := { store with
      inbox := store.inbox ++
        [{ row with tsUtcMs := if 0 < row.tsUtcMs then row.tsUtcMs else nowUtcMs }] }
    match guard with
    | none => (.stored, inserted)
    | some guard =>
      match store.bumpSeq guard with
      | none => (.seqRejected, store)
      | some nodes => (.stored, { inserted with nodes })

def getEdgeInboxMessageProcessed (msgId : Bytes) : Option Bool :=
  if msgId = [] then none
  else (lookupBy (·.msgId) msgId store.inbox).map (·.processed)

def markEdgeInboxMessageProcessed (msgId : Bytes) : Bool × Store :=
  if msgId = [] ∨ (lookupBy (·.msgId) msgId store.inbox).isNone then (false, store)
  else
    (true, { store with
      inbox := store.inbox.map fun entry =>
        if entry.msgId = msgId then { entry with processed := true } else entry })

def getEdgeNode (nodeId : Bytes) : Option EdgeNodeRow :=
  if nodeId = [] then none
  else (lookupBy (·.nodeId) nodeId store.nodes).map (·.toEdgeNodeRow)

def nodeOrder (left right : EdgeNodeRow) : Prop :=
  right.lastHeartbeatUtcMs < left.lastHeartbeatUtcMs ∨
    left.lastHeartbeatUtcMs = right.lastHeartbeatUtcMs ∧ lexLE left.nodeId right.nodeId

instance : DecidableRel nodeOrder := fun _ _ =>
  inferInstanceAs (Decidable (_ ∨ _))

def listEdgeNodes (maxRows : Nat) : List EdgeNodeRow :=
  ((store.nodes.map (·.toEdgeNodeRow)).insertionSort nodeOrder).take (listingLimit maxRows)

/-- A text of a node that an update does not set: a node with other capabilities
loses it. -/
def keptNodeText (stored new : NodeEntry) (text : NodeEntry → Bytes) : Bytes :=
  if text new ≠ [] then text new
  else if new.capsSha256 ≠ [] ∧ stored.capsSha256 ≠ [] ∧ new.capsSha256 ≠ stored.capsSha256 then []
  else text stored

def mergeNode (stored new : NodeEntry) : NodeEntry :=
  { stored with
    capsSha256 := if new.capsSha256 = [] then stored.capsSha256 else new.capsSha256
    manifestJson := keptNodeText stored new (·.manifestJson)
    tagsJson := keptNodeText stored new (·.tagsJson)
    toolsJson := keptNodeText stored new (·.toolsJson)
    lastHeartbeatUtcMs :=
      if 0 < new.lastHeartbeatUtcMs then new.lastHeartbeatUtcMs else stored.lastHeartbeatUtcMs }

def upsertEdgeNode (row : EdgeNodeRow) : Bool × Store :=
  if row.nodeId = [] then (false, store)
  else
    (true, { store with
      nodes := upsertBy (·.nodeId) mergeNode
        { row with lastHeartbeatUtcMs := max 0 row.lastHeartbeatUtcMs } store.nodes })

def getEdgeTask (taskId stepId : Bytes) : Option EdgeTaskRow :=
  if taskId = [] ∨ stepId = [] then none
  else lookupBy (·.key) (taskId, stepId) store.tasks

def getEdgeTaskByNodeIdempotency (nodeId idempotencyKey : Bytes) : Option EdgeTaskRow :=
  if nodeId = [] ∨ idempotencyKey = [] then none
  else store.tasks.find? fun row => row.nodeId = nodeId ∧ row.idempotencyKey = idempotencyKey

def getEdgeTaskLockConflict (nodeId resourceLock : Bytes) : Option TaskKey :=
  if nodeId = [] ∨ resourceLock = [] then none
  else
    ((store.tasks.filter fun row =>
      row.nodeId = nodeId ∧ row.resourceLock = resourceLock ∧ row.active).insertionSort
        fun left right => right.updatedUtcMs ≤ left.updatedUtcMs).head?.map (·.key)

def listEdgeTasksExpiredDeadline (nowUtcMs time : Int) (maxRows : Nat) : List EdgeTaskRow :=
  let now := if 0 < time then time else nowUtcMs
  ((store.tasks.filter fun row =>
    row.active ∧ 0 < row.deadlineUtcMs ∧ row.deadlineUtcMs < now).insertionSort
      fun left right => left.deadlineUtcMs ≤ right.deadlineUtcMs).take (listingLimit maxRows)

/-- What an update leaves of a stored task: an empty text keeps the stored one. -/
def mergeTask (stored new : EdgeTaskRow) : EdgeTaskRow :=
  { new with
    traceId := if new.traceId = [] then stored.traceId else new.traceId
    resourceLock := if new.resourceLock = [] then stored.resourceLock else new.resourceLock
    toolName := if new.toolName = [] then stored.toolName else new.toolName
    deadlineUtcMs := if 0 < new.deadlineUtcMs then new.deadlineUtcMs else stored.deadlineUtcMs
    createdUtcMs := stored.createdUtcMs
    resultJson := if new.resultJson = [] then stored.resultJson else new.resultJson
    resultSha256 := if new.resultSha256 = [] then stored.resultSha256 else new.resultSha256
    attestJson := if new.attestJson = [] then stored.attestJson else new.attestJson
    error := if new.error = [] then stored.error else new.error }

def boundTask (nowUtcMs : Int) (row : EdgeTaskRow) : EdgeTaskRow :=
  { row with
    createdUtcMs := if 0 < row.createdUtcMs then row.createdUtcMs else nowUtcMs
    updatedUtcMs := if 0 < row.updatedUtcMs then row.updatedUtcMs else nowUtcMs }

/-- What the checks and the constraint on `(node_id, idempotency_key)` let pass. -/
def acceptsEdgeTask (row : EdgeTaskRow) : Bool :=
  row.taskId ≠ [] ∧ row.stepId ≠ [] ∧ row.nodeId ≠ [] ∧ row.idempotencyKey ≠ [] ∧ row.mode ≠ [] ∧
    row.payloadJson ≠ [] ∧ row.state ≠ [] ∧
    ∀ stored ∈ store.tasks, stored.nodeId = row.nodeId →
      stored.idempotencyKey = row.idempotencyKey → stored.key = row.key

def upsertEdgeTask (nowUtcMs : Int) (row : EdgeTaskRow) : Bool × Store :=
  if store.acceptsEdgeTask row then
    (true, { store with tasks := upsertBy (·.key) mergeTask (boundTask nowUtcMs row) store.tasks })
  else (false, store)

def insertEdgeTaskEvent (nowUtcMs : Int) (row : EdgeTaskEventRow) : Bool × Store :=
  if row.taskId = [] ∨ row.stepId = [] ∨ row.state = [] ∨ row.dataJson = [] then (false, store)
  else
    (true, { store with
      taskEvents := store.taskEvents ++
        [{ row with tsUtcMs := if 0 < row.tsUtcMs then row.tsUtcMs else nowUtcMs }] })

/-- `AgentDb::insert_edge_outbox_message`, with the identifier of the row. -/
def insertEdgeOutboxMessage (nowUtcMs : Int) (row : EdgeOutboxMessageRow) : Option Nat × Store :=
  if row.nodeId = [] then (none, store)
  else
    (some (store.outbox.length + 1), { store with
      outbox := store.outbox ++
        [{ row with tsUtcMs := if 0 < row.tsUtcMs then row.tsUtcMs else nowUtcMs }] })

def getEdgeWorkflow (workflowId : Bytes) : Option EdgeWorkflowRow :=
  if workflowId = [] then none else lookupBy (·.workflowId) workflowId store.workflows

def workflowOrder (left right : EdgeWorkflowRow) : Prop :=
  right.priority < left.priority ∨
    left.priority = right.priority ∧ right.updatedUtcMs ≤ left.updatedUtcMs

instance : DecidableRel workflowOrder := fun _ _ =>
  inferInstanceAs (Decidable (_ ∨ _))

def listEdgeWorkflowsByStatus (status : Bytes) (maxRows : Nat) : List EdgeWorkflowRow :=
  ((store.workflows.filter fun row => row.status = status).insertionSort workflowOrder).take
    (listingLimit maxRows)

def mergeEdgeWorkflow (stored new : EdgeWorkflowRow) : EdgeWorkflowRow :=
  { new with createdUtcMs := stored.createdUtcMs }

def boundEdgeWorkflow (nowUtcMs : Int) (row : EdgeWorkflowRow) : EdgeWorkflowRow :=
  let updated := if 0 < row.updatedUtcMs then row.updatedUtcMs else nowUtcMs
  { row with
    createdUtcMs := if 0 < row.createdUtcMs then row.createdUtcMs else updated
    updatedUtcMs := updated }

def upsertEdgeWorkflow (nowUtcMs : Int) (row : EdgeWorkflowRow) : Bool × Store :=
  if row.workflowId = [] ∨ row.status = [] ∨ row.specJson = [] then (false, store)
  else
    (true, { store with
      workflows := upsertBy (·.workflowId) mergeEdgeWorkflow (boundEdgeWorkflow nowUtcMs row)
        store.workflows })

def listEdgeWorkflowSteps (workflowId : Bytes) : List EdgeWorkflowStepRow :=
  (store.steps.filter fun row => row.workflowId = workflowId).insertionSort fun left right =>
    lexLE left.stepId right.stepId

def mergeStep (stored new : EdgeWorkflowStepRow) : EdgeWorkflowStepRow :=
  { stored with
    state := new.state
    attempt := new.attempt
    maxAttempts := new.maxAttempts
    nextReadyUtcMs := new.nextReadyUtcMs
    backoffMs := new.backoffMs
    updatedUtcMs := new.updatedUtcMs
    error := new.error }

def boundStep (nowUtcMs : Int) (row : EdgeWorkflowStepRow) : EdgeWorkflowStepRow :=
  let updated := if 0 < row.updatedUtcMs then row.updatedUtcMs else nowUtcMs
  { row with
    createdUtcMs := if 0 < row.createdUtcMs then row.createdUtcMs else updated
    updatedUtcMs := updated }

def upsertEdgeWorkflowStep (nowUtcMs : Int) (row : EdgeWorkflowStepRow) : Bool × Store :=
  if row.workflowId = [] ∨ row.stepId = [] ∨ row.kind = [] ∨ row.dependsOnJson = [] ∨
      row.targetJson = [] ∨ row.payloadJson = [] ∨ row.state = [] then (false, store)
  else
    (true, { store with
      steps := upsertBy (·.key) mergeStep (boundStep nowUtcMs row) store.steps })

def insertEdgeWorkflowEvent (nowUtcMs : Int) (row : EdgeWorkflowEventRow) : Bool × Store :=
  if row.workflowId = [] ∨ row.type = [] ∨ row.dataJson = [] then (false, store)
  else
    (true, { store with
      workflowEvents := store.workflowEvents ++
        [{ row with tsUtcMs := if 0 < row.tsUtcMs then row.tsUtcMs else nowUtcMs }] })

def getEdgeToolRateState (nodeId toolName : Bytes) : Option EdgeToolRateStateRow :=
  if nodeId = [] ∨ toolName = [] then none
  else lookupBy (fun row => (row.nodeId, row.toolName)) (nodeId, toolName) store.rateStates

def upsertEdgeToolRateState (row : EdgeToolRateStateRow) : Bool × Store :=
  if row.nodeId = [] ∨ row.toolName = [] then (false, store)
  else
    (true, { store with
      rateStates := upsertBy (fun row => (row.nodeId, row.toolName)) (fun _ new => new) row
        store.rateStates })

end Store

end AgentC.EdgeTasks
