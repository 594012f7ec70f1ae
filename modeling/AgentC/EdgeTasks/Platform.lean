import AgentC.EdgeTasks.Messages

/-! # Tasks that the platform ends

A round of the deadline sweeper of `daemon/src/edge_deadline_sweeper.cpp`, and
`handle_edge_workflow_cancel_endpoint` of `daemon/src/edge_workflow_endpoints.cpp`
from the accepted request on. -/

namespace AgentC.EdgeTasks

open Json (decimalInt)

namespace WorkflowStatus

def queued : Bytes := ascii "QUEUED"
def running : Bytes := ascii "RUNNING"
def succeeded : Bytes := ascii "SUCCEEDED"
def failed : Bytes := ascii "FAILED"
def canceled : Bytes := ascii "CANCELED"

end WorkflowStatus

def EdgeTaskRow.timedOut (row : EdgeTaskRow) (now : Int) : EdgeTaskRow :=
  { row with
    state := TaskState.timedOut
    updatedUtcMs := now
    error := if row.error = [] then ascii "deadline exceeded" else row.error }

def timeoutData (row : EdgeTaskRow) (now : Int) : Json.Tree :=
  .ofMembers [
    (ascii "task_id", .string row.taskId),
    (ascii "step_id", .string row.stepId),
    (ascii "node_id", .string row.nodeId),
    (ascii "deadline_utc_ms", .number (decimalInt row.deadlineUtcMs)),
    (ascii "now_utc_ms", .number (decimalInt now)),
    (ascii "error", .string row.error)]

def timeOutStep (row : EdgeTaskRow) (now : Int) : Action Unit := do
  match ← getEdgeWorkflow row.taskId with
  | none => pure ()
  | some _ =>
    match ← listEdgeWorkflowSteps row.taskId with
    | none => pure ()
    | some steps =>
      match steps.find? fun step => step.stepId = row.stepId with
      | none => pure ()
      | some step =>
        let _ ← upsertEdgeWorkflowStep { step with
          state := TaskState.timedOut
          updatedUtcMs := now
          error := if step.error = [] then row.error else step.error }

/-- One task of the listing: it is read again, and ends unless it has ended. -/
def sweepTask (config : EdgeConfig) (now : Int) (listed : EdgeTaskRow) : Action Unit := do
  if listed.taskId = [] ∨ listed.stepId = [] then pure ()
  else
    match ← getEdgeTask listed.taskId listed.stepId with
    | none => pure ()
    | some row =>
      if isTerminalTaskState row.state ∨ row.deadlineUtcMs ≤ 0 ∨ now ≤ row.deadlineUtcMs then
        pure ()
      else
        let ended := row.timedOut now
        let _ ← upsertEdgeTask ended
        let _ ← insertEdgeTaskEvent {
          taskId := ended.taskId
          stepId := ended.stepId
          tsUtcMs := now
          state := TaskState.timedOut
          dataJson := config.json.write (timeoutData ended now) }
        timeOutStep ended now

/-- A round of `EdgeDeadlineSweeperEngine::worker_main`. -/
def sweepDeadlines (config : EdgeConfig) (maxScanRows : Nat) : Action Unit := do
  let now ← unixMsNow
  let expired ← listEdgeTasksExpiredDeadline now maxScanRows
  expired.forM (sweepTask config now)

def EdgeTaskRow.canceled (row : EdgeTaskRow) (now : Int) : EdgeTaskRow :=
  { row with
    state := TaskState.canceled
    updatedUtcMs := now
    error := if row.error = [] then ascii "canceled" else row.error }

def cancelTask (now : Int) (workflowId stepId : Bytes) : Action Unit := do
  match ← getEdgeTask workflowId stepId with
  | none => pure ()
  | some row =>
    performWhen (!isTerminalTaskState row.state) (upsertEdgeTask (row.canceled now))

def cancelStep (now : Int) (workflowId : Bytes) (step : EdgeWorkflowStepRow) : Action Unit := do
  if isTerminalTaskState step.state then pure ()
  else
    let _ ← upsertEdgeWorkflowStep { step with
      state := TaskState.canceled
      updatedUtcMs := now }
    if step.kind ≠ ascii "join" then cancelTask now workflowId step.stepId
    else pure ()

/-- A workflow that a cancel request leaves alone. -/
def isEndedWorkflowStatus (status : Bytes) : Bool :=
  status = WorkflowStatus.canceled ∨ status = WorkflowStatus.succeeded ∨
    status = WorkflowStatus.failed

/-- `handle_edge_workflow_cancel_endpoint` -/
def cancelEdgeWorkflow (config : EdgeConfig) (workflowId : Bytes) : Action Unit := do
  match ← getEdgeWorkflow workflowId with
  | none => respond 404
  | some workflow =>
    let now ← unixMsNow
    performWhen (!isEndedWorkflowStatus workflow.status) <|
      upsertEdgeWorkflow { workflow with
        status := WorkflowStatus.canceled
        updatedUtcMs := now }
    let listed ← listEdgeWorkflowSteps workflowId
    (listed.getD []).forM (cancelStep now workflowId)
    let _ ← insertEdgeWorkflowEvent {
      workflowId
      tsUtcMs := now
      type := ascii "workflow_canceled"
      dataJson := config.json.write (.object [(ascii "workflow_id", .string workflowId)]) }
    respond 200

end AgentC.EdgeTasks
