import AgentC.Foundation.Interleaving
import AgentC.Workflow.Store

/-! # Workflow engine

The operations on the workflow tables as programs over the `AgentDb` calls:
`maybe_finalize_workflow` and `execute_claimed_task` of
`daemon/src/workflow_engine.cpp`, `pick_and_claim_one` of
`daemon/src/workflow_engine_pick.cpp` and the cancel endpoint of
`daemon/src/workflow_admin_endpoints.cpp`. The events written to
`workflow_events` are left out: no operation reads them. -/

namespace AgentC.Workflow

structure RunOutcome where
  ok : Bool
  cancelled : Bool := false
  /-- Whether the deadline was what made the run stop. -/
  deadlineExceeded : Bool := false
  error : Option Bytes := none
  /-- What `apply_expectations` makes of the result: an error when not met. -/
  unmetExpectation : Option Bytes := none
  usage : Usage := {}
  retryInMs : Option Int := none
  resultJson : Bytes := []
deriving DecidableEq, Repr

/-- The calls of the operations: to the database, and to what is outside of it
(the clock, the scheduling policy and the run of a task). -/
inductive Call
  | getWorkflow (workflowId : Bytes)
  | listWorkflowsByStatus (status : Status) (maxRows : Nat)
  | listWorkflowTasks (workflowId : Bytes)
  | upsertWorkflow (row : WorkflowRow)
  | upsertWorkflowTask (row : WorkflowTaskRow)
  | cancelWorkflowTaskIfQueued (workflowId taskId : Bytes) (nowUnixMs : Int)
      (error resultJson : Bytes)
  | claimWorkflowTaskBudgeted (workflowId taskId : Bytes) (nowUnixMs newAttempt : Int)
      (maxInflightPerWorkflow maxInflightPerSession : Int) (sessionId : Bytes)
  | unixMsNow
  | schedule (candidates : List WorkflowRow)
  | runTask (workflow : WorkflowRow) (task : WorkflowTaskRow)

/-- A query fails with `none`, a write with `false`. The scheduling policy
answers with the indices of the candidates in the order they are tried. -/
@[reducible] def Response : Call → Type
  | .getWorkflow _ => Option WorkflowRow
  | .listWorkflowsByStatus _ _ => Option (List WorkflowRow)
  | .listWorkflowTasks _ => Option (List WorkflowTaskRow)
  | .upsertWorkflow _ => Bool
  | .upsertWorkflowTask _ => Bool
  | .cancelWorkflowTaskIfQueued .. => Bool
  | .claimWorkflowTaskBudgeted .. => Bool
  | .unixMsNow => Int
  | .schedule _ => List Nat
  | .runTask _ _ => RunOutcome

abbrev Action := Program Call Response

def getWorkflow (workflowId : Bytes) : Action (Option WorkflowRow) :=
  Program.request (Call.getWorkflow workflowId)

def listWorkflowsByStatus (status : Status) (maxRows : Nat) : Action (Option (List WorkflowRow)) :=
  Program.request (Call.listWorkflowsByStatus status maxRows)

def listWorkflowTasks (workflowId : Bytes) : Action (Option (List WorkflowTaskRow)) :=
  Program.request (Call.listWorkflowTasks workflowId)

def upsertWorkflow (row : WorkflowRow) : Action Bool :=
  Program.request (Call.upsertWorkflow row)

def upsertWorkflowTask (row : WorkflowTaskRow) : Action Bool :=
  Program.request (Call.upsertWorkflowTask row)

def cancelWorkflowTaskIfQueued (workflowId taskId : Bytes) (nowUnixMs : Int)
    (error resultJson : Bytes) : Action Bool :=
  Program.request (Call.cancelWorkflowTaskIfQueued workflowId taskId nowUnixMs error resultJson)

def claimWorkflowTaskBudgeted (workflowId taskId : Bytes) (nowUnixMs newAttempt : Int)
    (maxInflightPerWorkflow maxInflightPerSession : Int) (sessionId : Bytes) : Action Bool :=
  Program.request (Call.claimWorkflowTaskBudgeted workflowId taskId nowUnixMs newAttempt
    maxInflightPerWorkflow maxInflightPerSession sessionId)

def unixMsNow : Action Int :=
  Program.request Call.unixMsNow

def schedule (candidates : List WorkflowRow) : Action (List Nat) :=
  Program.request (Call.schedule candidates)

def runTask (workflow : WorkflowRow) (task : WorkflowTaskRow) : Action RunOutcome :=
  Program.request (Call.runTask workflow task)

structure WorkflowLimits where
  maxToolCallsTotal : Int := 0
  maxStepsTotal : Int := 0
  maxElapsedMsTotal : Int := 0
  maxTotalTokens : Int := 0
deriving DecidableEq, Repr

/-- The options of the engine and what it takes from JSON texts. -/
structure Engine where
  maxScanWorkflows : Nat := 16
  maxInflightPerWorkflow : Int := 0
  maxInflightPerSession : Int := 0
  /-- The deadline in a submit specification, zero without one. -/
  specDeadlineUnixMs : Bytes → Int
  /-- `workflow_limits_best_effort` on the specification. -/
  workflowLimits : Bytes → WorkflowLimits
  /-- `workflow_task_kind_best_effort` on the request. -/
  taskKind : Bytes → Bytes
  /-- `parse_dep_ids` -/
  parseDepIds : Bytes → List Bytes
  /-- The kind of a request after template expansion, if that succeeds. -/
  expandedKind : WorkflowTaskRow → List WorkflowTaskRow → Option Bytes
  /-- The result text of a task that ends without a run. -/
  cancelledResultJson : Bytes → Bytes
  /-- The aggregated result text of a workflow. -/
  finalResultJson : WorkflowRow → Status → Bytes → List WorkflowTaskRow → Bytes

variable (engine : Engine)

/-- `workflow_deadline_unix_ms_best_effort` -/
def Engine.deadlineUnixMs (row : WorkflowRow) : Int :=
  if 0 < row.deadlineUnixMs then row.deadlineUnixMs else engine.specDeadlineUnixMs row.specJson

def Engine.deadlinePassed (row : WorkflowRow) (nowUnixMs : Int) : Bool :=
  0 < engine.deadlineUnixMs row ∧ engine.deadlineUnixMs row < nowUnixMs

/-- `handle_workflow_cancel_endpoint` behind the checks of the request. -/
def cancelRequest (workflowId : Bytes) : Action Unit := do
  match ← getWorkflow workflowId with
  | none => return
  | some workflow =>
    let nowUnixMs ← unixMsNow
    let _ ← upsertWorkflow
      { workflow with
        cancelRequested := true
        updatedUnixMs := nowUnixMs
        status := if workflow.status = .queued then .running else workflow.status }

def finalStatus (workflow : WorkflowRow) (tasks : List WorkflowTaskRow) : Status × Bytes :=
  let hardErrors := tasks.filter fun task => task.status = .error ∧ ¬task.allowError
  let firstError := ((hardErrors.map WorkflowTaskRow.error).find? fun error => error ≠ []).getD []
  let allTerminal := tasks.all fun task => task.status.isTerminal
  let orElse := fun (error fallback : Bytes) => if error = [] then fallback else error
  if !hardErrors.isEmpty then
    (.error, orElse workflow.error (orElse firstError (ascii "workflow task failed")))
  else if workflow.cancelRequested then
    if allTerminal then (.cancelled, orElse workflow.error (ascii "cancelled"))
    else (.running, workflow.error)
  else if allTerminal && !tasks.isEmpty then (.done, [])
  else if tasks.any fun task => task.status = .running then (.running, workflow.error)
  else if tasks.any fun task => task.status = .queued then (.queued, workflow.error)
  else (workflow.status, workflow.error)

def finalResult (workflow : WorkflowRow) (tasks : List WorkflowTaskRow) : Bytes :=
  let final := finalStatus workflow tasks
  if final.1.isTerminal then engine.finalResultJson workflow final.1 final.2 tasks else []

def finalChanges (workflow : WorkflowRow) (tasks : List WorkflowTaskRow) : Bool :=
  let final := finalStatus workflow tasks
  let resultJson := finalResult engine workflow tasks
  final.1 ≠ workflow.status ∨ final.2 ≠ workflow.error ∨
    resultJson ≠ [] ∧ resultJson ≠ workflow.resultJson

def finalRow (workflow : WorkflowRow) (tasks : List WorkflowTaskRow) (nowUnixMs : Int) :
    WorkflowRow :=
  let resultJson := finalResult engine workflow tasks
  { workflow with
    status := (finalStatus workflow tasks).1
    error := (finalStatus workflow tasks).2
    updatedUnixMs := nowUnixMs
    resultJson := if resultJson = [] then workflow.resultJson else resultJson }

def maybeFinalizeWorkflow (workflowId : Bytes) : Action Unit := do
  match ← getWorkflow workflowId with
  | none => return
  | some workflow =>
    match ← listWorkflowTasks workflowId with
    | none => return
    | some tasks =>
      if finalChanges engine workflow tasks then
        let nowUnixMs ← unixMsNow
        let _ ← upsertWorkflow (finalRow engine workflow tasks nowUnixMs)

def taskBefore (left right : WorkflowTaskRow) : Bool :=
  if left.priority.getD 0 ≠ right.priority.getD 0 then
    right.priority.getD 0 < left.priority.getD 0
  else if max 0 left.readyUnixMs ≠ max 0 right.readyUnixMs then
    max 0 left.readyUnixMs < max 0 right.readyUnixMs
  else if left.createdUnixMs ≠ right.createdUnixMs then left.createdUnixMs < right.createdUnixMs
  else ¬lexLE right.taskId left.taskId

def dependenciesMet (tasks : List WorkflowTaskRow) (task : WorkflowTaskRow) : Bool :=
  (engine.parseDepIds task.dependsOnJson).all fun dependency =>
    match tasks.reverse.find? fun other => other.taskId = dependency with
    | none => false
    | some other =>
      other.status = .done || (other.status = .error && other.allowError) ||
        (engine.taskKind task.requestJson = ascii "aggregate" && other.status.isTerminal)

/-- Claim the first of the tasks that can start; the workflow is marked as
running with its first running task. -/
def claimFirst (nowUnixMs : Int) (workflow : WorkflowRow) (tasks : List WorkflowTaskRow) :
    List WorkflowTaskRow → Action (Option (WorkflowRow × WorkflowTaskRow))
  | [] => return none
  | task :: rest => do
    if task.status ≠ .queued ∨ 0 < task.readyUnixMs ∧ nowUnixMs < task.readyUnixMs ∨
        !dependenciesMet engine tasks task then
      claimFirst nowUnixMs workflow tasks rest
    else
      let claimed ← claimWorkflowTaskBudgeted workflow.workflowId task.taskId nowUnixMs
        (task.attempt + 1) engine.maxInflightPerWorkflow engine.maxInflightPerSession
        workflow.sessionId
      if !claimed then claimFirst nowUnixMs workflow tasks rest
      else
        let marked := { workflow with status := .running, updatedUnixMs := nowUnixMs }
        if workflow.status ≠ .running then
          let _ ← upsertWorkflow marked
        return some (if workflow.status ≠ .running then marked else workflow,
          { task with
            status := .running
            attempt := task.attempt + 1
            startedUnixMs := nowUnixMs
            updatedUnixMs := nowUnixMs })

def cancelQueued (tasks : List WorkflowTaskRow) (cancelled : WorkflowTaskRow → WorkflowTaskRow) :
    Action Unit :=
  (tasks.filter fun task => task.status = .queued).forM fun task => do
    let _ ← upsertWorkflowTask (cancelled task)

def anyQueued (tasks : List WorkflowTaskRow) : Bool :=
  tasks.any fun task => task.status = .queued

/-- The deadline branch of `try_pick_in_workflow`. -/
def cancelAtDeadline (nowUnixMs : Int) (workflow : WorkflowRow) : Action Unit := do
  let listed ← listWorkflowTasks workflow.workflowId
  let tasks := listed.getD []
  cancelQueued tasks fun task =>
    { task with
      status := .cancelled
      updatedUnixMs := nowUnixMs
      finishedUnixMs := nowUnixMs
      error := ascii "deadline exceeded" }
  let unmarked := !workflow.cancelRequested || workflow.error != ascii "deadline exceeded"
  if unmarked then
    let _ ← upsertWorkflow
      { workflow with
        cancelRequested := true
        updatedUnixMs := nowUnixMs
        error := ascii "deadline exceeded" }
  if anyQueued tasks || unmarked then
    maybeFinalizeWorkflow engine workflow.workflowId

def tryPickInWorkflow (nowUnixMs : Int) (workflow : WorkflowRow) :
    Action (Option (WorkflowRow × WorkflowTaskRow)) := do
  if workflow.workflowId = [] ∨ workflow.status ≠ .queued ∧ workflow.status ≠ .running then
    return none
  else if engine.deadlinePassed workflow nowUnixMs then
    cancelAtDeadline engine nowUnixMs workflow
    return none
  else
    match ← listWorkflowTasks workflow.workflowId with
    | none => return none
    | some tasks =>
      if 0 < engine.maxInflightPerWorkflow ∧
          engine.maxInflightPerWorkflow ≤ tasks.countP fun task => task.status = .running then
        return none
      else if workflow.cancelRequested then
        cancelQueued tasks fun task =>
          { task with
            status := .cancelled
            updatedUnixMs := nowUnixMs
            error := if task.error = [] then ascii "cancelled" else task.error }
        if anyQueued tasks then
          maybeFinalizeWorkflow engine workflow.workflowId
        return none
      else
        let sorted := tasks.insertionSort fun left right => taskBefore right left = false
        match ← claimFirst engine nowUnixMs workflow tasks sorted with
        | some picked => return some picked
        | none =>
          maybeFinalizeWorkflow engine workflow.workflowId
          return none

def dedupWorkflows : List WorkflowRow → List WorkflowRow
  | [] => []
  | row :: rest => row :: (dedupWorkflows rest).filter fun other => other.workflowId ≠ row.workflowId

theorem mem_of_mem_dedupWorkflows {rows : List WorkflowRow} {row : WorkflowRow}
    (member : row ∈ dedupWorkflows rows) : row ∈ rows := by
  induction rows with
  | nil => exact nomatch member
  | cons first rest induction =>
    rcases List.mem_cons.mp member with same | later
    · rw [same]
      exact List.mem_cons_self ..
    · exact List.mem_cons_of_mem first (induction (List.mem_filter.mp later).1)

def pickInOrder (nowUnixMs : Int) (candidates : List WorkflowRow) :
    List Nat → Action (Option (WorkflowRow × WorkflowTaskRow))
  | [] => return none
  | index :: rest =>
    match candidates[index]? with
    | none => pickInOrder nowUnixMs candidates rest
    | some workflow => do
      match ← tryPickInWorkflow engine nowUnixMs workflow with
      | some picked => return some picked
      | none => pickInOrder nowUnixMs candidates rest

/-- `pick_and_claim_one`. Every policy tries candidates of the one listing, in
an order and with repetitions of its own. -/
def pickAndClaimOne (nowUnixMs : Int) : Action (Option (WorkflowRow × WorkflowTaskRow)) := do
  let fetchMax := max 16 engine.maxScanWorkflows * 8
  match ← listWorkflowsByStatus .queued fetchMax with
  | none => return none
  | some queued =>
    match ← listWorkflowsByStatus .running fetchMax with
    | none => return none
    | some running =>
      let candidates :=
        (dedupWorkflows (queued ++ running)).filter fun row => row.workflowId ≠ []
      let order ← schedule candidates
      pickInOrder engine nowUnixMs candidates order

def int64Max : Int := 2 ^ 63 - 1

/-- `saturating_add_i64` -/
def saturatingAdd (left right : Int) : Int :=
  if right ≤ 0 then left else if int64Max - right < left then int64Max else left + right

def usageTotals (tasks : List WorkflowTaskRow) : Usage :=
  tasks.foldl (fun total task =>
    Usage.combine saturatingAdd total (Usage.combine max {} task.cumulative)) {}

def remainingOf (limit used : Int) : Int :=
  if 0 < limit then max 0 (limit - max 0 (min limit used)) else 0

def exceededLimit (limits : WorkflowLimits) (used : Usage) : Option Bytes :=
  let exhausted := fun (limit usedOf : Int) => 0 < limit ∧ remainingOf limit usedOf ≤ 0
  if exhausted limits.maxToolCallsTotal used.toolCallsTotal then
    some (ascii "max_tool_calls_total")
  else if exhausted limits.maxStepsTotal used.stepsExecuted then some (ascii "max_steps_total")
  else if exhausted limits.maxElapsedMsTotal used.elapsedMs then
    some (ascii "max_elapsed_ms_total")
  else if exhausted limits.maxTotalTokens used.totalTokens then some (ascii "max_total_tokens")
  else none

/-- The kinds of task that run whatever is left of the limits. -/
def unbudgetedKinds : List Bytes :=
  [ascii "avm_capsule", ascii "aggregate", ascii "experience_record", ascii "delay",
    ascii "edge_invoke", ascii "edge_wait_sensor"]

def cancelTaskNow (nowUnixMs : Int) (workflowId : Bytes) (task : WorkflowTaskRow)
    (reason : Bytes) : Action Unit := do
  let error := if reason = [] then ascii "cancelled" else reason
  let _ ← upsertWorkflowTask
    { task with
      status := .cancelled
      updatedUnixMs := nowUnixMs
      finishedUnixMs := nowUnixMs
      readyUnixMs := 0
      error
      resultJson := engine.cancelledResultJson error }
  maybeFinalizeWorkflow engine workflowId

def workflowBudgetExceededCancel (nowUnixMs : Int) (workflowId : Bytes) (latest : WorkflowRow)
    (task : WorkflowTaskRow) (which : Bytes) : Action Unit := do
  let error := ascii "workflow budget exceeded: " ++ which
  let _ ← upsertWorkflow { latest with cancelRequested := true, updatedUnixMs := nowUnixMs, error }
  let listed ← listWorkflowTasks workflowId
  let others := (listed.getD []).filter fun other =>
    other.taskId ≠ [] ∧ other.taskId ≠ task.taskId ∧ other.status = .queued
  others.forM fun other => do
    let _ ← cancelWorkflowTaskIfQueued workflowId other.taskId nowUnixMs error
      (engine.cancelledResultJson error)
  cancelTaskNow engine nowUnixMs workflowId task error

def retryBackoffMs (attempt : Int) : Int :=
  if attempt ≤ 0 then 0 else min 60000 (max 250 (attempt * attempt * 250))

def recordedTask (nowUnixMs : Int) (task : WorkflowTaskRow) (outcome : RunOutcome) :
    WorkflowTaskRow :=
  { task with
    updatedUnixMs := nowUnixMs
    finishedUnixMs := nowUnixMs
    resultJson := outcome.resultJson
    cumulative := Usage.combine saturatingAdd (Usage.combine max {} task.cumulative)
      (Usage.combine max {} outcome.usage) }

/-- The end of a run that was cancelled: the workflow is marked as well. -/
def recordCancelled (nowUnixMs : Int) (workflowId : Bytes) (recorded : WorkflowTaskRow)
    (outcome : RunOutcome) : Action Unit := do
  let reason := if outcome.deadlineExceeded then ascii "deadline exceeded" else ascii "cancelled"
  let _ ← upsertWorkflowTask
    { recorded with
      status := .cancelled
      readyUnixMs := 0
      error := if (outcome.error.getD []).isEmpty then reason else outcome.error.getD [] }
  match ← getWorkflow workflowId with
  | none => pure ()
  | some workflow =>
    if !workflow.cancelRequested ||
        (outcome.deadlineExceeded && workflow.error != ascii "deadline exceeded") then
      let _ ← upsertWorkflow
        { workflow with
          cancelRequested := true
          updatedUnixMs := nowUnixMs
          error :=
            if outcome.deadlineExceeded then ascii "deadline exceeded"
            else if workflow.error = [] then ascii "cancelled" else workflow.error }
  maybeFinalizeWorkflow engine workflowId

/-- The end of a run that failed: another attempt, if there is one left and the
workflow is not cancelled. -/
def recordFailed (nowUnixMs : Int) (workflowId : Bytes) (latest : WorkflowRow)
    (recorded : WorkflowTaskRow) (outcome : RunOutcome) : Action Unit := do
  let failed :=
    { recorded with error := outcome.unmetExpectation.getD (outcome.error.getD (ascii "error")) }
  let current ← getWorkflow workflowId
  let cancelRequested := (current.getD latest).cancelRequested
  if failed.attempt < max 1 failed.maxAttempts && !cancelRequested then
    let delayMs :=
      match outcome.retryInMs with
      | some delay => min 60000 (max 0 delay)
      | none => retryBackoffMs failed.attempt
    let _ ← upsertWorkflowTask { failed with status := .queued, readyUnixMs := nowUnixMs + delayMs }
  else
    let _ ← upsertWorkflowTask { failed with status := .error, readyUnixMs := 0 }
    maybeFinalizeWorkflow engine workflowId

def runAndRecord (nowUnixMs : Int) (workflowId : Bytes) (latest : WorkflowRow)
    (task : WorkflowTaskRow) : Action Unit := do
  let outcome ← runTask latest task
  let recorded := recordedTask nowUnixMs task outcome
  if outcome.cancelled then
    recordCancelled engine nowUnixMs workflowId recorded outcome
  else if outcome.ok && outcome.unmetExpectation.isNone then
    let _ ← upsertWorkflowTask { recorded with status := .done, error := [], readyUnixMs := 0 }
    maybeFinalizeWorkflow engine workflowId
  else recordFailed engine nowUnixMs workflowId latest recorded outcome

def executeClaimedTask (workflow : WorkflowRow) (task : WorkflowTaskRow) : Action Unit := do
  let nowUnixMs ← unixMsNow
  let current ← getWorkflow workflow.workflowId
  let latest := current.getD workflow
  if latest.cancelRequested then
    cancelTaskNow engine nowUnixMs workflow.workflowId task (ascii "cancelled")
  else if engine.deadlinePassed latest nowUnixMs then
    let _ ← upsertWorkflow
      { latest with
        cancelRequested := true
        updatedUnixMs := nowUnixMs
        error := if latest.error = [] then ascii "deadline exceeded" else latest.error }
    cancelTaskNow engine nowUnixMs workflow.workflowId task (ascii "deadline exceeded")
  else
    let listed ← listWorkflowTasks workflow.workflowId
    let tasks := listed.getD []
    let budgeted := fun kind => kind ∉ unbudgetedKinds
    match (engine.expandedKind task tasks).filter budgeted,
        exceededLimit (engine.workflowLimits latest.specJson) (usageTotals tasks) with
    | some _, some which =>
      workflowBudgetExceededCancel engine nowUnixMs workflow.workflowId latest task which
    | _, _ => runAndRecord engine nowUnixMs workflow.workflowId latest task

/-- One turn of the loop of `worker_main`. -/
def workerTurn : Action Unit := do
  let nowUnixMs ← unixMsNow
  match ← pickAndClaimOne engine nowUnixMs with
  | none => return
  | some (workflow, task) => executeClaimedTask engine workflow task

end AgentC.Workflow
