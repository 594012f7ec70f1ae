import AgentC.Foundation.ByteOrder

/-! # Workflow tables

The `workflows` and `workflow_tasks` tables and the `AgentDb` calls of
`daemon/src/agent_db_jobs.cpp` on them. Each call holds the database lock, so
it is one function from the tables to its result and the tables behind it. -/

namespace AgentC.Workflow

inductive Status
  | queued
  | running
  | done
  | error
  | cancelled
deriving DecidableEq, Repr

/-- `workflow_is_terminal_status` -/
def Status.isTerminal : Status → Bool
  | .done | .error | .cancelled => true
  | .queued | .running => false

structure WorkflowRow where
  workflowId : Bytes
  sessionId : Bytes := []
  traceId : Bytes := []
  /-- Not set when `none`: an update keeps the stored one. -/
  priority : Option Int := none
  deadlineUnixMs : Int := 0
  idempotencyKey : Bytes := []
  createdUnixMs : Int := 0
  updatedUnixMs : Int := 0
  status : Status := .queued
  cancelRequested : Bool := false
  error : Bytes := []
  specJson : Bytes := []
  resultJson : Bytes := []
deriving DecidableEq, Repr

/-- Resources used, of one attempt or summed over the attempts of a task. -/
structure Usage where
  toolCallsTotal : Int := 0
  stepsExecuted : Int := 0
  elapsedMs : Int := 0
  promptTokens : Int := 0
  completionTokens : Int := 0
  totalTokens : Int := 0
deriving DecidableEq, Repr

def Usage.combine (operation : Int → Int → Int) (left right : Usage) : Usage where
  toolCallsTotal := operation left.toolCallsTotal right.toolCallsTotal
  stepsExecuted := operation left.stepsExecuted right.stepsExecuted
  elapsedMs := operation left.elapsedMs right.elapsedMs
  promptTokens := operation left.promptTokens right.promptTokens
  completionTokens := operation left.completionTokens right.completionTokens
  totalTokens := operation left.totalTokens right.totalTokens

structure WorkflowTaskRow where
  workflowId : Bytes
  taskId : Bytes
  priority : Option Int := none
  createdUnixMs : Int := 0
  updatedUnixMs : Int := 0
  status : Status := .queued
  allowError : Bool := false
  attempt : Int := 0
  maxAttempts : Int := 1
  readyUnixMs : Int := 0
  startedUnixMs : Int := 0
  finishedUnixMs : Int := 0
  dependsOnJson : Bytes := []
  requestJson : Bytes := []
  expectJson : Bytes := []
  resultJson : Bytes := []
  error : Bytes := []
  cumulative : Usage := {}
deriving DecidableEq, Repr

structure Store where
  workflows : List WorkflowRow := []
  tasks : List WorkflowTaskRow := []
deriving DecidableEq, Repr

namespace Store

/-- A row as a query returns it: a priority that is not set reads as zero. -/
def readWorkflow (row : WorkflowRow) : WorkflowRow :=
  { row with priority := some (row.priority.getD 0) }

def readTask (row : WorkflowTaskRow) : WorkflowTaskRow :=
  { row with priority := some (row.priority.getD 0) }

def getWorkflow (store : Store) (workflowId : Bytes) : Option WorkflowRow :=
  if workflowId = [] then none
  else (store.workflows.find? fun row => row.workflowId = workflowId).map readWorkflow

/-- The order of the scheduler's query: priority, then age, then identifier. -/
def schedulerOrder (left right : WorkflowRow) : Prop :=
  right.priority.getD 0 < left.priority.getD 0 ∨
    left.priority.getD 0 = right.priority.getD 0 ∧
      (left.createdUnixMs < right.createdUnixMs ∨
        left.createdUnixMs = right.createdUnixMs ∧ lexLE left.workflowId right.workflowId)

instance : DecidableRel schedulerOrder := fun _ _ =>
  inferInstanceAs (Decidable (_ ∨ _))

def listingLimit (maxRows : Nat) : Nat :=
  if maxRows = 0 then 64 else min maxRows 512

/-- `AgentDb::list_workflows_by_status_for_scheduler` -/
def listWorkflowsByStatus (store : Store) (status : Status) (maxRows : Nat) : List WorkflowRow :=
  (((store.workflows.filter fun row => row.status = status).insertionSort schedulerOrder).take
    (listingLimit maxRows)).map readWorkflow

def taskOrder (left right : WorkflowTaskRow) : Prop :=
  left.createdUnixMs < right.createdUnixMs ∨
    left.createdUnixMs = right.createdUnixMs ∧ lexLE left.taskId right.taskId

instance : DecidableRel taskOrder := fun _ _ =>
  inferInstanceAs (Decidable (_ ∨ _))

def listWorkflowTasks (store : Store) (workflowId : Bytes) : List WorkflowTaskRow :=
  ((store.tasks.filter fun row => row.workflowId = workflowId).insertionSort taskOrder).map
    readTask

/-- What an update leaves of a stored row: the fields that are set only when
the new value has one keep the stored value otherwise. -/
def mergeWorkflow (stored new : WorkflowRow) : WorkflowRow :=
  { new with
    sessionId := if new.sessionId = [] then stored.sessionId else new.sessionId
    traceId := if new.traceId = [] then stored.traceId else new.traceId
    priority := new.priority.or stored.priority
    deadlineUnixMs := if 0 < new.deadlineUnixMs then new.deadlineUnixMs else stored.deadlineUnixMs
    idempotencyKey := if new.idempotencyKey = [] then stored.idempotencyKey else new.idempotencyKey
    createdUnixMs := stored.createdUnixMs }

def boundWorkflow (row : WorkflowRow) : WorkflowRow :=
  { row with
    createdUnixMs := if 0 < row.createdUnixMs then row.createdUnixMs else row.updatedUnixMs
    specJson := if row.specJson = [] then ascii "\x7b\x7d" else row.specJson }

/-- `AgentDb::upsert_workflow`. Every caller stamps the row with the time. -/
def upsertWorkflow (store : Store) (row : WorkflowRow) : Bool × Store :=
  if row.workflowId = [] then (false, store)
  else if store.workflows.any fun stored => stored.workflowId = row.workflowId then
    (true, { store with
      workflows := store.workflows.map fun stored =>
        if stored.workflowId = row.workflowId then mergeWorkflow stored (boundWorkflow row)
        else stored })
  else (true, { store with workflows := store.workflows ++ [boundWorkflow row] })

/-- What a write always takes from the written row. -/
structure Written (row stored : WorkflowRow) : Prop where
  workflowId : stored.workflowId = row.workflowId
  status : stored.status = row.status
  cancelRequested : stored.cancelRequested = row.cancelRequested
  error : stored.error = row.error
  resultJson : stored.resultJson = row.resultJson

variable {row : WorkflowRow} (store : Store)

theorem mem_upsertWorkflow {store : Store} {stored : WorkflowRow} (named : row.workflowId ≠ [])
    (member : stored ∈ (store.upsertWorkflow row).2.workflows) :
    Written row stored ∨ stored ∈ store.workflows ∧ stored.workflowId ≠ row.workflowId := by
  rw [upsertWorkflow, if_neg named] at member
  split at member
  · rcases List.mem_map.mp member with ⟨old, there, merged⟩
    split at merged
    · subst merged
      exact .inl ⟨rfl, rfl, rfl, rfl, rfl⟩
    · next other =>
      subst merged
      exact .inr ⟨there, other⟩
  · next absent =>
    rcases List.mem_append.mp member with old | new
    · refine .inr ⟨old, ?_⟩
      intro same
      exact absent (List.any_eq_true.mpr ⟨stored, old, decide_eq_true same⟩)
    · rw [List.mem_singleton.mp new]
      exact .inl ⟨rfl, rfl, rfl, rfl, rfl⟩

theorem upsertWorkflow_tasks (row : WorkflowRow) :
    (store.upsertWorkflow row).2.tasks = store.tasks := by
  rw [upsertWorkflow]
  split
  · rfl
  · split
    · rfl
    · rfl

theorem upsertWorkflow_unnamed {store : Store} (unnamed : row.workflowId = []) :
    store.upsertWorkflow row = (false, store) :=
  if_pos unnamed

theorem upsertWorkflow_present {store : Store} {workflowId : Bytes}
    (present : (∃ stored ∈ store.workflows, stored.workflowId = workflowId) ∨
      row.workflowId = workflowId ∧ row.workflowId ≠ []) :
    ∃ stored ∈ (store.upsertWorkflow row).2.workflows, stored.workflowId = workflowId := by
  rw [upsertWorkflow]
  split
  · next unnamed =>
    rcases present with old | own
    · exact old
    · exact absurd unnamed own.2
  · split
    · next known =>
      have old : ∃ stored ∈ store.workflows, stored.workflowId = workflowId := by
        rcases present with old | own
        · exact old
        · rcases List.any_eq_true.mp known with ⟨stored, member, same⟩
          exact ⟨stored, member, (of_decide_eq_true same).trans own.1⟩
      rcases old with ⟨stored, member, same⟩
      refine ⟨_, List.mem_map.mpr ⟨stored, member, rfl⟩, ?_⟩
      split
      · next own => exact own.symm.trans same
      · exact same
    · rcases present with ⟨stored, member, same⟩ | own
      · exact ⟨stored, List.mem_append_left _ member, same⟩
      · exact ⟨boundWorkflow row, List.mem_append_right _ (List.mem_singleton.mpr rfl), own.1⟩

def mergeTask (stored new : WorkflowTaskRow) : WorkflowTaskRow :=
  { new with
    priority := new.priority.or stored.priority
    createdUnixMs := stored.createdUnixMs
    cumulative := Usage.combine max new.cumulative stored.cumulative }

def boundTask (row : WorkflowTaskRow) : WorkflowTaskRow :=
  { row with
    createdUnixMs := if 0 < row.createdUnixMs then row.createdUnixMs else row.updatedUnixMs
    attempt := max 0 row.attempt
    maxAttempts := if row.maxAttempts ≤ 0 then 1 else row.maxAttempts
    readyUnixMs := max 0 row.readyUnixMs
    startedUnixMs := max 0 row.startedUnixMs
    finishedUnixMs := max 0 row.finishedUnixMs
    cumulative := Usage.combine max {} row.cumulative }

def isTask (workflowId taskId : Bytes) (row : WorkflowTaskRow) : Bool :=
  row.workflowId = workflowId ∧ row.taskId = taskId

def upsertWorkflowTask (store : Store) (row : WorkflowTaskRow) : Bool × Store :=
  if row.workflowId = [] ∨ row.taskId = [] then (false, store)
  else if store.tasks.any (isTask row.workflowId row.taskId) then
    (true, { store with
      tasks := store.tasks.map fun stored =>
        if isTask row.workflowId row.taskId stored then mergeTask stored (boundTask row)
        else stored })
  else (true, { store with tasks := store.tasks ++ [boundTask row] })

theorem upsertWorkflowTask_workflows (row : WorkflowTaskRow) :
    (store.upsertWorkflowTask row).2.workflows = store.workflows := by
  rw [upsertWorkflowTask]
  split
  · rfl
  · split
    · rfl
    · rfl

/-- An update of the task row while it is queued, and whether there was one. -/
def updateQueuedTask (store : Store) (workflowId taskId : Bytes)
    (update : WorkflowTaskRow → WorkflowTaskRow) : Bool × Store :=
  let affected := fun row => isTask workflowId taskId row && row.status == .queued
  (store.tasks.any affected,
    { store with
      tasks := store.tasks.map fun row => if affected row then update row else row })

def cancelWorkflowTaskIfQueued (store : Store) (workflowId taskId : Bytes) (nowUnixMs : Int)
    (error resultJson : Bytes) : Bool × Store :=
  if workflowId = [] ∨ taskId = [] then (false, store)
  else
    store.updateQueuedTask workflowId taskId fun row =>
      { row with
        status := .cancelled
        updatedUnixMs := nowUnixMs
        finishedUnixMs := nowUnixMs
        readyUnixMs := 0
        error
        resultJson }

theorem cancelWorkflowTaskIfQueued_workflows (workflowId taskId : Bytes) (nowUnixMs : Int)
    (error resultJson : Bytes) :
    (store.cancelWorkflowTaskIfQueued workflowId taskId nowUnixMs error resultJson).2.workflows =
      store.workflows := by
  rw [cancelWorkflowTaskIfQueued]
  split
  · rfl
  · rfl

def claimWorkflowTask (store : Store) (workflowId taskId : Bytes) (nowUnixMs newAttempt : Int) :
    Bool × Store :=
  if workflowId = [] ∨ taskId = [] then (false, store)
  else
    store.updateQueuedTask workflowId taskId fun row =>
      { row with
        status := .running
        updatedUnixMs := nowUnixMs
        startedUnixMs := if row.startedUnixMs = 0 then nowUnixMs else row.startedUnixMs
        attempt := max 0 newAttempt }

def runningInWorkflow (store : Store) (workflowId : Bytes) : Nat :=
  store.tasks.countP fun row => row.workflowId = workflowId ∧ row.status = .running

def runningInSession (store : Store) (sessionId : Bytes) : Nat :=
  store.tasks.countP fun row => row.status = .running ∧
    store.workflows.any fun workflow =>
      workflow.workflowId = row.workflowId ∧ workflow.sessionId = sessionId

/-- `AgentDb::claim_workflow_task_budgeted`: nothing is claimed while a limit
that is set is reached. -/
def claimWorkflowTaskBudgeted (store : Store) (workflowId taskId : Bytes)
    (nowUnixMs newAttempt : Int) (maxInflightPerWorkflow maxInflightPerSession : Int)
    (sessionId : Bytes) : Bool × Store :=
  if 0 < maxInflightPerWorkflow ∧ maxInflightPerWorkflow ≤ store.runningInWorkflow workflowId then
    (false, store)
  else if 0 < maxInflightPerSession ∧ sessionId ≠ [] ∧
      maxInflightPerSession ≤ store.runningInSession sessionId then
    (false, store)
  else store.claimWorkflowTask workflowId taskId nowUnixMs newAttempt

theorem claimWorkflowTaskBudgeted_workflows (workflowId taskId : Bytes)
    (nowUnixMs newAttempt maxInflightPerWorkflow maxInflightPerSession : Int) (sessionId : Bytes) :
    (store.claimWorkflowTaskBudgeted workflowId taskId nowUnixMs newAttempt maxInflightPerWorkflow
      maxInflightPerSession sessionId).2.workflows = store.workflows := by
  rw [claimWorkflowTaskBudgeted]
  split
  · rfl
  · split
    · rfl
    · rw [claimWorkflowTask]
      split
      · rfl
      · rfl

/-- `AgentDb::recover_inflight_workflows`: what was running is queued again. -/
def recoverInflightWorkflows (store : Store) (nowUnixMs : Int) : Store where
  workflows := store.workflows.map fun row =>
    if row.status = .running then { row with status := .queued, updatedUnixMs := nowUnixMs }
    else row
  tasks := store.tasks.map fun row =>
    if row.status = .running then { row with status := .queued, updatedUnixMs := nowUnixMs }
    else row

end Store

end AgentC.Workflow
