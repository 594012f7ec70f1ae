import AgentC.Workflow.Engine

/-! # The running daemon

Any number of workers, cancel requests and finalizations share the tables,
interleaved call by call. -/

namespace AgentC.Workflow

inductive Operation
  | cancelRequest (workflowId : Bytes)
  | workerTurn
  | finalize (workflowId : Bytes)
deriving DecidableEq, Repr

def Operation.program (engine : Engine) : Operation → Action Unit
  | .cancelRequest workflowId => Workflow.cancelRequest workflowId
  | .workerTurn => Workflow.workerTurn engine
  | .finalize workflowId => maybeFinalizeWorkflow engine workflowId

/-- What is outside of the database: the clock, the order of the candidates and
the outcome of a run. -/
structure Outside where
  nowUnixMs : Int := 1
  order : List Nat := [0]
  outcome : RunOutcome := { ok := true }
deriving DecidableEq, Repr

/-- A call that succeeds: its response and the tables behind it. -/
def answer (outside : Outside) : (call : Call) → Store → Response call × Store
  | .getWorkflow workflowId, store => (store.getWorkflow workflowId, store)
  | .listWorkflowsByStatus status maxRows, store =>
    (some (store.listWorkflowsByStatus status maxRows), store)
  | .listWorkflowTasks workflowId, store => (some (store.listWorkflowTasks workflowId), store)
  | .upsertWorkflow row, store => store.upsertWorkflow row
  | .upsertWorkflowTask row, store => store.upsertWorkflowTask row
  | .cancelWorkflowTaskIfQueued workflowId taskId nowUnixMs error resultJson, store =>
    store.cancelWorkflowTaskIfQueued workflowId taskId nowUnixMs error resultJson
  | .claimWorkflowTaskBudgeted workflowId taskId nowUnixMs newAttempt perWorkflow perSession
      sessionId, store =>
    store.claimWorkflowTaskBudgeted workflowId taskId nowUnixMs newAttempt perWorkflow perSession
      sessionId
  | .unixMsNow, store => (outside.nowUnixMs, store)
  | .schedule _, store => (outside.order, store)
  | .runTask _ _, store => (outside.outcome, store)

theorem answer_workflows (outside : Outside) {call : Call} (store : Store)
    (other : ∀ row, call ≠ .upsertWorkflow row) :
    (answer outside call store).2.workflows = store.workflows := by
  cases call with
  | upsertWorkflow row => exact absurd rfl (other row)
  | upsertWorkflowTask row => exact store.upsertWorkflowTask_workflows row
  | cancelWorkflowTaskIfQueued workflowId taskId nowUnixMs error resultJson =>
    exact store.cancelWorkflowTaskIfQueued_workflows workflowId taskId nowUnixMs error resultJson
  | claimWorkflowTaskBudgeted workflowId taskId nowUnixMs newAttempt perWorkflow perSession
      sessionId =>
    exact store.claimWorkflowTaskBudgeted_workflows workflowId taskId nowUnixMs newAttempt
      perWorkflow perSession sessionId
  | _ => rfl

def Failed : (call : Call) → Response call → Prop
  | .getWorkflow _, response => response = none
  | .listWorkflowsByStatus _ _, response => response = none
  | .listWorkflowTasks _, response => response = none
  | .upsertWorkflow _, response => response = false
  | .upsertWorkflowTask _, response => response = false
  | .cancelWorkflowTaskIfQueued .., response => response = false
  | .claimWorkflowTaskBudgeted .., response => response = false
  | .unixMsNow, _ => False
  | .schedule _, _ => False
  | .runTask _ _, _ => False

/-- A call does its work, or fails and leaves the tables as they are. -/
def Effect (call : Call) (store : Store) (response : Response call) (next : Store) : Prop :=
  (∃ outside, (response, next) = answer outside call store) ∨
    Failed call response ∧ next = store

def daemon (engine : Engine) : SharedStore Store Operation Call Response where
  effect := Effect
  program := Operation.program engine

theorem daemon_answers (engine : Engine) (outside : Outside) (call : Call) (store : Store) :
    (daemon engine).effect call store (answer outside call store).1 (answer outside call store).2 :=
  .inl ⟨outside, rfl⟩

abbrev DaemonState := SystemState Store Operation Call Response

def Reachable (engine : Engine) (state : DaemonState) : Prop :=
  ∃ tables, (daemon engine).Reaches { store := tables } state

def sampleWorkflow : Bytes := ascii "w"

def sampleEngine : Engine where
  specDeadlineUnixMs := fun _ => 0
  workflowLimits := fun _ => {}
  taskKind := fun _ => []
  parseDepIds := fun _ => []
  expandedKind := fun _ _ => some []
  cancelledResultJson := fun error => error
  finalResultJson := fun _ _ _ _ => ascii "\x7b\x7d"

def sampleTables : Store where
  workflows := [{ workflowId := sampleWorkflow }]
  tasks := [{ workflowId := sampleWorkflow, taskId := ascii "t" }]

def sampleRun (schedule : List (SharedStore.Move Operation Outside)) : DaemonState :=
  schedule.foldl ((daemon sampleEngine).move answer) { store := sampleTables }

theorem reachable_sampleRun (schedule : List (SharedStore.Move Operation Outside)) :
    Reachable sampleEngine (sampleRun schedule) :=
  ⟨sampleTables, (daemon sampleEngine).reaches_moves (daemon_answers sampleEngine) _ schedule⟩

theorem reaches_sampleRun (schedule further : List (SharedStore.Move Operation Outside)) :
    (daemon sampleEngine).Reaches (sampleRun schedule) (sampleRun (schedule ++ further)) := by
  rw [sampleRun, sampleRun, List.foldl_append]
  exact (daemon sampleEngine).reaches_moves (daemon_answers sampleEngine) _ further

end AgentC.Workflow
