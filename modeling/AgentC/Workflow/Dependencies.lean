import AgentC.Workflow.Exclusion

/-! # Dependencies of claimed tasks

The dependencies of a task are checked in a listing of its workflow, and what
they are is the same in every copy of the task. -/

namespace AgentC.Workflow

/-- A status that lets a task of a kind start. -/
def Lets (kind : Bytes) (dependency : WorkflowTaskRow) : Prop :=
  dependency.status = .done ∨ dependency.status = .error ∧ dependency.allowError = true ∨
    kind = ascii "aggregate" ∧ dependency.status.isTerminal = true

variable {engine : Engine}

theorem dependenciesMet_lets {tasks : List WorkflowTaskRow} {task : WorkflowTaskRow}
    (met : dependenciesMet engine tasks task = true) {dependency : Bytes}
    (needed : dependency ∈ engine.parseDepIds task.dependsOnJson) :
    ∃ other ∈ tasks, other.taskId = dependency ∧ Lets (engine.taskKind task.requestJson) other := by
  have allowed := List.all_eq_true.mp met dependency needed
  split at allowed
  · exact nomatch allowed
  · next other found =>
    have same : other.taskId = dependency := by simpa using List.find?_some found
    refine ⟨other, List.mem_reverse.mp (List.mem_of_find?_eq_some found), same, ?_⟩
    simp only [Bool.or_eq_true, Bool.and_eq_true, decide_eq_true_eq] at allowed
    rcases allowed with (done | soft) | aggregate
    · exact .inl done
    · exact .inr (.inl soft)
    · exact .inr (.inr aggregate)

theorem listed_of_trace {tables store : Store} {events : List DaemonEvent}
    (trace : DaemonTrace engine tables events store) (thread : Nat) :
    ∀ copy ∈ (knownBy engine thread events).tasks,
      ∃ event ∈ events, ∃ held ∈ event.before.tasks, copy = Store.readTask held := by
  induction trace with
  | nil =>
    intro copy member
    exact nomatch member
  | @cons events store next caller call response earlier allowed effect induction =>
    intro copy member
    have before : copy ∈ (knownBy engine thread events).tasks →
        ∃ event ∈ (⟨caller, call, response, store, next⟩ :: events : List DaemonEvent),
          ∃ held ∈ event.before.tasks, copy = Store.readTask held := by
      intro old
      rcases induction copy old with ⟨event, there, held⟩
      exact ⟨event, List.mem_cons_of_mem _ there, held⟩
    by_cases own : caller = thread
    · subst own
      rw [knownBy_cons_self] at member
      cases call with
      | listWorkflowTasks asked =>
        cases response with
        | none => exact nomatch member
        | some rows =>
          have reads : Reads store (.listWorkflowTasks asked) (some rows) :=
            reads_of_effect effect
          rcases (reads rows rfl copy).mp member with ⟨held, there, read, _⟩
          exact ⟨_, List.mem_cons_self .., held, there, read⟩
      | claimWorkflowTaskBudgeted workflowId taskId nowUnixMs newAttempt perWorkflow perSession
          sessionId =>
        cases response with
        | false => exact before member
        | true => exact before member
      | _ => exact before member
    · rw [knownBy_cons_other own] at member
      exact before member

theorem copy_of_trace {tables store : Store} {events : List DaemonEvent} (keyed : Keyed tables)
    (trace : DaemonTrace engine tables events store) {thread : Nat} {copy held : WorkflowTaskRow}
    (listed : copy ∈ (knownBy engine thread events).tasks) (there : held ∈ store.tasks)
    (same : held.key = copy.key) : held.identity = copy.identity := by
  have identities := identities_of_trace keyed trace
  have known := (identities.2 thread).tasks copy listed
  rw [← identities.1.tasks] at known
  rcases List.mem_map.mp known with ⟨other, otherThere, identity⟩
  have otherKey : other.key = copy.key := congrArg TaskIdentity.key identity
  have one : held = other := (keyed.of_sameIdentities identities.1).task_eq there otherThere
    (same.trans otherKey.symm)
  rw [one]
  exact identity

/-- In every run: when a task is claimed, every task it depends on had, then or
in an earlier state of the run, a status that lets it start. -/
theorem claimed_dependencies_met (engine : Engine) {tables : Store} (keyed : Keyed tables)
    {earlier later : List DaemonEvent} {thread : Nat} {workflowId taskId sessionId : Bytes}
    {nowUnixMs newAttempt perWorkflow perSession : Int} {before after : Store}
    {state : DaemonState}
    (run : DaemonRun engine tables
      (later ++ ⟨thread, .claimWorkflowTaskBudgeted workflowId taskId nowUnixMs newAttempt
        perWorkflow perSession sessionId, true, before, after⟩ :: earlier) state) :
    ∃ task ∈ before.tasks, task.key = (workflowId, taskId) ∧
      ∀ dependency ∈ engine.parseDepIds task.dependsOnJson,
        ∃ event ∈ earlier, ∃ other ∈ event.before.tasks, other.key = (workflowId, dependency) ∧
          Lets (engine.taskKind task.requestJson) other := by
  rcases SharedStore.Trace.earlier (daemon engine) (daemonTrace_of_run run) with ⟨last, trace⟩
  cases trace with
  | cons trace allowed effect =>
    have change : TaskChange before after (.claimWorkflowTaskBudgeted workflowId taskId nowUnixMs
        newAttempt perWorkflow perSession sessionId) true := taskChange_of_effect effect
    cases change with
    | untouched unclaimed => exact nomatch unclaimed
    | claimed _ _ _ _ _ _ _ found =>
      rcases found with ⟨task, there, sameKey, _⟩
      rcases allowed.2.2.task with ⟨copy, listed, sameId, _, _, met⟩
      have asked := allowed.2.2.listed
      have fromListing := fromListings_of_trace trace thread
      have copyKey : copy.key = (workflowId, taskId) := by
        rw [WorkflowTaskRow.key, fromListing.tasks copy listed, sameId]
        exact congrArg (·, taskId) asked
      have identity := copy_of_trace keyed trace listed there (sameKey.trans copyKey.symm)
      have dependsOnJson : task.dependsOnJson = copy.dependsOnJson :=
        congrArg TaskIdentity.dependsOnJson identity
      have requestJson : task.requestJson = copy.requestJson :=
        congrArg TaskIdentity.requestJson identity
      refine ⟨task, there, sameKey, ?_⟩
      intro dependency needed
      rw [dependsOnJson] at needed
      rcases dependenciesMet_lets met needed with ⟨other, otherListed, otherId, lets⟩
      rcases listed_of_trace trace thread other otherListed with ⟨event, member, held, held_there,
        read⟩
      refine ⟨event, member, held, held_there, ?_, ?_⟩
      · have workflow := (fromListing.tasks other otherListed).trans asked
        rw [read] at workflow otherId
        exact Prod.ext workflow otherId
      · rw [requestJson]
        rw [read] at lets
        exact lets

def chainTables : Store where
  workflows := [{ workflowId := sampleWorkflow }]
  tasks := [{ workflowId := sampleWorkflow, taskId := ascii "a" },
    { workflowId := sampleWorkflow, taskId := ascii "b", dependsOnJson := ascii "[\"a\"]" }]

def chainEngine : Engine :=
  { sampleEngine with
    parseDepIds := fun json => if json = ascii "[\"a\"]" then [ascii "a"] else [] }

def chainSchedule : List (SharedStore.Move Operation Outside) :=
  .start .workerTurn :: List.replicate 16 (.advance 0 {}) ++
    .start .workerTurn :: List.replicate 5 (.advance 1 {})

theorem claimed_dependencies_met_sample :
    ∃ task ∈ (recordedRun chainEngine chainTables chainSchedule).2.store.tasks,
      task.key = (sampleWorkflow, ascii "b") ∧
      ∀ dependency ∈ chainEngine.parseDepIds task.dependsOnJson,
        ∃ event ∈ (recordedRun chainEngine chainTables chainSchedule).1,
          ∃ other ∈ event.before.tasks, other.key = (sampleWorkflow, dependency) ∧
            Lets (chainEngine.taskKind task.requestJson) other := by
  have keyed : Keyed chainTables := ⟨by decide, by decide⟩
  have run := run_recordedRun chainEngine chainTables (chainSchedule ++ [.advance 1 {}])
  exact @claimed_dependencies_met chainEngine chainTables keyed
    (recordedRun chainEngine chainTables chainSchedule).1 [] 1 _ _ _ _ _ _ _ _ _ _ run

end AgentC.Workflow
