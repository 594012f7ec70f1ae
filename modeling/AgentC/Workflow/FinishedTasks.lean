import AgentC.Workflow.Listings

/-! # Finished tasks

The deadline and cancel branches of a pick write back tasks from a listing. A
task that a worker has finished keeps its status as long as they leave alone
what was claimed behind that listing. -/

namespace AgentC.Workflow

/-- A pick that cancels a task has listed it behind every claim of it. -/
def CancelsUnclaimed (engine : Engine) (event : DaemonEvent) (earlier : List DaemonEvent) : Prop :=
  ∀ row ∈ writeOf event.call event.response,
    (knownBy engine event.thread earlier).claim = none →
      ¬SinceListing (ClaimsTask row.key) event.thread earlier

instance (engine : Engine) (event : DaemonEvent) (earlier : List DaemonEvent) :
    Decidable (CancelsUnclaimed engine event earlier) :=
  inferInstanceAs (Decidable (∀ row ∈ writeOf event.call event.response,
    (knownBy engine event.thread earlier).claim = none →
      ¬SinceListing (ClaimsTask row.key) event.thread earlier))

structure HasStatus (store : Store) (key : Bytes × Bytes) (status : Status) : Prop where
  present : ∃ row ∈ store.tasks, row.key = key
  status : ∀ row ∈ store.tasks, row.key = key → row.status = status

variable {row : WorkflowTaskRow}

theorem upsertWorkflowTask_present {store : Store} {key : Bytes × Bytes}
    (named : row.workflowId ≠ [] ∧ row.taskId ≠ [])
    (present : (∃ stored ∈ store.tasks, stored.key = key) ∨ row.key = key) :
    ∃ stored ∈ (store.upsertWorkflowTask row).2.tasks, stored.key = key := by
  have unnamed : ¬(row.workflowId = [] ∨ row.taskId = []) := not_or.mpr named
  rw [Store.upsertWorkflowTask, if_neg unnamed]
  split
  · next known =>
    have old : ∃ stored ∈ store.tasks, stored.key = key := by
      rcases present with old | own
      · exact old
      · rcases List.any_eq_true.mp known with ⟨stored, member, same⟩
        exact ⟨stored, member, (isTask_iff.mp same).trans own⟩
    rcases old with ⟨stored, member, same⟩
    refine ⟨_, List.mem_map.mpr ⟨stored, member, rfl⟩, ?_⟩
    split
    · next here => exact (isTask_iff.mp here).symm.trans same
    · exact same
  · rcases present with ⟨stored, member, same⟩ | own
    · exact ⟨stored, List.mem_append_left _ member, same⟩
    · exact ⟨_, List.mem_append_right _ (List.mem_singleton.mpr rfl), own⟩

theorem updateQueued_present {tasks : List WorkflowTaskRow} {key sought : Bytes × Bytes}
    {update : WorkflowTaskRow → WorkflowTaskRow} (keeps : ∀ row, (update row).key = row.key)
    (present : ∃ row ∈ tasks, row.key = sought) :
    ∃ row ∈ tasks.map (updateQueued key update), row.key = sought := by
  rcases present with ⟨row, member, same⟩
  refine ⟨_, List.mem_map.mpr ⟨row, member, rfl⟩, ?_⟩
  rw [updateQueued]
  split
  · exact (keeps row).trans same
  · exact same

/-- The task has its final status, nobody executes it, and whoever has listed
it as queued did so in front of a claim. -/
structure Finished (engine : Engine) (key : Bytes × Bytes) (status : Status)
    (events : List DaemonEvent) (store : Store) : Prop where
  stored : HasStatus store key status
  free : ∀ thread, ¬Executes engine thread key events
  stale : ∀ thread copy, copy.key = key → HoldsQueued engine thread copy events →
    SinceListing (ClaimsTask key) thread events

section Finished

variable {engine : Engine} {tables store : Store} {key : Bytes × Bytes} {status : Status}
  {events : List DaemonEvent}

variable {call : Call} {next : Store} {response : Response call}

theorem Finished.other_key {thread : Nat} (trace : DaemonTrace engine tables events store)
    (finished : Finished engine key status events store)
    (writes : WritesTask (knownBy engine thread events) row)
    (unclaimed : (knownBy engine thread events).claim = none →
      ¬SinceListing (ClaimsTask row.key) thread events) : row.key ≠ key := by
  intro sameKey
  cases claimed : (knownBy engine thread events).claim with
  | none =>
    rw [WritesTask, claimed] at writes
    rcases writes with ⟨copy, member, cancels⟩
    have copyKey : copy.key = key := by
      rw [← sameKey, WorkflowTaskRow.key, WorkflowTaskRow.key, cancels.same.workflowId,
        cancels.same.taskId]
    have since := finished.stale thread copy copyKey ⟨claimed, member, cancels.listed⟩
    rw [sameKey] at unclaimed
    exact unclaimed claimed since
  | some claim =>
    have unrecorded : (knownBy engine thread events).recorded = false := by
      rw [WritesTask, claimed] at writes
      exact writes.1
    have holds : HoldsClaim engine thread claim events := ⟨claimed, unrecorded⟩
    have own := (holds.writes trace writes).1
    exact finished.free thread ⟨claim, holds, own.symm.trans sameKey⟩

theorem Finished.unclaimable (finished : Finished engine key status events store)
    (terminal : status.isTerminal = true) (change : TaskChange store next call response)
    (attempt : Int) : claimOf call response ≠ some (key, attempt) := by
  intro claimed
  cases change with
  | untouched unclaimed =>
    rw [unclaimed] at claimed
    exact nomatch claimed
  | written => exact nomatch claimed
  | cancelled => exact nomatch claimed
  | claimed workflowId taskId nowUnixMs newAttempt perWorkflow perSession sessionId found =>
    cases claimed
    rcases found with ⟨row, member, sameKey, queued⟩
    rw [finished.stored.status row member sameKey] at queued
    subst queued
    exact nomatch terminal

theorem HasStatus.change (stored : HasStatus store key status)
    (terminal : status.isTerminal = true) (change : TaskChange store next call response)
    (other : ∀ row ∈ writeOf call response, row.key = key → row.status = status) :
    HasStatus next key status := by
  have notQueued : status ≠ .queued := by
    intro queued
    subst queued
    exact nomatch terminal
  have kept : ∀ {target update}, (∀ row, (update row).key = row.key) →
      next.tasks = store.tasks.map (updateQueued target update) → HasStatus next key status := by
    intro target update keeps tasks
    constructor
    · rw [tasks]
      exact updateQueued_present keeps stored.present
    · intro row member sameKey
      rw [tasks] at member
      rcases mem_updateQueued member with ⟨old, there, _, queued, updated⟩ | ⟨old, _⟩
      · subst updated
        have status_old := stored.status old there ((keeps old).symm.trans sameKey)
        exact absurd (status_old.symm.trans queued) notQueued
      · exact stored.status row old sameKey
  cases change with
  | untouched unclaimed _ same =>
    constructor
    · rw [same]
      exact stored.present
    · rw [same]
      exact stored.status
  | written row named next_eq =>
    subst next_eq
    constructor
    · exact upsertWorkflowTask_present named (.inl stored.present)
    · intro row' member sameKey
      rcases mem_upsertWorkflowTask named member with written | ⟨old, _⟩
      · exact written.status.trans (other row rfl (written.key.symm.trans sameKey))
      · exact stored.status row' old sameKey
  | claimed workflowId taskId nowUnixMs newAttempt perWorkflow perSession sessionId found _ _ _
      tasks =>
    apply kept _ tasks
    intro row
    rfl
  | cancelled workflowId taskId nowUnixMs error resultJson tasks =>
    apply kept _ tasks
    intro row
    rfl

theorem Finished.step {caller : Nat} (trace : DaemonTrace engine tables events store)
    (finished : Finished engine key status events store) (terminal : status.isTerminal = true)
    (allowed : MayCall engine (knownBy engine caller events) call)
    (effect : Effect call store response next)
    (careful : CancelsUnclaimed engine ⟨caller, call, response, store, next⟩ events) :
    Finished engine key status (⟨caller, call, response, store, next⟩ :: events) next := by
  have change := taskChange_of_effect effect
  constructor
  · apply finished.stored.change terminal change
    intro row stored sameKey
    cases change with
    | untouched _ unwritten =>
      rw [unwritten] at stored
      exact nomatch stored
    | written row named next_eq =>
      cases stored
      exact absurd sameKey (finished.other_key trace allowed (careful row rfl))
    | claimed => exact nomatch stored
    | cancelled => exact nomatch stored
  · intro thread executes
    rcases executes_cons executes with ⟨_, attempt, claimed⟩ | ⟨executed, _⟩
    · exact finished.unclaimable terminal change attempt claimed
    · exact finished.free thread executed
  · intro thread copy sameKey holds
    rcases holdsQueued_cons holds effect with ⟨_, held, there, read⟩ | ⟨other, held⟩
    · have queued := holds.2.2
      rw [read] at queued sameKey
      have ended := finished.stored.status held there sameKey
      rw [show held.status = .queued from queued] at ended
      subst ended
      exact nomatch terminal
    · rw [sinceListing_cons other]
      exact .inr (finished.stale thread copy sameKey held)

theorem finished_written {executor : Nat} (trace : DaemonTrace engine tables events store)
    (executes : Executes engine executor row.key events)
    (effect : Effect (.upsertWorkflowTask row) store true next) : Finished engine row.key row.status
      (⟨executor, .upsertWorkflowTask row, true, store, next⟩ :: events) next := by
  have exclusive := exclusive_of_trace trace
  constructor
  · cases taskChange_of_effect effect with
    | untouched _ unwritten => exact nomatch unwritten
    | written _ named next_eq =>
      subst next_eq
      constructor
      · exact upsertWorkflowTask_present named (.inr rfl)
      · intro stored member sameKey
        rcases mem_upsertWorkflowTask named member with written | ⟨_, other⟩
        · exact written.status
        · exact absurd sameKey other
  · intro thread again
    rcases executes_cons again with ⟨_, attempt, impossible⟩ | ⟨executed, quiet⟩
    · exact nomatch impossible
    · have own := exclusive.single row.key executor thread executes executed
      exact quiet own row rfl
  · intro thread copy sameKey holds
    rcases holdsQueued_cons holds effect with ⟨impossible, _⟩ | ⟨other, held⟩
    · exact nomatch impossible
    · rw [sinceListing_cons other]
      rw [← sameKey] at executes ⊢
      exact .inr (claimedSinceListing_of_executes trace executes held)

theorem finished_of_trace {last : Store} {executor : Nat} {before after : Store}
    {later : List DaemonEvent} (trace : DaemonTrace engine tables
      (later ++ ⟨executor, .upsertWorkflowTask row, true, before, after⟩ :: events) last)
    (careful : Throughout (CancelsUnclaimed engine)
      (later ++ ⟨executor, .upsertWorkflowTask row, true, before, after⟩ :: events))
    (executes : Executes engine executor row.key events) (terminal : row.status.isTerminal = true) :
    Finished engine row.key row.status
      (later ++ ⟨executor, .upsertWorkflowTask row, true, before, after⟩ :: events) last := by
  induction later generalizing last with
  | nil =>
    cases trace with
    | cons earlier allowed effect => exact finished_written earlier executes effect
  | cons event later induction =>
    cases trace with
    | cons earlier allowed effect =>
      exact (induction earlier careful.2).step earlier terminal allowed effect careful.1

end Finished

/-- In every run in which no pick cancels a task that was claimed behind its
listing: once the worker that executes a task has written it as finished, the
task has that status in every later state. -/
theorem finished_task_stays (engine : Engine) {tables : Store} {earlier later : List DaemonEvent}
    {executor : Nat} {row : WorkflowTaskRow} {before after : Store} {state : DaemonState}
    (run : DaemonRun engine tables
      (later ++ ⟨executor, .upsertWorkflowTask row, true, before, after⟩ :: earlier) state)
    (careful : Throughout (CancelsUnclaimed engine)
      (later ++ ⟨executor, .upsertWorkflowTask row, true, before, after⟩ :: earlier))
    (executes : Executes engine executor row.key earlier)
    (terminal : row.status.isTerminal = true) :
    HasStatus state.store row.key row.status :=
  (finished_of_trace (daemonTrace_of_run run) careful executes terminal).stored

/-- A worker picks, and before it lists the tasks a cancel request is stored and
a second worker lists the workflow and its queued task. The first worker marks
the workflow with the copy it has, runs the task and is about to record it. -/
def cancelBesideExecution : List (SharedStore.Move Operation Outside) :=
  .start .workerTurn :: List.replicate 4 (.advance 0 {}) ++
    .start (.cancelRequest sampleWorkflow) :: List.replicate 3 (.advance 1 {}) ++
    .start .workerTurn :: List.replicate 5 (.advance 2 {}) ++ List.replicate 7 (.advance 0 {})

/-- The first worker records the task, and the second one cancels it. -/
def cancelAfterExecution : List (SharedStore.Move Operation Outside) :=
  cancelBesideExecution ++ [.advance 0 {}, .advance 2 {}]

/-- The first worker records the task as done, and the second one writes it as
cancelled. -/
theorem finished_task_overwritten :
    ∃ (earlier : List DaemonEvent) (event : DaemonEvent) (row : WorkflowTaskRow)
      (before after : Store) (state : DaemonState),
      DaemonRun sampleEngine sampleTables
        (event :: ⟨0, .upsertWorkflowTask row, true, before, after⟩ :: earlier) state ∧
      Executes sampleEngine 0 row.key earlier ∧ row.status.isTerminal = true ∧
      ¬HasStatus state.store row.key row.status := by
  have run := run_recordedRun sampleEngine sampleTables cancelAfterExecution
  refine ⟨(recordedRun sampleEngine sampleTables cancelBesideExecution).1, _, _, _, _, _, run,
    ⟨_, ⟨rfl, rfl⟩, rfl⟩, rfl, ?_⟩
  intro kept
  have cancelled : ∀ row ∈ (recordedRun sampleEngine sampleTables
      cancelAfterExecution).2.store.tasks, row.status = .cancelled := by
    decide
  rcases kept.present with ⟨row, member, same⟩
  have finished := kept.status row member same
  rw [cancelled row member] at finished
  exact nomatch finished

def execution : List (SharedStore.Move Operation Outside) :=
  .start .workerTurn :: List.replicate 11 (.advance 0 {})

/-- A second worker starts, the first records the result and finalizes, and the
second one picks. -/
def executionBesidePick : List (SharedStore.Move Operation Outside) :=
  execution ++ [.advance 0 {}, .start .workerTurn, .advance 1 {}, .advance 0 {}, .advance 1 {},
    .advance 0 {}]

theorem finished_task_stays_sample :
    HasStatus (recordedRun sampleEngine sampleTables executionBesidePick).2.store
      (sampleWorkflow, ascii "t") .done := by
  have run := run_recordedRun sampleEngine sampleTables executionBesidePick
  exact @finished_task_stays sampleEngine sampleTables
    (recordedRun sampleEngine sampleTables execution).1 [_, _, _, _] 0 _ _ _ _ run
    (by decide) ⟨_, ⟨rfl, rfl⟩, rfl⟩ rfl

end AgentC.Workflow
