import AgentC.EdgeTasks.Deliveries
import AgentC.EdgeTasks.TaskWrites

/-! # Tasks that have ended

Messages, the deadline sweeper and cancel requests read a task, check in memory
whether it has ended, and write the whole row later. -/

namespace AgentC.EdgeTasks

open Program

inductive TaskOperation
  | message (envelope : Envelope)
  | sweep (maxScanRows : Nat)
  | cancel (workflowId : Bytes)

def taskOperations (config : EdgeConfig) : SharedStore Store TaskOperation Call Response where
  effect := Effect
  program
    | .message envelope => handleEdgeMessage config envelope
    | .sweep maxScanRows => sweepDeadlines config maxScanRows
    | .cancel workflowId => cancelEdgeWorkflow config workflowId

/-- A task that has ended keeps its state as long as it keeps its idempotency
key. -/
def TerminalKept (event : TaskEvent) : Prop :=
  ∀ key row behind, lookupBy (·.key) key event.before.tasks = some row →
    isTerminalTaskState row.state = true →
    lookupBy (·.key) key event.after.tasks = some behind →
    behind.idempotencyKey = row.idempotencyKey → behind.state = row.state

def Call.readsTask : Call → Bool
  | .getEdgeTask _ _ => true
  | _ => false

def Store.showsTask (store : Store) (row : EdgeTaskRow) : Bool :=
  (lookupBy (·.key) row.key store.tasks).any fun stored =>
    stored.state = row.state ∧ stored.idempotencyKey = row.idempotencyKey

def Call.endsTask (key : TaskKey) (before : Store) : (call : Call) → Response call → Bool
  | .upsertEdgeTask row, (stored : Bool) =>
    decide (row.key = key) && isTerminalTaskState row.state && !before.showsTask row && stored
  | _, _ => false

/-- Since the last read of a thread that writes a task, the task has not ended. -/
def WriteUndisturbed (event : TaskEvent) (earlier : List TaskEvent) : Prop :=
  ∀ row ∈ event.call.writtenTask,
    SharedStore.Undisturbed (fun event => event.call.readsTask = true)
      (fun event => event.call.endsTask row.key event.before event.response = true) event.thread earlier

instance : DecidableRel WriteUndisturbed := fun _ _ =>
  inferInstanceAs (Decidable (∀ _ ∈ _, _))

/-- If the task with the key has ended, under the idempotency key of the copy, the
copy shows it. -/
def CopyCurrent (key : TaskKey) : Basis → Store → Prop
  | .copy read, store => read.key = key →
      ∀ stored, lookupBy (·.key) key store.tasks = some stored →
        stored.idempotencyKey = read.idempotencyKey →
        isTerminalTaskState stored.state = true → stored.state = read.state
  | _, _ => True

variable {store next : Store}

theorem CopyCurrent.of_tasks {key : TaskKey} {basis : Basis}
    (current : CopyCurrent key basis store) (same : next.tasks = store.tasks) :
    CopyCurrent key basis next := by
  cases basis with
  | copy read =>
    intro keyed stored found
    rw [same] at found
    exact current keyed stored found
  | _ => trivial

theorem copyCurrent_read {key : TaskKey} {taskId stepId : Bytes} {response : Option EdgeTaskRow}
    (effect : Effect (.getEdgeTask taskId stepId) store response next) (basis : Basis) :
    CopyCurrent key (basis.advance (.getEdgeTask taskId stepId) response) next := by
  rcases effect_getEdgeTask effect with ⟨same, answered⟩
  rw [same]
  cases response with
  | none => trivial
  | some row =>
    intro keyed stored found _ _
    have there := lookupBy_of_getEdgeTask (answered.resolve_left nofun).symm
    have named : row.key = (taskId, stepId) := key_of_lookupBy there
    rw [← named, keyed] at there
    rw [Option.some.inj (found.symm.trans there)]

theorem exists_of_showsTask {row : EdgeTaskRow} (shown : store.showsTask row = true) :
    ∃ stored, lookupBy (·.key) row.key store.tasks = some stored ∧ stored.state = row.state ∧
      stored.idempotencyKey = row.idempotencyKey := by
  rw [Store.showsTask, Option.any_eq_true] at shown
  rcases shown with ⟨stored, found, same⟩
  exact ⟨stored, found, of_decide_eq_true same⟩

theorem CopyCurrent.others {key : TaskKey} {basis : Basis} {event : TaskEvent}
    (effect : Effect event.call event.before event.response event.after)
    (harmless : ¬event.call.endsTask key event.before event.response = true) (current : CopyCurrent key basis event.before) :
    CopyCurrent key basis event.after := by
  rcases event with ⟨thread, call, response, before, after⟩
  cases call with
  | upsertEdgeTask row =>
    cases basis with
    | copy read =>
      intro keyed stored found sameKey ended
      by_cases changed : lookupBy (·.key) key after.tasks = lookupBy (·.key) key before.tasks
      · exact current keyed stored (changed ▸ found) sameKey ended
      · have written := lookup_of_written effect found changed
        cases shown : before.showsTask row with
        | true =>
          rcases exists_of_showsTask shown with ⟨old, held, state, idempotencyKey⟩
          rw [written.2.1] at held
          rw [written.2.2.1, ← state] at ended ⊢
          apply current keyed old held _ ended
          rw [idempotencyKey, ← written.2.2.2]
          exact sameKey
        | false =>
          have ends : (decide (row.key = key) && isTerminalTaskState row.state &&
              !before.showsTask row && response) = true := by
            rw [decide_eq_true written.2.1, ← written.2.2.1, ended, shown]
            exact written.1
          exact absurd ends harmless
    | _ => trivial
  | _ => exact current.of_tasks (effect.tasks rfl)

theorem CopyCurrent.own {key : TaskKey} {basis : Basis} {event : TaskEvent}
    (allowed : (taskConduct false).allowed basis event.call)
    (effect : Effect event.call event.before event.response event.after)
    (before : event.call.readsTask = true ∨
      ¬event.call.endsTask key event.before event.response = true ∧
        CopyCurrent key basis event.before) :
    CopyCurrent key (basis.advance event.call event.response) event.after := by
  rcases event with ⟨thread, call, response, store, next⟩
  cases call with
  | getEdgeTask => exact copyCurrent_read effect basis
  | upsertEdgeTask row => trivial
  | getEdgeTaskByNodeIdempotency => exact nomatch allowed
  | getEdgeTaskLockConflict => exact nomatch allowed
  | _ => exact (before.resolve_left nofun).2.of_tasks (effect.tasks rfl)

theorem taskOperations_follow (config : EdgeConfig) (operation : TaskOperation) :
    ((taskOperations config).program operation).Follows (taskConduct false) (fun _ _ => True)
      .nothing := by
  cases operation with
  | message envelope => exact handleEdgeMessage_keepsConduct config envelope
  | sweep maxScanRows => exact sweepDeadlines_keepsConduct config maxScanRows
  | cancel workflowId => exact cancelEdgeWorkflow_keepsConduct config workflowId

section Runs

variable {config : EdgeConfig} {first store : Store} {events : List TaskEvent}

/-- A write that rests on a current copy keeps what has ended. -/
theorem terminalKept_of_current {read row : EdgeTaskRow} {stored : Bool} {thread : Nat}
    (rests : row.RestsOn (.copy read)) (effect : Effect (.upsertEdgeTask row) store stored next)
    (current : CopyCurrent row.key (.copy read) store) :
    TerminalKept ⟨thread, .upsertEdgeTask row, stored, store, next⟩ := by
  intro key held behind found ended reached sameKey
  by_cases changed : lookupBy (·.key) key next.tasks = lookupBy (·.key) key store.tasks
  · have same : some behind = some held := reached.symm.trans (changed.trans found)
    rw [Option.some.inj same]
  · rcases lookup_of_written effect reached changed with ⟨-, here, state, idempotencyKey⟩
    have keyed : read.key = row.key := rests.1.key.symm
    have readKey : held.idempotencyKey = read.idempotencyKey := by
      rw [← sameKey, idempotencyKey]
      exact rests.1.idempotencyKey
    have shown : held.state = read.state := current keyed held (here ▸ found) readKey ended
    calc behind.state = row.state := state
      _ = read.state := rests.2 (shown ▸ ended)
      _ = held.state := shown.symm

theorem terminalKept_of_trace {event : TaskEvent}
    (trace : SharedStore.Trace (taskOperations config) (taskConduct false) .nothing first
      (event :: events) store) (undisturbed : WriteUndisturbed event events) :
    TerminalKept event := by
  cases trace with
  | @cons _ before _ thread call response earlier allowed effect =>
    cases call with
    | upsertEdgeTask row =>
      have current := SharedStore.Trace.undisturbed (taskOperations config)
        (@trivial : CopyCurrent row.key .nothing first) (fun _ => CopyCurrent.own)
        CopyCurrent.others earlier (undisturbed row rfl)
      generalize SharedStore.known (taskConduct false) .nothing thread events = basis
        at allowed current
      cases basis with
      | copy read => exact terminalKept_of_current allowed.1 effect current
      | nothing => exact nomatch allowed.2
      | free => exact nomatch allowed.2
    | _ =>
      intro key held behind found ended reached _
      have same := effect.tasks rfl
      rw [same] at reached
      rw [Option.some.inj (reached.symm.trans found)]

/-- The state of a task that has ended stays, under one idempotency key, as long
as no write crosses the end of its task. -/
theorem terminal_tasks_kept {state : SystemState Store TaskOperation Call Response}
    (run : (taskOperations config).Run { store := first } events state)
    (undisturbed : Throughout WriteUndisturbed events) : ∀ event ∈ events, TerminalKept event := by
  have trace := SharedStore.Run.trace (taskOperations config) (taskOperations_follow config) run
  generalize state.store = last at trace
  clear run
  induction events generalizing last with
  | nil => exact fun _ member => nomatch member
  | cons event earlier induction =>
    intro other member
    rcases List.mem_cons.mp member with here | there
    · rw [here]
      exact terminalKept_of_trace trace undisturbed.1
    · cases trace with
      | cons before => exact induction undisturbed.2 _ before other there

end Runs

def sampleExpiring : Store where
  tasks := [{ sampleTask with deadlineUtcMs := 4 }]

def sampleProgress : Envelope :=
  { sampleMessage .taskEvent (ascii "node:a") [(ascii "state", .string (ascii "RUNNING"))] with
    trace := some (.object [(ascii "trace_id", .string (ascii "r"))]) }

def sampleEndings (schedule : List (SharedStore.Move TaskOperation Outside)) :
    List TaskEvent × SystemState Store TaskOperation Call Response :=
  schedule.foldl ((taskOperations sampleConfig).record answer) ([], { store := sampleExpiring })

theorem run_sampleEndings (schedule : List (SharedStore.Move TaskOperation Outside)) :
    (taskOperations sampleConfig).Run { store := sampleExpiring } (sampleEndings schedule).1
      (sampleEndings schedule).2 :=
  SharedStore.run_records (taskOperations sampleConfig) effect_answer .refl schedule

/-- The task has ended when the report arrives, which still writes its trace. -/
def sampleReportAfterSweep : List (SharedStore.Move TaskOperation Outside) :=
  [.start (.sweep 8)] ++ List.replicate 6 (.advance 0 { nowUtcMs := 9 }) ++
    [.start (.message sampleProgress)] ++ List.replicate 4 (.advance 1 { nowUtcMs := 9 })

theorem terminal_tasks_kept_sample :
    Throughout WriteUndisturbed (sampleEndings sampleReportAfterSweep).1 ∧
      ∀ event ∈ (sampleEndings sampleReportAfterSweep).1, TerminalKept event :=
  ⟨by decide, terminal_tasks_kept (run_sampleEndings sampleReportAfterSweep) (by decide)⟩

/-- The sweeper ends the task between the read and the write of the report. -/
def sampleReportAcrossSweep : List (SharedStore.Move TaskOperation Outside) :=
  [.start (.message sampleProgress), .start (.sweep 8)] ++
    List.replicate 3 (.advance 0 { nowUtcMs := 9 }) ++
    List.replicate 4 (.advance 1 { nowUtcMs := 9 }) ++ [.advance 0 { nowUtcMs := 9 }]

theorem ended_task_runs_again :
    (taskOperations sampleConfig).Run { store := sampleExpiring }
        (sampleEndings sampleReportAcrossSweep).1 (sampleEndings sampleReportAcrossSweep).2 ∧
      ∃ event ∈ (sampleEndings sampleReportAcrossSweep).1, ¬TerminalKept event := by
  refine ⟨run_sampleEndings sampleReportAcrossSweep, _, List.mem_cons_self .., fun kept => ?_⟩
  have same := kept (ascii "t", ascii "s") _ _ rfl (by decide) rfl rfl
  exact absurd same (by decide)

end AgentC.EdgeTasks
