import AgentC.EdgeTasks.NodeIsolation

/-! # Progress of tasks

A task is queued, runs and ends. Every message about a task hands a state of its
own to `update_task_state`, which asks whether the task has ended and for the
idempotency key, not how far the task is. -/

namespace AgentC.EdgeTasks

open Program

inductive Progress
  | queued
  | running
  | ended (state : Bytes)
deriving DecidableEq, Repr

namespace Progress

def le : Progress → Progress → Prop
  | .queued, _ => True
  | .running, new => new ≠ .queued
  | .ended state, new => new = .ended state

instance : PartialOrder Progress where
  le := le
  le_refl progress := by
    cases progress with
    | queued => trivial
    | running => exact nofun
    | ended state => rfl
  le_trans first second third rises above := by
    cases first with
    | queued => trivial
    | running =>
      cases second with
      | queued => exact absurd rfl rises
      | running => exact above
      | ended state =>
        rw [show third = .ended state from above]
        exact nofun
    | ended state =>
      rw [show second = .ended state from rises] at above
      exact above
  le_antisymm first second rises falls := by
    cases first with
    | queued =>
      cases second with
      | queued => rfl
      | running => exact absurd rfl falls
      | ended state => exact nomatch (show Progress.queued = .ended state from falls)
    | running =>
      cases second with
      | queued => exact absurd rfl rises
      | running => rfl
      | ended state => exact nomatch (show Progress.running = .ended state from falls)
    | ended state => exact (show second = .ended state from rises).symm

def ofState (state : Bytes) : Option Progress :=
  if state = TaskState.queued then some .queued
  else if state = TaskState.running then some .running
  else if isTerminalTaskState state then some (.ended state)
  else none

variable {state : Bytes}

theorem ofState_of_terminal (terminal : isTerminalTaskState state = true) :
    ofState state = some (.ended state) := by
  have notQueued : state ≠ TaskState.queued := by
    intro same
    rw [same] at terminal
    exact absurd terminal (by decide)
  have notRunning : state ≠ TaskState.running := by
    intro same
    rw [same] at terminal
    exact absurd terminal (by decide)
  rw [ofState, if_neg notQueued, if_neg notRunning, if_pos terminal]

theorem of_live {progress : Progress} (shown : ofState state = some progress)
    (live : isTerminalTaskState state = false) :
    progress = .queued ∨ progress = .running ∧ state = TaskState.running := by
  rw [ofState, live] at shown
  split at shown
  · exact .inl (Option.some.inj shown).symm
  · split at shown
    · next runs => exact .inr ⟨(Option.some.inj shown).symm, runs⟩
    · exact nomatch shown

theorem le_ended {ending : Bytes} {progress : Progress} (shown : ofState state = some progress)
    (live : isTerminalTaskState state = false) : progress ≤ .ended ending := by
  rcases of_live shown live with same | ⟨same, -⟩
  · rw [same]
    trivial
  · rw [same]
    exact nofun

end Progress

def Store.progress (key : TaskKey) (store : Store) : Option Progress :=
  (lookupBy (·.key) key store.tasks).bind fun row => Progress.ofState row.state

/-- The state that a message hands to `update_task_state`, none if it is
malformed. A result that does not fit its schema makes a failure of a success. -/
def Envelope.askedState (envelope : Envelope) : Bytes :=
  match envelope.type with
  | .taskAck =>
    match envelope.body.boolMember (ascii "accepted") with
    | some true => TaskState.queued
    | some false => TaskState.failed
    | none => []
  | .taskEvent => envelope.body.text (ascii "state")
  | .taskDone => TaskState.succeeded
  | .taskFailed => TaskState.failed
  | .nodeCapsRsp => []

/-- A message that a task takes up asks for a state of tasks, and does not queue
a running task. -/
def Orderly (key : TaskKey) (performance : Performance Store Envelope) : Prop :=
  let envelope := performance.operation
  ∀ row, lookupBy (·.key) key performance.before.tasks = some row →
    envelope.addresses row = true → (taskFields envelope.body).valid = true →
    envelope.askedState ≠ [] →
      (envelope.askedState = TaskState.queued ∧ row.state ≠ TaskState.running) ∨
        envelope.askedState = TaskState.running ∨
          isTerminalTaskState envelope.askedState = true

theorem Envelope.Carries.askedState {config : EdgeConfig} {verdict : Json.Tree → Bytes → Prop}
    {envelope : Envelope} {update : TaskUpdate} (carries : envelope.Carries config verdict update) :
    update.state = envelope.askedState ∨ update.state = TaskState.failed := by
  cases carries with
  | accepted now type answer => simp [Envelope.askedState, type, answer, Envelope.update]
  | refused => simp [Envelope.update]
  | reported now type => simp [Envelope.askedState, type, Envelope.update]
  | finished now result error type member checked =>
    rw [doneUpdate]
    split
    · simp [Envelope.askedState, type, Envelope.update]
    · exact .inr rfl
  | failed => simp [Envelope.update]

theorem TaskUpdate.state_appliedRow (config : EdgeConfig) (update : TaskUpdate)
    (row : EdgeTaskRow) : (update.appliedRow config row).state = update.state ∨
      (update.appliedRow config row).state = TaskState.failed := by
  change update.stateEff config row = update.state ∨ update.stateEff config row = TaskState.failed
  rw [stateEff]
  split
  · exact .inr rfl
  · exact .inl rfl

theorem state_ne_of_accepts {store : Store} {row : EdgeTaskRow}
    (accepts : store.acceptsEdgeTask row = true) : row.state ≠ [] := by
  simp [Store.acceptsEdgeTask] at accepts
  tauto

theorem Orderly.rises {key : TaskKey} {performance : Performance Store Envelope}
    (orderly : Orderly key performance) {row : EdgeTaskRow} {old : Progress}
    (stored : lookupBy (·.key) key performance.before.tasks = some row)
    (shown : Progress.ofState row.state = some old)
    (addressed : performance.operation.addresses row = true)
    (valid : (taskFields performance.operation.body).valid = true)
    (asked : performance.operation.askedState ≠ []) :
    ∃ new, Progress.ofState performance.operation.askedState = some new ∧ old ≤ new := by
  have live : isTerminalTaskState row.state = false :=
    Bool.eq_false_iff.mpr (of_decide_eq_true addressed).2.1
  have asks := orderly row stored addressed valid asked
  rcases Progress.of_live shown live with same | ⟨same, runs⟩
  · subst same
    rcases asks with ⟨queues, -⟩ | runs | ends
    · exact ⟨.queued, by rw [queues]; rfl, trivial⟩
    · exact ⟨.running, by rw [runs]; rfl, trivial⟩
    · exact ⟨_, Progress.ofState_of_terminal ends, trivial⟩
  · subst same
    rcases asks with ⟨-, resting⟩ | runs | ends
    · exact absurd runs resting
    · exact ⟨.running, by rw [runs]; rfl, le_refl _⟩
    · exact ⟨_, Progress.ofState_of_terminal ends, nofun⟩

theorem progress_rises {config : EdgeConfig} {key : TaskKey}
    {performance : Performance Store Envelope}
    (performs : (nodeMessages config).Performs performance)
    (orderly : Orderly key performance) {old : Progress}
    (shown : performance.before.progress key = some old) :
    ∃ new, performance.after.progress key = some new ∧ old ≤ new := by
  rcases Option.bind_eq_some_iff.mp shown with ⟨row, stored, state⟩
  have unchanged : lookupBy (·.key) key performance.after.tasks =
      lookupBy (·.key) key performance.before.tasks →
        ∃ new, performance.after.progress key = some new ∧ old ≤ new := by
    intro same
    refine ⟨old, ?_, le_refl old⟩
    rw [Store.progress, same]
    exact shown
  rcases performs_does performs with same | ⟨update, carries, valid, updates⟩
  · exact unchanged (by rw [same])
  · rcases updates.lookup key with same | ⟨found, nowUtcMs, named, there, accepts, written⟩
    · exact unchanged same
    · cases stored.symm.trans there
      rw [Store.progress, written, Option.bind_some]
      change ∃ new, Progress.ofState (update.rowBehind config row).state = some new ∧ old ≤ new
      cases applies : update.applies row with
      | false =>
        rcases update.rowBehind_of_not_applies config applies with ⟨traceId, updatedUtcMs, same⟩
        rw [same]
        exact ⟨old, state, le_refl old⟩
      | true =>
        rw [update.rowBehind_of_applies config applies] at accepts ⊢
        have keyed : row.key = (update.taskId, update.stepId) := by
          rw [← named]
          exact key_of_lookupBy stored
        have addressed := carries.addresses valid keyed applies
        have fails : ∃ new, Progress.ofState TaskState.failed = some new ∧ old ≤ new := by
          have live := Bool.eq_false_iff.mpr (of_decide_eq_true addressed).2.1
          exact ⟨_, Progress.ofState_of_terminal (by decide), Progress.le_ended state live⟩
        rcases update.state_appliedRow config row with same | failed
        · rcases carries.askedState with asked | failed
          · have given : update.state ≠ [] :=
              same ▸ state_ne_of_accepts (accepts performance.before rfl)
            rw [same, asked]
            exact orderly.rises stored state addressed valid (asked ▸ given)
          · rw [same, failed]
            exact fails
        · rw [failed]
          exact fails

section Sequences

variable {config : EdgeConfig} {first last : Store}
  {performances : List (Performance Store Envelope)} {key : TaskKey} {start : Progress}

/-- As long as the messages that a task takes up are orderly, its state is one of
a task and only moves up. -/
theorem task_progress_monotone (sequence : (nodeMessages config).Sequence first performances last)
    (orderly : ∀ performance ∈ performances, Orderly key performance)
    (shown : first.progress key = some start) :
    ∀ performance ∈ performances, ∃ old new, performance.before.progress key = some old ∧
      performance.after.progress key = some new ∧ start ≤ old ∧ old ≤ new := by
  apply sequence.rises (nodeMessages config) _ shown
  intro performance member performs old before
  exact progress_rises performs (orderly performance member) before

end Sequences

def sampleReport : Performance Store Envelope :=
  samplePerformance sampleConfig
    (sampleMessage .taskEvent (ascii "node:a") [(ascii "state", .string TaskState.running)])

def sampleThenFailed : Performance Store Envelope :=
  let envelope : Envelope :=
    { sampleMessage .taskFailed (ascii "node:a") [(ascii "error", .string (ascii "e"))] with
      msgId := ascii "n"
      msgId_ne := by decide
      msgId_length_le := by decide }
  { operation := envelope
    before := sampleReport.after
    after := ((handleEdgeMessage sampleConfig envelope).execute (answer {}) sampleReport.after).2 }

theorem task_progress_monotone_sample :
    sampleThenFailed.after.tasks.map (·.state) = [TaskState.failed] ∧
      ∀ performance ∈ [sampleReport, sampleThenFailed], ∃ old new,
        performance.before.progress (ascii "t", ascii "s") = some old ∧
          performance.after.progress (ascii "t", ascii "s") = some new ∧
            .running ≤ old ∧ old ≤ new := by
  have performs : (nodeMessages sampleConfig).Performs sampleThenFailed :=
    executes_execute (effect_answer {}) (handleEdgeMessage sampleConfig _) _
  refine ⟨by decide, task_progress_monotone
    (.cons (performs_samplePerformance sampleConfig _) (.cons performs (.nil _))) ?_ (by decide)⟩
  intro performance member row _ _ _ _
  rcases List.mem_cons.mp member with here | there
  · rw [here]
    exact .inr (.inl (by decide))
  · rw [List.mem_singleton.mp there]
    exact .inr (.inr (by decide))

/-- The acknowledgement of the assignment arrives when the task runs already. -/
def sampleLateAck : Performance Store Envelope :=
  samplePerformance sampleConfig
    (sampleMessage .taskAck (ascii "node:a") [(ascii "accepted", .bool true)])

def sampleOddReport : Performance Store Envelope :=
  samplePerformance sampleConfig
    (sampleMessage .taskEvent (ascii "node:a") [(ascii "state", .string (ascii "DONE"))])

theorem late_ack_queues_running_task :
    ((nodeMessages sampleConfig).Sequence sampleLateAck.before [sampleLateAck] sampleLateAck.after ∧
        sampleLateAck.before.progress (ascii "t", ascii "s") = some .running ∧
        sampleLateAck.after.progress (ascii "t", ascii "s") = some .queued) ∧
      (nodeMessages sampleConfig).Sequence sampleOddReport.before [sampleOddReport]
          sampleOddReport.after ∧
        sampleOddReport.before.progress (ascii "t", ascii "s") = some .running ∧
        sampleOddReport.after.progress (ascii "t", ascii "s") = none := by
  constructor
  · exact ⟨.cons (performs_samplePerformance sampleConfig _) (.nil _), by decide, by decide⟩
  · exact ⟨.cons (performs_samplePerformance sampleConfig _) (.nil _), by decide, by decide⟩

end AgentC.EdgeTasks
