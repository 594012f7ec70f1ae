import AgentC.EdgeTasks.CanceledWorkflows

/-! # Retries of failed steps

A round of the engine recovers a pending step from its task. The task of a failed
attempt is still there, so the step fails once more, and its retry is scheduled
anew. -/

namespace AgentC.EdgeTasks

open Program

def AttemptFailed (task : Option EdgeTaskRow) : Prop :=
  ∃ row, task = some row ∧ (row.state = TaskState.failed ∨ row.state = TaskState.timedOut)

def Call.assigns (key : TaskKey) : Call → Bool
  | .upsertEdgeTask row => row.key = key
  | .insertEdgeOutboxMessage row => assignedKey row.envelope = key
  | _ => false

def Call.reliable (key : TaskKey) (before : Store) : (call : Call) → Response call → Bool
  | .getEdgeTask taskId stepId, (found : Option EdgeTaskRow) =>
    (taskId, stepId) ≠ key ∨ found = before.getEdgeTask taskId stepId
  | .unixMsNow, (now : Int) => 0 ≤ now
  | _, _ => true

/-- The responses while the last attempt of a step has failed. -/
def AttemptOver (key : TaskKey) : (call : Call) → Response call → Prop
  | .getEdgeTask taskId stepId, (found : Option EdgeTaskRow) =>
    (∀ row, found = some row → row.key = (taskId, stepId)) ∧
      ((taskId, stepId) = key → AttemptFailed found)
  | .unixMsNow, (now : Int) => 0 ≤ now
  | _, _ => True

def LeavesStep (key : TaskKey) : Call → Prop
  | .upsertEdgeTask row => row.key ≠ key
  | .insertEdgeOutboxMessage row => assignedKey row.envelope ≠ key
  | _ => True

variable {key : TaskKey} {now : Int}

theorem LeavesStep.not_assigns {call : Call} (leaves : LeavesStep key call) :
    call.assigns key = false := by
  cases call with
  | upsertEdgeTask row => exact decide_eq_false leaves
  | insertEdgeOutboxMessage row => exact decide_eq_false leaves
  | _ => rfl

theorem leaves_of_ofPass {α : Type} {program : Action α} {post : α → Prop}
    (passes : program.Satisfies (fun _ _ => True) Call.OfPass post) :
    program.Satisfies (AttemptOver key) (LeavesStep key) post := by
  apply passes.weaken
  · exact fun _ _ _ => trivial
  · intro call ofPass
    cases call with
    | upsertEdgeTask row => exact ofPass.elim
    | insertEdgeOutboxMessage row => exact ofPass.elim
    | _ => trivial

theorem leaves_of_ofDispatch {other : TaskKey} {α : Type} {program : Action α} {post : α → Prop}
    (different : other ≠ key)
    (dispatches : program.Satisfies (fun _ _ => True) (Call.OfDispatch other) post) :
    program.Satisfies (AttemptOver key) (LeavesStep key) post := by
  apply dispatches.weaken
  · exact fun _ _ _ => trivial
  · intro call ofDispatch
    cases call with
    | upsertEdgeTask row => exact fun here => different (Eq.trans (Eq.symm ofDispatch) here)
    | insertEdgeOutboxMessage row =>
      exact fun here => different (Eq.trans (Eq.symm ofDispatch) here)
    | _ => trivial

section Rounds

variable (config : EdgeConfig) (key : TaskKey)

def Settled (workflowId : Bytes) (step : EdgeWorkflowStepRow) : Prop :=
  (workflowId, step.stepId) = key → isJoin step = false → step.state ≠ TaskState.pending

def Waiting (workflowId : Bytes) (now : Int) (step : EdgeWorkflowStepRow) : Prop :=
  (workflowId, step.stepId) = key → isJoin step = false → step.state = TaskState.pending →
    now < step.nextReadyUtcMs

variable (workflowId : Bytes)

theorem recoverStep_settles (now : Int) (step : EdgeWorkflowStepRow) :
    (recoverStep workflowId now step).Satisfies (AttemptOver key) (LeavesStep key)
      (Settled key workflowId) := by
  rw [recoverStep]
  split
  · next skipped =>
    intro _ notJoin pending
    rcases skipped with joins | other
    · cases notJoin.symm.trans joins
    · exact other pending
  · apply satisfies_call trivial
    intro found assumed
    -- The task of the step is found, and it has failed.
    have failed : (workflowId, step.stepId) = key → AttemptFailed found := assumed.2
    cases found with
    | none =>
      intro here
      rcases failed here with ⟨_, impossible, -⟩
      cases impossible
    | some task =>
      have ended : (workflowId, step.stepId) = key →
          task.state = TaskState.failed ∨ task.state = TaskState.timedOut := by
        intro here
        rcases failed here with ⟨row, same, ended⟩
        cases same
        exact ended
      simp only
      split
      · next empty =>
        intro here
        rw [empty] at ended
        exact absurd (ended here) (by decide)
      · apply satisfies_call trivial
        intro _ _ here _ pending
        have state : task.state = TaskState.pending := pending
        rw [state] at ended
        exact absurd (ended here) (by decide)

theorem scheduleRetry_waits (now : Int) (step : EdgeWorkflowStepRow)
    (settled : Settled key workflowId step) :
    (scheduleRetry config workflowId now step).Satisfies (AttemptOver key) (LeavesStep key)
      (Waiting key workflowId now) := by
  apply (leaves_of_ofPass (scheduleRetry_ofPass config workflowId now step)).mono
  intro result ⟨stepId, kind, later⟩ here notJoin pending
  rcases later with state | later
  · rw [stepId] at here
    rw [isJoin, kind] at notJoin
    exact absurd (state.symm.trans pending) (settled here notJoin)
  · exact later

theorem evaluateJoin_waits (now : Int) (states : StepStates) (step : EdgeWorkflowStepRow)
    (waiting : Waiting key workflowId now step) :
    (evaluateJoin config states step).Satisfies (AttemptOver key) (LeavesStep key)
      (Waiting key workflowId now) := by
  apply (leaves_of_ofPass (evaluateJoin_ofPass config step states)).mono
  intro result changed
  rcases changed with same | joins
  · rw [same]
    exact waiting
  · intro _ notJoin
    exact nomatch notJoin.symm.trans joins

theorem dispatchStep_leaves (clock : 0 ≤ now) (state : DispatchState) (step : EdgeWorkflowStepRow)
    (live : isJoin step = false) (pending : step.state = TaskState.pending)
    (waiting : Waiting key state.workflow.workflowId now step) :
    (dispatchStep config now state step).Satisfies (AttemptOver key) (LeavesStep key)
      (SameWorkflow state) := by
  by_cases here : (state.workflow.workflowId, step.stepId) = key
  · have later := waiting here live pending
    exact leaves_of_ofPass (dispatchStep_ofPass config now state step
      ⟨Int.lt_of_le_of_lt clock later, later⟩)
  · exact leaves_of_ofDispatch here (dispatchStep_ofDispatch config now state step)

theorem dispatchSteps_leaves (clock : 0 ≤ now) (state : DispatchState)
    (steps : List EdgeWorkflowStepRow)
    (waiting : ∀ step ∈ steps, Waiting key state.workflow.workflowId now step) :
    (dispatchSteps config now state steps).Satisfies (AttemptOver key) (LeavesStep key)
      fun _ => True := by
  induction steps generalizing state with
  | nil => trivial
  | cons step rest induction =>
    rw [List.forall_mem_cons] at waiting
    rw [dispatchSteps]
    apply satisfies_call trivial
    intro stop _
    split
    · trivial
    · split
      · trivial
      · split
        · apply satisfies_bind
          apply (induction state waiting.2).mono
          exact fun _ _ => trivial
        · next eligible =>
          rw [not_or, not_ne_iff, Bool.not_eq_true] at eligible
          apply satisfies_call trivial
          intro found _
          split
          · trivial
          · apply satisfies_bind
            apply (dispatchStep_leaves config key clock state step eligible.1 eligible.2
              waiting.1).mono
            intro result same
            apply satisfies_bind
            have rest := waiting.2
            rw [← show result.1.workflow.workflowId = state.workflow.workflowId from same]
              at rest
            apply (induction result.1 rest).mono
            exact fun _ _ => trivial

theorem updateStatus_leaves (now : Int) (workflow : EdgeWorkflowRow)
    (steps : List EdgeWorkflowStepRow) :
    (updateStatus now workflow steps).Satisfies (AttemptOver key) (LeavesStep key)
      fun _ => True := by
  rw [updateStatus]
  simp only [performWhen]
  split
  · exact satisfies_call trivial fun _ _ => trivial
  · trivial

theorem processSteps_leaves (budget : Nat) (workflow : EdgeWorkflowRow)
    (steps : List EdgeWorkflowStepRow) :
    (processSteps config budget workflow steps).Satisfies (AttemptOver key) (LeavesStep key)
      fun _ => True := by
  rw [processSteps]
  apply satisfies_call trivial
  intro now clock
  apply satisfies_bind
  apply (@satisfies_passOver _ _ _ (fun _ => True) _ steps
    (fun step _ => recoverStep_settles key workflow.workflowId now step) fun _ _ => trivial).mono
  intro recovered settled
  apply satisfies_bind
  apply (satisfies_passUntilStop trivial
    (scheduleRetry_waits config key workflow.workflowId now) _ settled).mono
  · intro scheduled waiting
    apply satisfies_bind
    apply (satisfies_evaluateJoins config (stepStates scheduled) trivial
      (evaluateJoin_waits config key workflow.workflowId now) waiting).mono
    intro joined waiting
    apply satisfies_bind
    apply (dispatchSteps_leaves config key clock _ joined waiting).mono
    intro reached _
    apply satisfies_call trivial
    intro found _
    split
    · trivial
    · apply satisfies_bind
      apply (updateStatus_leaves key now _ _).mono
      exact fun _ _ => trivial
  · intro step settled here notJoin pending
    exact absurd pending (settled here notJoin)

theorem tickWorkflows_leaves (budget : Nat) (listed : List EdgeWorkflowRow) :
    (tickWorkflows config budget listed).Satisfies (AttemptOver key) (LeavesStep key)
      fun _ => True := by
  induction listed generalizing budget with
  | nil => trivial
  | cons workflow rest induction =>
    rw [tickWorkflows]
    apply satisfies_call trivial
    intro stop _
    split
    · trivial
    · split
      · trivial
      · split
        · exact induction budget
        · apply satisfies_bind
          have ticks : (tickWorkflow config budget workflow).Satisfies (AttemptOver key)
              (LeavesStep key) fun _ => True := by
            rw [tickWorkflow]
            apply satisfies_call trivial
            intro found _
            simp only
            split
            · trivial
            · apply satisfies_call trivial
              intro listedSteps _
              cases listedSteps with
              | none => trivial
              | some steps =>
                apply satisfies_call trivial
                intro found _
                split
                · trivial
                · exact processSteps_leaves config key budget _ steps
          apply ticks.mono
          exact fun budget _ => induction budget

theorem edgeTick_leaves (options : EngineOptions) :
    (edgeTick config options).Satisfies (AttemptOver key) (LeavesStep key) fun _ => True := by
  rw [edgeTick]
  apply satisfies_call trivial
  intro queued _
  apply satisfies_call trivial
  intro running _
  exact tickWorkflows_leaves config key _ _

theorem cancelTask_leaves (now : Int) (workflowId stepId : Bytes) :
    (cancelTask now workflowId stepId).Satisfies (AttemptOver key) (LeavesStep key)
      fun _ => True := by
  rw [cancelTask]
  apply satisfies_call trivial
  intro found assumed
  cases found with
  | none => trivial
  | some row =>
    simp only [performWhen]
    split
    · next live =>
      refine satisfies_call (fun here => ?_) fun _ _ => trivial
      -- The task of the step has ended, and so it is not canceled.
      have same : row.key = (workflowId, stepId) := assumed.1 row rfl
      rcases assumed.2 (same.symm.trans here) with ⟨other, found, ended⟩
      cases found
      rw [Bool.not_eq_true', isTerminalTaskState, decide_eq_false_iff_not] at live
      apply live
      rcases ended with failed | timedOut
      · exact .inr (.inl failed)
      · exact .inr (.inr (.inl timedOut))
    · trivial

theorem cancelStep_leaves (now : Int) (workflowId : Bytes) (step : EdgeWorkflowStepRow) :
    (cancelStep now workflowId step).Satisfies (AttemptOver key) (LeavesStep key)
      fun _ => True := by
  rw [cancelStep]
  split
  · trivial
  · apply satisfies_call trivial
    intro _ _
    split
    · exact cancelTask_leaves key now workflowId step.stepId
    · trivial

theorem cancelEdgeWorkflow_leaves :
    (cancelEdgeWorkflow config workflowId).Satisfies (AttemptOver key) (LeavesStep key)
      fun _ => True := by
  rw [cancelEdgeWorkflow]
  apply satisfies_call trivial
  intro found _
  cases found with
  | none => exact ⟨trivial, fun _ _ => trivial⟩
  | some workflow =>
    apply satisfies_call trivial
    intro now _
    refine satisfies_performWhen_bind trivial ?_
    apply satisfies_call trivial
    intro listed _
    apply satisfies_bind
    have cancels : ((listed.getD []).forM (cancelStep now workflowId)).Satisfies
        (AttemptOver key) (LeavesStep key) fun _ => True := by
      apply satisfies_forM
      exact fun step _ => cancelStep_leaves key now workflowId step
    apply cancels.mono
    intro _ _
    exact satisfies_call trivial fun _ _ => ⟨trivial, fun _ _ => trivial⟩

end Rounds

section Runs

variable {config : EdgeConfig} {workflowId stepId : Bytes}

theorem engineOperations_leave (operation : EngineOperation) :
    ((engineOperations config).program operation).Satisfies (AttemptOver (workflowId, stepId))
      (LeavesStep (workflowId, stepId)) fun _ => True := by
  cases operation with
  | tick options => exact edgeTick_leaves config _ options
  | cancel workflowId => exact cancelEdgeWorkflow_leaves config _ workflowId

theorem answered_of_reliable {taskId stepId : Bytes} {before : Store} {found : Option EdgeTaskRow}
    (reliable : (Call.getEdgeTask taskId stepId).reliable key before found = true)
    (here : (taskId, stepId) = key) : found = before.getEdgeTask taskId stepId :=
  (of_decide_eq_true reliable).resolve_left (not_not_intro here)

theorem clock_of_reliable {before : Store}
    (reliable : Call.unixMsNow.reliable key before now = true) : 0 ≤ now :=
  of_decide_eq_true reliable

theorem attemptOver_of_reliable {event : EngineEvent}
    (failed : AttemptFailed (event.before.getEdgeTask workflowId stepId))
    (leaves : LeavesStep (workflowId, stepId) event.call)
    (effect : Effect event.call event.before event.response event.after)
    (reliable : event.call.reliable (workflowId, stepId) event.before event.response = true) :
    AttemptOver (workflowId, stepId) event.call event.response ∧
      AttemptFailed (event.after.getEdgeTask workflowId stepId) := by
  rcases event with ⟨thread, call, response, before, after⟩
  have kept : after.tasks = before.tasks →
      AttemptFailed (after.getEdgeTask workflowId stepId) := by
    intro same
    rw [Store.getEdgeTask, same]
    exact failed
  cases call with
  | getEdgeTask =>
    refine ⟨⟨?_, ?_⟩, kept (effect.tasks rfl)⟩
    · intro row found
      have there := (effect_getEdgeTask effect).2.resolve_left (found ▸ by rintro ⟨⟩)
      exact key_of_lookupBy (lookupBy_of_getEdgeTask (there.symm.trans found))
    · intro here
      rw [answered_of_reliable reliable here]
      cases here
      exact failed
  | unixMsNow => exact ⟨clock_of_reliable reliable, kept (effect.tasks rfl)⟩
  | upsertEdgeTask row =>
    refine ⟨trivial, ?_⟩
    rcases lookup_upsertEdgeTask effect (workflowId, stepId) with same | ⟨-, here, -⟩
    · rw [Store.getEdgeTask, same]
      exact failed
    · exact absurd here leaves
  | _ => exact ⟨trivial, kept (effect.tasks rfl)⟩

/-- A step whose last attempt has failed or timed out is not assigned again,
however often and however late the engine comes round. -/
theorem failed_attempts_not_retried {first : Store} {events : List EngineEvent}
    {state : SystemState Store EngineOperation Call Response}
    (run : (engineOperations config).Run { store := first } events state)
    (failed : AttemptFailed (first.getEdgeTask workflowId stepId))
    (reliable : ∀ event ∈ events,
      event.call.reliable (workflowId, stepId) event.before event.response = true) :
    ∀ event ∈ events, event.call.assigns (workflowId, stepId) = false := by
  have promised := @SharedStore.Run.promised _ _ _ _ (engineOperations config)
    (fun store => AttemptFailed (store.getEdgeTask workflowId stepId)) _ _
    engineOperations_leave _ _ _ run failed
    fun event member failed leaves effect =>
      attemptOver_of_reliable failed leaves effect (reliable event member)
  exact fun event member => (promised.1 event member).not_assigns

end Runs

def sampleRetryConfig : EdgeConfig :=
  { sampleConfig with
    json := { Workflow.sampleLibrary with
      parse := fun text =>
        if text = ascii "t" then some (.object [(ascii "node_id", .string (ascii "a"))])
        else if text = ascii "[]" then some (.array [])
        else some (.object []) } }

def sampleFailedStep : EdgeWorkflowStepRow where
  workflowId := ascii "w"
  stepId := ascii "s"
  kind := ascii "run_agent"
  dependsOnJson := ascii "[]"
  targetJson := ascii "t"
  payloadJson := ascii "p"
  attempt := 1
  maxAttempts := 2
  state := TaskState.failed

def sampleRetryStore : Store where
  workflows := [{
    workflowId := ascii "w"
    status := WorkflowStatus.queued
    specJson := ascii "x"
    createdUtcMs := 1
    updatedUtcMs := 1 }]
  steps := [sampleFailedStep]
  tasks := [{
    taskId := ascii "w"
    stepId := ascii "s"
    nodeId := ascii "a"
    idempotencyKey := ascii "wf:w:s:a1"
    mode := ascii "agent"
    payloadJson := ascii "p"
    state := TaskState.failed
    createdUtcMs := 1
    updatedUtcMs := 1 }]

def sampleRetries (schedule : List (SharedStore.Move EngineOperation Outside)) :
    List EngineEvent × SystemState Store EngineOperation Call Response :=
  schedule.foldl ((engineOperations sampleRetryConfig).record answer)
    ([], { store := sampleRetryStore })

theorem run_sampleRetries (schedule : List (SharedStore.Move EngineOperation Outside)) :
    (engineOperations sampleRetryConfig).Run { store := sampleRetryStore }
      (sampleRetries schedule).1 (sampleRetries schedule).2 :=
  SharedStore.run_records (engineOperations sampleRetryConfig) effect_answer .refl schedule

def sampleFirstRound : List (SharedStore.Move EngineOperation Outside) :=
  .start (.tick {}) :: List.replicate 20 (.advance 0 { nowUtcMs := 1000 })

theorem failed_attempts_not_retried_sample :
    AttemptFailed (sampleRetryStore.getEdgeTask (ascii "w") (ascii "s")) ∧
      ∀ event ∈ (sampleRetries sampleFirstRound).1,
        event.call.assigns (ascii "w", ascii "s") = false := by
  have failed : AttemptFailed (sampleRetryStore.getEdgeTask (ascii "w") (ascii "s")) :=
    ⟨_, rfl, .inl rfl⟩
  exact ⟨failed, failed_attempts_not_retried (run_sampleRetries sampleFirstRound) failed
    (by decide)⟩

def sampleSecondRound : List (SharedStore.Move EngineOperation Outside) :=
  sampleFirstRound ++
    .start (.tick {}) :: List.replicate 20 (.advance 1 { nowUtcMs := 2000 })

def sampleDueAssignment : TaskAssignment :=
  stepAssignment (ascii "w") (ascii "a") (ascii "agent") (.object []) 62000 sampleFailedStep

theorem due_retry_not_dispatched :
    (sampleRetries sampleFirstRound).2.store.steps.map (·.nextReadyUtcMs) = [1250] ∧
      ((enqueueTaskAssign sampleRetryConfig sampleDueAssignment).execute
        (answer { nowUtcMs := 2000 }) (sampleRetries sampleFirstRound).2.store).1.ok = true ∧
      (engineOperations sampleRetryConfig).Run { store := sampleRetryStore }
        (sampleRetries sampleSecondRound).1 (sampleRetries sampleSecondRound).2 ∧
      (sampleRetries sampleSecondRound).1.length = 30 ∧
      (sampleRetries sampleSecondRound).2.store.outbox.length = 0 ∧
      (sampleRetries sampleSecondRound).2.store.steps.map (·.nextReadyUtcMs) = [2250] := by
  refine ⟨by decide, by decide, run_sampleRetries sampleSecondRound, ?_⟩
  exact ⟨by decide, by decide, by decide⟩

end AgentC.EdgeTasks
