import AgentC.EdgeTasks.EngineRules

/-! # Canceled workflows

The engine looks at a workflow again and again, and writes it from a copy of its
own later; a cancel request may come in between. -/

namespace AgentC.EdgeTasks

open Program

inductive EngineOperation
  | tick (options : EngineOptions)
  | cancel (workflowId : Bytes)

def engineOperations (config : EdgeConfig) :
    SharedStore Store EngineOperation Call Response where
  effect := Effect
  program
    | .tick options => edgeTick config options
    | .cancel workflowId => cancelEdgeWorkflow config workflowId

abbrev EngineEvent := Event Store Call Response

def Store.isCanceled (store : Store) (workflowId : Bytes) : Bool :=
  (store.getEdgeWorkflow workflowId).any fun row => row.status = WorkflowStatus.canceled

def Call.dispatches (workflowId : Bytes) : Call → Bool
  | .upsertEdgeTask row => row.taskId = workflowId ∧ row.state = TaskState.queued
  | .insertEdgeOutboxMessage row => (assignedKey row.envelope).1 = workflowId
  | _ => false

/-- A canceled workflow stays canceled, and a step is dispatched only by a round
that has made a call when its workflow was not canceled yet. -/
def CancelKept (event : EngineEvent) (earlier : List EngineEvent) : Prop :=
  ∀ workflowId,
    (event.before.isCanceled workflowId = true → event.after.isCanceled workflowId = true) ∧
      (event.call.dispatches workflowId = true →
        ∃ own ∈ event :: earlier, own.thread = event.thread ∧
          own.before.isCanceled workflowId = false)

def Call.readAnswered (before : Store) : (call : Call) → Response call → Bool
  | .getEdgeWorkflow workflowId, (found : Option EdgeWorkflowRow) =>
    found = before.getEdgeWorkflow workflowId
  | _, _ => true

def Call.readsWorkflow (workflowId : Bytes) : Call → Bool
  | .getEdgeWorkflow read => read = workflowId
  | _ => false

def Call.writtenWorkflow : Call → Option EdgeWorkflowRow
  | .upsertEdgeWorkflow row => some row
  | _ => none

/-- Reads of workflows are answered, and since the last one of a thread that writes
a workflow with another status, the workflow has not been canceled. -/
def CancelUncrossed (event : EngineEvent) (earlier : List EngineEvent) : Prop :=
  event.call.readAnswered event.before event.response = true ∧
    ∀ row ∈ event.call.writtenWorkflow, row.status ≠ WorkflowStatus.canceled →
      SharedStore.Undisturbed (fun event => event.call.readsWorkflow row.workflowId = true)
        (fun event => event.before.isCanceled row.workflowId = false ∧
          event.after.isCanceled row.workflowId = true) event.thread earlier

instance : DecidableRel CancelUncrossed := fun _ _ =>
  inferInstanceAs (Decidable (_ ∧ ∀ _ ∈ _, _ → _))

abbrev LastRead := Option (Bytes × Option Bytes)

def LastRead.Open (last : LastRead) (workflowId : Bytes) : Prop :=
  ∃ found, last = some (workflowId, found) ∧ found ≠ some WorkflowStatus.canceled

def LastRead.advance (last : LastRead) : (call : Call) → Response call → LastRead
  | .getEdgeWorkflow workflowId, (found : Option EdgeWorkflowRow) =>
    some (workflowId, found.map (·.status))
  | _, _ => last

/-- Workflows are canceled, or they and their tasks are written behind a read that
has not found them canceled. -/
def guardConduct : Description LastRead Call Response where
  advance := LastRead.advance
  allowed last call :=
    match call with
    | .upsertEdgeWorkflow row =>
      row.status = WorkflowStatus.canceled ∨ last.Open row.workflowId
    | .upsertEdgeTask row => row.state = TaskState.queued → last.Open row.taskId
    | .insertEdgeOutboxMessage row => last.Open (assignedKey row.envelope).1
    | _ => True

section Conduct

variable (config : EdgeConfig) {last : LastRead}

theorem harmless_ofPass (call : Call) (ofPass : call.OfPass) : guardConduct.allowed last call ∧
      ∀ response, guardConduct.advance last call response = last := by
  cases call with
  | upsertEdgeTask row => exact ofPass.elim
  | insertEdgeOutboxMessage row => exact ofPass.elim
  | getEdgeWorkflow workflowId => exact ofPass.elim
  | upsertEdgeWorkflow row => exact ofPass.elim
  | _ => exact ⟨trivial, fun _ => rfl⟩

theorem harmless_ofDispatch {key : TaskKey} (opened : last.Open key.1) (call : Call)
    (ofDispatch : call.OfDispatch key) : guardConduct.allowed last call ∧
      ∀ response, guardConduct.advance last call response = last := by
  cases call with
  | upsertEdgeTask row =>
    have same : row.key = key := ofDispatch
    subst same
    exact ⟨fun _ => opened, fun _ => rfl⟩
  | insertEdgeOutboxMessage row =>
    have same : assignedKey row.envelope = key := ofDispatch
    subst same
    exact ⟨opened, fun _ => rfl⟩
  | getEdgeWorkflow workflowId => exact ofDispatch.elim
  | upsertEdgeWorkflow row =>
    have same : row.workflowId = key.1 := ofDispatch
    refine ⟨.inr ?_, fun _ => rfl⟩
    rw [same]
    exact opened
  | _ => exact ⟨trivial, fun _ => rfl⟩

theorem open_of_guard {workflowId : Bytes} {found : Option EdgeWorkflowRow}
    (passed : canceledRow found = none) :
    (last.advance (.getEdgeWorkflow workflowId) found).Open workflowId := by
  refine ⟨found.map (·.status), rfl, fun canceled => ?_⟩
  rw [Option.map_eq_some_iff] at canceled
  rcases canceled with ⟨live, rfl, status⟩
  rw [canceledRow, Option.filter_some, if_pos (decide_eq_true status)] at passed
  exact nomatch passed

variable (now : Int)

theorem dispatchSteps_follows (state : DispatchState) (steps : List EdgeWorkflowStepRow) :
    (dispatchSteps config now state steps).Follows guardConduct (fun _ _ => True) last := by
  induction steps generalizing state last with
  | nil => trivial
  | cons step rest induction =>
    rw [dispatchSteps]
    apply follows_call trivial
    intro stop
    split
    · trivial
    · split
      · trivial
      · split
        · apply follows_bind
          apply (induction state).mono
          exact fun _ _ _ => trivial
        · apply follows_call trivial
          intro found
          split
          · trivial
          · next passed =>
            apply follows_bind
            have opened := @open_of_guard last state.workflow.workflowId found passed
            apply ((dispatchStep_ofDispatch config now state step).follows
              (harmless_ofDispatch opened)).mono
            intro reached result _
            apply follows_bind
            apply (induction result.1).mono
            exact fun _ _ _ => trivial

theorem updateStatus_follows (workflow : EdgeWorkflowRow) (steps : List EdgeWorkflowStepRow)
    (opened : last.Open workflow.workflowId) :
    (updateStatus now workflow steps).Follows guardConduct (fun _ _ => True) last := by
  rw [updateStatus]
  simp only [performWhen]
  split
  · exact follows_call (.inr opened) fun _ => trivial
  · trivial

variable (budget : Nat)

theorem processSteps_follows (workflow : EdgeWorkflowRow) (steps : List EdgeWorkflowStepRow) :
    (processSteps config budget workflow steps).Follows guardConduct (fun _ _ => True) last := by
  rw [processSteps]
  apply follows_call trivial
  intro now
  apply follows_bind
  have recovers := @satisfies_passOver (fun _ _ => True) Call.OfPass
    (recoverStep workflow.workflowId now) (fun _ => True) (fun _ => True) steps
    (fun step _ => recoverStep_ofPass workflow.workflowId now step) fun _ _ => trivial
  apply (recovers.follows harmless_ofPass).mono
  intro _ recovered _
  apply follows_bind
  have schedules := @satisfies_passUntilStop (fun _ _ => True) Call.OfPass
    (scheduleRetry config workflow.workflowId now) (fun _ => True) (fun _ => True) recovered trivial
    (fun step _ => (scheduleRetry_ofPass config workflow.workflowId now step).mono
      fun _ _ => trivial) (fun _ _ => trivial) fun _ _ => trivial
  apply (schedules.follows harmless_ofPass).mono
  intro _ scheduled _
  apply follows_bind
  have joins := @satisfies_evaluateJoins (fun _ _ => True) Call.OfPass (fun _ => True) scheduled
    config (stepStates scheduled) trivial
    (fun states step _ => (evaluateJoin_ofPass config step states).mono fun _ _ => trivial)
    fun _ _ => trivial
  apply (joins.follows harmless_ofPass).mono
  intro _ joined _
  apply follows_bind
  apply (dispatchSteps_follows config now _ joined).mono
  intro known reached _
  apply follows_call trivial
  intro found
  split
  · trivial
  · next passed =>
    apply follows_bind
    apply (updateStatus_follows now _ _ (@open_of_guard known _ found passed)).mono
    exact fun _ _ _ => trivial

theorem tickWorkflow_follows (listed : EdgeWorkflowRow) :
    (tickWorkflow config budget listed).Follows guardConduct (fun _ _ => True) last := by
  rw [tickWorkflow]
  apply follows_call trivial
  intro found
  simp only
  split
  · trivial
  · apply follows_call trivial
    intro listedSteps
    cases listedSteps with
    | none => trivial
    | some steps =>
      apply follows_call trivial
      intro found
      split
      · trivial
      · exact processSteps_follows config budget _ steps

theorem tickWorkflows_follows (listed : List EdgeWorkflowRow) :
    (tickWorkflows config budget listed).Follows guardConduct (fun _ _ => True) last := by
  induction listed generalizing budget last with
  | nil => trivial
  | cons workflow rest induction =>
    rw [tickWorkflows]
    apply follows_call trivial
    intro stop
    split
    · trivial
    · split
      · trivial
      · split
        · exact induction budget
        · apply follows_bind
          apply (tickWorkflow_follows config budget workflow).mono
          exact fun _ budget _ => induction budget

theorem edgeTick_follows (options : EngineOptions) :
    (edgeTick config options).Follows guardConduct (fun _ _ => True) last := by
  rw [edgeTick]
  apply follows_call trivial
  intro queued
  apply follows_call trivial
  intro running
  exact tickWorkflows_follows config _ _

theorem cancelStep_follows (workflowId : Bytes) (step : EdgeWorkflowStepRow) :
    (cancelStep now workflowId step).Follows guardConduct (fun _ _ => True) last := by
  rw [cancelStep]
  split
  · trivial
  · apply follows_call trivial
    intro _
    split
    · rw [cancelTask]
      apply follows_call trivial
      intro found
      cases found with
      | none => trivial
      | some row =>
        simp only [performWhen]
        split
        · have ended : TaskState.canceled ≠ TaskState.queued := by decide
          exact follows_call (fun queued => absurd queued ended) fun _ => trivial
        · trivial
    · trivial

theorem cancelEdgeWorkflow_follows (workflowId : Bytes) :
    (cancelEdgeWorkflow config workflowId).Follows guardConduct (fun _ _ => True) last := by
  rw [cancelEdgeWorkflow]
  apply follows_call trivial
  intro found
  cases found with
  | none => exact ⟨trivial, fun _ => trivial⟩
  | some workflow =>
    apply follows_call trivial
    intro now
    refine follows_performWhen_bind (fun _ => .inl rfl) fun last => ?_
    apply follows_call trivial
    intro listed
    apply follows_bind
    have cancels : ((listed.getD []).forM (cancelStep now workflowId)).Follows guardConduct
        (fun _ _ => True) last := by
      apply @follows_forM _ _ _ _ _ _ (fun _ => True) _ _ _ trivial
      intro step _ last _
      exact cancelStep_follows now workflowId step
    apply cancels.mono
    intro last _ _
    exact follows_call trivial fun _ => ⟨trivial, fun _ => trivial⟩

theorem engineOperations_follow (operation : EngineOperation) :
    ((engineOperations config).program operation).Follows guardConduct (fun _ _ => True) none := by
  cases operation with
  | tick options => exact edgeTick_follows config options
  | cancel workflowId => exact cancelEdgeWorkflow_follows config workflowId

end Conduct

section Writes

variable {store next : Store} {workflowId : Bytes}

theorem Store.isCanceled_of_workflows (same : next.workflows = store.workflows) :
    next.isCanceled workflowId = store.isCanceled workflowId := by
  rw [isCanceled, isCanceled, getEdgeWorkflow, getEdgeWorkflow, same]

theorem Store.workflowId_merge (stored new : EdgeWorkflowRow)
    (same : stored.workflowId = new.workflowId) :
    (mergeEdgeWorkflow stored new).workflowId = stored.workflowId :=
  same.symm

theorem isCanceled_upsertEdgeWorkflow {row : EdgeWorkflowRow} {stored : Bool}
    (effect : Effect (.upsertEdgeWorkflow row) store stored next) (workflowId : Bytes) :
    next.isCanceled workflowId = store.isCanceled workflowId ∨ row.workflowId = workflowId ∧
        next.isCanceled workflowId = decide (row.status = WorkflowStatus.canceled) := by
  rcases effect_upsertEdgeWorkflow effect with ⟨-, named, nowUtcMs, written⟩ | same
  · rw [written]
    by_cases here : row.workflowId = workflowId
    · right
      subst here
      have found := @lookupBy_upsertBy_self _ _ _ (·.workflowId) Store.mergeEdgeWorkflow
        (Store.boundEdgeWorkflow nowUtcMs row) store.workflows Store.workflowId_merge
      refine ⟨rfl, ?_⟩
      rw [Store.isCanceled, Store.getEdgeWorkflow, if_neg named]
      rw [show (Store.boundEdgeWorkflow nowUtcMs row).workflowId = row.workflowId from rfl] at found
      rw [found]
      cases lookupBy (·.workflowId) row.workflowId store.workflows with
      | none => rfl
      | some old => rfl
    · left
      have kept := @lookupBy_upsertBy_of_ne _ _ _ (·.workflowId) Store.mergeEdgeWorkflow
        (Store.boundEdgeWorkflow nowUtcMs row) store.workflows workflowId Store.workflowId_merge
        fun same => here same.symm
      rw [Store.isCanceled, Store.isCanceled, Store.getEdgeWorkflow, Store.getEdgeWorkflow, kept]
  · rw [same]
    exact .inl rfl

end Writes

section Runs

variable {config : EdgeConfig} {first store : Store} {events : List EngineEvent}

def answeredOperations (config : EdgeConfig) :
    SharedStore Store EngineOperation Call Response :=
  (engineOperations config).restrict fun call before response =>
    call.readAnswered before response = true

variable {workflowId : Bytes}

theorem not_canceled_of_read {found : Option EdgeWorkflowRow}
    (answered : (Call.getEdgeWorkflow workflowId).readAnswered store found = true)
    (notCanceled : found.map (·.status) ≠ some WorkflowStatus.canceled) :
    store.isCanceled workflowId = false := by
  rw [Store.isCanceled, ← of_decide_eq_true answered]
  apply Bool.eq_false_iff.mpr
  intro canceled
  rw [Option.any_eq_true] at canceled
  rcases canceled with ⟨row, rfl, status⟩
  exact notCanceled (congrArg some (of_decide_eq_true status))

/-- Behind a read that has not found it canceled, a workflow is not canceled as
long as nobody has canceled it. -/
theorem not_canceled_of_open {thread : Nat}
    (trace : SharedStore.Trace (answeredOperations config) guardConduct none first events store)
    (uncrossed : SharedStore.Undisturbed
      (fun event => event.call.readsWorkflow workflowId = true)
      (fun event => event.before.isCanceled workflowId = false ∧
        event.after.isCanceled workflowId = true) thread events)
    (opened : (SharedStore.known guardConduct none thread events).Open workflowId) :
    store.isCanceled workflowId = false := by
  revert opened
  apply @SharedStore.Trace.undisturbed _ _ _ _ (answeredOperations config) _ _ _ _ _
    (fun last store => last.Open workflowId → store.isCanceled workflowId = false) _ _ _ _
    _ _ _ trace uncrossed
  · rintro ⟨_, impossible, -⟩
    exact nomatch impossible
  · rintro last ⟨other, call, response, before, after⟩ _ _ effect earlier opened
    cases call with
    | getEdgeWorkflow read =>
      rcases opened with ⟨found, read, notCanceled⟩
      cases read
      rw [Store.isCanceled_of_workflows (effect.1.workflows rfl)]
      exact not_canceled_of_read effect.2 notCanceled
    | _ =>
      apply Bool.eq_false_iff.mpr
      have undisturbed := earlier.resolve_left nofun
      exact fun canceled => undisturbed.1 ⟨undisturbed.2 opened, canceled⟩
  · intro last event _ harmless before opened
    apply Bool.eq_false_iff.mpr
    exact fun canceled => harmless ⟨before opened, canceled⟩

theorem canceled_stays {event : EngineEvent}
    (trace : SharedStore.Trace (answeredOperations config) guardConduct none first
      (event :: events) store) (uncrossed : CancelUncrossed event events) (workflowId : Bytes)
    (canceled : event.before.isCanceled workflowId = true) :
    event.after.isCanceled workflowId = true := by
  cases trace with
  | @cons _ before _ thread call response earlier allowed effect =>
    cases call with
    | upsertEdgeWorkflow row =>
      rcases isCanceled_upsertEdgeWorkflow effect.1 workflowId with same | ⟨here, written⟩
      · exact same.trans canceled
      · subst here
        by_cases status : row.status = WorkflowStatus.canceled
        · exact written.trans (decide_eq_true status)
        · have opened := allowed.resolve_left status
          have live := not_canceled_of_open earlier (uncrossed.2 row rfl status) opened
          exact nomatch canceled.symm.trans live
    | _ => exact (Store.isCanceled_of_workflows (effect.1.workflows rfl)).trans canceled

theorem seen_of_open {thread : Nat}
    (trace : SharedStore.Trace (answeredOperations config) guardConduct none first events store)
    (opened : (SharedStore.known guardConduct none thread events).Open workflowId) :
    ∃ own ∈ events, own.thread = thread ∧ own.before.isCanceled workflowId = false := by
  induction trace with
  | nil =>
    rcases opened with ⟨_, impossible, -⟩
    exact nomatch impossible
  | @cons events store next other call response earlier allowed effect induction =>
    have before : (SharedStore.known guardConduct none thread events).Open workflowId →
        ∃ own ∈ (⟨other, call, response, store, next⟩ : EngineEvent) :: events,
          own.thread = thread ∧ own.before.isCanceled workflowId = false := by
      intro opened
      rcases induction opened with ⟨own, member, holds⟩
      exact ⟨own, .tail _ member, holds⟩
    rw [SharedStore.known] at opened
    split at opened
    · next same =>
      cases call with
      | getEdgeWorkflow read =>
        rcases opened with ⟨found, here, notCanceled⟩
        cases here
        exact ⟨_, .head _, same, not_canceled_of_read effect.2 notCanceled⟩
      | _ => exact before opened
    · exact before opened

theorem seen_of_dispatch {event : EngineEvent}
    (trace : SharedStore.Trace (answeredOperations config) guardConduct none first
      (event :: events) store) (workflowId : Bytes)
    (dispatches : event.call.dispatches workflowId = true) :
    ∃ own ∈ event :: events, own.thread = event.thread ∧
      own.before.isCanceled workflowId = false := by
  cases trace with
  | @cons _ before _ thread call response earlier allowed effect =>
    have opened : (SharedStore.known guardConduct none thread events).Open workflowId := by
      cases call with
      | upsertEdgeTask row =>
        rcases of_decide_eq_true dispatches with ⟨named, queued⟩
        rw [← named]
        exact allowed queued
      | insertEdgeOutboxMessage row =>
        rw [← of_decide_eq_true dispatches]
        exact allowed
      | _ => exact nomatch dispatches
    rcases seen_of_open earlier opened with ⟨own, member, holds⟩
    exact ⟨own, .tail _ member, holds⟩

theorem cancelKept_of_trace
    (trace : SharedStore.Trace (answeredOperations config) guardConduct none first events store)
    (uncrossed : Throughout CancelUncrossed events) : Throughout CancelKept events := by
  induction events generalizing store with
  | nil => trivial
  | cons event events induction =>
    refine ⟨fun workflowId => ⟨?_, ?_⟩, ?_⟩
    · exact canceled_stays trace uncrossed.1 workflowId
    · exact seen_of_dispatch trace workflowId
    · cases trace with
      | cons earlier => exact induction earlier uncrossed.2

/-- Canceled workflows stay canceled, and rounds that begin later do not dispatch
their steps, as long as no write crosses a cancel request. -/
theorem canceled_workflows_stay {state : SystemState Store EngineOperation Call Response}
    (run : (engineOperations config).Run { store := first } events state)
    (uncrossed : Throughout CancelUncrossed events) : Throughout CancelKept events := by
  have trace := SharedStore.Run.trace (engineOperations config) (engineOperations_follow config) run
  have answered := (uncrossed.mono fun _ _ holds => holds.1).forall
  exact cancelKept_of_trace (trace.restrict (engineOperations config) answered) uncrossed

end Runs

def sampleWorkflowStore : Store where
  workflows := [{
    workflowId := ascii "w"
    status := WorkflowStatus.running
    specJson := ascii "\x7b\x7d"
    createdUtcMs := 1
    updatedUtcMs := 1 }]
  steps := [{
    workflowId := ascii "w"
    stepId := ascii "s"
    kind := ascii "invoke_tool"
    dependsOnJson := ascii "[]"
    targetJson := ascii "\x7b\x7d"
    payloadJson := ascii "\x7b\x7d"
    state := TaskState.succeeded }]

def sampleEngine (schedule : List (SharedStore.Move EngineOperation Outside)) :
    List EngineEvent × SystemState Store EngineOperation Call Response :=
  schedule.foldl ((engineOperations sampleConfig).record answer)
    ([], { store := sampleWorkflowStore })

theorem run_sampleEngine (schedule : List (SharedStore.Move EngineOperation Outside)) :
    (engineOperations sampleConfig).Run { store := sampleWorkflowStore } (sampleEngine schedule).1
      (sampleEngine schedule).2 :=
  SharedStore.run_records (engineOperations sampleConfig) effect_answer .refl schedule

/-- The workflow is canceled when the round has listed it. -/
def sampleCancelInFront : List (SharedStore.Move EngineOperation Outside) :=
  [.start (.tick {}), .advance 0 {}, .advance 0 {}, .start (.cancel (ascii "w"))] ++
    List.replicate 3 (.advance 1 {}) ++ List.replicate 9 (.advance 0 {})

theorem canceled_workflows_stay_sample :
    (sampleEngine sampleCancelInFront).2.store.isCanceled (ascii "w") = true ∧
      Throughout CancelKept (sampleEngine sampleCancelInFront).1 :=
  ⟨by decide, canceled_workflows_stay (run_sampleEngine sampleCancelInFront) (by decide)⟩

/-- The workflow is canceled between the last guard of the round and its write. -/
def sampleCancelBehind : List (SharedStore.Move EngineOperation Outside) :=
  [.start (.tick {}), .start (.cancel (ascii "w"))] ++ List.replicate 11 (.advance 0 {}) ++
    List.replicate 3 (.advance 1 {}) ++ [.advance 0 {}]

theorem canceled_workflow_succeeds :
    (engineOperations sampleConfig).Run { store := sampleWorkflowStore }
        (sampleEngine sampleCancelBehind).1 (sampleEngine sampleCancelBehind).2 ∧
      ¬Throughout CancelKept (sampleEngine sampleCancelBehind).1 := by
  refine ⟨run_sampleEngine sampleCancelBehind, fun kept => ?_⟩
  have stays := (kept.1 (ascii "w")).1 (by decide)
  exact absurd stays (by decide)

end AgentC.EdgeTasks
