import AgentC.EdgeTasks.EdgeEngine
import AgentC.EdgeTasks.TaskWrites

/-! # What the engine calls

The calls of an assignment and of a dispatched step, and rules for the passes over
the steps of a workflow. -/

namespace AgentC

namespace EdgeTasks

open Program

def assignedKey (envelope : Json.Tree) : TaskKey :=
  let body := (envelope.member (ascii "body")).getD .null
  (body.text (ascii "task_id"), body.text (ascii "step_id"))

theorem TaskAssignment.not_mem_membersWhen {condition : Bool} {key name : Bytes}
    {value : Json.Tree} (other : key ≠ name) :
    key ∉ (membersWhen condition [(name, value)]).map Prod.fst := by
  rw [membersWhen]
  split
  · exact fun member => other (List.mem_singleton.mp member)
  · exact fun member => nomatch member

theorem TaskAssignment.member_envelope (assignment : TaskAssignment) (msgId : Bytes) (now : Int) :
    (assignment.envelope msgId now).member (ascii "body") = some assignment.body := by
  have others : ascii "body" ∉ assignment.traceMember.map Prod.fst :=
    not_mem_membersWhen (by decide)
  exact Json.Tree.member_ofMembers [_, _, _, _, _] _ others

theorem TaskAssignment.text_body (assignment : TaskAssignment) :
    assignment.body.text (ascii "task_id") = assignment.taskId ∧
      assignment.body.text (ascii "step_id") = assignment.stepId := by
  have attempt : ∀ {key : Bytes}, key ≠ ascii "attempt" →
      key ∉ assignment.attemptMember.map Prod.fst :=
    fun other => not_mem_membersWhen other
  have task : ascii "task_id" ∉ [ascii "step_id", ascii "idempotency_key", ascii "mode",
      ascii "deadline_utc_ms", ascii "payload"] ++ assignment.attemptMember.map Prod.fst := by
    rw [List.mem_append]
    exact not_or_intro (by decide) (attempt (by decide))
  have step : ascii "step_id" ∉ [ascii "idempotency_key", ascii "mode",
      ascii "deadline_utc_ms", ascii "payload"] ++ assignment.attemptMember.map Prod.fst := by
    rw [List.mem_append]
    exact not_or_intro (by decide) (attempt (by decide))
  have taskMember : assignment.body.member (ascii "task_id") =
      some (.string assignment.taskId) := Json.Tree.member_ofMembers [_] _ task
  have stepMember : assignment.body.member (ascii "step_id") =
      some (.string assignment.stepId) := Json.Tree.member_ofMembers [_, _] _ step
  rw [Json.Tree.text, Json.Tree.text, taskMember, stepMember]
  exact ⟨rfl, rfl⟩

theorem TaskAssignment.assignedKey_envelope (assignment : TaskAssignment) (msgId : Bytes)
    (now : Int) :
    assignedKey (assignment.envelope msgId now) = (assignment.taskId, assignment.stepId) := by
  simp only [assignedKey, assignment.member_envelope, Option.getD_some, assignment.text_body.1,
    assignment.text_body.2]

/-- A call of an assignment of a task: it writes and sends that task only, and
leaves workflows alone. -/
def Call.OfAssignment (key : TaskKey) : Call → Prop
  | .upsertEdgeTask row => row.key = key
  | .insertEdgeOutboxMessage row => assignedKey row.envelope = key
  | .getEdgeWorkflow _ => False
  | .upsertEdgeWorkflow _ => False
  | _ => True

section Assignments

variable (config : EdgeConfig) (assignment : TaskAssignment)

theorem send_ofAssignment (deduped : Bool) (rateState : Option EdgeToolRateStateRow) :
    (assignment.send deduped rateState).Satisfies (fun _ _ => True)
      (Call.OfAssignment (assignment.taskId, assignment.stepId)) fun _ => True := by
  rw [TaskAssignment.send]
  apply satisfies_call trivial
  intro now _
  apply satisfies_call trivial
  intro msgId _
  apply satisfies_call
  · simp only [Call.OfAssignment, assignment.assignedKey_envelope msgId now]
  · intro outboxId _
    cases outboxId with
    | none => trivial
    | some outboxId =>
      cases rateState with
      | none => trivial
      | some state => exact satisfies_performWhen_bind trivial trivial

theorem clear_ofAssignment (key : TaskKey) :
    (assignment.clear config).Satisfies (fun _ _ => True) (Call.OfAssignment key)
      fun _ => True := by
  apply (clear_ofGuard config assignment).weaken fun _ _ _ => trivial
  intro call guards
  cases call with
  | unixMsNow => trivial
  | getEdgeNode nodeId => trivial
  | getEdgeTaskLockConflict => trivial
  | getEdgeToolRateState => trivial
  | _ => exact nomatch guards

theorem assignAgain_ofAssignment (existing : EdgeTaskRow) :
    (assignment.assignAgain existing).Satisfies (fun _ _ => True)
      (Call.OfAssignment (assignment.taskId, assignment.stepId)) fun _ => True := by
  rw [TaskAssignment.assignAgain]
  split
  · trivial
  · next same =>
    rw [not_or, not_ne_iff, not_ne_iff] at same
    have key : existing.key = (assignment.taskId, assignment.stepId) :=
      Prod.ext same.1 same.2
    apply satisfies_bind
    rw [TaskAssignment.backfillTrace]
    split
    · apply satisfies_call trivial
      intro now _
      exact satisfies_call key fun _ _ => send_ofAssignment assignment true none
    · exact send_ofAssignment assignment true none

theorem enqueueTaskAssign_ofAssignment :
    (enqueueTaskAssign config assignment).Satisfies (fun _ _ => True)
      (Call.OfAssignment (assignment.taskId, assignment.stepId)) fun _ => True := by
  rw [enqueueTaskAssign]
  split
  · trivial
  · apply satisfies_call trivial
    intro found _
    cases found with
    | some existing => exact assignAgain_ofAssignment assignment existing
    | none =>
      apply satisfies_bind
      apply (clear_ofAssignment config assignment _).mono
      intro result _
      cases result with
      | error refusal => trivial
      | ok clearance =>
        simp only [TaskAssignment.assign]
        apply satisfies_call trivial
        intro now _
        refine satisfies_call rfl fun stored _ => ?_
        split
        · apply satisfies_call trivial
          intro _ _
          exact send_ofAssignment assignment false _
        · trivial

end Assignments

def Call.OfPass : Call → Prop
  | .upsertEdgeTask _ => False
  | .insertEdgeOutboxMessage _ => False
  | .getEdgeWorkflow _ => False
  | .upsertEdgeWorkflow _ => False
  | _ => True

section Passes

variable {assumed : (call : Call) → Response call → Prop} {promised : Call → Prop}
  {body : EdgeWorkflowStepRow → Action EdgeWorkflowStepRow}
  {before behind : EdgeWorkflowStepRow → Prop} {steps : List EdgeWorkflowStepRow}

theorem satisfies_stepThenRest {first : Action EdgeWorkflowStepRow}
    {others : EdgeWorkflowStepRow → Action (List EdgeWorkflowStepRow)}
    (head : first.Satisfies assumed promised behind)
    (tail : ∀ reached, (others reached).Satisfies assumed promised fun result =>
      ∀ step ∈ result, behind step) :
    (first >>= fun reached => others reached >>= fun rest => pure (reached :: rest)).Satisfies
      assumed promised fun result => ∀ step ∈ result, behind step := by
  apply satisfies_bind
  apply head.mono
  intro reached holds
  apply satisfies_bind
  apply (tail reached).mono
  intro result others
  exact List.forall_mem_cons.mpr ⟨holds, others⟩

theorem satisfies_passOver
    (each : ∀ step, before step → (body step).Satisfies assumed promised behind)
    (start : ∀ step ∈ steps, before step) :
    (passOver body steps).Satisfies assumed promised fun result =>
      ∀ step ∈ result, behind step := by
  induction steps with
  | nil => exact fun _ member => nomatch member
  | cons step rest induction =>
    rw [List.forall_mem_cons] at start
    exact satisfies_stepThenRest (each step start.1) fun _ => induction start.2

theorem satisfies_passUntilStop (stops : promised .stopRequested)
    (each : ∀ step, before step → (body step).Satisfies assumed promised behind)
    (kept : ∀ step, before step → behind step) (start : ∀ step ∈ steps, before step) :
    (passUntilStop body steps).Satisfies assumed promised fun result =>
      ∀ step ∈ result, behind step := by
  induction steps with
  | nil => exact fun _ member => nomatch member
  | cons step rest induction =>
    apply satisfies_call stops
    intro stop _
    split
    · exact fun other member => kept other (start other member)
    · rw [List.forall_mem_cons] at start
      exact satisfies_stepThenRest (each step start.1) fun _ => induction start.2

theorem satisfies_evaluateJoins (config : EdgeConfig) (states : StepStates)
    (stops : promised .stopRequested)
    (each : ∀ states step, before step →
      (evaluateJoin config states step).Satisfies assumed promised before)
    (start : ∀ step ∈ steps, before step) :
    (evaluateJoins config states steps).Satisfies assumed promised fun result =>
      ∀ step ∈ result, before step := by
  induction steps generalizing states with
  | nil => exact fun _ member => nomatch member
  | cons step rest induction =>
    apply satisfies_call stops
    intro stop _
    split
    · exact start
    · rw [List.forall_mem_cons] at start
      exact satisfies_stepThenRest (each states step start.1) fun reached =>
        induction (states.set reached) start.2

end Passes

section Steps

variable (config : EdgeConfig) (workflowId : Bytes) (now : Int) (step : EdgeWorkflowStepRow)

theorem storeStep_ofPass {post : EdgeWorkflowStepRow → Prop} (holds : post step) :
    (storeStep step).Satisfies (fun _ _ => True) Call.OfPass post :=
  satisfies_call trivial fun _ _ => holds

theorem recoverStep_ofPass :
    (recoverStep workflowId now step).Satisfies (fun _ _ => True) Call.OfPass fun _ => True := by
  rw [recoverStep]
  split
  · trivial
  · apply satisfies_call trivial
    intro found _
    cases found with
    | none => trivial
    | some task =>
      simp only
      split
      · trivial
      · exact storeStep_ofPass _ trivial

theorem retryDelayMs_pos (attempt backoffMs : Int) : 0 < retryDelayMs attempt backoffMs := by
  rw [retryDelayMs]
  have base : 0 < (if backoffMs ≤ 0 then 250 else min backoffMs 600000) := by
    split
    · decide
    · next positive =>
      exact lt_min (Int.not_le.mp positive) (by decide)
  exact lt_min (Int.mul_pos base (Int.pow_pos (by decide))) (by decide)

theorem scheduleRetry_ofPass :
    (scheduleRetry config workflowId now step).Satisfies (fun _ _ => True) Call.OfPass
      fun result => result.stepId = step.stepId ∧ result.kind = step.kind ∧
        (result.state = step.state ∨ now < result.nextReadyUtcMs) := by
  rw [scheduleRetry]
  split
  · exact ⟨rfl, rfl, .inl rfl⟩
  · simp only
    split
    · exact ⟨rfl, rfl, .inl rfl⟩
    · apply satisfies_bind
      apply storeStep_ofPass
      apply satisfies_call trivial
      intro _ _
      refine ⟨rfl, rfl, .inr ?_⟩
      have later : now < now + retryDelayMs step.withAttempts.attempt step.withAttempts.backoffMs :=
        Int.lt_add_of_pos_right now (retryDelayMs_pos _ _)
      simp only [EdgeWorkflowStepRow.retried]
      split
      · exact later
      · next unchanged =>
        rw [not_or, Int.not_lt] at unchanged
        exact Int.lt_of_lt_of_le later unchanged.2

theorem evaluateJoin_ofPass (states : StepStates) :
    (evaluateJoin config states step).Satisfies (fun _ _ => True) Call.OfPass
      fun result => result = step ∨ isJoin result = true := by
  rw [evaluateJoin]
  split
  · exact .inl rfl
  · next joins =>
    rw [not_or, not_not] at joins
    split
    · exact .inl rfl
    · simp only
      split
      · exact .inl rfl
      · apply satisfies_call trivial
        intro _ _
        exact storeStep_ofPass _ (.inr joins.1)

end Steps

def Call.OfDispatch (key : TaskKey) : Call → Prop
  | .upsertEdgeTask row => row.key = key
  | .insertEdgeOutboxMessage row => assignedKey row.envelope = key
  | .upsertEdgeWorkflow row => row.workflowId = key.1
  | .getEdgeWorkflow _ => False
  | _ => True

theorem Call.OfPass.ofDispatch {call : Call} (ofPass : call.OfPass) (key : TaskKey) :
    call.OfDispatch key := by
  cases call with
  | upsertEdgeTask row => exact ofPass.elim
  | insertEdgeOutboxMessage row => exact ofPass.elim
  | getEdgeWorkflow workflowId => exact ofPass
  | upsertEdgeWorkflow row => exact ofPass.elim
  | _ => trivial

theorem Call.OfAssignment.ofDispatch {call : Call} {key : TaskKey}
    (ofAssignment : call.OfAssignment key) : call.OfDispatch key := by
  cases call with
  | upsertEdgeTask row => exact ofAssignment
  | insertEdgeOutboxMessage row => exact ofAssignment
  | getEdgeWorkflow workflowId => exact ofAssignment
  | upsertEdgeWorkflow row => exact ofAssignment.elim
  | _ => trivial

section Dispatch

variable (config : EdgeConfig) (now : Int) (state : DispatchState) (step : EdgeWorkflowStepRow)

def SameWorkflow (result : DispatchState × EdgeWorkflowStepRow) : Prop :=
  result.1.workflow.workflowId = state.workflow.workflowId

theorem storeStep_note_ofPass {noted : EdgeWorkflowStepRow} :
    (storeStep noted >>= fun stored => pure (state.note stored)).Satisfies (fun _ _ => True)
      Call.OfPass (SameWorkflow state) :=
  satisfies_bind (storeStep_ofPass noted rfl)

theorem failStep_ofPass (error : String) :
    (failStep state step error).Satisfies (fun _ _ => True) Call.OfPass (SameWorkflow state) := by
  apply satisfies_call trivial
  intro now _
  exact storeStep_note_ofPass state

theorem chooseNode_ofPass (target : Json.Tree) :
    (chooseNode config target).Satisfies (fun _ _ => True) Call.OfPass fun _ => True := by
  rw [chooseNode]
  split
  · trivial
  · split
    · apply satisfies_call trivial
      intro nodes _
      cases nodes with
      | none => trivial
      | some nodes => trivial
    · trivial

theorem recordDispatch_ofDispatch (assignment : TaskAssignment) (outcome : EnqueueOutcome) :
    (recordDispatch config now state assignment outcome step).Satisfies (fun _ _ => True)
      (Call.OfDispatch (state.workflow.workflowId, step.stepId)) (SameWorkflow state) := by
  rw [recordDispatch]
  apply satisfies_bind
  apply satisfies_call trivial
  intro _ _
  apply satisfies_pure
  apply satisfies_call trivial
  intro _ _
  exact satisfies_call rfl fun _ _ => rfl

theorem assignStep_ofDispatch (nodeId mode : Bytes) (payload : Json.Tree) :
    (assignStep config now state nodeId mode payload step).Satisfies (fun _ _ => True)
      (Call.OfDispatch (state.workflow.workflowId, step.stepId)) (SameWorkflow state) := by
  have rest : ∀ deadlineUtcMs, (do
      let assignment :=
        stepAssignment state.workflow.workflowId nodeId mode payload deadlineUtcMs step
      let outcome ← enqueueTaskAssign config assignment
      if outcome.ok then recordDispatch config now state assignment outcome step
      else
        let refused ← storeStep (step.refused outcome now)
        pure (state.note refused) : Action (DispatchState × EdgeWorkflowStepRow)).Satisfies
      (fun _ _ => True) (Call.OfDispatch (state.workflow.workflowId, step.stepId))
      (SameWorkflow state) := by
    intro deadlineUtcMs
    apply satisfies_bind
    have enqueues := (enqueueTaskAssign_ofAssignment config
      (stepAssignment state.workflow.workflowId nodeId mode payload deadlineUtcMs step)).weaken
        (fun _ _ assumed => assumed) fun _ => Call.OfAssignment.ofDispatch
    apply enqueues.mono
    intro outcome _
    split
    · exact recordDispatch_ofDispatch config now state step _ outcome
    · exact (storeStep_note_ofPass state).weaken (fun _ _ assumed => assumed)
        fun _ ofPass => ofPass.ofDispatch _
  rw [assignStep]
  apply satisfies_bind
  rw [assignmentDeadline]
  split
  · exact ⟨trivial, fun time _ => rest _⟩
  · exact rest _

theorem dispatchReady_ofDispatch :
    (dispatchReady config now state step).Satisfies (fun _ _ => True)
      (Call.OfDispatch (state.workflow.workflowId, step.stepId)) (SameWorkflow state) := by
  have fails : ∀ error, (failStep state step error).Satisfies (fun _ _ => True)
      (Call.OfDispatch (state.workflow.workflowId, step.stepId)) (SameWorkflow state) :=
    fun error => (failStep_ofPass state step error).weaken (fun _ _ assumed => assumed)
      fun _ ofPass => ofPass.ofDispatch _
  rw [dispatchReady]
  split
  · exact fails _
  · next target _ =>
    apply satisfies_bind
    have chooses := (chooseNode_ofPass config target).weaken (fun _ _ assumed => assumed)
      fun _ ofPass => ofPass.ofDispatch (state.workflow.workflowId, step.stepId)
    apply chooses.mono
    intro nodeId _
    split
    · exact fails _
    · split
      · exact fails _
      · split
        · exact fails _
        · exact assignStep_ofDispatch config now state step nodeId _ _

theorem dispatchStep_ofDispatch :
    (dispatchStep config now state step).Satisfies (fun _ _ => True)
      (Call.OfDispatch (state.workflow.workflowId, step.stepId)) (SameWorkflow state) := by
  rw [dispatchStep]
  split
  · exact (storeStep_note_ofPass state).weaken (fun _ _ assumed => assumed)
      fun _ ofPass => ofPass.ofDispatch _
  · split
    · exact satisfies_pure rfl
    · split
      · exact satisfies_pure rfl
      · split
        · exact dispatchReady_ofDispatch config now state step.withAttempts
        · exact satisfies_pure rfl

theorem dispatchStep_ofPass (later : 0 < step.nextReadyUtcMs ∧ now < step.nextReadyUtcMs) :
    (dispatchStep config now state step).Satisfies (fun _ _ => True) Call.OfPass
      (SameWorkflow state) := by
  rw [dispatchStep]
  split
  · exact storeStep_note_ofPass state
  · rw [if_pos (show 0 < step.withAttempts.nextReadyUtcMs ∧
      now < step.withAttempts.nextReadyUtcMs from later)]
    exact satisfies_pure rfl

end Dispatch

end EdgeTasks

end AgentC
