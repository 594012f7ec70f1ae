import AgentC.EdgeTasks.Inbox
import AgentC.EdgeTasks.Messages
import AgentC.Foundation.Sequential

/-! # What one message does

A message that is processed on its own writes at most the row of the task it
names, as the update it carries says. -/

namespace AgentC.EdgeTasks

open Program

/-! ## The row behind an update -/

/-- What stays of a task when a node reports about it. -/
structure EdgeTaskRow.SameTask (row other : EdgeTaskRow) : Prop where
  taskId : row.taskId = other.taskId
  stepId : row.stepId = other.stepId
  nodeId : row.nodeId = other.nodeId
  idempotencyKey : row.idempotencyKey = other.idempotencyKey
  resourceLock : row.resourceLock = other.resourceLock
  mode : row.mode = other.mode
  toolName : row.toolName = other.toolName
  payloadJson : row.payloadJson = other.payloadJson

theorem EdgeTaskRow.SameTask.key {row other : EdgeTaskRow} (same : row.SameTask other) :
    row.key = other.key := by
  rw [EdgeTaskRow.key, EdgeTaskRow.key, same.taskId, same.stepId]

theorem Store.sameTask_merged {row new : EdgeTaskRow} (same : new.SameTask row) (nowUtcMs : Int) :
    (mergeTask row (boundTask nowUtcMs new)).SameTask row where
  taskId := same.taskId
  stepId := same.stepId
  nodeId := same.nodeId
  idempotencyKey := same.idempotencyKey
  resourceLock := (ite_eq_left_iff.mpr fun _ => same.resourceLock)
  mode := same.mode
  toolName := (ite_eq_left_iff.mpr fun _ => same.toolName)
  payloadJson := same.payloadJson

/-- What the table takes of a task depends on its constant columns and on whether
there is a state. -/
theorem Store.acceptsEdgeTask_congr {store : Store} {left right : EdgeTaskRow}
    (same : left.SameTask right) (leftState : left.state ≠ []) (rightState : right.state ≠ []) :
    store.acceptsEdgeTask left = store.acceptsEdgeTask right := by
  simp only [acceptsEdgeTask, same.taskId, same.stepId, same.nodeId, same.idempotencyKey, same.mode,
    same.payloadJson, same.key, ne_eq, leftState, rightState, not_false_eq_true]

namespace TaskUpdate

variable (config : EdgeConfig) (update : TaskUpdate) (row : EdgeTaskRow)

theorem sameTask_withHash : (update.withHash config row).SameTask row := by
  rw [withHash]
  split <;> exact ⟨rfl, rfl, rfl, rfl, rfl, rfl, rfl, rfl⟩

theorem sameTask_withResult : (update.withResult config row).SameTask row := by
  have same := update.sameTask_withHash config row
  rw [withResult]
  split
  · exact ⟨same.1, same.2, same.3, same.4, same.5, same.6, same.7, same.8⟩
  · exact same

theorem sameTask_appliedRow : (update.appliedRow config row).SameTask row := by
  simp only [appliedRow]
  split
  · have same := update.sameTask_withResult config row
    exact ⟨same.1, same.2, same.3, same.4, same.5, same.6, same.7, same.8⟩
  · exact ⟨rfl, rfl, rfl, rfl, rfl, rfl, rfl, rfl⟩

theorem rowBehind_of_applies {row : EdgeTaskRow} (applies : update.applies row = true) :
    update.rowBehind config row = update.appliedRow config row := by
  rw [rowBehind, written, if_pos applies]
  rfl

/-- The row behind an update that is not applied differs in its trace at most. -/
theorem rowBehind_of_not_applies {row : EdgeTaskRow} (ignored : update.applies row = false) :
    ∃ traceId updatedUtcMs, update.rowBehind config row = { row with traceId, updatedUtcMs } := by
  rw [rowBehind, written, if_neg (Bool.eq_false_iff.mp ignored)]
  split
  · exact ⟨_, _, rfl⟩
  · exact ⟨row.traceId, row.updatedUtcMs, rfl⟩

theorem sameTask_rowBehind : (update.rowBehind config row).SameTask row := by
  cases applies : update.applies row with
  | true =>
    rw [update.rowBehind_of_applies config applies]
    exact update.sameTask_appliedRow config row
  | false =>
    rcases update.rowBehind_of_not_applies config applies with ⟨traceId, updatedUtcMs, behind⟩
    rw [behind]
    exact ⟨rfl, rfl, rfl, rfl, rfl, rfl, rfl, rfl⟩

/-- A task moves to a success only by an update that reports one and whose
attestation is accepted. -/
theorem accepted_of_rowBehind {row : EdgeTaskRow} (moved : row.state ≠ TaskState.succeeded)
    (behind : (update.rowBehind config row).state = TaskState.succeeded) :
    update.applies row = true ∧ update.state = TaskState.succeeded ∧
      update.attestFailure config row = none := by
  cases applies : update.applies row with
  | false =>
    rcases update.rowBehind_of_not_applies config applies with ⟨traceId, updatedUtcMs, same⟩
    rw [same] at behind
    exact absurd behind moved
  | true =>
    rw [update.rowBehind_of_applies config applies] at behind
    have state : update.stateEff config row = TaskState.succeeded := behind
    rw [stateEff] at state
    split at state
    · exact absurd state (by decide)
    · next accepted =>
      have succeeds : update.succeeds row = true := by
        rw [TaskUpdate.succeeds, applies, state]
        decide
      refine ⟨rfl, state, Option.not_isSome_iff_eq_none.mp fun failure => ?_⟩
      exact accepted ⟨succeeds, failure⟩

end TaskUpdate

/-! ## Programs that write no task -/

def Call.leavesTasks : Call → Bool
  | .upsertEdgeTask _ => false
  | .getEdgeTaskByNodeIdempotency _ _ => false
  | .getEdgeTaskLockConflict _ _ => false
  | _ => true

def LeavesTasks (call : Call) : Prop :=
  call.leavesTasks = true

theorem LeavesTasks.writes {call : Call} (leaves : LeavesTasks call) :
    call.writes .tasks = false := by
  cases call with
  | upsertEdgeTask row => exact nomatch leaves
  | _ => rfl

def Call.ofHandler : Call → Bool
  | .getEdgeTask _ _ => true
  | .upsertEdgeTask _ => true
  | .insertEdgeTaskEvent _ => true
  | .getEdgeNode _ => true
  | .upsertEdgeNode _ => true
  | .getEdgeWorkflow _ => true
  | .listEdgeWorkflowSteps _ => true
  | .upsertEdgeWorkflowStep _ => true
  | .insertEdgeWorkflowEvent _ => true
  | _ => false

def Call.besideTasks (call : Call) : Bool :=
  call.ofHandler && !call.writes .tasks

theorem satisfies_performWhen_bind {assumed : (call : Call) → Response call → Prop}
    {promised : Call → Prop} {condition : Bool} {call : Call} {β : Type} {post : β → Prop}
    {rest : Unit → Action β} (allowed : promised call)
    (holds : (rest ()).Satisfies assumed promised post) :
    (performWhen condition (request call : Action (Response call)) >>= rest).Satisfies assumed
      promised post := by
  rw [performWhen]
  split
  · exact satisfies_bind (satisfies_call allowed fun _ _ => holds)
  · exact holds

theorem besideTasks_reflectIntoStep (config : EdgeConfig) (update : TaskUpdate)
    (row : EdgeTaskRow) :
    (reflectIntoStep config update row).Satisfies (fun _ _ => True) (·.besideTasks = true)
      fun _ => True := by
  simp only [reflectIntoStep]
  split
  · refine satisfies_call rfl fun workflow _ => ?_
    cases workflow with
    | none => trivial
    | some workflow =>
      refine satisfies_call rfl fun listed _ => ?_
      cases listed with
      | none => trivial
      | some steps =>
        simp only
        split
        · trivial
        · next step _ =>
          refine satisfies_performWhen_bind rfl ?_
          exact satisfies_call rfl fun _ _ => trivial
  · trivial

theorem besideTasks_checkResultSchema (config : EdgeConfig) (fields : TaskFields)
    (result : Json.Tree) :
    (checkResultSchema config fields result).Satisfies (fun _ _ => True) (·.besideTasks = true)
      fun _ => True := by
  rw [checkResultSchema]
  refine satisfies_call rfl fun found _ => ?_
  cases found with
  | none => trivial
  | some row =>
    simp only
    split
    · refine satisfies_call rfl fun node _ => ?_
      cases node with
      | none => trivial
      | some node =>
        simp only
        split <;> trivial
    · trivial

theorem leavesTasks_of_besideTasks {α : Type} {program : Action α}
    (beside : program.Satisfies (fun _ _ => True) (·.besideTasks = true) fun _ => True) :
    program.Satisfies (fun _ _ => True) LeavesTasks fun _ => True := by
  apply beside.weaken fun _ _ _ => trivial
  intro call besideTasks
  cases call with
  | upsertEdgeTask row => exact nomatch besideTasks
  | getEdgeTaskByNodeIdempotency => exact nomatch besideTasks
  | getEdgeTaskLockConflict => exact nomatch besideTasks
  | _ => rfl

theorem leavesTasks_reflectIntoStep (config : EdgeConfig) (update : TaskUpdate)
    (row : EdgeTaskRow) :
    (reflectIntoStep config update row).Satisfies (fun _ _ => True) LeavesTasks fun _ => True :=
  leavesTasks_of_besideTasks (besideTasks_reflectIntoStep config update row)

theorem leavesTasks_respond (msgId : Bytes) (status : Nat) :
    (performWhen (status < 500) (markEdgeInboxMessageProcessed msgId) >>= fun _ =>
      respond status).Satisfies (fun _ _ => True) LeavesTasks fun _ => True := by
  refine satisfies_performWhen_bind rfl ?_
  exact ⟨rfl, fun _ _ => trivial⟩

def Store.manifestOf (store : Store) (nodeId : Bytes) : Bytes :=
  ((lookupBy (·.nodeId) nodeId store.nodes).map (·.manifestJson)).getD []

theorem Store.manifestOf_bumpSeq {store : Store} {guard : EdgeInboxAuthSeqGuard}
    {nodes : List NodeEntry} (bumped : store.bumpSeq guard = some nodes) (nodeId : Bytes) :
    ((lookupBy (·.nodeId) nodeId nodes).map (·.manifestJson)).getD [] = store.manifestOf nodeId := by
  rw [bumpSeq] at bumped
  rw [manifestOf]
  split at bumped
  · split at bumped
    · cases bumped
      rw [lookupBy_map]
      · cases lookupBy (·.nodeId) nodeId store.nodes with
        | none => rfl
        | some entry =>
          simp only [Option.map_some, Option.getD_some]
          split <;> rfl
      · intro entry
        split <;> rfl
    · cases bumped
  · next missing =>
    cases bumped
    rw [lookupBy_append, lookupBy_cons]
    cases found : lookupBy (·.nodeId) nodeId store.nodes with
    | none =>
      split <;> rfl
    | some entry => rfl

/-- A store in which the tasks and the manifests are as in another. -/
structure Store.Alike (store before : Store) : Prop where
  tasks : store.tasks = before.tasks
  manifests : ∀ nodeId, store.manifestOf nodeId = before.manifestOf nodeId

theorem Effect.alike {call : Call} {store next before : Store} {response : Response call}
    (effect : Effect call store response next) (tasks : call.writes .tasks = false)
    (nodes : call.writes .nodes = false) (alike : store.Alike before) : next.Alike before where
  tasks := (effect.tasks tasks).trans alike.tasks
  manifests nodeId := by
    rw [← alike.manifests nodeId, Store.manifestOf, Store.manifestOf, effect.nodes nodes]

theorem alike_of_inbox {row : EdgeInboxMessageRow} {guard : Option EdgeInboxAuthSeqGuard}
    {store next before : Store} {response : Store.InboxOutcome}
    (effect : Effect (.insertEdgeInboxMessageWithSeqGuard row guard) store response next)
    (alike : store.Alike before) : next.Alike before where
  tasks := (effect.tasks rfl).trans alike.tasks
  manifests nodeId := by
    rw [← alike.manifests nodeId]
    have performed : InboxStep.Performed ⟨row, guard, response, store, next⟩ := effect
    rcases performed.cases with ⟨-, -, -, ⟨-, same⟩ | ⟨guard, -, bumped⟩⟩ | ⟨-, same⟩
    · exact congrArg (fun nodes => ((lookupBy (·.nodeId) nodeId nodes).map
        (·.manifestJson)).getD []) same
    · exact Store.manifestOf_bumpSeq bumped nodeId
    · exact congrArg (Store.manifestOf · nodeId) same

section Handlers

variable (config : EdgeConfig)

theorem ofHandler_of_besideTasks {α : Type} {program : Action α}
    (beside : program.Satisfies (fun _ _ => True) (·.besideTasks = true) fun _ => True) :
    program.Satisfies (fun _ _ => True) (·.ofHandler = true) fun _ => True := by
  apply beside.weaken fun _ _ _ => trivial
  intro call besideTasks
  rw [Call.besideTasks, Bool.and_eq_true] at besideTasks
  exact besideTasks.1

theorem ofHandler_updateTaskState (update : TaskUpdate) :
    (updateTaskState config update).Satisfies (fun _ _ => True) (·.ofHandler = true)
      fun _ => True := by
  rw [updateTaskState]
  split
  · trivial
  · refine satisfies_call rfl fun found _ => ?_
    cases found with
    | none => trivial
    | some row =>
      refine satisfies_performWhen_bind rfl ?_
      exact satisfies_call rfl fun _ _ =>
        ofHandler_of_besideTasks (besideTasks_reflectIntoStep config update row)

theorem handleMessage_rule (holds : Action Nat → Prop) (envelope : Envelope) (now : Int)
    (returns : ∀ status, holds (pure status))
    (updates : ∀ update status, holds (updateTaskState config update >>= fun _ => pure status))
    (checks : ∀ fields result rest, (∀ error, holds (rest error)) →
      holds (checkResultSchema config fields result >>= rest))
    (enrolls : ∀ row rest, (∀ stored, holds (rest stored)) → holds (upsertEdgeNode row >>= rest)) :
    holds (handleMessage config envelope now) := by
  rw [handleMessage]
  split
  · rw [handleTaskAck]
    split
    · exact returns 400
    · split
      · exact returns 400
      · exact updates _ 200
      · exact updates _ 200
  · rw [handleTaskEvent]
    split
    · exact returns 400
    · exact updates _ 200
  · rw [handleTaskDone]
    split
    · exact returns 400
    · split
      · exact returns 400
      · exact checks _ _ _ fun _ => updates _ 200
  · rw [handleTaskFailed]
    split
    · exact returns 400
    · exact updates _ 200
  · simp only [handleNodeCapsRsp]
    split
    · exact returns 400
    · split
      · exact returns 400
      · split
        · exact returns _
        · split
          · exact returns 400
          · exact enrolls _ _ fun _ => returns _

theorem ofHandler_handleMessage (envelope : Envelope) (now : Int) :
    (handleMessage config envelope now).Satisfies (fun _ _ => True) (·.ofHandler = true)
      fun _ => True := by
  apply handleMessage_rule
  · exact fun _ => trivial
  · intro update status
    exact satisfies_bind ((ofHandler_updateTaskState config update).mono fun _ _ => trivial)
  · intro fields result rest holds
    apply satisfies_bind
    apply (ofHandler_of_besideTasks (besideTasks_checkResultSchema config fields result)).mono
    exact fun error _ => holds error
  · intro row rest holds
    exact satisfies_call rfl fun stored _ => holds stored

end Handlers

/-! ## Effects of a message -/

/-- What an update does to the tasks: nothing, or one row is written. -/
def TaskUpdate.Updates (config : EdgeConfig) (update : TaskUpdate)
    (before after : List EdgeTaskRow) : Prop :=
  after = before ∨ ∃ row nowUtcMs,
    lookupBy (·.key) (update.taskId, update.stepId) before = some row ∧
      (update.written config row).isSome = true ∧
      (∀ store : Store, store.tasks = before →
        store.acceptsEdgeTask (update.rowBehind config row) = true) ∧
      after = upsertBy (·.key) Store.mergeTask
        (Store.boundTask nowUtcMs (update.rowBehind config row)) before

theorem Store.key_mergeTask (stored new : EdgeTaskRow) (same : stored.key = new.key) :
    (mergeTask stored new).key = stored.key :=
  same.symm

theorem TaskUpdate.Updates.lookup {config : EdgeConfig} {update : TaskUpdate}
    {before after : List EdgeTaskRow} (updates : update.Updates config before after)
    (key : TaskKey) : lookupBy (·.key) key after = lookupBy (·.key) key before ∨
      ∃ row nowUtcMs, key = (update.taskId, update.stepId) ∧
        lookupBy (·.key) key before = some row ∧ (∀ store : Store, store.tasks = before →
          store.acceptsEdgeTask (update.rowBehind config row) = true) ∧ lookupBy (·.key) key after =
          some (Store.mergeTask row (Store.boundTask nowUtcMs (update.rowBehind config row))) := by
  rcases updates with same | ⟨row, nowUtcMs, found, -, accepts, written⟩
  · rw [same]
    exact .inl rfl
  · have keyed : (Store.boundTask nowUtcMs (update.rowBehind config row)).key =
        (update.taskId, update.stepId) := by
      rw [← key_of_lookupBy found]
      exact (update.sameTask_rowBehind config row).key
    rw [written]
    by_cases here : key = (update.taskId, update.stepId)
    · right
      refine ⟨row, nowUtcMs, here, here ▸ found, accepts, ?_⟩
      have merged := @lookupBy_upsertBy_self _ _ _ (·.key) Store.mergeTask
        (Store.boundTask nowUtcMs (update.rowBehind config row)) before Store.key_mergeTask
      rw [keyed, found] at merged
      rw [here]
      exact merged
    · left
      apply lookupBy_upsertBy_of_ne Store.key_mergeTask
      rw [keyed]
      exact here

/-- The updates that a message stands for. `verdict` says what the guardrail may
have found out about a result. -/
inductive Envelope.Carries (config : EdgeConfig) (verdict : Json.Tree → Bytes → Prop)
    (envelope : Envelope) : TaskUpdate → Prop
  | accepted (now : Int) (type : envelope.type = .taskAck)
      (answer : envelope.body.boolMember (ascii "accepted") = some true) :
      Carries config verdict envelope (envelope.update now TaskState.queued [] [])
  | refused (now : Int) (reason : Bytes) (type : envelope.type = .taskAck)
      (answer : envelope.body.boolMember (ascii "accepted") = some false) :
      Carries config verdict envelope (envelope.update now TaskState.failed [] reason)
  | reported (now : Int) (type : envelope.type = .taskEvent) :
      Carries config verdict envelope
        (envelope.update now (envelope.body.text (ascii "state")) (resultJsonOf config envelope)
          (envelope.body.text (ascii "error")))
  | finished (now : Int) (result : Json.Tree) (error : Bytes) (type : envelope.type = .taskDone)
      (member : envelope.body.member (ascii "result") = some result)
      (checked : verdict result error) :
      Carries config verdict envelope (doneUpdate config envelope now result error)
  | failed (now : Int) (type : envelope.type = .taskFailed) :
      Carries config verdict envelope
        (envelope.update now TaskState.failed [] (envelope.body.text (ascii "error")))

theorem Envelope.member_eventData (envelope : Envelope) {key : Bytes} (other : key ≠ ascii "trace") :
    envelope.eventData.member key = envelope.body.member key := by
  rw [eventData]
  split
  · exact Json.Tree.member_setMember_of_ne other
  · rfl

namespace Envelope.Carries

variable {config : EdgeConfig} {verdict : Json.Tree → Bytes → Prop} {envelope : Envelope}
  {update : TaskUpdate} (carries : envelope.Carries config verdict update)

include carries

theorem taskId : update.taskId = (taskFields envelope.body).taskId := by
  cases carries with
  | finished =>
    rw [doneUpdate]
    split <;> rfl
  | _ => rfl

theorem stepId : update.stepId = (taskFields envelope.body).stepId := by
  cases carries with
  | finished =>
    rw [doneUpdate]
    split <;> rfl
  | _ => rfl

theorem fromId : update.fromId = envelope.fromId := by
  cases carries with
  | finished =>
    rw [doneUpdate]
    split <;> rfl
  | _ => rfl

theorem member {key : Bytes} (untraced : key ≠ ascii "trace")
    (unchecked : key ≠ ascii "_result_schema_error") :
    update.eventData.member key = envelope.body.member key := by
  rw [← envelope.member_eventData untraced]
  cases carries with
  | finished =>
    rw [doneUpdate]
    split
    · rfl
    · exact Json.Tree.member_setMember_of_ne unchecked
  | _ => rfl

theorem gotIdem : update.gotIdem = (taskFields envelope.body).idempotencyKey := by
  rw [TaskUpdate.gotIdem, Json.Tree.text, carries.member (by decide) (by decide)]
  rfl

/-- A success is the state that an event reports, or comes with a result that passes its check. -/
theorem succeeds (state : update.state = TaskState.succeeded) : ∃ now, (envelope.type = .taskEvent ∧
        update = envelope.update now (envelope.body.text (ascii "state"))
          (resultJsonOf config envelope) (envelope.body.text (ascii "error"))) ∨
      ∃ result, envelope.type = .taskDone ∧
        envelope.body.member (ascii "result") = some result ∧ verdict result [] ∧
        update = envelope.update now TaskState.succeeded (config.json.write result) [] := by
  have failure : TaskState.failed ≠ TaskState.succeeded := by decide
  cases carries with
  | accepted => exact absurd state (show TaskState.queued ≠ TaskState.succeeded by decide)
  | refused => exact absurd state failure
  | failed => exact absurd state failure
  | reported now type => exact ⟨now, .inl ⟨type, rfl⟩⟩
  | finished now result error type member checked =>
    rw [doneUpdate] at state ⊢
    split at state
    · next passed =>
      subst passed
      exact ⟨now, .inr ⟨result, type, member, checked, if_pos rfl⟩⟩
    · exact absurd state failure

end Envelope.Carries

def Envelope.Does (config : EdgeConfig) (verdict : Json.Tree → Bytes → Prop) (envelope : Envelope)
    (before after : List EdgeTaskRow) : Prop :=
  after = before ∨ ∃ update, envelope.Carries config verdict update ∧
    (taskFields envelope.body).valid = true ∧ update.Updates config before after

theorem Envelope.Does.accepted {config : EdgeConfig} {verdict : Json.Tree → Bytes → Prop}
    {envelope : Envelope} {before after : List EdgeTaskRow} {row behind : EdgeTaskRow}
    (does : envelope.Does config verdict before after)
    (stored : lookupBy (·.key) row.key before = some row) (moved : row.state ≠ TaskState.succeeded)
    (found : lookupBy (·.key) row.key after = some behind)
    (succeeded : behind.state = TaskState.succeeded) :
    ∃ update nowUtcMs, envelope.Carries config verdict update ∧
      (taskFields envelope.body).valid = true ∧ row.key = (update.taskId, update.stepId) ∧
      update.applies row = true ∧ update.state = TaskState.succeeded ∧
      update.attestFailure config row = none ∧ (∀ store : Store, store.tasks = before →
        store.acceptsEdgeTask (update.appliedRow config row) = true) ∧
      behind = Store.mergeTask row (Store.boundTask nowUtcMs (update.appliedRow config row)) := by
  have changed : lookupBy (·.key) row.key after ≠ lookupBy (·.key) row.key before := by
    intro same
    rw [found, stored] at same
    exact moved (Option.some.inj same ▸ succeeded)
  rcases does with same | ⟨update, carries, valid, updates⟩
  · exact absurd (congrArg _ same) changed
  · rcases updates.lookup row.key with same | ⟨other, nowUtcMs, named, there, accepts, written⟩
    · exact absurd same changed
    · cases stored.symm.trans there
      cases found.symm.trans written
      rcases update.accepted_of_rowBehind config moved succeeded with ⟨applies, state, attested⟩
      rw [update.rowBehind_of_applies config applies] at accepts ⊢
      exact ⟨update, nowUtcMs, carries, valid, named, applies, state, attested, accepts, rfl⟩

section Messages

variable {config : EdgeConfig} {effect : (call : Call) → Store → Response call → Store → Prop}
  (refines : ∀ {call store response next}, effect call store response next →
    Effect call store response next)

include refines

theorem ensures_leavesTasks {α : Type} {program : Action α} {before : Store}
    (leaves : program.Satisfies (fun _ _ => True) LeavesTasks fun _ => True) :
    program.Ensures effect (fun _ after => after.tasks = before.tasks) before := by
  have kept : program.Ensures effect
      (fun _ after => True ∧ after.tasks = before.tasks) before := by
    apply leaves.ensures (fun store : Store => store.tasks = before.tasks) _ rfl
    intro call store response next same leavesCall performed
    exact ⟨trivial, ((refines performed).tasks leavesCall.writes).trans same⟩
  exact kept.mono fun _ _ both => both.2

theorem updateTaskState_ensures (update : TaskUpdate) (before : Store) :
    (updateTaskState config update).Ensures effect
      (fun _ after => update.Updates config before.tasks after.tasks) before := by
  simp only [updateTaskState]
  split
  · exact .inl rfl
  · apply ensures_call
    intro found middle read
    rcases effect_getEdgeTask (refines read) with ⟨same, stored⟩
    rw [same]
    cases found with
    | none => exact .inl rfl
    | some row =>
      have there : lookupBy (·.key) (update.taskId, update.stepId) before.tasks = some row := by
        rcases stored with missing | stored
        · exact nomatch missing
        · exact lookupBy_of_getEdgeTask stored.symm
      -- behind the write nothing touches the tasks
      have rest : ∀ store : Store, update.Updates config before.tasks store.tasks →
          (do
            let _ ← insertEdgeTaskEvent (update.event config row)
            reflectIntoStep config update row : Action Unit).Ensures effect
            (fun _ after => update.Updates config before.tasks after.tasks) store := by
        intro store updated
        have leaves := @ensures_leavesTasks effect refines _ _ store
          (satisfies_call (show LeavesTasks (.insertEdgeTaskEvent
            (update.event config row)) from rfl) fun _ _ =>
              leavesTasks_reflectIntoStep config update row)
        apply leaves.mono
        intro _ after same
        rw [same]
        exact updated
      apply ensures_bind
      rw [performWhen]
      split
      · next writes =>
        apply ensures_call
        intro response written upserted
        apply rest
        rcases effect_upsertEdgeTask (refines upserted) with ⟨-, accepts, nowUtcMs, stores⟩ | ⟨-, same⟩
        · rw [stores]
          refine .inr ⟨row, nowUtcMs, there, writes, fun store tasks => ?_, rfl⟩
          rw [← accepts, Store.acceptsEdgeTask, Store.acceptsEdgeTask, tasks]
        · rw [same]
          exact .inl rfl
      · exact rest before (.inl rfl)

theorem checkResultSchema_leaves (fields : TaskFields) (result : Json.Tree) {before store : Store}
    (alike : store.Alike before) :
    (checkResultSchema config fields result).Ensures effect
      (fun _ after => after.tasks = before.tasks ∧ True) store := by
  have leaves := leavesTasks_of_besideTasks (besideTasks_checkResultSchema config fields result)
  apply (ensures_leavesTasks refines leaves).mono
  intro _ after same
  exact ⟨same.trans alike.tasks, trivial⟩

section Envelopes

variable {verdict : Json.Tree → Bytes → Prop} {envelope : Envelope} {before store : Store}
  (checks : ∀ (result : Json.Tree) (store : Store), store.Alike before →
    (checkResultSchema config (taskFields envelope.body) result).Ensures effect
      (fun error after => after.tasks = before.tasks ∧ verdict result error) store)

theorem carried_ensures {update : TaskUpdate} (status : Nat) (same : store.tasks = before.tasks)
    (carries : envelope.Carries config verdict update)
    (valid : (taskFields envelope.body).valid = true) :
    (updateTaskState config update >>= fun _ => pure status).Ensures effect
      (fun _ after => envelope.Does config verdict before.tasks after.tasks) store := by
  apply ensures_bind
  apply (updateTaskState_ensures refines update store).mono
  intro _ after updated
  rw [same] at updated
  exact .inr ⟨update, carries, valid, updated⟩

include checks

theorem handleMessage_ensures (now : Int) (alike : store.Alike before) :
    (handleMessage config envelope now).Ensures effect
      (fun _ after => envelope.Does config verdict before.tasks after.tasks) store := by
  have same := alike.tasks
  have nothing : envelope.Does config verdict before.tasks store.tasks := .inl same
  rw [handleMessage]
  split
  · next type =>
    rw [handleTaskAck]
    split
    · exact nothing
    · next valid =>
      split
      · exact nothing
      · next answer =>
        exact carried_ensures refines 200 same (.accepted now type answer)
          (by simpa using valid)
      · next answer =>
        exact carried_ensures refines 200 same (.refused now _ type answer)
          (by simpa using valid)
  · next type =>
    rw [handleTaskEvent]
    split
    · exact nothing
    · next valid =>
      exact carried_ensures refines 200 same (.reported now type)
        (by simpa using (not_or.mp valid).2)
  · next type =>
    rw [handleTaskDone]
    split
    · exact nothing
    · next valid =>
      split
      · exact nothing
      · next result member =>
        apply ensures_bind
        apply (checks result store alike).mono
        intro error after checked
        exact carried_ensures refines 200 checked.1
          (.finished now result error type member checked.2) (by simpa using valid)
  · next type =>
    rw [handleTaskFailed]
    split
    · exact nothing
    · next valid =>
      exact carried_ensures refines 200 same (.failed now type)
        (by simpa using (not_or.mp valid).1)
  · simp only [handleNodeCapsRsp]
    split
    · exact nothing
    · split
      · exact nothing
      · split
        · exact nothing
        · split
          · exact nothing
          · apply ensures_call
            intro response middle performed
            exact .inl (((refines performed).tasks rfl).trans same)

theorem processMessage_ensures (now : Int) (alike : store.Alike before) :
    (processMessage config envelope now).Ensures effect
      (fun _ after => envelope.Does config verdict before.tasks after.tasks) store := by
  apply ensures_bind
  apply (handleMessage_ensures refines checks now alike).mono
  intro status after done
  have leaves := leavesTasks_respond envelope.msgId status
  apply (ensures_leavesTasks refines leaves).mono
  intro _ last same
  rw [same]
  exact done

theorem storeMessage_ensures (now tsUtcMs : Int) (alike : store.Alike before) :
    (storeMessage config envelope now tsUtcMs).Ensures effect
      (fun _ after => envelope.Does config verdict before.tasks after.tasks) store := by
  have responds : ∀ (status : Nat) (store : Store), store.Alike before →
      (respond status).Ensures effect
        (fun _ after => envelope.Does config verdict before.tasks after.tasks) store := by
    intro status store alike response after performed
    exact .inl (((refines performed).tasks rfl).trans alike.tasks)
  rw [storeMessage]
  split
  · exact responds _ store alike
  · apply ensures_call
    intro outcome inserted performed
    have alikeInserted := alike_of_inbox (refines performed) alike
    cases outcome with
    | failed => exact responds _ _ alikeInserted
    | seqRejected => exact responds _ _ alikeInserted
    | stored => exact processMessage_ensures refines checks now alikeInserted
    | deduped =>
      apply ensures_call
      intro processed read performed
      have alikeRead := (refines performed).alike rfl rfl alikeInserted
      split
      · exact responds _ _ alikeRead
      · exact processMessage_ensures refines checks now alikeRead

theorem handleEdgeMessage_ensures :
    (handleEdgeMessage config envelope).Ensures effect
      (fun _ after => envelope.Does config verdict before.tasks after.tasks) before := by
  simp only [handleEdgeMessage]
  apply ensures_call
  intro now clocked performed
  have alikeClocked : clocked.Alike before := (refines performed).alike rfl rfl ⟨rfl, fun _ => rfl⟩
  split
  · exact storeMessage_ensures refines checks now _ alikeClocked
  · apply ensures_call
    intro tsUtcMs middle performed
    exact storeMessage_ensures refines checks now tsUtcMs
      ((refines performed).alike rfl rfl alikeClocked)

end Envelopes

end Messages

end AgentC.EdgeTasks
