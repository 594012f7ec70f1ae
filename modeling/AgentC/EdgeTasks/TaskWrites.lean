import AgentC.EdgeTasks.Enqueue
import AgentC.EdgeTasks.MessageEffects
import AgentC.EdgeTasks.Platform
import AgentC.Foundation.Runs

/-! # What writes of tasks rest on

A write of a task rests on a copy of the row that the same thread has read, or on
a lock that it has found free. -/

namespace AgentC.EdgeTasks

open Program

/-- What a thread has learnt last about the tasks. -/
inductive Basis
  | nothing
  | copy (read : EdgeTaskRow)
  | free (nodeId resourceLock : Bytes)
deriving DecidableEq, Repr

def Basis.advance (basis : Basis) : (call : Call) → Response call → Basis
  | .getEdgeTask _ _, some row => .copy row
  | .getEdgeTask _ _, none => .nothing
  | .getEdgeTaskByNodeIdempotency _ _, some row => .copy row
  | .getEdgeTaskByNodeIdempotency _ _, none => .nothing
  | .getEdgeTaskLockConflict nodeId resourceLock, none => .free nodeId resourceLock
  | .getEdgeTaskLockConflict _ _, some _ => .nothing
  | .upsertEdgeTask _, _ => .nothing
  | _, _ => basis

/-- A copy is written back as the same task, and with its state if it has ended;
a new task has the lock that was found free, or none. -/
def EdgeTaskRow.RestsOn (row : EdgeTaskRow) : Basis → Prop
  | .copy read => row.SameTask read ∧
      (isTerminalTaskState read.state = true → row.state = read.state)
  | .free nodeId resourceLock => row.nodeId = nodeId ∧ row.resourceLock = resourceLock ∧
      nodeId ≠ [] ∧ resourceLock ≠ []
  | .nothing => row.resourceLock = []

def Basis.isCopy : Basis → Bool
  | .copy _ => true
  | _ => false

/-- The conduct of threads that write tasks. Only those that assign tasks look
for a task by its node and for the holder of a lock, and write tasks that they
have not read. -/
def taskConduct (assigns : Bool) : Description Basis Call Response where
  advance := Basis.advance
  allowed basis call :=
    match call with
    | .upsertEdgeTask row => row.RestsOn basis ∧ (assigns = true ∨ basis.isCopy = true)
    | .getEdgeTaskByNodeIdempotency _ _ => assigns = true
    | .getEdgeTaskLockConflict _ _ => assigns = true
    | _ => True

section Conduct

variable {assigns : Bool} {basis : Basis}

theorem allowed_of_leavesTasks (basis : Basis) {call : Call} (leaves : LeavesTasks call) :
    (taskConduct assigns).allowed basis call := by
  cases call with
  | upsertEdgeTask row => exact nomatch leaves
  | getEdgeTaskByNodeIdempotency => exact nomatch leaves
  | getEdgeTaskLockConflict => exact nomatch leaves
  | _ => trivial

theorem follows_of_leavesTasks {α : Type} {program : Action α}
    (leaves : program.Satisfies (fun _ _ => True) LeavesTasks fun _ => True) :
    program.Follows (taskConduct assigns) (fun _ _ => True) basis :=
  leaves.follows_always fun basis _ call => allowed_of_leavesTasks basis call

theorem follows_leaving_bind {call : Call} {α : Type} {rest : Response call → Action α}
    {post : Basis → α → Prop} (leaves : LeavesTasks call)
    (holds : ∀ response basis, (rest response).Follows (taskConduct assigns) post basis) :
    (request call >>= rest).Follows (taskConduct assigns) post basis :=
  follows_call (allowed_of_leavesTasks basis leaves) fun response => holds response _

theorem follows_performWhen_bind {Knowledge : Type} {description : Description Knowledge Call Response}
    {known : Knowledge} {condition : Bool} {call : Call} {α : Type} {post : Knowledge → α → Prop}
    {rest : Unit → Action α} (allowed : condition = true → description.allowed known call)
    (follows : ∀ known, (rest ()).Follows description post known) :
    (performWhen condition (request call : Action (Response call)) >>= rest).Follows description
      post known := by
  rw [performWhen]
  split
  · next holds => exact follows_bind (follows_call (allowed holds) fun _ => follows _)
  · exact follows known

end Conduct

abbrev TaskEvent := Event Store Call Response

def Call.writtenTask : Call → Option EdgeTaskRow
  | .upsertEdgeTask row => some row
  | _ => none

variable {row : EdgeTaskRow}

theorem lookup_upsertEdgeTask {store next : Store} {stored : Bool}
    (effect : Effect (.upsertEdgeTask row) store stored next) (key : TaskKey) :
    lookupBy (·.key) key next.tasks = lookupBy (·.key) key store.tasks ∨
      stored = true ∧ row.key = key ∧ ∃ nowUtcMs,
        lookupBy (·.key) key next.tasks = some (((lookupBy (·.key) key store.tasks).map fun old =>
          Store.mergeTask old (Store.boundTask nowUtcMs row)).getD
            (Store.boundTask nowUtcMs row)) := by
  rcases effect_upsertEdgeTask effect with ⟨answered, -, nowUtcMs, written⟩ | ⟨-, same⟩
  · rw [written]
    by_cases here : row.key = key
    · right
      refine ⟨answered, here, nowUtcMs, ?_⟩
      subst here
      exact @lookupBy_upsertBy_self _ _ _ (·.key) Store.mergeTask (Store.boundTask nowUtcMs row)
        store.tasks Store.key_mergeTask
    · left
      apply lookupBy_upsertBy_of_ne Store.key_mergeTask
      exact fun same => here same.symm
  · rw [same]
    exact .inl rfl

theorem lookup_of_written {behind : EdgeTaskRow} {store next : Store} {stored : Bool}
    {key : TaskKey} (effect : Effect (.upsertEdgeTask row) store stored next)
    (found : lookupBy (·.key) key next.tasks = some behind)
    (changed : lookupBy (·.key) key next.tasks ≠ lookupBy (·.key) key store.tasks) :
    stored = true ∧ row.key = key ∧ behind.state = row.state ∧
      behind.idempotencyKey = row.idempotencyKey := by
  rcases lookup_upsertEdgeTask effect key with same | ⟨answered, here, nowUtcMs, written⟩
  · exact absurd same changed
  · rw [written] at found
    cases Option.some.inj found
    cases lookupBy (·.key) key store.tasks with
    | none => exact ⟨answered, here, rfl, rfl⟩
    | some old => exact ⟨answered, here, rfl, rfl⟩

section Messages

variable (config : EdgeConfig) {assigns : Bool} {basis : Basis}

theorem TaskUpdate.restsOn_copy (update : TaskUpdate) (row : EdgeTaskRow) :
    (update.rowBehind config row).RestsOn (.copy row) := by
  refine ⟨update.sameTask_rowBehind config row, fun ended => ?_⟩
  have ignored : update.applies row = false := by
    rw [applies, ended]
    rfl
  rcases update.rowBehind_of_not_applies config ignored with ⟨traceId, updatedUtcMs, same⟩
  rw [same]

theorem updateTaskState_follows (update : TaskUpdate) :
    (updateTaskState config update).Follows (taskConduct assigns) (fun _ _ => True) basis := by
  rw [updateTaskState]
  split
  · trivial
  · refine follows_call trivial fun found => ?_
    cases found with
    | none => trivial
    | some row =>
      refine follows_performWhen_bind (fun _ => ⟨update.restsOn_copy config row, .inr rfl⟩)
        fun _ => ?_
      exact follows_leaving_bind rfl fun _ _ =>
        follows_of_leavesTasks (leavesTasks_reflectIntoStep config update row)

variable (envelope : Envelope) (now : Int)

theorem handleMessage_keepsConduct :
    (handleMessage config envelope now).Follows (taskConduct assigns) (fun _ _ => True) basis := by
  apply handleMessage_rule config fun program =>
    ∀ basis, program.Follows (taskConduct assigns) (fun _ _ => True) basis
  · exact fun _ _ => trivial
  · intro update status basis
    apply follows_bind
    apply (updateTaskState_follows config update).mono
    exact fun _ _ _ => trivial
  · intro fields result rest holds basis
    apply follows_bind
    have leaves := leavesTasks_of_besideTasks (besideTasks_checkResultSchema config fields result)
    apply (follows_of_leavesTasks leaves).mono
    exact fun reached error _ => holds error reached
  · intro row rest holds basis
    exact follows_leaving_bind rfl fun stored reached => holds stored reached

theorem processMessage_keepsConduct :
    (processMessage config envelope now).Follows (taskConduct assigns) (fun _ _ => True) basis := by
  apply follows_bind
  apply (handleMessage_keepsConduct config envelope now).mono
  intro reached status _
  exact follows_of_leavesTasks (leavesTasks_respond envelope.msgId status)

theorem storeMessage_keepsConduct (tsUtcMs : Int) :
    (storeMessage config envelope now tsUtcMs).Follows (taskConduct assigns) (fun _ _ => True) basis := by
  have responds : ∀ status basis, (respond status).Follows (taskConduct assigns) (fun _ _ => True) basis :=
    fun _ _ => ⟨trivial, fun _ => trivial⟩
  rw [storeMessage]
  split
  · exact responds _ _
  · refine follows_leaving_bind rfl fun outcome basis => ?_
    cases outcome with
    | failed => exact responds _ _
    | seqRejected => exact responds _ _
    | stored => exact processMessage_keepsConduct config envelope now
    | deduped =>
      refine follows_leaving_bind rfl fun flag basis => ?_
      split
      · exact responds _ _
      · exact processMessage_keepsConduct config envelope now

theorem handleEdgeMessage_keepsConduct (envelope : Envelope) :
    (handleEdgeMessage config envelope).Follows (taskConduct assigns) (fun _ _ => True) basis := by
  rw [handleEdgeMessage]
  refine follows_leaving_bind rfl fun now basis => ?_
  split
  · exact storeMessage_keepsConduct config envelope now _
  · refine follows_leaving_bind rfl fun tsUtcMs basis => ?_
    exact storeMessage_keepsConduct config envelope now tsUtcMs

end Messages

section Endings

variable (config : EdgeConfig) {assigns : Bool} {basis : Basis}

theorem leavesTasks_timeOutStep (row : EdgeTaskRow) (now : Int) :
    (timeOutStep row now).Satisfies (fun _ _ => True) LeavesTasks fun _ => True := by
  rw [timeOutStep]
  refine satisfies_call rfl fun workflow _ => ?_
  cases workflow with
  | none => trivial
  | some workflow =>
    refine satisfies_call rfl fun listed _ => ?_
    cases listed with
    | none => trivial
    | some steps =>
      simp only
      split
      · trivial
      · exact satisfies_call rfl fun _ _ => trivial

theorem restsOn_copy_of_live {read : EdgeTaskRow} (same : row.SameTask read)
    (live : isTerminalTaskState read.state = false) : row.RestsOn (.copy read) :=
  ⟨same, fun ended => nomatch live.symm.trans ended⟩

theorem sweepTask_keepsConduct (now : Int) (listed : EdgeTaskRow) :
    (sweepTask config now listed).Follows (taskConduct assigns) (fun _ _ => True) basis := by
  rw [sweepTask]
  split
  · trivial
  · refine follows_call trivial fun found => ?_
    cases found with
    | none => trivial
    | some row =>
      simp only
      split
      · trivial
      · next expired =>
        have live : isTerminalTaskState row.state = false :=
          Bool.eq_false_iff.mpr fun ended => expired (.inl ended)
        refine follows_call
          ⟨restsOn_copy_of_live ⟨rfl, rfl, rfl, rfl, rfl, rfl, rfl, rfl⟩ live, .inr rfl⟩
          fun _ => ?_
        refine follows_leaving_bind rfl fun _ _ => ?_
        exact follows_of_leavesTasks (leavesTasks_timeOutStep _ now)

theorem sweepDeadlines_keepsConduct (maxScanRows : Nat) :
    (sweepDeadlines config maxScanRows).Follows (taskConduct assigns) (fun _ _ => True) basis := by
  rw [sweepDeadlines]
  refine follows_leaving_bind rfl fun now basis => ?_
  refine follows_leaving_bind rfl fun expired basis => ?_
  apply @follows_forM _ _ _ _ _ _ (fun _ => True) _ _ _ trivial
  intro listed _ basis _
  exact sweepTask_keepsConduct config now listed

theorem cancelTask_keepsConduct (now : Int) (workflowId stepId : Bytes) :
    (cancelTask now workflowId stepId).Follows (taskConduct assigns) (fun _ _ => True) basis := by
  rw [cancelTask]
  refine follows_call trivial fun found => ?_
  cases found with
  | none => trivial
  | some row =>
    simp only [performWhen]
    split
    · next live =>
      rw [Bool.not_eq_true'] at live
      exact follows_call
        ⟨restsOn_copy_of_live ⟨rfl, rfl, rfl, rfl, rfl, rfl, rfl, rfl⟩ live, .inr rfl⟩
        fun _ => trivial
    · trivial

theorem cancelStep_keepsConduct (now : Int) (workflowId : Bytes) (step : EdgeWorkflowStepRow) :
    (cancelStep now workflowId step).Follows (taskConduct assigns) (fun _ _ => True) basis := by
  rw [cancelStep]
  split
  · trivial
  · refine follows_leaving_bind rfl fun _ basis => ?_
    split
    · exact cancelTask_keepsConduct now workflowId step.stepId
    · trivial

theorem cancelEdgeWorkflow_keepsConduct (workflowId : Bytes) :
    (cancelEdgeWorkflow config workflowId).Follows (taskConduct assigns) (fun _ _ => True) basis := by
  rw [cancelEdgeWorkflow]
  refine follows_leaving_bind rfl fun found basis => ?_
  cases found with
  | none => exact ⟨trivial, fun _ => trivial⟩
  | some workflow =>
    refine follows_leaving_bind rfl fun now basis => ?_
    refine follows_performWhen_bind (fun _ => allowed_of_leavesTasks basis rfl) fun basis => ?_
    refine follows_leaving_bind rfl fun listed basis => ?_
    apply follows_bind
    have cancels : ((listed.getD []).forM (cancelStep now workflowId)).Follows (taskConduct assigns)
        (fun _ _ => True) basis := by
      apply @follows_forM _ _ _ _ _ _ (fun _ => True) _ _ _ trivial
      intro step _ basis _
      exact cancelStep_keepsConduct now workflowId step
    apply cancels.mono
    intro basis _ _
    exact follows_leaving_bind rfl fun _ _ => ⟨trivial, fun _ => trivial⟩

end Endings

section Assignments

variable (config : EdgeConfig) (assignment : TaskAssignment) {basis : Basis}

def Call.ofGuard : Call → Bool
  | .unixMsNow => true
  | .getEdgeNode _ => true
  | .getEdgeTaskLockConflict _ _ => true
  | .getEdgeToolRateState _ _ => true
  | _ => false

theorem checkRateLimit_ofGuard (nodeId toolName : Bytes) (tool : EdgeToolMeta) (nowUtcMs : Int) :
    (checkRateLimit nodeId toolName tool nowUtcMs).Satisfies (fun _ _ => True)
      (·.ofGuard = true) fun _ => True := by
  rw [checkRateLimit]
  split
  · trivial
  · apply satisfies_then
    · rw [timeOrNow]
      split
      · trivial
      · exact ⟨rfl, fun now _ => trivial⟩
    · intro now
      refine satisfies_call rfl fun state _ => ?_
      split <;> trivial

variable (manifest : Json.Tree) (tool : EdgeToolMeta)

theorem guardCall_ofGuard :
    (assignment.guardCall config manifest tool).Satisfies (fun _ _ => True)
      (·.ofGuard = true) fun _ => True := by
  rw [TaskAssignment.guardCall]
  split
  · trivial
  · split
    · refine satisfies_call rfl fun now _ => ?_
      apply satisfies_bind
      apply (checkRateLimit_ofGuard _ _ tool now).mono
      intro result _
      cases result with
      | error error => trivial
      | ok rateState => trivial
    · trivial

theorem clear_ofGuard :
    (assignment.clear config).Satisfies (fun _ _ => True) (·.ofGuard = true) fun _ => True := by
  rw [TaskAssignment.clear]
  split
  · rw [TaskAssignment.guardTool]
    refine satisfies_call rfl fun node _ => ?_
    split
    · trivial
    · split
      · exact guardCall_ofGuard config assignment _ _
      · refine satisfies_call rfl fun holder _ => ?_
        cases holder with
        | some holder => trivial
        | none => exact guardCall_ofGuard config assignment _ _
  · trivial

def Call.ofSending : Call → Bool
  | .unixMsNow => true
  | .makeUuidishMsgId => true
  | .insertEdgeOutboxMessage _ => true
  | .upsertEdgeToolRateState _ => true
  | _ => false

theorem send_ofSending (deduped : Bool) (rateState : Option EdgeToolRateStateRow) :
    (assignment.send deduped rateState).Satisfies (fun _ _ => True) (·.ofSending = true)
      fun outcome => outcome.deduped = deduped := by
  rw [TaskAssignment.send]
  refine satisfies_call rfl fun now _ => ?_
  refine satisfies_call rfl fun msgId _ => ?_
  refine satisfies_call rfl fun outboxId _ => ?_
  cases outboxId with
  | none => rfl
  | some outboxId =>
    cases rateState with
    | none => rfl
    | some state => exact satisfies_performWhen_bind rfl rfl

theorem leavesTasks_send (deduped : Bool) (rateState : Option EdgeToolRateStateRow) :
    (assignment.send deduped rateState).Satisfies (fun _ _ => True) LeavesTasks
      fun _ => True := by
  apply ((send_ofSending assignment deduped rateState).mono fun _ _ => trivial).weaken
  · exact fun _ _ _ => trivial
  · intro call sends
    cases call with
    | upsertEdgeTask row => exact nomatch sends
    | getEdgeTaskByNodeIdempotency => exact nomatch sends
    | getEdgeTaskLockConflict => exact nomatch sends
    | _ => rfl

/-- A clearance that is written as a task rests on what is known then. -/
def Cleared (basis : Basis) (result : Except Refusal TaskAssignment.Clearance) : Prop :=
  ∀ clearance now, result = .ok clearance →
    (assignment.queuedRow config clearance.resourceLock now).RestsOn basis

theorem checkRateLimit_follows (now : Int) :
    (checkRateLimit assignment.nodeId assignment.toolName tool now).Follows (taskConduct true)
      (fun reached _ => reached = basis) basis := by
  rw [checkRateLimit]
  split
  · exact follows_pure rfl
  · have clock : (timeOrNow now).Follows (taskConduct true) (fun reached _ => reached = basis)
        basis := by
      rw [timeOrNow]
      split
      · exact follows_pure rfl
      · exact ⟨trivial, fun now => rfl⟩
    refine follows_bind (clock.mono fun reached now same => ?_)
    subst same
    refine follows_call trivial fun state => ?_
    split
    · exact follows_pure rfl
    · exact follows_pure rfl

theorem guardCall_follows
    (rests : ∀ now, (assignment.queuedRow config tool.resourceLock now).RestsOn basis) :
    (assignment.guardCall config manifest tool).Follows (taskConduct true)
      (Cleared config assignment) basis := by
  rw [TaskAssignment.guardCall]
  split
  · exact follows_pure fun _ _ cleared => nomatch cleared
  · split
    · refine follows_call trivial fun now => ?_
      apply follows_bind
      apply (checkRateLimit_follows assignment tool now).mono
      intro reached result same
      subst same
      cases result with
      | error error => exact fun _ _ cleared => nomatch cleared
      | ok rateState =>
        intro clearance now cleared
        cases cleared
        exact rests now
    · intro clearance now cleared
      cases cleared
      exact rests now

theorem guardTool_follows (named : assignment.nodeId ≠ []) :
    (assignment.guardTool config).Follows (taskConduct true) (Cleared config assignment)
      .nothing := by
  rw [TaskAssignment.guardTool]
  refine follows_call trivial fun node => ?_
  split
  · exact fun _ _ cleared => nomatch cleared
  · next manifest tool _ =>
    split
    · next unlocked => exact guardCall_follows config assignment manifest tool fun _ => unlocked
    · next locked =>
      refine follows_call rfl fun holder => ?_
      cases holder with
      | some holder => exact fun _ _ cleared => nomatch cleared
      | none =>
        exact guardCall_follows config assignment manifest tool fun _ =>
          ⟨rfl, rfl, named, locked⟩

theorem clear_follows (named : assignment.nodeId ≠ []) :
    (assignment.clear config).Follows (taskConduct true) (Cleared config assignment) .nothing := by
  rw [TaskAssignment.clear]
  split
  · exact guardTool_follows config assignment named
  · intro clearance now cleared
    cases cleared
    rfl

theorem assign_follows {clearance : TaskAssignment.Clearance}
    (cleared : Cleared config assignment basis (.ok clearance)) :
    (assignment.assign config clearance).Follows (taskConduct true) (fun _ _ => True) basis := by
  rw [TaskAssignment.assign]
  refine follows_call trivial fun now => ?_
  refine follows_call ⟨cleared clearance now rfl, .inl rfl⟩ fun stored => ?_
  split
  · exact follows_leaving_bind rfl fun _ _ =>
      follows_of_leavesTasks (leavesTasks_send assignment _ _)
  · trivial

theorem assignAgain_follows (existing : EdgeTaskRow) :
    (assignment.assignAgain existing).Follows (taskConduct true) (fun _ _ => True)
      (.copy existing) := by
  rw [TaskAssignment.assignAgain]
  split
  · trivial
  · apply follows_bind
    rw [TaskAssignment.backfillTrace]
    split
    · refine follows_call trivial fun now => ?_
      refine follows_call
        ⟨⟨⟨rfl, rfl, rfl, rfl, rfl, rfl, rfl, rfl⟩, fun _ => rfl⟩, .inl rfl⟩ fun _ => ?_
      exact follows_of_leavesTasks (leavesTasks_send assignment _ _)
    · exact follows_of_leavesTasks (leavesTasks_send assignment _ _)

theorem nodeId_ne_of_not_refused (accepted : assignment.refusal = none) :
    assignment.nodeId ≠ [] := by
  intro empty
  rw [TaskAssignment.refusal, empty, if_pos (by decide)] at accepted
  exact nomatch accepted

theorem enqueueTaskAssign_keepsConduct :
    (enqueueTaskAssign config assignment).Follows (taskConduct true) (fun _ _ => True) basis := by
  rw [enqueueTaskAssign]
  split
  · trivial
  · next accepted =>
    refine follows_call rfl fun found => ?_
    cases found with
    | some existing => exact assignAgain_follows assignment existing
    | none =>
      apply follows_bind
      have named := nodeId_ne_of_not_refused assignment accepted
      apply (clear_follows config assignment named).mono
      intro reached result cleared
      cases result with
      | error refusal => trivial
      | ok clearance => exact assign_follows config assignment cleared

end Assignments

end AgentC.EdgeTasks
