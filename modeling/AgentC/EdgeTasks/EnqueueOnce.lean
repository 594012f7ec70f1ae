import AgentC.EdgeTasks.TaskWrites

/-! # Tasks that are assigned more than once

`edge_enqueue_task_assign` looks for the task under its idempotency key. It
stores the whole row later, as a new task or, with a trace, as the copy that the
look has found; other assignments and messages of the node come in between. -/

namespace AgentC.EdgeTasks

open Program

/-! ## Assignments of one task -/

/-- What assignments of the same task have in common. -/
structure TaskIdentity where
  nodeId : Bytes
  taskId : Bytes
  stepId : Bytes
  idempotencyKey : Bytes
deriving DecidableEq, Repr

def TaskIdentity.key (identity : TaskIdentity) : TaskKey :=
  (identity.taskId, identity.stepId)

def TaskAssignment.identity (assignment : TaskAssignment) : TaskIdentity where
  nodeId := assignment.nodeId
  taskId := assignment.taskId
  stepId := assignment.stepId
  idempotencyKey := assignment.idempotencyKey

inductive AssignOperation (identity : TaskIdentity)
  | enqueue (assignment : TaskAssignment) (same : assignment.identity = identity)
  | message (envelope : Envelope)

abbrev AssignCall := Reporting Call EnqueueOutcome

abbrev AssignEvent := Event Store AssignCall (Reporting.Answer Response)

/-- Assignments of one task and messages of nodes, on the tables of the platform. -/
def assignOperations (config : EdgeConfig) (identity : TaskIdentity) :
    SharedStore Store (AssignOperation identity) AssignCall (Reporting.Answer Response) where
  effect := Reporting.effect Effect
  program
    | .enqueue assignment _ => (enqueueTaskAssign config assignment).reports
    | .message envelope => (handleEdgeMessage config envelope).lift

def EdgeTaskRow.isUnder (row : EdgeTaskRow) (identity : TaskIdentity) : Bool :=
  row.nodeId = identity.nodeId ∧ row.idempotencyKey = identity.idempotencyKey

structure TaskContents where
  state : Bytes
  payloadJson : Bytes
  deadlineUtcMs : Int
  resultJson : Bytes
  resultSha256 : Bytes
deriving DecidableEq, Repr

def EdgeTaskRow.contents (row : EdgeTaskRow) : TaskContents where
  state := row.state
  payloadJson := row.payloadJson
  deadlineUtcMs := row.deadlineUtcMs
  resultJson := row.resultJson
  resultSha256 := row.resultSha256

def Store.contents (store : Store) (identity : TaskIdentity) : Option TaskContents :=
  ((lookupBy (·.key) identity.key store.tasks).filter (·.isUnder identity)).map (·.contents)

/-! ## What a thread has been shown -/

inductive Standing
  | nothing
  /-- A message has read a task. -/
  | copy (read : EdgeTaskRow)
  /-- An assignment has found a task under the idempotency key. -/
  | found (read : EdgeTaskRow)
  /-- An assignment has not found a task under the idempotency key. -/
  | absent
  /-- An assignment has stored a new task. -/
  | queued
  /-- An assignment has failed to store a new task. -/
  | unstored
deriving DecidableEq

namespace Standing

def behindRead : Option EdgeTaskRow → Standing
  | some row => .copy row
  | none => .nothing

def behindLook : Option EdgeTaskRow → Standing
  | some row => .found row
  | none => .absent

def behindWrite : Standing → Bool → Standing
  | .absent, true => .queued
  | .absent, false => .unstored
  | .copy _, _ => .nothing
  | standing, _ => standing

def advance (standing : Standing) :
    (call : AssignCall) → Reporting.Answer Response call → Standing
  | .call (.getEdgeTask _ _), row => behindRead row
  | .call (.getEdgeTaskByNodeIdempotency _ _), row => behindLook row
  | .call (.upsertEdgeTask _), stored => standing.behindWrite stored
  | _, _ => standing

/-- A thread that has looked for the task under its idempotency key. -/
def assigns : Standing → Bool
  | .nothing => false
  | .copy _ => false
  | _ => true

/-- The rows that a thread may write. -/
def Writes (identity : TaskIdentity) : Standing → EdgeTaskRow → Prop
  | .absent, row =>
    row.key = identity.key ∧ row.isUnder identity = true ∧ row.state = TaskState.queued
  | .found read, row =>
    read.key = identity.key ∧ ∃ traceId updatedUtcMs, row = { read with traceId, updatedUtcMs }
  | .copy read, row => row.SameTask read
  | _, _ => False

/-- The outcomes that an assignment may report: it is deduplicated, it has stored
a new task, or it fails. -/
def Reports : Standing → EnqueueOutcome → Prop
  | .found _, outcome => outcome.deduped = true
  | .queued, outcome => outcome.deduped = false
  | _, outcome => outcome.ok = false

end Standing

def assignConduct (identity : TaskIdentity) :
    Description Standing AssignCall (Reporting.Answer Response) where
  advance := Standing.advance
  allowed standing call :=
    match call with
    | .call (.upsertEdgeTask row) => standing.Writes identity row
    | .call (.getEdgeTask _ _) => standing.assigns = false
    | .call (.getEdgeTaskByNodeIdempotency nodeId idempotencyKey) =>
      nodeId = identity.nodeId ∧ idempotencyKey = identity.idempotencyKey ∧ nodeId ≠ [] ∧
        idempotencyKey ≠ []
    | .report outcome => standing.Reports outcome
    | _ => True

/-! ## Programs -/

section Programs

variable (config : EdgeConfig) {identity : TaskIdentity}

def Standing.Mirrors : Basis → Standing → Prop
  | .copy read, standing => standing = .copy read
  | _, standing => standing = .nothing

theorem message_follows (envelope : Envelope) :
    (handleEdgeMessage config envelope).lift.Follows (assignConduct identity) (fun _ _ => True)
      .nothing := by
  apply Follows.lift
  have follows := @handleEdgeMessage_keepsConduct config false .nothing envelope
  refine follows.simulated ?_ (show Standing.Mirrors .nothing .nothing from rfl)
  intro basis standing call mirrors allowed
  cases call with
  | getEdgeTask =>
    constructor
    · cases basis with
      | copy read => rw [show standing = .copy read from mirrors]; rfl
      | _ => rw [show standing = .nothing from mirrors]; rfl
    · intro row
      cases row <;> rfl
  | upsertEdgeTask row =>
    cases basis with
    | copy read =>
      rw [show standing = .copy read from mirrors]
      exact ⟨allowed.1.1, fun _ => rfl⟩
    | nothing => exact nomatch allowed.2
    | free => exact nomatch allowed.2
  | getEdgeTaskByNodeIdempotency => exact nomatch allowed
  | getEdgeTaskLockConflict => exact nomatch allowed
  | _ => exact ⟨trivial, fun _ => mirrors⟩

def Call.isAside : Call → Bool
  | .upsertEdgeTask _ => false
  | .getEdgeTask _ _ => false
  | .getEdgeTaskByNodeIdempotency _ _ => false
  | _ => true

theorem follows_aside {α : Type} {post : α → Prop} {program : Action α} {standing : Standing}
    (aside : program.Satisfies (fun _ _ => True) (·.isAside = true) post) :
    program.Follows (assignConduct identity).ofCalls
      (fun reached value => reached = standing ∧ post value) standing := by
  refine aside.follows fun call isAside => ?_
  cases call with
  | upsertEdgeTask row => exact nomatch isAside
  | getEdgeTask => exact nomatch isAside
  | getEdgeTaskByNodeIdempotency => exact nomatch isAside
  | _ => exact ⟨trivial, fun _ => rfl⟩

theorem aside_clear (assignment : TaskAssignment) :
    (assignment.clear config).Satisfies (fun _ _ => True) (·.isAside = true) fun _ => True := by
  apply (clear_ofGuard config assignment).weaken fun _ _ _ => trivial
  intro call guards
  cases call with
  | upsertEdgeTask row => exact nomatch guards
  | getEdgeTask => exact nomatch guards
  | getEdgeTaskByNodeIdempotency => exact nomatch guards
  | _ => rfl

theorem follows_aside_bind {call : Call} {α : Type} {rest : Response call → Action α}
    {post : Standing → α → Prop} {standing : Standing} (isAside : call.isAside = true)
    (holds : ∀ response, (rest response).Follows (assignConduct identity).ofCalls post standing) :
    (request call >>= rest).Follows (assignConduct identity).ofCalls post standing := by
  have aside : (request call : Action (Response call)).Satisfies (fun _ _ => True)
      (·.isAside = true) fun _ => True := ⟨isAside, fun _ _ => trivial⟩
  apply follows_bind
  apply (follows_aside aside).mono
  intro reached response stays
  rw [stays.1]
  exact holds response

variable (assignment : TaskAssignment)

theorem send_follows {standing : Standing} (deduped : Bool)
    (rateState : Option EdgeToolRateStateRow)
    (reported : ∀ outcome, outcome.deduped = deduped → standing.Reports outcome) :
    (assignment.send deduped rateState).Follows (assignConduct identity).ofCalls
      Standing.Reports standing := by
  have aside : (assignment.send deduped rateState).Satisfies (fun _ _ => True)
      (·.isAside = true) fun outcome => outcome.deduped = deduped := by
    apply (send_ofSending assignment deduped rateState).weaken fun _ _ _ => trivial
    intro call sends
    cases call with
    | upsertEdgeTask row => exact nomatch sends
    | getEdgeTask => exact nomatch sends
    | getEdgeTaskByNodeIdempotency => exact nomatch sends
    | _ => rfl
  apply (follows_aside aside).mono
  intro reached outcome stays
  rw [stays.1]
  exact reported outcome stays.2

theorem assignAgain_reports (same : assignment.identity = identity) (existing : EdgeTaskRow) :
    (assignment.assignAgain existing).Follows (assignConduct identity).ofCalls
      Standing.Reports (.found existing) := by
  rw [TaskAssignment.assignAgain]
  split
  · exact follows_pure rfl
  · next here =>
    rw [not_or, not_ne_iff, not_ne_iff] at here
    have sends := @send_follows identity assignment (.found existing) true none
      fun _ deduped => deduped
    apply follows_bind
    rw [TaskAssignment.backfillTrace]
    split
    · refine follows_aside_bind rfl fun now => ?_
      refine follows_call ⟨?_, assignment.traceId, now, rfl⟩ fun _ => sends
      rw [← same]
      exact Prod.ext here.1 here.2
    · exact sends

theorem assign_reports (same : assignment.identity = identity)
    (clearance : TaskAssignment.Clearance) :
    (assignment.assign config clearance).Follows (assignConduct identity).ofCalls
      Standing.Reports .absent := by
  subst same
  rw [TaskAssignment.assign]
  refine follows_aside_bind rfl fun now => ?_
  refine follows_call ⟨rfl, decide_eq_true ⟨rfl, rfl⟩, rfl⟩ fun stored => ?_
  cases stored with
  | true =>
    refine follows_aside_bind rfl fun _ => ?_
    exact send_follows assignment false _ fun _ deduped => deduped
  | false => exact follows_pure rfl

theorem idempotencyKey_ne_of_not_refused (accepted : assignment.refusal = none) :
    assignment.idempotencyKey ≠ [] := by
  intro empty
  -- The key is checked behind the three identifiers, each of which refuses on its own.
  have unsafeKey : ¬Workflow.idIsSafe assignment.idempotencyKey = true := by
    rw [empty]
    decide
  rw [TaskAssignment.refusal] at accepted
  split at accepted
  · cases accepted
  · split at accepted
    · cases accepted
    · split at accepted
      · cases accepted
      · cases accepted

/-- An assignment looks for its task once and writes it at most once. -/
theorem enqueue_follows (same : assignment.identity = identity) :
    (enqueueTaskAssign config assignment).reports.Follows (assignConduct identity)
      (fun _ _ => True) .nothing := by
  apply Follows.reports
  rw [enqueueTaskAssign]
  split
  · exact follows_pure rfl
  · next accepted =>
    have looks : assignment.nodeId = identity.nodeId ∧
        assignment.idempotencyKey = identity.idempotencyKey ∧ assignment.nodeId ≠ [] ∧
          assignment.idempotencyKey ≠ [] := by
      rw [← same]
      exact ⟨rfl, rfl, nodeId_ne_of_not_refused assignment accepted,
        idempotencyKey_ne_of_not_refused assignment accepted⟩
    refine follows_call looks fun found => ?_
    cases found with
    | some existing => exact assignAgain_reports assignment same existing
    | none =>
      apply follows_bind
      apply (follows_aside (aside_clear config assignment)).mono
      intro reached result stays
      rw [stays.1]
      cases result with
      | error refusal => exact follows_pure rfl
      | ok clearance => exact assign_reports config assignment same clearance

theorem assignOperations_follow (operation : AssignOperation identity) :
    ((assignOperations config identity).program operation).Follows (assignConduct identity)
      (fun _ _ => True) .nothing := by
  cases operation with
  | enqueue assignment same => exact enqueue_follows config assignment same
  | message envelope => exact message_follows config envelope

end Programs

/-! ## Looks that are overtaken -/

/-- What a thread that may write the task has been shown of its contents: the
task that it has found, or none. -/
def Standing.shown (identity : TaskIdentity) : Standing → Option (Option TaskContents)
  | .absent => some none
  | .found read => if read.key = identity.key then some (some read.contents) else none
  | .copy read => if read.key = identity.key ∧ ¬read.isUnder identity then some none else none
  | _ => none

def AssignCall.isLook : AssignCall → Bool
  | .call (.getEdgeTaskByNodeIdempotency _ _) => true
  | _ => false

def AssignCall.isAnswered (before : Store) :
    (call : AssignCall) → Reporting.Answer Response call → Bool
  | .call (.getEdgeTask _ _), _ => true
  | .call (.getEdgeTaskByNodeIdempotency nodeId idempotencyKey), (row : Option EdgeTaskRow) =>
    row = before.getEdgeTaskByNodeIdempotency nodeId idempotencyKey
  | _, _ => false

theorem eq_of_isAnswered {before : Store} {nodeId idempotencyKey : Bytes} {row : Option EdgeTaskRow}
    (answered : AssignCall.isAnswered before
      (.call (.getEdgeTaskByNodeIdempotency nodeId idempotencyKey)) row = true) :
    row = before.getEdgeTaskByNodeIdempotency nodeId idempotencyKey :=
  of_decide_eq_true answered

def AssignCall.stores : (call : AssignCall) → Reporting.Answer Response call → Bool
  | .call (.upsertEdgeTask _), stored => stored
  | _, _ => false

def disturbsLook (identity : TaskIdentity) (thread : Nat) (event : AssignEvent) : Bool :=
  event.before.contents identity ≠ event.after.contents identity ∨
    event.thread = thread ∧ event.call.isLook ∧
      ¬AssignCall.isAnswered event.before event.call event.response

def standingOf (identity : TaskIdentity) (thread : Nat) (events : List AssignEvent) : Standing :=
  SharedStore.known (assignConduct identity) .nothing thread events

/-- A write of the task is stored only if its contents have not changed since its
thread was shown them. -/
def LookCurrent (identity : TaskIdentity) (event : AssignEvent) (earlier : List AssignEvent) :
    Prop :=
  AssignCall.stores event.call event.response = true →
    (standingOf identity event.thread earlier).shown identity ≠ none →
      SharedStore.Undisturbed
        (fun other => AssignCall.isAnswered other.before other.call other.response = true)
        (fun other => disturbsLook identity event.thread other = true) event.thread earlier

instance (identity : TaskIdentity) : DecidableRel (LookCurrent identity) := fun _ _ =>
  inferInstanceAs (Decidable (_ → _ → SharedStore.Undisturbed _ _ _ _))

def QueuedBy (identity : TaskIdentity) (thread : Nat) (events : List AssignEvent) : Prop :=
  standingOf identity thread events = .queued

def ContentsKept (identity : TaskIdentity) (event : AssignEvent) (earlier : List AssignEvent) :
    Prop :=
  (standingOf identity event.thread earlier).assigns = true →
    ∀ contents, event.before.contents identity = some contents →
      event.after.contents identity = some contents

def OutcomeReported (identity : TaskIdentity) (event : AssignEvent)
    (earlier : List AssignEvent) : Prop :=
  ∀ outcome, event.call = .report outcome → outcome.ok = true →
    outcome.deduped = true ∨ QueuedBy identity event.thread earlier

structure AssignedOnce (identity : TaskIdentity) (events : List AssignEvent) : Prop where
  single : ∀ left right, QueuedBy identity left events → QueuedBy identity right events →
    left = right
  kept : Throughout (ContentsKept identity) events
  reported : Throughout (OutcomeReported identity) events

/-! ## Contents behind a write -/

variable {row : EdgeTaskRow}

section Contents

variable {identity : TaskIdentity} {store next : Store}

theorem Store.contents_of_tasks (same : next.tasks = store.tasks) :
    next.contents identity = store.contents identity := by
  rw [contents, contents, same]

theorem Store.contents_of_lookup
    (same : lookupBy (·.key) identity.key next.tasks = lookupBy (·.key) identity.key store.tasks) :
    next.contents identity = store.contents identity := by
  rw [contents, contents, same]

theorem Store.contents_of_found (found : lookupBy (·.key) identity.key store.tasks = some row) :
    store.contents identity = if row.isUnder identity then some row.contents else none := by
  rw [contents, found, Option.filter_some]
  split <;> rfl

theorem Store.exists_of_contents {contents : TaskContents}
    (shown : store.contents identity = some contents) :
    ∃ row, lookupBy (·.key) identity.key store.tasks = some row ∧ row.contents = contents := by
  rcases Option.map_eq_some_iff.mp shown with ⟨row, kept, same⟩
  exact ⟨row, (Option.filter_eq_some_iff.mp kept).1, same⟩

theorem Store.lookup_of_stored (effect : Effect (.upsertEdgeTask row) store true next) :
    ∃ nowUtcMs, lookupBy (·.key) row.key next.tasks =
      some (((lookupBy (·.key) row.key store.tasks).map fun old =>
        mergeTask old (boundTask nowUtcMs row)).getD (boundTask nowUtcMs row)) := by
  rcases effect_upsertEdgeTask effect with ⟨-, -, nowUtcMs, written⟩ | ⟨failed, -⟩
  · refine ⟨nowUtcMs, ?_⟩
    rw [written]
    exact @lookupBy_upsertBy_self _ _ _ (·.key) mergeTask (boundTask nowUtcMs row) store.tasks
      key_mergeTask
  · exact nomatch failed

theorem contents_merged {read : EdgeTaskRow} {traceId : Bytes} {updatedUtcMs nowUtcMs : Int}
    (same : row.contents = read.contents) : (Store.mergeTask row (Store.boundTask nowUtcMs
      { read with traceId, updatedUtcMs })).contents = read.contents := by
  simp only [EdgeTaskRow.contents, TaskContents.mk.injEq] at same
  simp [EdgeTaskRow.contents, Store.mergeTask, Store.boundTask, same]

theorem contents_of_write {stored : Bool}
    (effect : Effect (.upsertEdgeTask row) store stored next) (other : row.key ≠ identity.key) :
    next.contents identity = store.contents identity := by
  apply Store.contents_of_lookup
  rcases lookup_upsertEdgeTask effect identity.key with same | ⟨-, here, -⟩
  · exact same
  · exact absurd here other

end Contents

/-! ## What a thread knows -/

def Store.KeysUnique (store : Store) : Prop :=
  (store.tasks.map (·.key)).Nodup

variable {store next : Store}

theorem Store.KeysUnique.kept {call : AssignCall} {response : Reporting.Answer Response call}
    (unique : store.KeysUnique) (effect : Reporting.effect Effect call store response next) :
    next.KeysUnique := by
  cases call with
  | report outcome =>
    rw [show next = store from effect]
    exact unique
  | call call =>
    rw [KeysUnique]
    by_cases writes : call.writes .tasks = true
    · cases call with
      | upsertEdgeTask row =>
        rcases effect_upsertEdgeTask effect with ⟨-, -, nowUtcMs, written⟩ | ⟨-, same⟩
        · rw [written]
          exact nodup_upsertBy key_mergeTask unique
        · rw [same]
          exact unique
      | _ => exact nomatch writes
    · rw [effect.tasks (Bool.eq_false_iff.mpr writes)]
      exact unique

/-- What a thread has been shown is still so. -/
structure Standing.Current (identity : TaskIdentity) (standing : Standing) (store : Store) :
    Prop where
  shown : ∀ contents ∈ standing.shown identity, store.contents identity = contents
  isUnder : ∀ read, standing = .found read → read.isUnder identity = true

namespace Standing.Current

variable {identity : TaskIdentity} {standing : Standing}

theorem of_contents (current : standing.Current identity store)
    (same : next.contents identity = store.contents identity) :
    standing.Current identity next where
  shown contents member := same.trans (current.shown contents member)
  isUnder := current.isUnder

theorem of_unshown (unshown : standing.shown identity = none)
    (notFound : ∀ read, standing ≠ .found read) : standing.Current identity store where
  shown contents member := by
    rw [unshown] at member
    exact nomatch member
  isUnder read same := absurd same (notFound read)

theorem of_read {taskId stepId : Bytes} {response : Option EdgeTaskRow}
    (effect : Effect (.getEdgeTask taskId stepId) store response next) :
    (Standing.behindRead response).Current identity next := by
  rcases effect_getEdgeTask effect with ⟨same, answered⟩
  cases response with
  | none => exact of_unshown rfl nofun
  | some row =>
    have there := lookupBy_of_getEdgeTask (answered.resolve_left nofun).symm
    have named : row.key = (taskId, stepId) := key_of_lookupBy there
    refine ⟨fun contents member => ?_, nofun⟩
    rw [Standing.behindRead, Standing.shown] at member
    split at member
    · next other =>
      cases member
      rw [← named, other.1] at there
      rw [same, Store.contents_of_found there, if_neg other.2]
    · exact nomatch member

theorem of_look (unique : store.KeysUnique) (node : identity.nodeId ≠ [])
    (keyed : identity.idempotencyKey ≠ []) :
    (Standing.behindLook (store.getEdgeTaskByNodeIdempotency identity.nodeId
      identity.idempotencyKey)).Current identity store := by
  rw [Store.getEdgeTaskByNodeIdempotency, if_neg (not_or_intro node keyed)]
  cases found : store.tasks.find? fun row =>
      row.nodeId = identity.nodeId ∧ row.idempotencyKey = identity.idempotencyKey with
  | none =>
    refine ⟨fun contents member => ?_, nofun⟩
    cases member
    rw [List.find?_eq_none] at found
    cases stored : lookupBy (·.key) identity.key store.tasks with
    | none => rw [Store.contents, stored]; rfl
    | some row =>
      have other : ¬row.isUnder identity = true := found row (mem_of_lookupBy stored)
      rw [Store.contents_of_found stored, if_neg other]
  | some row =>
    have holds := List.find?_some found
    have isUnder : row.isUnder identity = true := holds
    refine ⟨fun contents member => ?_, fun read same => ?_⟩
    · rw [Standing.behindLook, Standing.shown] at member
      split at member
      · next here =>
        cases member
        have stored := lookupBy_of_mem unique (List.mem_of_find?_eq_some found)
        rw [here] at stored
        rw [Store.contents_of_found stored, if_pos isUnder]
      · exact nomatch member
    · cases same
      exact isUnder

theorem own {event : AssignEvent} (unique : event.before.KeysUnique)
    (allowed : (assignConduct identity).allowed standing event.call)
    (effect : Reporting.effect Effect event.call event.before event.response event.after)
    (earlier : AssignCall.isAnswered event.before event.call event.response = true ∨
      ¬disturbsLook identity event.thread event = true ∧ standing.Current identity event.before) :
    (standing.advance event.call event.response).Current identity event.after := by
  rcases event with ⟨thread, call, response, before, after⟩
  cases call with
  | report outcome =>
    rw [show after = before from effect]
    exact (earlier.resolve_left nofun).2
  | call call =>
    have performed : Effect call before response after := effect
    cases call with
    | getEdgeTask => exact of_read performed
    | getEdgeTaskByNodeIdempotency nodeId idempotencyKey =>
      rcases allowed with ⟨node, key, named, keyed⟩
      subst node key
      have answered : AssignCall.isAnswered before (.call (.getEdgeTaskByNodeIdempotency
          identity.nodeId identity.idempotencyKey)) response = true := by
        rcases earlier with answered | ⟨harmless, -⟩
        · exact answered
        · by_contra failed
          exact harmless (decide_eq_true (.inr ⟨rfl, rfl, failed⟩))
      have same := eq_of_isAnswered answered
      subst same
      exact (of_look unique named keyed).of_contents
        (Store.contents_of_tasks (performed.tasks rfl))
    | upsertEdgeTask row =>
      have before := earlier.resolve_left nofun
      cases standing with
      | found read =>
        apply before.2.of_contents
        by_contra changed
        exact before.1 (decide_eq_true (.inl fun same => changed same.symm))
      | absent => cases response <;> exact of_unshown rfl nofun
      | copy read => exact of_unshown rfl nofun
      | nothing => exact nomatch allowed
      | queued => exact nomatch allowed
      | unstored => exact nomatch allowed
    | _ =>
      exact (earlier.resolve_left nofun).2.of_contents
        (Store.contents_of_tasks (performed.tasks rfl))

theorem others {event : AssignEvent} {thread : Nat}
    (harmless : ¬disturbsLook identity thread event = true)
    (current : standing.Current identity event.before) : standing.Current identity event.after := by
  apply current.of_contents
  by_contra changed
  exact harmless (decide_eq_true (.inl fun same => changed same.symm))

end Standing.Current

/-! ## What a call does to the task -/

/-- The task is not stored as a new one; it stays, and with its contents if the
call is one of an assignment. -/
structure TaskStays (identity : TaskIdentity) (standing behind : Standing) (store next : Store) :
    Prop where
  notQueued : behind = .queued → standing = .queued
  stored : (store.contents identity).isSome = true → (next.contents identity).isSome = true
  kept : standing.assigns = true → next.contents identity = store.contents identity

section Calls

variable {identity : TaskIdentity} {standing : Standing} {store next : Store}

theorem TaskStays.of_contents {behind : Standing}
    (notQueued : behind = .queued → standing = .queued)
    (same : next.contents identity = store.contents identity) :
    TaskStays identity standing behind store next where
  notQueued := notQueued
  stored isSome := by
    rw [same]
    exact isSome
  kept _ := same

theorem isSome_of_stored (effect : Effect (.upsertEdgeTask row) store true next)
    (here : row.key = identity.key) (isUnder : row.isUnder identity = true) :
    (next.contents identity).isSome = true := by
  rcases Store.lookup_of_stored effect with ⟨nowUtcMs, written⟩
  rw [here] at written
  have behind : (((lookupBy (·.key) identity.key store.tasks).map fun old =>
      Store.mergeTask old (Store.boundTask nowUtcMs row)).getD
        (Store.boundTask nowUtcMs row)).isUnder identity = true := by
    cases lookupBy (·.key) identity.key store.tasks with
    | none => exact isUnder
    | some old => exact isUnder
  rw [Store.contents_of_found written, if_pos behind]
  rfl

theorem contents_of_copy {read : EdgeTaskRow} {traceId : Bytes} {updatedUtcMs : Int}
    (effect : Effect (.upsertEdgeTask { read with traceId, updatedUtcMs }) store true next)
    (here : read.key = identity.key) (isUnder : read.isUnder identity = true)
    (shown : store.contents identity = some read.contents) :
    next.contents identity = store.contents identity := by
  rcases Store.exists_of_contents shown with ⟨row, found, same⟩
  rcases Store.lookup_of_stored effect with ⟨nowUtcMs, written⟩
  change lookupBy (·.key) read.key next.tasks = some (((lookupBy (·.key) read.key store.tasks).map
    _).getD _) at written
  rw [here, found, Option.map_some, Option.getD_some] at written
  rw [Store.contents_of_found written, contents_merged same, shown]
  exact if_pos isUnder

theorem write_step (writes : standing.Writes identity row)
    (effect : Effect (.upsertEdgeTask row) store true next)
    (current : standing.shown identity ≠ none → standing.Current identity store) :
    (standing = .absent ∧ store.contents identity = none ∧ (next.contents identity).isSome = true) ∨
      TaskStays identity standing (standing.behindWrite true) store next := by
  cases standing with
  | absent =>
    have none := (current nofun).shown none rfl
    exact .inl ⟨rfl, none, isSome_of_stored effect writes.1 writes.2.1⟩
  | found read =>
    rcases writes with ⟨here, traceId, updatedUtcMs, same⟩
    subst same
    have shown : (Standing.found read).shown identity = some (some read.contents) := if_pos here
    have known := current (by rw [shown]; exact nofun)
    refine .inr (.of_contents nofun ?_)
    exact contents_of_copy effect here (known.isUnder read rfl) (known.shown _ shown)
  | copy read =>
    right
    refine ⟨nofun, fun stored => ?_, nofun⟩
    by_cases here : row.key = identity.key
    · cases isUnder : row.isUnder identity with
      | true => exact isSome_of_stored effect here isUnder
      | false =>
        have same : row.SameTask read := writes
        have other : ¬read.isUnder identity = true := by
          rw [EdgeTaskRow.isUnder, ← same.nodeId, ← same.idempotencyKey]
          exact Bool.eq_false_iff.mp isUnder
        have shown : (Standing.copy read).shown identity = some none :=
          if_pos ⟨same.key ▸ here, other⟩
        have none := (current (by rw [shown]; exact nofun)).shown _ shown
        rw [none] at stored
        exact nomatch stored
    · rw [contents_of_write effect here]
      exact stored
  | nothing => exact nomatch writes
  | queued => exact nomatch writes
  | unstored => exact nomatch writes

/-- What a call does: it stores the task as a new one where there is none, or the
task stays. -/
theorem assign_step {call : AssignCall} {response : Reporting.Answer Response call}
    (allowed : (assignConduct identity).allowed standing call)
    (effect : Reporting.effect Effect call store response next)
    (current : AssignCall.stores call response = true → standing.shown identity ≠ none →
      standing.Current identity store) : (standing = .absent ∧ store.contents identity = none ∧
        (next.contents identity).isSome = true) ∨
      TaskStays identity standing (standing.advance call response) store next := by
  cases call with
  | report outcome =>
    have same : next = store := effect
    exact .inr (.of_contents id (congrArg (·.contents identity) same))
  | call call =>
    have performed : Effect call store response next := effect
    cases call with
    | upsertEdgeTask row =>
      cases response with
      | true => exact write_step allowed performed (current rfl)
      | false =>
        rcases effect_upsertEdgeTask performed with ⟨stored, -⟩ | ⟨-, same⟩
        · exact nomatch stored
        · refine .inr (.of_contents ?_ (congrArg (·.contents identity) same))
          intro queued
          cases standing <;> first | rfl | exact nomatch queued
    | getEdgeTask =>
      refine .inr (.of_contents ?_ (Store.contents_of_tasks (performed.tasks rfl)))
      intro queued
      cases response <;> exact nomatch queued
    | getEdgeTaskByNodeIdempotency =>
      refine .inr (.of_contents ?_ (Store.contents_of_tasks (performed.tasks rfl)))
      intro queued
      cases response <;> exact nomatch queued
    | _ => exact .inr (.of_contents id (Store.contents_of_tasks (performed.tasks rfl)))

end Calls

/-! ## Every run -/

section Runs

variable {config : EdgeConfig} {identity : TaskIdentity} {first store : Store}
  {events : List AssignEvent}

abbrev AssignTrace (config : EdgeConfig) (identity : TaskIdentity) (first : Store)
    (events : List AssignEvent) (store : Store) : Prop :=
  SharedStore.Trace (assignOperations config identity) (assignConduct identity) .nothing first
    events store

theorem AssignTrace.unique (trace : AssignTrace config identity first events store)
    (start : first.KeysUnique) : store.KeysUnique := by
  induction trace with
  | nil => exact start
  | cons earlier allowed effect induction => exact induction.kept effect

theorem AssignTrace.current (trace : AssignTrace config identity first events store)
    (start : first.KeysUnique) {thread : Nat}
    (undisturbed : SharedStore.Undisturbed
      (fun other => AssignCall.isAnswered other.before other.call other.response = true)
      (fun other => disturbsLook identity thread other = true) thread events) :
    (standingOf identity thread events).Current identity store := by
  have restricted : SharedStore.Trace
      ((assignOperations config identity).restrict fun _ store _ => store.KeysUnique)
      (assignConduct identity) .nothing first events store := by
    apply trace.restrict (assignOperations config identity)
    intro event member
    rcases SharedStore.Trace.of_mem (assignOperations config identity) trace member with
      ⟨earlier, before, -, -⟩
    exact AssignTrace.unique before start
  apply SharedStore.Trace.undisturbed _ _ _ _ restricted undisturbed
  · exact Standing.Current.of_unshown rfl nofun
  · intro standing event same allowed effect earlier
    rw [← same] at earlier
    exact Standing.Current.own effect.2 allowed effect.1 earlier
  · intro standing event _ harmless before
    exact Standing.Current.others harmless before

theorem standingOf_cons (thread : Nat) (event : AssignEvent) (earlier : List AssignEvent) :
    standingOf identity thread (event :: earlier) =
      if event.thread = thread then
        (standingOf identity thread earlier).advance event.call event.response
      else standingOf identity thread earlier :=
  rfl

/-- The assignments that have stored the task as a new one: there is one at most,
and the task is stored then. -/
structure NewOnce (identity : TaskIdentity) (events : List AssignEvent) (store : Store) : Prop where
  single : ∀ left right, QueuedBy identity left events → QueuedBy identity right events →
    left = right
  stored : ∀ thread, QueuedBy identity thread events → (store.contents identity).isSome = true

theorem NewOnce.step {event : AssignEvent} (once : NewOnce identity events store)
    (step : (standingOf identity event.thread events = .absent ∧
        store.contents identity = none ∧ (next.contents identity).isSome = true) ∨
      TaskStays identity (standingOf identity event.thread events)
        ((standingOf identity event.thread events).advance event.call event.response) store next) :
    NewOnce identity (event :: events) next := by
  rcases step with ⟨-, none, isSome⟩ | stays
  · -- Nobody has stored the task before.
    have nobody : ∀ thread, ¬QueuedBy identity thread events := by
      intro thread queued
      have stored := once.stored thread queued
      rw [none] at stored
      exact nomatch stored
    have only : ∀ thread, QueuedBy identity thread (event :: events) → event.thread = thread := by
      intro thread queued
      by_contra other
      rw [QueuedBy, standingOf_cons, if_neg other] at queued
      exact nobody thread queued
    constructor
    · intro left right isLeft isRight
      exact (only left isLeft).symm.trans (only right isRight)
    · exact fun _ _ => isSome
  · have before : ∀ thread, QueuedBy identity thread (event :: events) →
        QueuedBy identity thread events := by
      intro thread queued
      rw [QueuedBy, standingOf_cons] at queued
      split at queued
      · next same =>
        subst same
        exact stays.notQueued queued
      · exact queued
    constructor
    · intro left right isLeft isRight
      exact once.single left right (before left isLeft) (before right isRight)
    · intro thread queued
      exact stays.stored (once.stored thread (before thread queued))

theorem assignedOnce_of_trace (trace : AssignTrace config identity first events store)
    (start : first.KeysUnique) (current : Throughout (LookCurrent identity) events) :
    NewOnce identity events store ∧ Throughout (ContentsKept identity) events ∧
      Throughout (OutcomeReported identity) events := by
  induction trace with
  | nil =>
    refine ⟨⟨?_, ?_⟩, trivial, trivial⟩
    · exact fun _ _ queued => nomatch queued
    · exact fun _ queued => nomatch queued
  | @cons events store next thread call response earlier allowed effect induction =>
    rcases induction current.2 with ⟨once, kept, reported⟩
    have known : AssignCall.stores call response = true →
        (standingOf identity thread events).shown identity ≠ none →
        (standingOf identity thread events).Current identity store :=
      fun stores shown => AssignTrace.current earlier start (current.1 stores shown)
    have step := assign_step allowed effect known
    have behind : NewOnce identity (⟨thread, call, response, store, next⟩ :: events) next :=
      once.step step
    refine ⟨behind, ⟨?_, kept⟩, ⟨?_, reported⟩⟩
    · intro assigns contents stored
      rcases step with ⟨-, none, -⟩ | stays
      · exact nomatch stored.symm.trans none
      · exact (stays.kept assigns).trans stored
    · intro outcome isReport succeeds
      change call = _ at isReport
      subst isReport
      have reports : (standingOf identity thread events).Reports outcome := allowed
      rw [QueuedBy]
      cases standing : standingOf identity thread events with
      | found read =>
        rw [standing] at reports
        exact .inl reports
      | queued => exact .inr rfl
      | _ =>
        rw [standing] at reports
        exact nomatch succeeds.symm.trans reports

/-- At most one assignment stores the task as a new one, the others that succeed
are deduplicated, and none of their calls changes a stored task, as long as no
write of the task rests on a look that has been overtaken. -/
theorem enqueues_idempotent
    {state : SystemState Store (AssignOperation identity) AssignCall (Reporting.Answer Response)}
    (run : (assignOperations config identity).Run { store := first } events state)
    (start : first.KeysUnique) (current : Throughout (LookCurrent identity) events) :
    AssignedOnce identity events := by
  have trace := SharedStore.Run.trace (assignOperations config identity)
    (assignOperations_follow config) run
  have holds := assignedOnce_of_trace trace start current
  exact ⟨holds.1.single, holds.2.1, holds.2.2⟩

end Runs

def sampleIdentity : TaskIdentity where
  nodeId := ascii "a"
  taskId := ascii "t"
  stepId := ascii "s"
  idempotencyKey := ascii "k"

def sampleRequest (trace : Json.Tree) : AssignOperation sampleIdentity :=
  .enqueue {
    nodeId := ascii "a"
    taskId := ascii "t"
    stepId := ascii "s"
    idempotencyKey := ascii "k"
    mode := ascii "agent"
    deadlineUtcMs := 4
    payload := .object []
    trace } rfl

def sampleTrace : Json.Tree :=
  .object [(ascii "trace_id", .string (ascii "r"))]

def sampleFailing : AssignOperation sampleIdentity :=
  .message (sampleMessage .taskFailed (ascii "node:a") [(ascii "error", .string (ascii "e"))])

def sampleAssigning (first : Store)
    (schedule : List (SharedStore.Move (AssignOperation sampleIdentity) Outside)) :
    List AssignEvent ×
      SystemState Store (AssignOperation sampleIdentity) AssignCall (Reporting.Answer Response) :=
  schedule.foldl ((assignOperations sampleConfig sampleIdentity).record (Reporting.answer answer))
    ([], { store := first })

theorem run_sampleAssigning (first : Store)
    (schedule : List (SharedStore.Move (AssignOperation sampleIdentity) Outside)) :
    (assignOperations sampleConfig sampleIdentity).Run { store := first }
      (sampleAssigning first schedule).1 (sampleAssigning first schedule).2 :=
  SharedStore.run_records (assignOperations sampleConfig sampleIdentity)
    (Reporting.effect_answer effect_answer) .refl schedule

def sampleOneByOne : List (SharedStore.Move (AssignOperation sampleIdentity) Outside) :=
  [.start (sampleRequest .null), .start (sampleRequest sampleTrace), .start sampleFailing] ++
    List.replicate 8 (.advance 0 {}) ++ List.replicate 8 (.advance 1 {}) ++
      List.replicate 12 (.advance 2 {})

theorem enqueues_idempotent_sample :
    (sampleAssigning {} sampleOneByOne).2.store.tasks.map (fun row => (row.state, row.traceId)) =
        [(TaskState.failed, ascii "r")] ∧
      AssignedOnce sampleIdentity (sampleAssigning {} sampleOneByOne).1 :=
  ⟨by decide, enqueues_idempotent (run_sampleAssigning {} sampleOneByOne) List.nodup_nil
    (by decide)⟩

/-- The first assignment stores its task when the one of the second one has been
sent and has failed. -/
def sampleOvertaken : List (SharedStore.Move (AssignOperation sampleIdentity) Outside) :=
  [.start (sampleRequest .null), .start (sampleRequest .null), .start sampleFailing] ++
    List.replicate 2 (.advance 0 {}) ++ List.replicate 8 (.advance 1 {}) ++
      List.replicate 12 (.advance 2 {}) ++ [.advance 0 {}]

/-- The task runs, without a trace. -/
def sampleRunning : Store where
  tasks := [sampleTask]

/-- A trace is written back with the task as it was before the node has reported. -/
def sampleTraceAcross : List (SharedStore.Move (AssignOperation sampleIdentity) Outside) :=
  [.start (sampleRequest sampleTrace), .start sampleFailing] ++
    List.replicate 2 (.advance 0 {}) ++ List.replicate 12 (.advance 1 {}) ++ [.advance 0 {}]

theorem overtaken_assignment_overwrites_task :
    ((assignOperations sampleConfig sampleIdentity).Run { store := {} }
          (sampleAssigning {} sampleOvertaken).1 (sampleAssigning {} sampleOvertaken).2 ∧
        ¬AssignedOnce sampleIdentity (sampleAssigning {} sampleOvertaken).1) ∧
      (assignOperations sampleConfig sampleIdentity).Run { store := sampleRunning }
          (sampleAssigning sampleRunning sampleTraceAcross).1
          (sampleAssigning sampleRunning sampleTraceAcross).2 ∧
        ¬AssignedOnce sampleIdentity (sampleAssigning sampleRunning sampleTraceAcross).1 := by
  refine ⟨⟨run_sampleAssigning {} sampleOvertaken, fun once => ?_⟩,
    run_sampleAssigning sampleRunning sampleTraceAcross, fun once => ?_⟩
  · exact absurd (once.single 0 1 rfl rfl) (by decide)
  · have kept := once.kept.1 rfl { sampleTask.contents with state := TaskState.failed } rfl
    exact absurd kept (by decide)

end AgentC.EdgeTasks
