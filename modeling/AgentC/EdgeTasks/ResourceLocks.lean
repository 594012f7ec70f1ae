import AgentC.EdgeTasks.TaskWrites

/-! # Resource locks

The lock of a tool is held by the tasks that are queued or running with it. An
assignment asks for the holder of the lock, and stores its task later. -/

namespace AgentC.EdgeTasks

open Program

inductive LockOperation
  | enqueue (assignment : TaskAssignment)
  | message (envelope : Envelope)
  | sweep (maxScanRows : Nat)
  | cancel (workflowId : Bytes)

def lockOperations (config : EdgeConfig) : SharedStore Store LockOperation Call Response where
  effect := Effect
  program
    | .enqueue assignment => do
      let _ ← enqueueTaskAssign config assignment
    | .message envelope => handleEdgeMessage config envelope
    | .sweep maxScanRows => sweepDeadlines config maxScanRows
    | .cancel workflowId => cancelEdgeWorkflow config workflowId

def EdgeTaskRow.holds (row : EdgeTaskRow) (nodeId resourceLock : Bytes) : Bool :=
  row.active ∧ row.nodeId = nodeId ∧ row.resourceLock = resourceLock

def Store.holds (store : Store) (key : TaskKey) (nodeId resourceLock : Bytes) : Bool :=
  (lookupBy (·.key) key store.tasks).any fun row => row.holds nodeId resourceLock

/-- No two tasks hold the same lock of a node. -/
def LockExclusive (store : Store) : Prop :=
  ∀ left right nodeId resourceLock, resourceLock ≠ [] →
    store.holds left nodeId resourceLock = true → store.holds right nodeId resourceLock = true →
    left = right

/-- The lock of a task behind a write: an empty one keeps the stored one. -/
def Store.lockBehind (store : Store) (row : EdgeTaskRow) : Bytes :=
  if row.resourceLock = [] then
    ((lookupBy (·.key) row.key store.tasks).map (·.resourceLock)).getD []
  else row.resourceLock

def Call.asksHolder (nodeId resourceLock : Bytes) (before : Store) :
    (call : Call) → Response call → Bool
  | .getEdgeTaskLockConflict askedNode askedLock, (holder : Option TaskKey) =>
    askedNode = nodeId ∧ askedLock = resourceLock ∧
      holder = before.getEdgeTaskLockConflict nodeId resourceLock
  | _, _ => false

def disturbsLock (nodeId resourceLock : Bytes) (thread : Nat) (event : TaskEvent) : Bool :=
  match event.call with
  | .upsertEdgeTask row =>
    event.after.holds row.key nodeId resourceLock &&
      !event.before.holds row.key nodeId resourceLock
  | .getEdgeTaskLockConflict askedNode askedLock =>
    decide (event.thread = thread ∧ askedNode = nodeId ∧ askedLock = resourceLock) &&
      !event.call.asksHolder nodeId resourceLock event.before event.response
  | _ => false

/-- Since the thread has asked for the holder of a lock, and got an answer, no task
has taken the lock. -/
def LockUntaken (nodeId resourceLock : Bytes) (thread : Nat) : List TaskEvent → Prop :=
  SharedStore.Undisturbed
    (fun event => event.call.asksHolder nodeId resourceLock event.before event.response = true)
    (fun event => disturbsLock nodeId resourceLock thread event = true) thread

instance (nodeId resourceLock : Bytes) (thread : Nat) :
    DecidablePred (LockUntaken nodeId resourceLock thread) := fun _ =>
  inferInstanceAs (Decidable (SharedStore.Undisturbed _ _ _ _))

def Basis.isFree : Basis → Bool
  | .free _ _ => true
  | _ => false

/-- An active task is written on a lock that its thread has found free and that
nobody has taken since, or it has no lock or holds it already. -/
def LockKept (event : TaskEvent) (earlier : List TaskEvent) : Prop :=
  ∀ row ∈ event.call.writtenTask, row.active = true →
    if (SharedStore.known (taskConduct true) .nothing event.thread earlier).isFree then
      LockUntaken row.nodeId row.resourceLock event.thread earlier
    else
      event.before.lockBehind row = [] ∨
        event.before.holds row.key row.nodeId (event.before.lockBehind row) = true

instance : DecidableRel LockKept := fun _ _ =>
  inferInstanceAs (Decidable (∀ _ ∈ _, _ → _))

section Holders

variable {store next : Store} {key : TaskKey} {nodeId resourceLock : Bytes}

theorem Store.holds_of_tasks (same : next.tasks = store.tasks) :
    next.holds key nodeId resourceLock = store.holds key nodeId resourceLock := by
  rw [holds, holds, same]

theorem holds_of_written {row : EdgeTaskRow} {stored : Bool}
    (effect : Effect (.upsertEdgeTask row) store stored next)
    (holds : next.holds key nodeId resourceLock = true) :
    store.holds key nodeId resourceLock = true ∨
      row.key = key ∧ row.active = true ∧ row.nodeId = nodeId ∧
        store.lockBehind row = resourceLock := by
  rcases lookup_upsertEdgeTask effect key with same | ⟨-, here, nowUtcMs, written⟩
  · left
    rw [Store.holds, same] at holds
    exact holds
  · right
    rw [Store.holds, written] at holds
    have active := of_decide_eq_true holds
    subst here
    cases found : lookupBy (·.key) row.key store.tasks with
    | none =>
      rw [found] at active
      refine ⟨rfl, active.1, active.2.1, ?_⟩
      rw [← active.2.2, Store.lockBehind, found]
      split
      · next unlocked => exact unlocked.symm
      · rfl
    | some old =>
      rw [found] at active
      refine ⟨rfl, active.1, active.2.1, ?_⟩
      rw [← active.2.2, Store.lockBehind, found]
      rfl

theorem not_holds_of_asked (asked : store.getEdgeTaskLockConflict nodeId resourceLock = none)
    (named : nodeId ≠ []) (locked : resourceLock ≠ []) (key : TaskKey) :
    store.holds key nodeId resourceLock = false := by
  rw [Store.getEdgeTaskLockConflict, if_neg (not_or_intro named locked), Option.map_eq_none_iff,
    List.head?_eq_none_iff] at asked
  apply Bool.eq_false_iff.mpr
  intro holds
  rw [Store.holds, Option.any_eq_true] at holds
  rcases holds with ⟨row, found, holds⟩
  have holds := of_decide_eq_true holds
  have listed : row ∈ store.tasks.filter fun row =>
      row.nodeId = nodeId ∧ row.resourceLock = resourceLock ∧ row.active :=
    List.mem_filter.mpr ⟨mem_of_lookupBy found, decide_eq_true ⟨holds.2.1, holds.2.2, holds.1⟩⟩
  rw [← List.mem_insertionSort fun left right : EdgeTaskRow =>
    right.updatedUtcMs ≤ left.updatedUtcMs, asked] at listed
  exact nomatch listed

/-- A write keeps exclusion if its task has no lock, or holds it before, or nobody
does. -/
theorem LockExclusive.write {row : EdgeTaskRow} {stored : Bool} (exclusive : LockExclusive store)
    (effect : Effect (.upsertEdgeTask row) store stored next)
    (kept : row.active = true → store.lockBehind row = [] ∨
      store.holds row.key row.nodeId (store.lockBehind row) = true ∨
      ∀ key, store.holds key row.nodeId (store.lockBehind row) = false) : LockExclusive next := by
  -- The written task against one that holds the lock in front of the write.
  have taken : ∀ {other nodeId resourceLock}, resourceLock ≠ [] → row.active = true →
      row.nodeId = nodeId → store.lockBehind row = resourceLock →
      store.holds other nodeId resourceLock = true → row.key = other := by
    intro other nodeId resourceLock locked active node lock holds
    subst node lock
    rcases kept active with unlocked | before | free
    · exact absurd unlocked locked
    · exact exclusive row.key other row.nodeId _ locked before holds
    · exact nomatch (free other).symm.trans holds
  intro left right nodeId resourceLock locked leftHolds rightHolds
  rcases holds_of_written effect leftHolds with leftBefore | ⟨leftHere, leftTakes⟩
  · rcases holds_of_written effect rightHolds with rightBefore | ⟨rightHere, rightTakes⟩
    · exact exclusive left right nodeId resourceLock locked leftBefore rightBefore
    · rw [← rightHere]
      exact (taken locked rightTakes.1 rightTakes.2.1 rightTakes.2.2 leftBefore).symm
  · rw [← leftHere]
    rcases holds_of_written effect rightHolds with rightBefore | ⟨rightHere, -⟩
    · exact taken locked leftTakes.1 leftTakes.2.1 leftTakes.2.2 rightBefore
    · exact rightHere

def Untaken (nodeId resourceLock : Bytes) : Basis → Store → Prop
  | .free freeNode freeLock, store =>
    freeNode = nodeId → freeLock = resourceLock → nodeId ≠ [] → resourceLock ≠ [] →
      ∀ key, store.holds key nodeId resourceLock = false
  | _, _ => True

theorem Untaken.of_tasks {basis : Basis} (untaken : Untaken nodeId resourceLock basis store)
    (same : next.tasks = store.tasks) : Untaken nodeId resourceLock basis next := by
  cases basis with
  | free =>
    intro node lock named locked key
    rw [Store.holds_of_tasks same]
    exact untaken node lock named locked key
  | _ => trivial

theorem Untaken.others {basis : Basis} {thread : Nat} {event : TaskEvent}
    (effect : Effect event.call event.before event.response event.after)
    (harmless : ¬disturbsLock nodeId resourceLock thread event = true)
    (untaken : Untaken nodeId resourceLock basis event.before) :
    Untaken nodeId resourceLock basis event.after := by
  rcases event with ⟨other, call, response, before, after⟩
  cases call with
  | upsertEdgeTask row =>
    cases basis with
    | free =>
      intro node lock named locked key
      have free := untaken node lock named locked
      apply Bool.eq_false_iff.mpr
      intro holds
      rcases holds_of_written effect holds with earlier | ⟨here, -⟩
      · exact nomatch (free key).symm.trans earlier
      · subst here
        exact harmless (Bool.and_eq_true_iff.mpr ⟨holds, congrArg not (free row.key)⟩)
    | _ => trivial
  | _ => exact untaken.of_tasks (effect.tasks rfl)

theorem Untaken.own {basis : Basis} {thread : Nat} {event : TaskEvent}
    (same : event.thread = thread)
    (effect : Effect event.call event.before event.response event.after)
    (earlier : event.call.asksHolder nodeId resourceLock event.before event.response = true ∨
      ¬disturbsLock nodeId resourceLock thread event = true ∧
        Untaken nodeId resourceLock basis event.before) :
    Untaken nodeId resourceLock (basis.advance event.call event.response) event.after := by
  rcases event with ⟨other, call, response, before, after⟩
  cases call with
  | getEdgeTaskLockConflict askedNode askedLock =>
    cases response with
    | some holder => trivial
    | none =>
      intro node lock named locked
      subst node lock
      have asked : (Call.getEdgeTaskLockConflict askedNode askedLock).asksHolder askedNode
          askedLock before (none : Option TaskKey) = true := by
        rcases earlier with asks | ⟨harmless, -⟩
        · exact asks
        · apply Bool.not_eq_false _ |>.mp
          intro fails
          exact harmless (Bool.and_eq_true_iff.mpr
            ⟨decide_eq_true ⟨same, rfl, rfl⟩, congrArg not fails⟩)
      have answered := (of_decide_eq_true asked).2.2
      intro key
      rw [Store.holds_of_tasks (effect.tasks rfl)]
      exact not_holds_of_asked answered.symm named locked key
  | getEdgeTask =>
    cases response with
    | none => trivial
    | some row => trivial
  | getEdgeTaskByNodeIdempotency =>
    cases response with
    | none => trivial
    | some row => trivial
  | upsertEdgeTask row => trivial
  | _ => exact (earlier.resolve_left nofun).2.of_tasks (effect.tasks rfl)

end Holders

theorem lockOperations_follow (config : EdgeConfig) (operation : LockOperation) :
    ((lockOperations config).program operation).Follows (taskConduct true) (fun _ _ => True)
      .nothing := by
  cases operation with
  | enqueue assignment =>
    apply follows_bind
    apply (enqueueTaskAssign_keepsConduct config assignment).mono
    exact fun _ _ _ => trivial
  | message envelope => exact handleEdgeMessage_keepsConduct config envelope
  | sweep maxScanRows => exact sweepDeadlines_keepsConduct config maxScanRows
  | cancel workflowId => exact cancelEdgeWorkflow_keepsConduct config workflowId

section Runs

variable {config : EdgeConfig} {first store : Store} {events : List TaskEvent}

theorem untaken_of_trace {nodeId resourceLock : Bytes} {thread : Nat}
    (trace : SharedStore.Trace (lockOperations config) (taskConduct true) .nothing first events
      store) (untaken : LockUntaken nodeId resourceLock thread events) :
    Untaken nodeId resourceLock (SharedStore.known (taskConduct true) .nothing thread events)
      store := by
  apply SharedStore.Trace.undisturbed (lockOperations config) _ _ _ trace untaken
  · trivial
  · intro known event same _ effect earlier
    exact Untaken.own same effect earlier
  · intro known event effect harmless before
    exact Untaken.others effect harmless before

theorem lockExclusive_of_trace
    (trace : SharedStore.Trace (lockOperations config) (taskConduct true) .nothing first events
      store) (start : LockExclusive first) (kept : Throughout LockKept events) :
    LockExclusive store := by
  induction trace with
  | nil => exact start
  | @cons events store next thread call response earlier allowed effect induction =>
    have exclusive := induction kept.2
    cases call with
    | upsertEdgeTask row =>
      apply exclusive.write effect
      intro active
      have held := kept.1 row rfl active
      have untaken := @untaken_of_trace _ _ _ _ row.nodeId row.resourceLock thread earlier
      generalize SharedStore.known (taskConduct true) .nothing thread events = basis
        at allowed held untaken
      cases basis with
      | free =>
        rcases allowed.1 with ⟨node, lock, named, locked⟩
        subst node lock
        rw [Store.lockBehind, if_neg locked]
        exact .inr (.inr (untaken held rfl rfl named locked))
      | copy read => exact held.imp_right .inl
      | nothing => exact held.imp_right .inl
    | _ =>
      intro left right nodeId resourceLock locked
      rw [Store.holds_of_tasks (effect.tasks rfl), Store.holds_of_tasks (effect.tasks rfl)]
      exact exclusive left right nodeId resourceLock locked

/-- Every lock of a node has one holder at most, as long as no task takes a lock
between the question for its holder and the write. -/
theorem lock_exclusive {state : SystemState Store LockOperation Call Response}
    (run : (lockOperations config).Run { store := first } events state)
    (start : LockExclusive first) (kept : Throughout LockKept events) :
    LockExclusive state.store :=
  lockExclusive_of_trace
    (SharedStore.Run.trace (lockOperations config) (lockOperations_follow config) run) start kept

end Runs

def sampleLockStore : Store where
  nodes := [{ nodeId := ascii "a", manifestJson := ascii "m" }]

def sampleLockConfig : EdgeConfig :=
  { sampleConfig with
    json := { Workflow.sampleLibrary with
      parse := fun text =>
        if text = ascii "m" then
          some (.object [(ascii "tools", .array [.object [(ascii "name", .string (ascii "f")),
            (ascii "resource_lock", .string (ascii "l"))]])])
        else none } }

def sampleAssignment (taskId : Bytes) : TaskAssignment where
  nodeId := ascii "a"
  taskId
  stepId := ascii "s"
  idempotencyKey := taskId
  mode := ascii "invoke"
  deadlineUtcMs := 4
  payload := .object [(ascii "args", .object []), (ascii "tool", .string (ascii "f"))]

def sampleLocking (schedule : List (SharedStore.Move LockOperation Outside)) :
    List TaskEvent × SystemState Store LockOperation Call Response :=
  schedule.foldl ((lockOperations sampleLockConfig).record answer)
    ([], { store := sampleLockStore })

theorem run_sampleLocking (schedule : List (SharedStore.Move LockOperation Outside)) :
    (lockOperations sampleLockConfig).Run { store := sampleLockStore }
      (sampleLocking schedule).1 (sampleLocking schedule).2 :=
  SharedStore.run_records (lockOperations sampleLockConfig) effect_answer .refl schedule

def sampleTurns : List (SharedStore.Move LockOperation Outside) :=
  [.start (.enqueue (sampleAssignment (ascii "t"))),
    .start (.enqueue (sampleAssignment (ascii "u")))] ++
    List.replicate 6 (.advance 0 {}) ++ List.replicate 6 (.advance 1 {})

theorem lock_exclusive_sample :
    (sampleLocking sampleTurns).2.store.holds (ascii "t", ascii "s") (ascii "a") (ascii "l") = true ∧
      LockExclusive (sampleLocking sampleTurns).2.store := by
  refine ⟨by decide, lock_exclusive (run_sampleLocking sampleTurns) ?_ (by decide)⟩
  intro left right nodeId resourceLock _ holds
  exact nomatch holds

/-- Both assignments ask for the holder before either stores its task. -/
def sampleRace : List (SharedStore.Move LockOperation Outside) :=
  [.start (.enqueue (sampleAssignment (ascii "t"))),
    .start (.enqueue (sampleAssignment (ascii "u")))] ++
    List.replicate 3 (.advance 0 {}) ++ List.replicate 3 (.advance 1 {}) ++
    List.replicate 3 (.advance 0 {}) ++ List.replicate 3 (.advance 1 {})

theorem two_tasks_hold_one_lock :
    (lockOperations sampleLockConfig).Run { store := sampleLockStore }
        (sampleLocking sampleRace).1 (sampleLocking sampleRace).2 ∧
      LockExclusive sampleLockStore ∧ ¬LockExclusive (sampleLocking sampleRace).2.store := by
  refine ⟨run_sampleLocking sampleRace, ?_, ?_⟩
  · intro left right nodeId resourceLock _ holds
    exact nomatch holds
  · intro exclusive
    exact absurd (exclusive (ascii "t", ascii "s") (ascii "u", ascii "s") (ascii "a") (ascii "l")
      (by decide) (by decide) (by decide)) (by decide)

end AgentC.EdgeTasks
