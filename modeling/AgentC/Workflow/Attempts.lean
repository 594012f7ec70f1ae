import AgentC.Workflow.Listings

/-! # Attempts of a task

The number of an attempt is one more than the number in the listed copy of the
task. Numbers grow one by one as long as no claim is made from a copy listed in
front of the last time the task was put back into the queue. -/

namespace AgentC.Workflow

def attemptsOf (key : Bytes × Bytes) : List DaemonEvent → List Int
  | [] => []
  | event :: earlier =>
    match claimOf event.call event.response with
    | some (claimed, attempt) =>
      if claimed = key then attempt :: attemptsOf key earlier else attemptsOf key earlier
    | none => attemptsOf key earlier

/-- A claim is made from a listing behind every requeueing of its task. -/
def ClaimsCurrent (event : DaemonEvent) (earlier : List DaemonEvent) : Prop :=
  ∀ claim ∈ claimOf event.call event.response,
    ¬SinceListing (Requeues claim.1) event.thread earlier

instance (event : DaemonEvent) (earlier : List DaemonEvent) :
    Decidable (ClaimsCurrent event earlier) :=
  inferInstanceAs (Decidable (∀ claim ∈ claimOf event.call event.response,
    ¬SinceListing (Requeues claim.1) event.thread earlier))

section Claiming

variable {engine : Engine} {tables store : Store} {events : List DaemonEvent} {thread : Nat}

theorem Claims.copy {workflowId taskId sessionId : Bytes} {newAttempt : Int}
    (trace : DaemonTrace engine tables events store)
    (claims : Claims engine (knownBy engine thread events) workflowId taskId newAttempt sessionId) :
    ∃ copy, HoldsQueued engine thread copy events ∧ copy.key = (workflowId, taskId) ∧
      newAttempt = copy.attempt + 1 := by
  rcases claims.task with ⟨copy, listed, sameId, queued, number, _⟩
  refine ⟨copy, ⟨claims.unclaimed, listed, queued⟩, ?_, number⟩
  rw [WorkflowTaskRow.key, (fromListings_of_trace trace thread).tasks copy listed, sameId,
    claims.listed]

theorem Claims.attempt {workflowId taskId sessionId : Bytes} {newAttempt : Int}
    (keyed : Keyed tables) (trace : DaemonTrace engine tables events store)
    (claims : Claims engine (knownBy engine thread events) workflowId taskId newAttempt sessionId)
    (fresh : ¬SinceListing (Requeues (workflowId, taskId)) thread events) {row : WorkflowTaskRow}
    (member : row ∈ store.tasks) (sameKey : row.key = (workflowId, taskId))
    (queued : row.status = .queued) : newAttempt = row.attempt + 1 := by
  rcases claims.copy trace with ⟨copy, holds, copyKey, number⟩
  rw [← copyKey] at fresh sameKey
  have current := current_of_trace keyed trace holds fresh row member sameKey queued
  rw [number, ← current]
  rfl

end Claiming

/-- The stored row and the claims under way have the number that the attempts
made so far give, and a task is queued behind an attempt only if one is left. -/
structure Counted (engine : Engine) (task : WorkflowTaskRow) (events : List DaemonEvent)
    (store : Store) : Prop where
  queued : ∀ row ∈ store.tasks, row.key = task.key → row.status = .queued →
    row.attempt = task.attempt + (attemptsOf task.key events).length
  claimed : ∀ thread claim, HoldsClaim engine thread claim events → claim.key = task.key →
    claim.attempt = task.attempt + (attemptsOf task.key events).length
  left : attemptsOf task.key events ≠ [] → ∀ row ∈ store.tasks, row.key = task.key →
    row.status = .queued → row.attempt < max 1 task.maxAttempts
  bounded : ∀ attempt ∈ attemptsOf task.key events,
    attempt ≤ task.attempt + (attemptsOf task.key events).length
  increasing : (attemptsOf task.key events).Pairwise (· > ·)
  limited : ((attemptsOf task.key events).length : Int) ≤ max 1 task.maxAttempts

section Counting

variable {engine : Engine} {tables store next : Store} {task : WorkflowTaskRow}
  {events : List DaemonEvent} {caller : Nat} {call : Call} {response : Response call}

/-- A call that does not claim the task, and that queues no row of it but one
with the right number and an attempt left. -/
theorem Counted.other (counted : Counted engine task events store)
    (unclaimed : ∀ attempt, claimOf call response ≠ some (task.key, attempt))
    (queued : ∀ row ∈ next.tasks, row.key = task.key → row.status = .queued → row ∈ store.tasks ∨
        row.attempt = task.attempt + (attemptsOf task.key events).length ∧
          row.attempt < max 1 task.maxAttempts) :
    Counted engine task (⟨caller, call, response, store, next⟩ :: events) next := by
  have same : attemptsOf task.key (⟨caller, call, response, store, next⟩ :: events) =
      attemptsOf task.key events := by
    rw [attemptsOf]
    split
    · next key attempt claimed =>
      rw [if_neg]
      intro sameKey
      subst sameKey
      exact unclaimed attempt claimed
    · rfl
  constructor
  · intro row member sameKey isQueued
    rw [same]
    rcases queued row member sameKey isQueued with old | new
    · exact counted.queued row old sameKey isQueued
    · exact new.1
  · intro thread claim holds sameKey
    rw [same]
    rcases holdsClaim_cons holds with ⟨_, claimed, _⟩ | ⟨earlier, _⟩
    · rw [sameKey] at claimed
      exact absurd claimed (unclaimed _)
    · exact counted.claimed thread claim earlier sameKey
  · rw [same]
    intro attempted row member sameKey isQueued
    rcases queued row member sameKey isQueued with old | new
    · exact counted.left attempted row old sameKey isQueued
    · exact new.2
  · rw [same]
    exact counted.bounded
  · rw [same]
    exact counted.increasing
  · rw [same]
    exact counted.limited

theorem Counted.claim {attempt : Int} (counted : Counted engine task events store)
    (exclusive : Exclusive engine events store) (nonnegative : 0 ≤ task.attempt)
    (claimed : claimOf call response = some (task.key, attempt))
    (found : ∃ row ∈ store.tasks, row.key = task.key ∧ row.status = .queued ∧
      attempt = row.attempt + 1)
    (dequeued : ∀ row ∈ next.tasks, row.key = task.key → row.status ≠ .queued) :
    Counted engine task (⟨caller, call, response, store, next⟩ :: events) next := by
  rcases found with ⟨row, member, sameKey, queued, number⟩
  have stored := counted.queued row member sameKey queued
  have more : attemptsOf task.key (⟨caller, call, response, store, next⟩ :: events) =
      attempt :: attemptsOf task.key events := by
    rw [attemptsOf, claimed]
    exact if_pos rfl
  have length : ((attempt :: attemptsOf task.key events).length : Int) =
      (attemptsOf task.key events).length + 1 := by
    rw [List.length_cons]
    exact Int.natCast_succ _
  constructor
  · intro other there same isQueued
    exact absurd isQueued (dequeued other there same)
  · intro thread claim holds same
    rcases holdsClaim_cons holds with ⟨_, own, _⟩ | ⟨earlier, _⟩
    · rw [claimed, same] at own
      cases own
      rw [more, length]
      omega
    · have executes : Executes engine thread row.key events :=
        ⟨claim, earlier, same.trans sameKey.symm⟩
      exact absurd executes (exclusive.queued row member queued thread)
  · intro _ other there same isQueued
    exact absurd isQueued (dequeued other there same)
  · rw [more, length]
    intro other there
    rcases List.mem_cons.mp there with new | old
    · omega
    · have before := counted.bounded other old
      omega
  · rw [more]
    refine List.Pairwise.cons ?_ counted.increasing
    intro other old
    have before := counted.bounded other old
    omega
  · rw [more, length]
    by_cases first : attemptsOf task.key events = []
    · rw [first]
      exact le_max_left 1 task.maxAttempts
    · have left := counted.left first row member sameKey queued
      omega

/-- Whoever puts the task back into the queue has claimed it last, and had an
attempt left. -/
theorem Counted.write {row : WorkflowTaskRow} (counted : Counted engine task events store)
    (keyed : Keyed tables) (member : task ∈ tables.tasks) (nonnegative : 0 ≤ task.attempt)
    (trace : DaemonTrace engine tables events store)
    (writes : WritesTask (knownBy engine caller events) row)
    (named : row.workflowId ≠ [] ∧ row.taskId ≠ []) : Counted engine task
      (⟨caller, .upsertWorkflowTask row, true, store, (store.upsertWorkflowTask row).2⟩ :: events)
      (store.upsertWorkflowTask row).2 := by
  have requeued : ∀ stored, WrittenTask row stored → stored.key = task.key →
      stored.status = .queued →
      stored.attempt = task.attempt + (attemptsOf task.key events).length ∧
        stored.attempt < max 1 task.maxAttempts := by
    intro stored written sameKey queued
    have isQueued : row.status = .queued := written.status.symm.trans queued
    have rowKey : row.key = task.key := written.key.symm.trans sameKey
    have other : row.status ≠ .cancelled := by
      rw [isQueued]
      rintro ⟨⟩
    rcases holdsClaim_of_writes writes other with ⟨claim, holds⟩
    rcases holds.writes trace writes with ⟨own, copy, from_, records⟩
    have number := counted.claimed caller claim holds (own.symm.trans rowKey)
    have attempts : max 1 copy.maxAttempts = max 1 task.maxAttempts := by
      have known := ((identities_of_trace keyed trace).2 caller).claim claim holds.1 copy
        from_.listed
      rcases List.mem_map.mp known with ⟨first, there, identity⟩
      have firstKey : first.key = task.key := by
        have copyKey : first.key = copy.key := congrArg TaskIdentity.key identity
        rw [copyKey, ← rowKey, WorkflowTaskRow.key, WorkflowTaskRow.key,
          records.same.workflowId, records.same.taskId]
      rw [← keyed.task_eq there member firstKey]
      exact (congrArg TaskIdentity.maxAttempts identity).symm
    have retried := records.retried isQueued
    rw [records.same.maxAttempts, attempts] at retried
    have attempt := written.attempt
    have from_attempt := from_.attempt
    have row_attempt := records.attempt
    omega
  apply counted.other
  · intro attempt impossible
    cases impossible
  · intro stored there sameKey queued
    rcases mem_upsertWorkflowTask named there with written | ⟨old, _⟩
    · exact .inr (requeued stored written sameKey queued)
    · exact .inl old

theorem mem_of_updateQueued_queued {tasks : List WorkflowTaskRow} {key : Bytes × Bytes}
    {update : WorkflowTaskRow → WorkflowTaskRow} {row : WorkflowTaskRow}
    (dequeues : ∀ row, (update row).status ≠ .queued)
    (member : row ∈ tasks.map (updateQueued key update)) (queued : row.status = .queued) :
    row ∈ tasks ∧ row.key ≠ key := by
  rcases mem_updateQueued member with ⟨old, _, _, _, updated⟩ | ⟨old, other⟩
  · rw [updated] at queued
    exact absurd queued (dequeues old)
  · exact ⟨old, fun same => other ⟨same, queued⟩⟩

theorem counted_of_trace (keyed : Keyed tables) (member : task ∈ tables.tasks)
    (nonnegative : 0 ≤ task.attempt) (trace : DaemonTrace engine tables events store)
    (current : Throughout ClaimsCurrent events) : Counted engine task events store := by
  induction trace with
  | nil =>
    constructor
    · intro row there sameKey _
      rw [keyed.task_eq there member sameKey]
      exact (Int.add_zero _).symm
    · intro thread claim holds _
      exact nomatch holds.1
    · intro attempted
      exact absurd rfl attempted
    · intro attempt impossible
      exact nomatch impossible
    · exact List.Pairwise.nil
    · exact le_trans Int.one_nonneg (le_max_left 1 task.maxAttempts)
  | @cons events store next caller call response earlier allowed effect induction =>
    have counted := induction current.2
    cases taskChange_of_effect effect with
    | untouched unclaimed _ same =>
      apply counted.other
      · intro attempt claimed
        rw [unclaimed] at claimed
        exact nomatch claimed
      · intro row there _ _
        rw [same] at there
        exact .inl there
    | written row named next_eq =>
      subst next_eq
      exact counted.write keyed member nonnegative earlier allowed named
    | claimed workflowId taskId nowUnixMs newAttempt perWorkflow perSession sessionId found _ _ _
        tasks =>
      have dequeues : ∀ row, (claimedRow nowUnixMs newAttempt row).status ≠ .queued :=
        fun _ impossible => nomatch impossible
      by_cases own : (workflowId, taskId) = task.key
      · rcases found with ⟨row, there, sameKey, queued⟩
        have fresh := current.1 ((workflowId, taskId), newAttempt) rfl
        have number := allowed.2.2.attempt keyed earlier fresh there sameKey queued
        apply counted.claim (exclusive_of_trace earlier) nonnegative
        · rw [← own]
          rfl
        · exact ⟨row, there, sameKey.trans own, queued, number⟩
        · intro other otherThere otherKey otherQueued
          rw [tasks] at otherThere
          exact (mem_of_updateQueued_queued dequeues otherThere otherQueued).2
            (otherKey.trans own.symm)
      · apply counted.other
        · intro attempt claimed
          cases claimed
          exact own rfl
        · intro row there _ queued
          rw [tasks] at there
          exact .inl (mem_of_updateQueued_queued dequeues there queued).1
    | cancelled workflowId taskId nowUnixMs error resultJson tasks =>
      apply counted.other
      · intro attempt impossible
        exact nomatch impossible
      · intro row there _ queued
        rw [tasks] at there
        have dequeues : ∀ row, (cancelledRow nowUnixMs error resultJson row).status ≠ .queued :=
          fun _ impossible => nomatch impossible
        exact .inl (mem_of_updateQueued_queued dequeues there queued).1

end Counting

/-- In every run in which no claim is made from a listing in front of a
requeueing of its task: the numbers of the attempts at which a task is claimed
increase, and it is claimed no more often than it has attempts. -/
theorem attempts_increase_within_limit (engine : Engine) {tables : Store} (keyed : Keyed tables)
    {task : WorkflowTaskRow} (member : task ∈ tables.tasks) (nonnegative : 0 ≤ task.attempt)
    {events : List DaemonEvent} {state : DaemonState}
    (run : DaemonRun engine tables events state) (current : Throughout ClaimsCurrent events) :
    (attemptsOf task.key events).Pairwise (· > ·) ∧
      ((attemptsOf task.key events).length : Int) ≤ max 1 task.maxAttempts :=
  have counted := counted_of_trace keyed member nonnegative (daemonTrace_of_run run) current
  ⟨counted.increasing, counted.limited⟩

def retryTask : WorkflowTaskRow where
  workflowId := sampleWorkflow
  taskId := ascii "t"
  maxAttempts := 2

def retryTables : Store :=
  { sampleTables with tasks := [retryTask] }

theorem keyed_retryTables : Keyed retryTables :=
  ⟨by decide, by decide⟩

def failing : Outside where
  nowUnixMs := 100000
  outcome := { ok := false }

/-- A worker executes the task and puts it back into the queue, and another one
lists and claims it then. -/
def retryAfterListing : List (SharedStore.Move Operation Outside) :=
  .start .workerTurn :: List.replicate 13 (.advance 0 { failing with nowUnixMs := 1 }) ++
    .start .workerTurn :: List.replicate 6 (.advance 1 failing)

theorem attempts_increase_within_limit_sample :
    attemptsOf retryTask.key (recordedRun sampleEngine retryTables retryAfterListing).1 = [2, 1] ∧
    ((attemptsOf retryTask.key
      (recordedRun sampleEngine retryTables retryAfterListing).1).length : Int) ≤ 2 :=
  ⟨by decide, (attempts_increase_within_limit sampleEngine keyed_retryTables
    (List.mem_singleton.mpr rfl) (by decide) (run_recordedRun sampleEngine _ retryAfterListing)
    (by decide)).2⟩

/-- A worker lists the task, and a second one executes it and puts it back into
the queue. The first worker claims it from its listing and does the same, and a
third one claims it again. -/
def retryBehindListing : List (SharedStore.Move Operation Outside) :=
  .start .workerTurn :: List.replicate 5 (.advance 0 failing) ++
    .start .workerTurn :: List.replicate 13 (.advance 1 failing) ++
    List.replicate 8 (.advance 0 failing) ++
    .start .workerTurn :: List.replicate 6 (.advance 2 { failing with nowUnixMs := 200000 })

/-- An attempt number is used twice, and a task with two attempts is tried three
times. -/
theorem attempt_repeated :
    ∃ (events : List DaemonEvent) (state : DaemonState),
      DaemonRun sampleEngine retryTables events state ∧
      ¬(attemptsOf retryTask.key events).Pairwise (· > ·) ∧
      ¬((attemptsOf retryTask.key events).length : Int) ≤ max 1 retryTask.maxAttempts :=
  ⟨_, _, run_recordedRun sampleEngine retryTables retryBehindListing, by decide,
    by decide⟩

end AgentC.Workflow
