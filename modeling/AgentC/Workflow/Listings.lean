import AgentC.Workflow.Exclusion

/-! # Listings that workers act on

A pick cancels and claims tasks from a listing it made before. What has
happened to a task since then decides whether its copy is still good. -/

namespace AgentC.Workflow

def isListing : Call → Bool
  | .listWorkflowTasks _ => true
  | _ => false

def SinceListing (happened : DaemonEvent → Prop) (thread : Nat) : List DaemonEvent → Prop
  | [] => False
  | event :: earlier =>
    if event.thread = thread ∧ isListing event.call then False
    else happened event ∨ SinceListing happened thread earlier

def ClaimsTask (key : Bytes × Bytes) (event : DaemonEvent) : Prop :=
  ∃ attempt, claimOf event.call event.response = some (key, attempt)

def Requeues (key : Bytes × Bytes) (event : DaemonEvent) : Prop :=
  ∃ row, writeOf event.call event.response = some row ∧ row.key = key ∧ row.status = .queued

instance (happened : DaemonEvent → Prop) [DecidablePred happened] (thread : Nat) :
    DecidablePred (SinceListing happened thread) :=
  decideSince
where
  decideSince : (events : List DaemonEvent) → Decidable (SinceListing happened thread events)
    | [] => inferInstanceAs (Decidable False)
    | event :: earlier =>
      have := decideSince earlier
      inferInstanceAs (Decidable (if event.thread = thread ∧ isListing event.call then False
        else happened event ∨ SinceListing happened thread earlier))

instance (key : Bytes × Bytes) : DecidablePred (ClaimsTask key) := fun event =>
  decidable_of_iff (∃ claim ∈ claimOf event.call event.response, claim.1 = key) (by
    constructor
    · rintro ⟨claim, claimed, same⟩
      exact ⟨claim.2, by rw [← same]; exact claimed⟩
    · rintro ⟨attempt, claimed⟩
      exact ⟨_, claimed, rfl⟩)

instance (key : Bytes × Bytes) : DecidablePred (Requeues key) := fun event =>
  inferInstanceAs (Decidable
    (∃ row ∈ writeOf event.call event.response, row.key = key ∧ row.status = .queued))

variable {thread : Nat} {event : DaemonEvent} {earlier : List DaemonEvent} {known : Knowledge}
variable {call : Call} {store : Store} {copy : WorkflowTaskRow} {engine : Engine}
variable {response : Response call}

theorem sinceListing_cons {happened : DaemonEvent → Prop}
    (other : ¬(event.thread = thread ∧ isListing event.call = true)) :
    SinceListing happened thread (event :: earlier) ↔
      happened event ∨ SinceListing happened thread earlier := by
  rw [SinceListing, if_neg other]

/-- The thread may still act on the copy of a task: it has not claimed any, and
has listed this one as queued. -/
def HoldsQueued (engine : Engine) (thread : Nat) (copy : WorkflowTaskRow)
    (events : List DaemonEvent) : Prop :=
  (knownBy engine thread events).claim = none ∧ copy ∈ (knownBy engine thread events).tasks ∧
    copy.status = .queued

variable {events : List DaemonEvent}

theorem advance_other (other : isListing call = false) :
    (known.advance call response).tasks = known.tasks ∧
      (known.advance call response).listed = known.listed ∧
      (known.advance call response).seen = known.seen := by
  cases call with
  | listWorkflowTasks asked => exact nomatch other
  | claimWorkflowTaskBudgeted workflowId taskId nowUnixMs newAttempt perWorkflow perSession
      sessionId =>
    cases response with
    | false => exact ⟨rfl, rfl, rfl⟩
    | true => exact ⟨rfl, rfl, rfl⟩
  | _ => exact ⟨rfl, rfl, rfl⟩

theorem advance_tasks (other : isListing call = false) :
    (known.advance call response).tasks = known.tasks :=
  (advance_other other).1

theorem advance_listed (other : isListing call = false) :
    (known.advance call response).listed = known.listed :=
  (advance_other other).2.1

theorem advance_seen (other : isListing call = false) :
    (known.advance call response).seen = known.seen :=
  (advance_other other).2.2

theorem mem_advance_tasks {next : Store} (effect : Effect call store response next)
    (member : copy ∈ (known.advance call response).tasks) :
    (isListing call = true ∧ ∃ held ∈ store.tasks, copy = Store.readTask held) ∨
      isListing call = false ∧ copy ∈ known.tasks := by
  by_cases listing : isListing call = true
  · left
    refine ⟨listing, ?_⟩
    cases call with
    | listWorkflowTasks asked =>
      have reads : Reads store (.listWorkflowTasks asked) response := reads_of_effect effect
      cases response with
      | none => exact nomatch member
      | some rows =>
        rcases (reads rows rfl copy).mp member with ⟨held, there, read, _⟩
        exact ⟨held, there, read⟩
    | _ => exact nomatch listing
  · have other := Bool.eq_false_of_not_eq_true listing
    rw [advance_tasks other] at member
    exact .inr ⟨other, member⟩

theorem unclaimed_of_advance (unclaimed : (known.advance call response).claim = none) :
    known.claim = none := by
  cases call with
  | claimWorkflowTaskBudgeted workflowId taskId nowUnixMs newAttempt perWorkflow perSession
      sessionId =>
    cases response with
    | false => exact unclaimed
    | true => exact nomatch unclaimed
  | _ => exact unclaimed

theorem claimOf_of_isListing (listing : isListing call = true) (response : Response call) :
    claimOf call response = none := by
  cases call with
  | listWorkflowTasks asked => rfl
  | _ => exact nomatch listing

theorem tasks_of_isListing {next : Store} (listing : isListing call = true)
    (effect : Effect call store response next) : next.tasks = store.tasks := by
  cases taskChange_of_effect effect with
  | untouched _ _ same => exact same
  | written => exact nomatch listing
  | claimed => exact nomatch listing
  | cancelled => exact nomatch listing

/-- A thread holds a copy behind a call because it has just listed the stored
row, or because it did before. -/
theorem listed_cons (member : copy ∈ (knownBy engine thread (event :: earlier)).tasks)
    (effect : Effect event.call event.before event.response event.after) :
    (isListing event.call = true ∧ ∃ held ∈ event.before.tasks, copy = Store.readTask held) ∨
    ¬(event.thread = thread ∧ isListing event.call = true) ∧
      copy ∈ (knownBy engine thread earlier).tasks := by
  rcases event with ⟨caller, call, response, before, after⟩
  by_cases own : caller = thread
  · subst own
    rw [knownBy_cons_self] at member
    rcases mem_advance_tasks effect member with new | ⟨other, old⟩
    · exact .inl new
    · right
      refine ⟨?_, old⟩
      rw [other]
      exact fun both => nomatch both.2
  · right
    rw [knownBy_cons_other own] at member
    exact ⟨fun both => own both.1, member⟩

theorem unclaimed_cons (unclaimed : (knownBy engine thread (event :: earlier)).claim = none) :
    (knownBy engine thread earlier).claim = none := by
  rcases event with ⟨caller, call, response, before, after⟩
  by_cases own : caller = thread
  · subst own
    rw [knownBy_cons_self] at unclaimed
    exact unclaimed_of_advance unclaimed
  · rw [knownBy_cons_other own] at unclaimed
    exact unclaimed

theorem holdsQueued_cons (holds : HoldsQueued engine thread copy (event :: earlier))
    (effect : Effect event.call event.before event.response event.after) :
    (isListing event.call = true ∧ ∃ held ∈ event.before.tasks, copy = Store.readTask held) ∨
    ¬(event.thread = thread ∧ isListing event.call = true) ∧
      HoldsQueued engine thread copy earlier := by
  rcases listed_cons holds.2.1 effect with listed | ⟨other, old⟩
  · exact .inl listed
  · exact .inr ⟨other, unclaimed_cons holds.1, old, holds.2.2⟩

/-- Where a task is being executed, every copy of it as queued was listed in
front of the claim. -/
theorem claimedSinceListing_of_executes {tables : Store}
    (trace : DaemonTrace engine tables events store) {executor : Nat}
    (executes : Executes engine executor copy.key events)
    (holds : HoldsQueued engine thread copy events) :
    SinceListing (ClaimsTask copy.key) thread events := by
  induction trace with
  | nil =>
    rcases executes with ⟨claim, held, _⟩
    exact nomatch held.1
  | @cons events store next caller call response earlier allowed effect induction =>
    rcases holdsQueued_cons holds effect with ⟨listing, held, there, read⟩ | ⟨other, held⟩
    · -- a listing shows no task as queued that is being executed
      have executed := executes_before (claimOf_of_isListing listing response) executes
      have queued := holds.2.2
      rw [read] at executed queued
      exact absurd executed ((exclusive_of_trace earlier).queued held there queued executor)
    · rw [sinceListing_cons other]
      rcases executes_cons executes with ⟨_, claimed⟩ | ⟨executed, _⟩
      · exact .inl claimed
      · exact .inr (induction executed held)

/-- A queued copy of a task that was not put back into the queue since it was
listed is the stored row, as long as that is queued. -/
theorem current_of_trace {tables : Store} (keyed : Keyed tables)
    (trace : DaemonTrace engine tables events store) (holds : HoldsQueued engine thread copy events)
    (fresh : ¬SinceListing (Requeues copy.key) thread events) :
    ∀ stored ∈ store.tasks, stored.key = copy.key → stored.status = .queued →
      Store.readTask stored = copy := by
  induction trace with
  | nil => exact nomatch holds.2.1
  | @cons events store next caller call response earlier allowed effect induction =>
    intro stored member sameKey queued
    rcases holdsQueued_cons holds effect with ⟨listing, held, there, read⟩ | ⟨other, held⟩
    · rw [tasks_of_isListing listing effect] at member
      have keyedStore := keyed.of_sameIdentities (identities_of_trace keyed earlier).1
      rw [read] at sameKey
      rw [keyedStore.task_eq member there sameKey]
      exact read.symm
    · rw [sinceListing_cons other, not_or] at fresh
      have before : ∀ old ∈ store.tasks, old.key = copy.key → old.status = .queued →
          Store.readTask old = copy := induction held fresh.2
      cases taskChange_of_effect effect with
      | untouched _ _ same =>
        rw [same] at member
        exact before stored member sameKey queued
      | written row named next_eq =>
        subst next_eq
        rcases mem_upsertWorkflowTask named member with written | ⟨old, _⟩
        · refine absurd ⟨row, rfl, ?_, ?_⟩ fresh.1
          · exact written.key.symm.trans sameKey
          · exact written.status.symm.trans queued
        · exact before stored old sameKey queued
      | claimed _ _ _ _ _ _ _ _ _ _ _ tasks =>
        rw [tasks] at member
        rcases mem_updateQueued member with ⟨old, _, _, _, updated⟩ | ⟨old, _⟩
        · rw [updated] at queued
          exact nomatch queued
        · exact before stored old sameKey queued
      | cancelled _ _ _ _ _ tasks =>
        rw [tasks] at member
        rcases mem_updateQueued member with ⟨old, _, _, _, updated⟩ | ⟨old, _⟩
        · rw [updated] at queued
          exact nomatch queued
        · exact before stored old sameKey queued

end AgentC.Workflow
