import AgentC.Workflow.Identity

/-! # Exclusion of claims

A task is claimed by the one call that finds it queued, and only the worker
that has claimed it makes it queued again. So no two workers execute one task,
and the counts checked with the claim bound the tasks that run. -/

namespace AgentC.Workflow

/-- The thread has made the claim and not written its task since. -/
def HoldsClaim (engine : Engine) (thread : Nat) (claim : Claim) (events : List DaemonEvent) :
    Prop :=
  (knownBy engine thread events).claim = some claim ∧
    (knownBy engine thread events).recorded = false

def Claim.key (claim : Claim) : Bytes × Bytes :=
  (claim.workflowId, claim.taskId)

/-- The thread has claimed the task and not written it since. -/
def Executes (engine : Engine) (thread : Nat) (key : Bytes × Bytes)
    (events : List DaemonEvent) : Prop :=
  ∃ claim, HoldsClaim engine thread claim events ∧ claim.key = key

/-- Listed tasks are tasks of the workflow that was asked for. -/
structure FromListings (known : Knowledge) : Prop where
  tasks : ∀ copy ∈ known.tasks, copy.workflowId = known.listed
  claim : ∀ claim, known.claim = some claim → ∀ copy ∈ claim.listing,
    copy.workflowId = claim.workflowId

variable {engine : Engine} {store next : Store} {known : Knowledge} {call : Call} {tables : Store}
variable {events : List DaemonEvent} {thread caller : Nat} {before after : Store}
variable {row : WorkflowTaskRow} {response : Response call}

theorem FromListings.advance (from_ : FromListings known) (allowed : MayCall engine known call)
    (effect : Effect call store response next) : FromListings (known.advance call response) := by
  have reads := reads_of_effect effect
  cases call with
  | listWorkflowTasks asked =>
    refine ⟨?_, from_.claim⟩
    intro copy member
    cases response with
    | none => exact nomatch member
    | some rows =>
      rcases (reads rows rfl copy).mp member with ⟨held, _, read, same⟩
      rw [read]
      exact same
  | claimWorkflowTaskBudgeted workflowId taskId nowUnixMs newAttempt perWorkflow perSession
      sessionId =>
    cases response with
    | false => exact from_
    | true =>
      refine ⟨from_.tasks, ?_⟩
      intro claim claimed copy member
      cases claimed
      exact (from_.tasks copy member).trans allowed.2.2.listed
  | _ => exact ⟨from_.tasks, from_.claim⟩

theorem fromListings_of_trace {tables store : Store}
    (trace : DaemonTrace engine tables events store) (thread : Nat) :
    FromListings (knownBy engine thread events) := by
  apply SharedStore.Trace.knowledge (daemon engine) FromListings _ _ trace
  · intro known call response store next from_ allowed effect
    exact from_.advance allowed effect
  · constructor
    · intro copy member
      exact nomatch member
    · intro claim claimed
      exact nomatch claimed

/-- A thread holds a claim behind a call because it has just made it, or because
it did so before and has not written the task now. -/
theorem holdsClaim_cons {claim : Claim}
    (holds : HoldsClaim engine thread claim (⟨caller, call, response, before, after⟩ :: events)) :
    (caller = thread ∧ claimOf call response = some (claim.key, claim.attempt) ∧
      claim.listing = (knownBy engine caller events).tasks) ∨
    HoldsClaim engine thread claim events ∧
      (caller = thread → ∀ row, call ≠ .upsertWorkflowTask row) := by
  by_cases own : caller = thread
  · subst own
    rw [HoldsClaim, knownBy_cons_self] at holds
    cases call with
    | claimWorkflowTaskBudgeted workflowId taskId nowUnixMs newAttempt perWorkflow perSession
        sessionId =>
      cases response with
      | false => exact .inr ⟨holds, fun _ _ other => nomatch other⟩
      | true =>
        cases holds.1
        exact .inl ⟨rfl, rfl, rfl⟩
    | upsertWorkflowTask row =>
      have earlier : (knownBy engine caller events).claim = some claim := holds.1
      have recorded : ((knownBy engine caller events).recorded ||
          (knownBy engine caller events).claim.isSome) = false := holds.2
      rw [earlier, Option.isSome_some, Bool.or_true] at recorded
      exact nomatch recorded
    | _ => exact .inr ⟨holds, fun _ _ other => nomatch other⟩
  · right
    refine ⟨?_, fun same => absurd same own⟩
    rw [HoldsClaim, knownBy_cons_other own] at holds
    exact holds

variable {key : Bytes × Bytes}

theorem executes_cons
    (executes : Executes engine thread key (⟨caller, call, response, before, after⟩ :: events)) :
    (caller = thread ∧ ∃ attempt, claimOf call response = some (key, attempt)) ∨
      Executes engine thread key events ∧
        (caller = thread → ∀ row, call ≠ .upsertWorkflowTask row) := by
  rcases executes with ⟨claim, holds, same⟩
  rcases holdsClaim_cons holds with ⟨own, claimed, _⟩ | ⟨earlier, quiet⟩
  · rw [same] at claimed
    exact .inl ⟨own, claim.attempt, claimed⟩
  · exact .inr ⟨⟨claim, earlier, same⟩, quiet⟩

theorem executes_before (unclaimed : claimOf call response = none)
    (executes : Executes engine thread key (⟨caller, call, response, before, after⟩ :: events)) :
    Executes engine thread key events := by
  rcases executes_cons executes with ⟨_, attempt, claimed⟩ | ⟨earlier, _⟩
  · rw [unclaimed] at claimed
    exact nomatch claimed
  · exact earlier

/-- What a thread that holds a claim writes is the claimed task, from the copy
the claim was made from. -/
theorem HoldsClaim.writes {tables store : Store} {claim : Claim}
    (trace : DaemonTrace engine tables events store) (holds : HoldsClaim engine thread claim events)
    (writes : WritesTask (knownBy engine thread events) row) :
    row.key = claim.key ∧ ∃ copy, claim.From copy ∧
      Records copy (knownBy engine thread events).outcome row := by
  rw [WritesTask, holds.1] at writes
  rcases writes with ⟨_, copy, from_, records⟩
  refine ⟨?_, copy, from_, records⟩
  have workflowId : copy.workflowId = claim.workflowId :=
    (fromListings_of_trace trace thread).claim claim holds.1 copy from_.listed
  rw [Claim.key, WorkflowTaskRow.key, records.same.workflowId, records.same.taskId, workflowId,
    from_.taskId]

theorem holdsClaim_of_writes (writes : WritesTask (knownBy engine thread events) row)
    (other : row.status ≠ .cancelled) : ∃ claim, HoldsClaim engine thread claim events := by
  rw [WritesTask] at writes
  split at writes
  · rcases writes with ⟨copy, _, cancels⟩
    exact absurd cancels.status other
  · next claim claimed => exact ⟨claim, claimed, writes.1⟩

theorem executes_of_writes_queued {tables store : Store}
    (trace : DaemonTrace engine tables events store)
    (writes : WritesTask (knownBy engine thread events) row) (queued : row.status = .queued) :
    Executes engine thread row.key events := by
  have other : row.status ≠ .cancelled := by
    rw [queued]
    exact fun impossible => nomatch impossible
  rcases holdsClaim_of_writes writes other with ⟨claim, holds⟩
  exact ⟨claim, holds, (holds.writes trace writes).1.symm⟩

/-- A queued task is executed by nobody, and any other by one thread at most. -/
structure Exclusive (engine : Engine) (events : List DaemonEvent) (store : Store) : Prop where
  queued : ∀ row ∈ store.tasks, row.status = .queued →
    ∀ thread, ¬Executes engine thread row.key events
  single : ∀ key left right, Executes engine left key events → Executes engine right key events →
    left = right

theorem exclusive_of_trace {tables : Store} (trace : DaemonTrace engine tables events store) :
    Exclusive engine events store := by
  induction trace with
  | nil =>
    constructor
    · rintro row _ _ thread ⟨claim, holds, _⟩
      exact nomatch holds.1
    · rintro key left right ⟨claim, holds, _⟩
      exact nomatch holds.1
  | @cons events store next caller call response earlier allowed effect induction =>
    cases taskChange_of_effect effect with
    | untouched unclaimed _ same =>
      constructor
      · intro row member queued thread executes
        rw [same] at member
        exact induction.queued row member queued thread (executes_before unclaimed executes)
      · intro key left right executesLeft executesRight
        exact induction.single key left right (executes_before unclaimed executesLeft)
          (executes_before unclaimed executesRight)
    | written row named next_eq =>
      constructor
      · intro stored member queued thread executes
        rw [next_eq] at member
        have executed := executes_before rfl executes
        rcases mem_upsertWorkflowTask named member with written | ⟨old, _⟩
        · -- only the executing thread writes a task as queued, and stops with it
          rw [written.status] at queued
          rw [written.key] at executed
          have writer := executes_of_writes_queued earlier allowed queued
          have own := induction.single row.key caller thread writer executed
          rcases executes_cons executes with ⟨_, attempt, impossible⟩ | ⟨_, quiet⟩
          · exact nomatch impossible
          · exact quiet own row rfl
        · exact induction.queued stored old queued thread executed
      · intro key left right executesLeft executesRight
        exact induction.single key left right (executes_before rfl executesLeft)
          (executes_before rfl executesRight)
    | claimed workflowId taskId nowUnixMs newAttempt perWorkflow perSession sessionId found _ _ _
        tasks =>
      rcases found with ⟨held, there, sameKey, heldQueued⟩
      have free : ∀ thread, ¬Executes engine thread (workflowId, taskId) events := by
        rw [← sameKey]
        exact induction.queued held there heldQueued
      constructor
      · intro row member queued thread executes
        rw [tasks] at member
        rcases mem_updateQueued member with ⟨old, _, _, _, updated⟩ | ⟨old, other⟩
        · rw [updated] at queued
          exact nomatch queued
        · rcases executes_cons executes with ⟨_, attempt, claimed⟩ | ⟨executed, _⟩
          · cases claimed
            exact other ⟨rfl, queued⟩
          · exact induction.queued row old queued thread executed
      · intro key left right executesLeft executesRight
        rcases executes_cons executesLeft with ⟨ownLeft, _, claimedLeft⟩ | ⟨beforeLeft, _⟩
        · rcases executes_cons executesRight with ⟨ownRight, _, _⟩ | ⟨beforeRight, _⟩
          · exact ownLeft.symm.trans ownRight
          · cases claimedLeft
            exact absurd beforeRight (free right)
        · rcases executes_cons executesRight with ⟨_, _, claimedRight⟩ | ⟨beforeRight, _⟩
          · cases claimedRight
            exact absurd beforeLeft (free left)
          · exact induction.single key left right beforeLeft beforeRight
    | cancelled workflowId taskId nowUnixMs error resultJson tasks =>
      constructor
      · intro row member queued thread executes
        rw [tasks] at member
        rcases mem_updateQueued member with ⟨old, _, _, _, updated⟩ | ⟨old, _⟩
        · rw [updated] at queued
          exact nomatch queued
        · exact induction.queued row old queued thread (executes_before rfl executes)
      · intro key left right executesLeft executesRight
        exact induction.single key left right (executes_before rfl executesLeft)
          (executes_before rfl executesRight)

def InSession (tables : Store) (sessionId : Bytes) (row : WorkflowTaskRow) : Bool :=
  tables.workflows.any fun workflow =>
    workflow.workflowId = row.workflowId ∧ workflow.sessionId = sessionId

variable {counted : WorkflowTaskRow → Bool} {tasks : List WorkflowTaskRow}

theorem inSession_eq (same : SameIdentities tables store) (sessionId : Bytes)
    (row : WorkflowTaskRow) : InSession store sessionId row = InSession tables sessionId row := by
  have byIdentity : ∀ workflows : List WorkflowRow,
      (workflows.any fun workflow =>
        workflow.workflowId = row.workflowId ∧ workflow.sessionId = sessionId) =
      (workflows.map WorkflowRow.identity).any fun identity =>
        identity.1 = row.workflowId ∧ identity.2.1 = sessionId := by
    intro workflows
    rw [List.any_map]
    rfl
  rw [InSession, InSession, byIdentity, byIdentity, same.workflows]

theorem runningInSession_eq (same : SameIdentities tables store) (sessionId : Bytes) :
    store.runningInSession sessionId =
      store.tasks.countP fun row => row.status = .running ∧ InSession tables sessionId row := by
  have counted : store.runningInSession sessionId =
      store.tasks.countP fun row => row.status = .running ∧ InSession store sessionId row := rfl
  simp only [counted, inSession_eq same]

theorem countP_upsertWorkflowTask_le
    (uncounted : ∀ stored, WrittenTask row stored → counted stored = false) :
    (store.upsertWorkflowTask row).2.tasks.countP counted ≤ store.tasks.countP counted := by
  rw [Store.upsertWorkflowTask]
  split
  · exact Nat.le_refl _
  · split
    · apply countP_map_le
      intro stored _ counts
      split at counts
      · rw [uncounted _ writtenTask_merge] at counts
        cases counts
      · exact counts
    · rw [List.countP_append, List.countP_singleton, uncounted _ (writtenTask_bound row)]
      exact Nat.le_refl _

theorem countP_updateQueued_le {update : WorkflowTaskRow → WorkflowTaskRow}
    (uncounted : ∀ row ∈ tasks, row.key = key → counted (update row) = false) :
    (tasks.map (updateQueued key update)).countP counted ≤ tasks.countP counted := by
  apply countP_map_le
  intro row member counts
  rw [updateQueued] at counts
  split at counts
  · next here =>
    rw [uncounted row member here.1] at counts
    cases counts
  · exact counts

theorem countP_updateQueued_le_succ (unique : (tasks.map WorkflowTaskRow.key).Nodup)
    (key : Bytes × Bytes) (update : WorkflowTaskRow → WorkflowTaskRow)
    (counted : WorkflowTaskRow → Bool) :
    (tasks.map (updateQueued key update)).countP counted ≤ tasks.countP counted + 1 := by
  apply countP_map_le_succ unique key
  intro row member counts
  rw [updateQueued] at counts
  split at counts
  · next here => exact .inr here.1
  · exact .inl counts

theorem WritesTask.stopped (writes : WritesTask known row) : row.status ≠ .running := by
  rw [WritesTask] at writes
  split at writes
  · rcases writes with ⟨copy, _, cancels⟩
    rw [cancels.status]
    rintro ⟨⟩
  · rcases writes with ⟨_, copy, _, records⟩
    exact records.stopped

/-- The counts of running tasks are within the limits that are set. -/
structure WithinLimits (engine : Engine) (store : Store) : Prop where
  inWorkflow : ∀ workflowId, 0 < engine.maxInflightPerWorkflow →
    (store.runningInWorkflow workflowId : Int) ≤ engine.maxInflightPerWorkflow
  inSession : ∀ sessionId, sessionId ≠ [] → 0 < engine.maxInflightPerSession →
    (store.runningInSession sessionId : Int) ≤ engine.maxInflightPerSession

theorem WithinLimits.of_le (within : WithinLimits engine store)
    (inWorkflow : ∀ workflowId, next.runningInWorkflow workflowId ≤
      store.runningInWorkflow workflowId)
    (inSession : ∀ sessionId, next.runningInSession sessionId ≤ store.runningInSession sessionId) :
    WithinLimits engine next where
  inWorkflow := by
    intro workflowId limited
    have before := within.inWorkflow workflowId limited
    have shrinks := inWorkflow workflowId
    omega
  inSession := by
    intro sessionId named limited
    have before := within.inSession sessionId named limited
    have shrinks := inSession sessionId
    omega

/-- The claimed task counts for its own workflow and its own session only, and
for these the count was checked. -/
theorem WithinLimits.claimed {workflowId taskId sessionId : Bytes} {nowUnixMs newAttempt : Int}
    (keyed : Keyed tables) (same : SameIdentities tables store)
    (sameNext : SameIdentities tables next) (within : WithinLimits engine store)
    (workflow : ∃ row ∈ tables.workflows, row.workflowId = workflowId ∧ row.sessionId = sessionId)
    (inWorkflow : 0 < engine.maxInflightPerWorkflow →
      (store.runningInWorkflow workflowId : Int) < engine.maxInflightPerWorkflow)
    (inSession : 0 < engine.maxInflightPerSession → sessionId ≠ [] →
      (store.runningInSession sessionId : Int) < engine.maxInflightPerSession)
    (tasks : next.tasks = store.tasks.map
      (updateQueued (workflowId, taskId) (claimedRow nowUnixMs newAttempt))) :
    WithinLimits engine next where
  inWorkflow := by
    intro other limited
    rw [Store.runningInWorkflow, tasks]
    by_cases own : other = workflowId
    · subst own
      have checked := inWorkflow limited
      have grows := countP_updateQueued_le_succ (keyed.of_sameIdentities same).tasks
        (other, taskId) (claimedRow nowUnixMs newAttempt)
        fun row => row.workflowId = other ∧ row.status = .running
      rw [Store.runningInWorkflow] at checked
      omega
    · have shrinks : (store.tasks.map (updateQueued (workflowId, taskId)
          (claimedRow nowUnixMs newAttempt))).countP
            (fun row => row.workflowId = other ∧ row.status = .running) ≤
          store.runningInWorkflow other := by
        apply countP_updateQueued_le
        intro row _ here
        have inside : row.workflowId = workflowId := congrArg Prod.fst here
        exact decide_eq_false fun counts => own (counts.1.symm.trans inside)
      have before := within.inWorkflow other limited
      omega
  inSession := by
    intro other named limited
    rw [runningInSession_eq sameNext, tasks]
    by_cases own : other = sessionId
    · subst own
      have checked := inSession limited named
      have grows := countP_updateQueued_le_succ (keyed.of_sameIdentities same).tasks
        (workflowId, taskId) (claimedRow nowUnixMs newAttempt)
        fun row => row.status = .running ∧ InSession tables other row
      rw [runningInSession_eq same] at checked
      omega
    · have shrinks : (store.tasks.map (updateQueued (workflowId, taskId)
          (claimedRow nowUnixMs newAttempt))).countP
            (fun row => row.status = .running ∧ InSession tables other row) ≤
          store.runningInSession other := by
        rw [runningInSession_eq same]
        apply countP_updateQueued_le
        intro row _ here
        apply decide_eq_false
        rintro ⟨_, counts⟩
        rcases List.any_eq_true.mp counts with ⟨found, member, fits⟩
        rcases workflow with ⟨held, there, sameId, session⟩
        have fitting := of_decide_eq_true fits
        have sameRow : found = held := keyed.workflow_eq member there
          (fitting.1.trans ((congrArg Prod.fst here).trans sameId.symm))
        exact own (fitting.2.symm.trans (by rw [sameRow, session]))
      have before := within.inSession other named limited
      omega

theorem WithinLimits.effect (keyed : Keyed tables) (same : SameIdentities tables store)
    (sameNext : SameIdentities tables next) (copies : HoldsCopies tables known)
    (within : WithinLimits engine store) (allowed : MayCall engine known call)
    (effect : Effect call store response next) : WithinLimits engine next := by
  cases taskChange_of_effect effect with
  | untouched _ _ unchanged =>
    apply within.of_le
    · intro workflowId
      rw [Store.runningInWorkflow, unchanged]
      exact Nat.le_refl _
    · intro sessionId
      rw [runningInSession_eq same, runningInSession_eq sameNext, unchanged]
  | written row named next_eq =>
    have stopped := WritesTask.stopped allowed
    apply within.of_le
    · intro workflowId
      rw [Store.runningInWorkflow, next_eq]
      apply countP_upsertWorkflowTask_le
      intro stored written
      exact decide_eq_false fun counts => stopped (written.status.symm.trans counts.2)
    · intro sessionId
      rw [runningInSession_eq same, runningInSession_eq sameNext, next_eq]
      apply countP_upsertWorkflowTask_le
      intro stored written
      exact decide_eq_false fun counts => stopped (written.status.symm.trans counts.1)
  | claimed workflowId taskId nowUnixMs newAttempt perWorkflow perSession sessionId _ inWorkflow
      inSession _ tasks =>
    rcases allowed with ⟨perWorkflow_eq, perSession_eq, claims⟩
    subst perWorkflow_eq perSession_eq
    have workflow : ∃ row ∈ tables.workflows,
        row.workflowId = workflowId ∧ row.sessionId = sessionId := by
      rcases claims.workflow with ⟨copy, member, sameId, session⟩
      rcases List.mem_map.mp (copies.workflows copy member) with ⟨row, there, identity⟩
      have parts := Prod.mk.inj identity
      exact ⟨row, there, parts.1.trans sameId, (Prod.mk.inj parts.2).1.trans session⟩
    exact within.claimed keyed same sameNext workflow inWorkflow inSession tasks
  | cancelled workflowId taskId nowUnixMs error resultJson tasks =>
    apply within.of_le
    · intro other
      rw [Store.runningInWorkflow, tasks]
      apply countP_updateQueued_le
      intro row _ _
      exact decide_eq_false fun counts => nomatch counts.2
    · intro sessionId
      rw [runningInSession_eq same, runningInSession_eq sameNext, tasks]
      apply countP_updateQueued_le
      intro row _ _
      exact decide_eq_false fun counts => nomatch counts.1

theorem withinLimits_of_trace (keyed : Keyed tables) (start : WithinLimits engine tables)
    (trace : DaemonTrace engine tables events store) : WithinLimits engine store := by
  induction trace with
  | nil => exact start
  | @cons events store next thread call response earlier allowed effect induction =>
    have before := identities_of_trace keyed earlier
    have copies := before.2 thread
    exact induction.effect keyed before.1 (before.1.effect keyed copies allowed effect) copies
      allowed effect

theorem recovered_stopped {nowUnixMs : Int}
    (member : row ∈ (tables.recoverInflightWorkflows nowUnixMs).tasks) : row.status ≠ .running := by
  rcases List.mem_map.mp member with ⟨stored, _, recovered⟩
  subst recovered
  split
  · exact fun impossible => nomatch impossible
  · next stopped => exact stopped

theorem Keyed.recovered (keyed : Keyed tables) (nowUnixMs : Int) :
    Keyed (tables.recoverInflightWorkflows nowUnixMs) where
  workflows := by
    have ids : (tables.recoverInflightWorkflows nowUnixMs).workflows.map WorkflowRow.workflowId =
        tables.workflows.map WorkflowRow.workflowId := by
      rw [Store.recoverInflightWorkflows, List.map_map]
      apply List.map_congr_left
      intro row _
      rw [Function.comp_apply]
      split <;> rfl
    rw [ids]
    exact keyed.workflows
  tasks := by
    have keys : (tables.recoverInflightWorkflows nowUnixMs).tasks.map WorkflowTaskRow.key =
        tables.tasks.map WorkflowTaskRow.key := by
      rw [Store.recoverInflightWorkflows, List.map_map]
      apply List.map_congr_left
      intro row _
      rw [Function.comp_apply]
      split <;> rfl
    rw [keys]
    exact keyed.tasks

theorem withinLimits_recovered (engine : Engine) (tables : Store) (nowUnixMs : Int) :
    WithinLimits engine (tables.recoverInflightWorkflows nowUnixMs) where
  inWorkflow := by
    intro workflowId limited
    have none_runs :
        (tables.recoverInflightWorkflows nowUnixMs).runningInWorkflow workflowId = 0 := by
      apply List.countP_eq_zero.mpr
      intro row member counts
      exact recovered_stopped member (of_decide_eq_true counts).2
    omega
  inSession := by
    intro sessionId _ limited
    have none_runs :
        (tables.recoverInflightWorkflows nowUnixMs).runningInSession sessionId = 0 := by
      apply List.countP_eq_zero.mpr
      intro row member counts
      exact recovered_stopped member (of_decide_eq_true counts).1
    omega

/-- In every run from a restart on, no two workers execute one task at a time,
and the running tasks of every workflow and every session are within the limits. -/
theorem claims_exclude_within_limits (engine : Engine) {tables : Store} (keyed : Keyed tables)
    (nowUnixMs : Int) {events : List DaemonEvent} {state : DaemonState}
    (run : DaemonRun engine (tables.recoverInflightWorkflows nowUnixMs) events state) :
    (∀ key left right, Executes engine left key events → Executes engine right key events →
      left = right) ∧
    (∀ workflowId, 0 < engine.maxInflightPerWorkflow →
      (state.store.runningInWorkflow workflowId : Int) ≤ engine.maxInflightPerWorkflow) ∧
    (∀ sessionId, sessionId ≠ [] → 0 < engine.maxInflightPerSession →
      (state.store.runningInSession sessionId : Int) ≤ engine.maxInflightPerSession) := by
  have trace := daemonTrace_of_run run
  have within := withinLimits_of_trace (keyed.recovered nowUnixMs)
    (withinLimits_recovered engine tables nowUnixMs) trace
  exact ⟨(exclusive_of_trace trace).single, within.inWorkflow, within.inSession⟩

def limitedEngine : Engine :=
  { sampleEngine with maxInflightPerWorkflow := 1, maxInflightPerSession := 1 }

theorem keyed_sampleTables : Keyed sampleTables :=
  ⟨by decide, by decide⟩

/-- Two workers have listed the task; the first has claimed it, and the claim of
the second fails. -/
def claimTwice : List (SharedStore.Move Operation Outside) :=
  [.start .workerTurn, .start .workerTurn] ++
    (List.replicate 5 [.advance 0 {}, .advance 1 {}]).flatten ++ [.advance 0 {}, .advance 1 {}]

theorem claims_exclude_within_limits_sample :
    (recordedRun limitedEngine (sampleTables.recoverInflightWorkflows 1)
      claimTwice).2.store.runningInWorkflow sampleWorkflow = 1 ∧
    ((recordedRun limitedEngine (sampleTables.recoverInflightWorkflows 1)
      claimTwice).2.store.runningInWorkflow sampleWorkflow : Int) ≤ 1 :=
  ⟨by decide, (claims_exclude_within_limits limitedEngine keyed_sampleTables 1
    (run_recordedRun limitedEngine _ claimTwice)).2.1 sampleWorkflow (by decide)⟩

end AgentC.Workflow
