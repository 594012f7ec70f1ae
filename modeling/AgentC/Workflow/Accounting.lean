import AgentC.Workflow.Attempts

/-! # Accounting of resources

A worker adds the resources of an attempt to those in the copy of the task it
has claimed. No attempt is lost as long as that copy is current. -/

namespace AgentC.Workflow

inductive Counter
  | toolCallsTotal
  | stepsExecuted
  | elapsedMs
  | promptTokens
  | completionTokens
  | totalTokens
deriving DecidableEq, Repr

def Usage.counter (usage : Usage) : Counter → Int
  | .toolCallsTotal => usage.toolCallsTotal
  | .stepsExecuted => usage.stepsExecuted
  | .elapsedMs => usage.elapsedMs
  | .promptTokens => usage.promptTokens
  | .completionTokens => usage.completionTokens
  | .totalTokens => usage.totalTokens

theorem Usage.ext_counter {left right : Usage}
    (same : ∀ counter, left.counter counter = right.counter counter) : left = right := by
  cases left
  cases right
  rw [Usage.mk.injEq]
  exact ⟨same .toolCallsTotal, same .stepsExecuted, same .elapsedMs, same .promptTokens,
    same .completionTokens, same .totalTokens⟩

@[simp] theorem Usage.combine_counter (operation : Int → Int → Int) (left right : Usage)
    (counter : Counter) :
    (Usage.combine operation left right).counter counter =
      operation (left.counter counter) (right.counter counter) := by
  cases counter <;> rfl

@[simp] theorem Usage.empty_counter (counter : Counter) : ({} : Usage).counter counter = 0 := by
  cases counter <;> rfl

/-- Every counter is what a signed column can hold, and not negative. -/
def Usage.InRange (usage : Usage) : Prop :=
  ∀ counter, 0 ≤ usage.counter counter ∧ usage.counter counter ≤ int64Max

def Usage.clamped (usage : Usage) : Usage :=
  Usage.combine max {} usage

/-- The resources that the recorded attempts of a task reported, the latest
first. An attempt that is cancelled before it runs reports none. -/
def recordedUsage (engine : Engine) (key : Bytes × Bytes) : List DaemonEvent → List Usage
  | [] => []
  | event :: earlier =>
    match writeOf event.call event.response, (knownBy engine event.thread earlier).outcome with
    | some row, some outcome =>
      if row.key = key then outcome.usage.clamped :: recordedUsage engine key earlier
      else recordedUsage engine key earlier
    | _, _ => recordedUsage engine key earlier

/-- Resources added up, up to what a counter can hold. -/
def charged (before : Usage) : List Usage → Usage
  | [] => before
  | usage :: earlier => Usage.combine saturatingAdd (charged before earlier) usage

def summed (before : Usage) : List Usage → Usage
  | [] => before
  | usage :: earlier => Usage.combine (· + ·) (summed before earlier) usage

theorem saturatingAdd_bounds {left : Int} (bounded : left ≤ int64Max) (right : Int) :
    left ≤ saturatingAdd left right ∧ saturatingAdd left right ≤ int64Max := by
  rw [saturatingAdd]
  split
  · exact ⟨le_refl left, bounded⟩
  · split
    · exact ⟨bounded, le_refl _⟩
    · omega

theorem saturatingAdd_eq {left right : Int} (nonnegative : 0 ≤ right)
    (fits : left + right ≤ int64Max) : saturatingAdd left right = left + right := by
  rw [saturatingAdd]
  split
  · omega
  · rw [if_neg]
    omega

theorem clamped_nonnegative (usage : Usage) (counter : Counter) :
    0 ≤ usage.clamped.counter counter := by
  rw [Usage.clamped, Usage.combine_counter, Usage.empty_counter]
  exact le_max_left 0 _

variable {engine : Engine} {key : Bytes × Bytes} {events : List DaemonEvent} {usage before : Usage}

theorem recordedUsage_nonnegative (member : usage ∈ recordedUsage engine key events)
    (counter : Counter) : 0 ≤ usage.counter counter := by
  induction events with
  | nil => exact nomatch member
  | cons event earlier induction =>
    rw [recordedUsage] at member
    split at member
    · split at member
      · rcases List.mem_cons.mp member with new | old
        · rw [new]
          exact clamped_nonnegative _ counter
        · exact induction old
      · exact induction member
    · exact induction member

theorem charged_inRange (start : before.InRange) (usages : List Usage) :
    (charged before usages).InRange := by
  induction usages with
  | nil => exact start
  | cons usage usages induction =>
    intro counter
    have bounds := saturatingAdd_bounds (induction counter).2 (usage.counter counter)
    rw [charged, Usage.combine_counter]
    exact ⟨le_trans (induction counter).1 bounds.1, bounds.2⟩

theorem charged_mono (start : before.InRange) (usage : Usage) (usages : List Usage)
    (counter : Counter) : (charged before usages).counter counter ≤
      (charged before (usage :: usages)).counter counter := by
  rw [charged, Usage.combine_counter]
  exact (saturatingAdd_bounds (charged_inRange start usages counter).2 _).1

theorem summed_mono {usages : List Usage} {counter : Counter}
    (nonnegative : 0 ≤ usage.counter counter) :
    (summed before usages).counter counter ≤ (summed before (usage :: usages)).counter counter := by
  rw [summed, Usage.combine_counter]
  omega

theorem charged_eq_summed {usages : List Usage}
    (nonnegative : ∀ usage ∈ usages, ∀ counter, 0 ≤ usage.counter counter)
    (fits : ∀ counter, (summed before usages).counter counter ≤ int64Max) :
    charged before usages = summed before usages := by
  induction usages with
  | nil => rfl
  | cons usage usages induction =>
    have here := nonnegative usage (List.mem_cons_self ..)
    have earlier : charged before usages = summed before usages := by
      apply induction
      · intro other member
        exact nonnegative other (List.mem_cons_of_mem usage member)
      · intro counter
        exact le_trans (summed_mono (here counter)) (fits counter)
    apply Usage.ext_counter
    intro counter
    have fitting := fits counter
    rw [summed, Usage.combine_counter] at fitting
    rw [charged, summed, Usage.combine_counter, Usage.combine_counter, earlier]
    exact saturatingAdd_eq (here counter) fitting

theorem unrun_of_trace {tables store : Store} (trace : DaemonTrace engine tables events store)
    (thread : Nat) : (knownBy engine thread events).claim = none →
      (knownBy engine thread events).outcome = none := by
  apply SharedStore.Trace.knowledge (daemon engine)
    (fun known => known.claim = none → known.outcome = none) _ _ trace
  · intro known call response store next before allowed effect
    cases call with
    | runTask =>
      intro unclaimed
      rcases allowed.claimed with ⟨claim, _, claimed, _⟩
      rw [show known.claim = none from unclaimed] at claimed
      exact nomatch claimed
    | claimWorkflowTaskBudgeted workflowId taskId nowUnixMs newAttempt perWorkflow perSession
        sessionId =>
      cases response with
      | false => exact before
      | true => exact fun impossible => nomatch impossible
    | _ => exact before
  · intro _
    rfl

/-- What the attempts of a task recorded so far have used. -/
def totalOf (engine : Engine) (task : WorkflowTaskRow) (events : List DaemonEvent) : Usage :=
  charged task.cumulative (recordedUsage engine task.key events)

theorem totalOf_inRange {task : WorkflowTaskRow} (range : task.cumulative.InRange)
    (events : List DaemonEvent) : (totalOf engine task events).InRange :=
  charged_inRange range _

theorem present_of_trace {tables store : Store} {task : WorkflowTaskRow} (keyed : Keyed tables)
    (trace : DaemonTrace engine tables events store) (member : task ∈ tables.tasks) :
    ∃ row ∈ store.tasks, row.key = task.key := by
  have known := List.mem_map_of_mem (f := WorkflowTaskRow.identity) member
  rw [← (identities_of_trace keyed trace).1.tasks] at known
  rcases List.mem_map.mp known with ⟨row, there, identity⟩
  exact ⟨row, there, congrArg TaskIdentity.key identity⟩

/-- The stored row has the resources of the recorded attempts, no copy has more,
and a copy that a claim was made from has as many. -/
structure Charged (engine : Engine) (task : WorkflowTaskRow) (events : List DaemonEvent)
    (store : Store) : Prop where
  stored : ∀ row ∈ store.tasks, row.key = task.key → row.cumulative = totalOf engine task events
  listed : ∀ thread, ∀ copy ∈ (knownBy engine thread events).tasks, copy.key = task.key →
    ∀ counter, copy.cumulative.counter counter ≤ (totalOf engine task events).counter counter
  claimed : ∀ thread claim, HoldsClaim engine thread claim events → claim.key = task.key →
    ∀ copy, claim.From copy → copy.cumulative = totalOf engine task events

section Charging

variable {engine : Engine} {tables store next : Store} {task : WorkflowTaskRow}
  {events : List DaemonEvent} {caller : Nat} {call : Call} {response : Response call}

variable {total : Usage} {row : WorkflowTaskRow}

/-- A call that records no attempt of the task, claims it from current copies
only and leaves its stored resources as they are. -/
theorem Charged.other (charged : Charged engine task events store)
    (trace : DaemonTrace engine tables (⟨caller, call, response, store, next⟩ :: events) next)
    (effect : Effect call store response next)
    (unrecorded : recordedUsage engine task.key (⟨caller, call, response, store, next⟩ :: events) =
      recordedUsage engine task.key events)
    (claims : ∀ attempt, claimOf call response = some (task.key, attempt) →
      ∀ copy ∈ (knownBy engine caller events).tasks, copy.key = task.key →
        copy.status = .queued → copy.cumulative = totalOf engine task events)
    (stored : ∀ row ∈ next.tasks, row.key = task.key →
      row.cumulative = totalOf engine task events) :
    Charged engine task (⟨caller, call, response, store, next⟩ :: events) next := by
  have same : totalOf engine task (⟨caller, call, response, store, next⟩ :: events) =
      totalOf engine task events := by
    rw [totalOf, unrecorded, totalOf]
  constructor
  · rw [same]
    exact stored
  · rw [same]
    intro thread copy member sameKey counter
    rcases listed_cons member effect with ⟨_, held, there, read⟩ | ⟨_, old⟩
    · rw [read] at sameKey ⊢
      exact le_of_eq (congrArg (Usage.counter · counter) (charged.stored held there sameKey))
    · exact charged.listed thread copy old sameKey counter
  · rw [same]
    intro thread claim holds sameKey copy from_
    rcases holdsClaim_cons holds with ⟨own, claimed, listing⟩ | ⟨earlier, _⟩
    · rw [sameKey] at claimed
      have copyKey : copy.key = task.key := by
        rw [← sameKey, Claim.key, WorkflowTaskRow.key, from_.taskId,
          (fromListings_of_trace trace thread).claim claim holds.1 copy from_.listed]
      have member := from_.listed
      rw [listing] at member
      exact claims _ claimed copy member copyKey from_.queued
    · exact charged.claimed thread claim earlier sameKey copy from_

theorem merged_cumulative (range : total.InRange)
    (bounded : ∀ counter, usage.counter counter ≤ total.counter counter) :
    Usage.combine max usage.clamped total = total := by
  apply Usage.ext_counter
  intro counter
  have nonnegative := (range counter).1
  have below := bounded counter
  simp only [Usage.clamped, Usage.combine_counter, Usage.empty_counter]
  omega

theorem merged_saturated (range : total.InRange) (usage : Usage) :
    Usage.combine max (Usage.combine saturatingAdd total usage).clamped total =
      Usage.combine saturatingAdd total usage := by
  apply Usage.ext_counter
  intro counter
  have nonnegative := (range counter).1
  have bounds := saturatingAdd_bounds (range counter).2 (usage.counter counter)
  simp only [Usage.clamped, Usage.combine_counter, Usage.empty_counter]
  omega

theorem clamped_eq (range : usage.InRange) : usage.clamped = usage := by
  apply Usage.ext_counter
  intro counter
  rw [Usage.clamped, Usage.combine_counter, Usage.empty_counter]
  exact max_eq_right (range counter).1

theorem cumulativeBehind_clamped (range : total.InRange) (outcome : RunOutcome) :
    cumulativeBehind total (some outcome) =
      Usage.combine saturatingAdd total outcome.usage.clamped := by
  change Usage.combine saturatingAdd total.clamped outcome.usage.clamped = _
  rw [clamped_eq range]

theorem recordedUsage_unwritten
    (unwritten : ∀ row, writeOf call response = some row → row.key = key →
      (knownBy engine caller events).outcome = none) :
    recordedUsage engine key (⟨caller, call, response, store, next⟩ :: events) =
      recordedUsage engine key events := by
  rw [recordedUsage]
  split
  · next row outcome written ran =>
    rw [if_neg]
    intro same
    rw [show (knownBy engine caller events).outcome = some outcome from ran] at unwritten
    exact nomatch unwritten row written same
  · rfl

theorem cumulative_of_write {stored : WorkflowTaskRow} {after : Usage}
    (named : row.workflowId ≠ [] ∧ row.taskId ≠ [])
    (present : ∃ old ∈ store.tasks, old.key = row.key)
    (held : ∀ old ∈ store.tasks, old.key = row.key → old.cumulative = before)
    (merged : Usage.combine max row.cumulative.clamped before = after)
    (member : stored ∈ (store.upsertWorkflowTask row).2.tasks) (sameKey : stored.key = row.key) :
    stored.cumulative = after := by
  rcases mem_upsertWorkflowTask_cases named member with ⟨old, there, oldKey, new⟩ | ⟨absent, _⟩ |
    ⟨_, other⟩
  · rw [new, ← merged, ← held old there oldKey]
    rfl
  · rcases present with ⟨old, there, oldKey⟩
    exact absurd oldKey (absent old there)
  · exact absurd sameKey other

theorem Charged.record {outcome : RunOutcome} (charged : Charged engine task events store)
    (range : task.cumulative.InRange) (trace : DaemonTrace engine tables events store)
    (effect : Effect (.upsertWorkflowTask row) store true (store.upsertWorkflowTask row).2)
    (executes : Executes engine caller task.key events) (sameKey : row.key = task.key)
    (ran : (knownBy engine caller events).outcome = some outcome)
    (stored : ∀ behind ∈ (store.upsertWorkflowTask row).2.tasks, behind.key = task.key →
      behind.cumulative = Usage.combine saturatingAdd (totalOf engine task events)
        outcome.usage.clamped) : Charged engine task
      (⟨caller, .upsertWorkflowTask row, true, store, (store.upsertWorkflowTask row).2⟩ :: events)
      (store.upsertWorkflowTask row).2 := by
  have more : recordedUsage engine task.key
      (⟨caller, .upsertWorkflowTask row, true, store, (store.upsertWorkflowTask row).2⟩ :: events) =
      outcome.usage.clamped :: recordedUsage engine task.key events := by
    rw [recordedUsage, ran]
    exact if_pos sameKey
  constructor
  · intro behind member same
    rw [stored behind member same, totalOf, totalOf, more]
    rfl
  · intro thread copy member same counter
    rw [totalOf, more]
    apply le_trans _ (charged_mono range _ _ counter)
    rcases listed_cons member effect with ⟨_, held, there, read⟩ | ⟨_, old⟩
    · rw [read] at same ⊢
      exact le_of_eq (congrArg (Usage.counter · counter) (charged.stored held there same))
    · exact charged.listed thread copy old same counter
  · intro thread claim holds same
    rcases holdsClaim_cons holds with ⟨_, impossible, _⟩ | ⟨earlier, quiet⟩
    · exact nomatch impossible
    · have own := (exclusive_of_trace trace).single task.key caller thread executes
        ⟨claim, earlier, same⟩
      exact absurd rfl (quiet own row)

theorem Charged.unrun (charged : Charged engine task events store) (keyed : Keyed tables)
    (member : task ∈ tables.tasks) (range : task.cumulative.InRange)
    (trace : DaemonTrace engine tables events store)
    (writes : WritesTask (knownBy engine caller events) row)
    (effect : Effect (.upsertWorkflowTask row) store true (store.upsertWorkflowTask row).2)
    (named : row.workflowId ≠ [] ∧ row.taskId ≠ []) (sameKey : row.key = task.key)
    (unrun : (knownBy engine caller events).outcome = none) (bounded : ∀ counter,
      row.cumulative.counter counter ≤ (totalOf engine task events).counter counter) :
    Charged engine task
      (⟨caller, .upsertWorkflowTask row, true, store, (store.upsertWorkflowTask row).2⟩ :: events)
      (store.upsertWorkflowTask row).2 := by
  have extended : DaemonTrace engine tables (⟨caller, .upsertWorkflowTask row, true, store,
      (store.upsertWorkflowTask row).2⟩ :: events) (store.upsertWorkflowTask row).2 :=
    .cons trace writes effect
  apply charged.other extended effect
  · exact recordedUsage_unwritten fun _ _ _ => unrun
  · intro attempt impossible
    exact nomatch impossible
  · rw [← sameKey]
    intro behind there behindKey
    apply cumulative_of_write named _ _ (merged_cumulative (totalOf_inRange range events) bounded)
      there behindKey
    · rw [sameKey]
      exact present_of_trace keyed trace member
    · rw [sameKey]
      exact charged.stored

theorem Charged.write {row : WorkflowTaskRow} (charged : Charged engine task events store)
    (keyed : Keyed tables) (member : task ∈ tables.tasks) (range : task.cumulative.InRange)
    (trace : DaemonTrace engine tables events store)
    (writes : WritesTask (knownBy engine caller events) row)
    (effect : Effect (.upsertWorkflowTask row) store true (store.upsertWorkflowTask row).2)
    (named : row.workflowId ≠ [] ∧ row.taskId ≠ []) (sameKey : row.key = task.key) :
    Charged engine task
      (⟨caller, .upsertWorkflowTask row, true, store, (store.upsertWorkflowTask row).2⟩ :: events)
      (store.upsertWorkflowTask row).2 := by
  have allowed := writes
  cases claim_eq : (knownBy engine caller events).claim with
  | none =>
    rw [WritesTask, claim_eq] at writes
    rcases writes with ⟨copy, listed, cancels⟩
    apply charged.unrun keyed member range trace allowed effect named sameKey
    · exact unrun_of_trace trace caller claim_eq
    · intro counter
      rw [cancels.cumulative]
      apply charged.listed caller copy listed
      rw [← sameKey, WorkflowTaskRow.key, WorkflowTaskRow.key, cancels.same.workflowId,
        cancels.same.taskId]
  | some claim =>
    have holds : HoldsClaim engine caller claim events := by
      rw [WritesTask, claim_eq] at writes
      exact ⟨claim_eq, writes.1⟩
    rcases holds.writes trace allowed with ⟨own, copy, from_, records⟩
    have claimKey : claim.key = task.key := own.symm.trans sameKey
    have cumulative := records.cumulative
    rw [charged.claimed caller claim holds claimKey copy from_] at cumulative
    cases ran : (knownBy engine caller events).outcome with
    | none =>
      rw [ran] at cumulative
      apply charged.unrun keyed member range trace allowed effect named sameKey ran
      intro counter
      rw [cumulative]
      exact le_refl _
    | some outcome =>
      rw [ran, cumulativeBehind_clamped (totalOf_inRange range events)] at cumulative
      apply charged.record range trace effect ⟨claim, holds, claimKey⟩ sameKey ran
      rw [← sameKey]
      intro behind there behindKey
      apply cumulative_of_write named _ _ _ there behindKey
      · exact totalOf engine task events
      · rw [sameKey]
        exact present_of_trace keyed trace member
      · rw [sameKey]
        exact charged.stored
      · rw [cumulative]
        exact merged_saturated (totalOf_inRange range events) _

theorem Charged.writeOther (charged : Charged engine task events store)
    (trace : DaemonTrace engine tables events store)
    (writes : WritesTask (knownBy engine caller events) row)
    (effect : Effect (.upsertWorkflowTask row) store true (store.upsertWorkflowTask row).2)
    (named : row.workflowId ≠ [] ∧ row.taskId ≠ []) (otherKey : row.key ≠ task.key) :
    Charged engine task
      (⟨caller, .upsertWorkflowTask row, true, store, (store.upsertWorkflowTask row).2⟩ :: events)
      (store.upsertWorkflowTask row).2 := by
  have extended : DaemonTrace engine tables (⟨caller, .upsertWorkflowTask row, true, store,
      (store.upsertWorkflowTask row).2⟩ :: events) (store.upsertWorkflowTask row).2 :=
    .cons trace writes effect
  apply charged.other extended effect
  · apply recordedUsage_unwritten
    intro written same key
    cases same
    exact absurd key otherKey
  · intro attempt impossible
    exact nomatch impossible
  · intro stored there storedKey
    rcases mem_upsertWorkflowTask named there with written | ⟨old, _⟩
    · exact absurd (written.key.symm.trans storedKey) otherKey
    · exact charged.stored stored old storedKey

theorem cumulative_of_updateQueued {update : WorkflowTaskRow → WorkflowTaskRow}
    (tasks : next.tasks = store.tasks.map (updateQueued key update))
    (keepsKey : ∀ row, (update row).key = row.key)
    (keeps : ∀ row, (update row).cumulative = row.cumulative)
    (stored : ∀ row ∈ store.tasks, row.key = task.key → row.cumulative = total) :
    ∀ row ∈ next.tasks, row.key = task.key → row.cumulative = total := by
  intro row member sameKey
  rw [tasks] at member
  rcases mem_updateQueued member with ⟨old, there, _, _, updated⟩ | ⟨old, _⟩
  · rw [updated, keepsKey] at sameKey
    rw [updated, keeps]
    exact stored old there sameKey
  · exact stored row old sameKey

theorem charged_of_trace (keyed : Keyed tables) (member : task ∈ tables.tasks)
    (range : task.cumulative.InRange) (trace : DaemonTrace engine tables events store)
    (current : Throughout ClaimsCurrent events) : Charged engine task events store := by
  induction trace with
  | nil =>
    constructor
    · intro row there sameKey
      rw [keyed.task_eq there member sameKey]
      rfl
    · intro thread copy impossible
      exact nomatch impossible
    · intro thread claim holds
      exact nomatch holds.1
  | @cons events store next caller call response earlier allowed effect induction =>
    have charged := induction current.2
    have extended : DaemonTrace engine tables (⟨caller, call, response, store, next⟩ :: events)
        next := .cons earlier allowed effect
    cases taskChange_of_effect effect with
    | untouched unclaimed unwritten same =>
      apply charged.other extended effect
      · apply recordedUsage_unwritten
        intro row written
        rw [unwritten] at written
        exact nomatch written
      · intro attempt claimed
        rw [unclaimed] at claimed
        exact nomatch claimed
      · rw [same]
        exact charged.stored
    | written row named next_eq =>
      subst next_eq
      by_cases sameKey : row.key = task.key
      · exact charged.write keyed member range earlier allowed effect named sameKey
      · exact charged.writeOther earlier allowed effect named sameKey
    | claimed workflowId taskId nowUnixMs newAttempt perWorkflow perSession sessionId found _ _ _
        tasks =>
      apply charged.other extended effect
      · apply recordedUsage_unwritten
        intro row impossible
        exact nomatch impossible
      · intro attempt claimed copy listed copyKey queued
        rcases found with ⟨row, there, rowKey, rowQueued⟩
        have fresh := current.1 ((workflowId, taskId), newAttempt) rfl
        have own : (workflowId, taskId) = task.key := by
          cases claimed
          rfl
        rw [own, ← copyKey] at fresh rowKey
        have holds : HoldsQueued engine caller copy events :=
          ⟨allowed.2.2.unclaimed, listed, queued⟩
        have same := current_of_trace keyed earlier holds fresh row there rowKey rowQueued
        rw [← same]
        exact charged.stored row there (rowKey.trans copyKey)
      · exact cumulative_of_updateQueued tasks (fun _ => rfl) (fun _ => rfl) charged.stored
    | cancelled workflowId taskId nowUnixMs error resultJson tasks =>
      apply charged.other extended effect
      · apply recordedUsage_unwritten
        intro row impossible
        exact nomatch impossible
      · intro attempt impossible
        exact nomatch impossible
      · exact cumulative_of_updateQueued tasks (fun _ => rfl) (fun _ => rfl) charged.stored

end Charging

/-- In every run in which no claim is made from a listing in front of a
requeueing of its task: the stored resources of a task are those of its recorded
attempts, added up to what the counters hold, and so their sum if that fits. -/
theorem cumulative_sums_attempts (engine : Engine) {tables : Store} (keyed : Keyed tables)
    {task : WorkflowTaskRow} (member : task ∈ tables.tasks) (range : task.cumulative.InRange)
    {events : List DaemonEvent} {state : DaemonState}
    (run : DaemonRun engine tables events state) (current : Throughout ClaimsCurrent events)
    {row : WorkflowTaskRow} (stored : row ∈ state.store.tasks) (sameKey : row.key = task.key) :
    row.cumulative = charged task.cumulative (recordedUsage engine task.key events) ∧
      ((∀ counter, (summed task.cumulative (recordedUsage engine task.key events)).counter counter ≤
          int64Max) →
        row.cumulative = summed task.cumulative (recordedUsage engine task.key events)) := by
  have trace := daemonTrace_of_run run
  have total := (charged_of_trace keyed member range trace current).stored row stored sameKey
  refine ⟨total, ?_⟩
  intro fits
  rw [total, totalOf]
  exact charged_eq_summed (fun usage there => recordedUsage_nonnegative there) fits

def failingWithCalls : Outside :=
  { failing with outcome := { ok := false, usage := { toolCallsTotal := 3 } } }

def retryWithCalls : List (SharedStore.Move Operation Outside) :=
  .start .workerTurn :: List.replicate 13 (.advance 0 { failingWithCalls with nowUnixMs := 1 }) ++
    .start .workerTurn :: List.replicate 15 (.advance 1 failingWithCalls)

theorem cumulative_sums_attempts_sample :
    recordedUsage sampleEngine retryTask.key
      (recordedRun sampleEngine retryTables retryWithCalls).1 =
        [{ toolCallsTotal := 3 }, { toolCallsTotal := 3 }] ∧
    ∀ row ∈ (recordedRun sampleEngine retryTables retryWithCalls).2.store.tasks,
      row.key = retryTask.key →
        row.cumulative = summed retryTask.cumulative
          (recordedUsage sampleEngine retryTask.key
            (recordedRun sampleEngine retryTables retryWithCalls).1) :=
  ⟨by decide, fun row stored sameKey =>
    (cumulative_sums_attempts sampleEngine keyed_retryTables (List.mem_singleton.mpr rfl)
      (by intro counter; cases counter <;> decide)
      (run_recordedRun sampleEngine _ retryWithCalls) (by decide) stored sameKey).2
      (by intro counter; cases counter <;> decide)⟩

/-- A worker lists the task, and a second one executes it and puts it back into
the queue. The first worker then claims it from its listing and executes it. -/
def chargedBehindListing : List (SharedStore.Move Operation Outside) :=
  .start .workerTurn :: List.replicate 5 (.advance 0 failingWithCalls) ++
    .start .workerTurn :: List.replicate 13 (.advance 1 failingWithCalls) ++
    List.replicate 8 (.advance 0 failingWithCalls)

/-- The resources of an attempt are lost. -/
theorem cumulative_loses_attempt :
    ∃ (events : List DaemonEvent) (state : DaemonState),
      DaemonRun sampleEngine retryTables events state ∧
      ∃ row ∈ state.store.tasks, row.key = retryTask.key ∧
        row.cumulative ≠ summed retryTask.cumulative
          (recordedUsage sampleEngine retryTask.key events) :=
  ⟨_, _, run_recordedRun sampleEngine retryTables chargedBehindListing, by decide⟩

end AgentC.Workflow
