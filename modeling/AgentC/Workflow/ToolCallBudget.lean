import AgentC.Workflow.Accounting
import AgentC.Workflow.RunBudget

/-! # The budget of tool calls

What is left of the budget of a workflow is computed from a listing of its
tasks in front of each run. It holds as long as every run behind the listing is
in it. -/

namespace AgentC.Workflow

/-! ## Runs and their tool calls -/

def runOf : (call : Call) → Response call → Option (WorkflowRow × WorkflowTaskRow × RunOutcome)
  | .runTask workflow task, outcome => some (workflow, task, outcome)
  | _, _ => none

def RunsTaskOf (workflowId : Bytes) (event : DaemonEvent) : Prop :=
  ∃ run ∈ runOf event.call event.response, run.2.1.workflowId = workflowId

instance (workflowId : Bytes) : DecidablePred (RunsTaskOf workflowId) := fun event =>
  inferInstanceAs (Decidable
    (∃ run ∈ runOf event.call event.response, run.2.1.workflowId = workflowId))

/-- The thread has run a task of the workflow and not stored its result since. -/
def Outstanding (workflowId : Bytes) (thread : Nat) : List DaemonEvent → Prop
  | [] => False
  | event :: earlier =>
    if event.thread = thread ∧ (writeOf event.call event.response).isSome then False
    else event.thread = thread ∧ RunsTaskOf workflowId event ∨
      Outstanding workflowId thread earlier

/-- When the thread has listed tasks last no run of the workflow was
outstanding, and none has started since. -/
def Alone (workflowId : Bytes) (thread : Nat) : List DaemonEvent → Prop
  | [] => False
  | event :: earlier =>
    if event.thread = thread ∧ isListing event.call then
      ∀ other ∈ earlier, ¬Outstanding workflowId other.thread earlier
    else ¬RunsTaskOf workflowId event ∧ Alone workflowId thread earlier

instance (workflowId : Bytes) (thread : Nat) : DecidablePred (Outstanding workflowId thread) :=
  decideOutstanding
where
  decideOutstanding : (events : List DaemonEvent) →
      Decidable (Outstanding workflowId thread events)
    | [] => inferInstanceAs (Decidable False)
    | event :: earlier =>
      have := decideOutstanding earlier
      inferInstanceAs (Decidable
        (if event.thread = thread ∧ (writeOf event.call event.response).isSome then False
          else event.thread = thread ∧ RunsTaskOf workflowId event ∨
            Outstanding workflowId thread earlier))

instance (workflowId : Bytes) (thread : Nat) : DecidablePred (Alone workflowId thread) :=
  decideAlone
where
  decideAlone : (events : List DaemonEvent) → Decidable (Alone workflowId thread events)
    | [] => inferInstanceAs (Decidable False)
    | event :: earlier =>
      have := decideAlone earlier
      inferInstanceAs (Decidable
        (if event.thread = thread ∧ isListing event.call then
          ∀ other ∈ earlier, ¬Outstanding workflowId other.thread earlier
        else ¬RunsTaskOf workflowId event ∧ Alone workflowId thread earlier))

variable (engine : Engine)

def Engine.budgetedKind (task : WorkflowTaskRow) (tasks : List WorkflowTaskRow) : Option Bytes :=
  (engine.expandedKind task tasks).filter fun kind => kind ∉ unbudgetedKinds

/-- The tool calls of a run. Tasks that the limits do not matter for make none,
whatever they report. -/
def callsMade (tasks : List WorkflowTaskRow) (task : WorkflowTaskRow) (outcome : RunOutcome) : Int :=
  if (engine.budgetedKind task tasks).isSome then max 0 outcome.usage.toolCallsTotal else 0

def toolCallsMade (workflowId : Bytes) : List DaemonEvent → Int
  | [] => 0
  | event :: earlier =>
    match runOf event.call event.response with
    | some (_, task, outcome) =>
      if task.workflowId = workflowId then
        callsMade engine (knownBy engine event.thread earlier).tasks task outcome +
          toolCallsMade workflowId earlier
      else toolCallsMade workflowId earlier
    | none => toolCallsMade workflowId earlier

def KeepsToRequest (requests : WorkflowTaskRow → List WorkflowTaskRow → TaskRequest)
    (event : DaemonEvent) (earlier : List DaemonEvent) : Prop :=
  ∀ run ∈ runOf event.call event.response,
    let tasks := (knownBy engine event.thread earlier).tasks
    let limits := engine.workflowLimits run.1.specJson
    ∀ kind ∈ engine.budgetedKind run.2.1 tasks,
      RunAllows limits (remainingLimits limits (usageTotals tasks)) kind (requests run.2.1 tasks)
        run.2.2.usage.toolCallsTotal

/-- A run of a task of the workflow starts with a listing that has the result of
every other run. -/
def RunsAlone (workflowId : Bytes) (event : DaemonEvent) (earlier : List DaemonEvent) : Prop :=
  RunsTaskOf workflowId event →
    (knownBy engine event.thread earlier).tasks ≠ [] ∧ Alone workflowId event.thread earlier

instance (workflowId : Bytes) (event : DaemonEvent) (earlier : List DaemonEvent) :
    Decidable (RunsAlone engine workflowId event earlier) :=
  inferInstanceAs (Decidable (RunsTaskOf workflowId event →
    (knownBy engine event.thread earlier).tasks ≠ [] ∧ Alone workflowId event.thread earlier))

variable {engine}

section Outstanding

variable {workflowId : Bytes} {thread : Nat} {event : DaemonEvent} {earlier : List DaemonEvent}

theorem outstanding_cons (outstanding : Outstanding workflowId thread (event :: earlier)) :
    ¬(event.thread = thread ∧ (writeOf event.call event.response).isSome) ∧
      (event.thread = thread ∧ RunsTaskOf workflowId event ∨
        Outstanding workflowId thread earlier) := by
  rw [Outstanding] at outstanding
  split at outstanding
  · exact outstanding.elim
  · next unwritten => exact ⟨unwritten, outstanding⟩

theorem thread_of_outstanding (outstanding : Outstanding workflowId thread earlier) :
    ∃ event ∈ earlier, event.thread = thread := by
  induction earlier with
  | nil => exact outstanding.elim
  | cons event earlier induction =>
    rcases (outstanding_cons outstanding).2 with ⟨own, _⟩ | before
    · exact ⟨event, List.mem_cons_self .., own⟩
    · rcases induction before with ⟨other, member, same⟩
      exact ⟨other, List.mem_cons_of_mem event member, same⟩

theorem not_outstanding_of_alone (alone : Alone workflowId thread earlier) (other : Nat) :
    ¬Outstanding workflowId other earlier := by
  induction earlier with
  | nil => exact alone.elim
  | cons event earlier induction =>
    intro outstanding
    rcases outstanding_cons outstanding with ⟨_, outstanding⟩
    rw [Alone] at alone
    split at alone
    · next listing =>
      have quiet : ¬RunsTaskOf workflowId event := by
        rintro ⟨run, ran, _⟩
        have listingCall := listing.2
        rcases event with ⟨caller, call, response, before, after⟩
        cases call with
        | runTask => exact nomatch listingCall
        | _ => exact nomatch ran
      rcases outstanding with ⟨_, runs⟩ | before
      · exact quiet runs
      · rcases thread_of_outstanding before with ⟨last, member, same⟩
        rw [← same] at before
        exact alone last member before
    · rcases outstanding with ⟨_, runs⟩ | before
      · exact alone.1 runs
      · exact induction alone.2 before

end Outstanding

/-! ## Tool calls in the tables -/

def callsIn (workflowId : Bytes) (row : WorkflowTaskRow) : Int :=
  if row.workflowId = workflowId then max 0 row.cumulative.toolCallsTotal else 0

def recordedCalls (workflowId : Bytes) (tasks : List WorkflowTaskRow) : Int :=
  (tasks.map (callsIn workflowId)).sum

theorem callsIn_nonnegative (workflowId : Bytes) (row : WorkflowTaskRow) :
    0 ≤ callsIn workflowId row := by
  rw [callsIn]
  split
  · exact le_max_left 0 _
  · exact le_refl 0

variable {workflowId : Bytes} {row : WorkflowTaskRow} {call : Call} {task : WorkflowTaskRow}
variable {outcome : RunOutcome} {response : Response call}

theorem callsIn_mono {before after : WorkflowTaskRow} (same : after.workflowId = before.workflowId)
    (grows : before.cumulative.toolCallsTotal ≤ after.cumulative.toolCallsTotal) :
    callsIn workflowId before ≤ callsIn workflowId after := by
  rw [callsIn, callsIn, same]
  split
  · exact max_le_max_left 0 grows
  · exact le_refl 0

theorem callsIn_mergeTask {stored : WorkflowTaskRow}
    (here : Store.isTask row.workflowId row.taskId stored = true) : callsIn workflowId stored ≤
      callsIn workflowId (Store.mergeTask stored (Store.boundTask row)) := by
  apply callsIn_mono
  · exact (congrArg Prod.fst (isTask_iff.mp here)).symm
  · exact le_max_right _ _

theorem recordedCalls_mono {store next : Store} (effect : Effect call store response next) :
    recordedCalls workflowId store.tasks ≤ recordedCalls workflowId next.tasks := by
  have updated : ∀ key update, (∀ row : WorkflowTaskRow, (update row).workflowId = row.workflowId ∧
      (update row).cumulative = row.cumulative) →
      recordedCalls workflowId store.tasks ≤
        recordedCalls workflowId (store.tasks.map (updateQueued key update)) := by
    intro key update keeps
    rw [recordedCalls, recordedCalls, List.map_map]
    apply List.sum_le_sum
    intro row _
    rw [Function.comp_apply, updateQueued]
    split
    · exact callsIn_mono (keeps row).1 (le_of_eq (by rw [(keeps row).2]))
    · exact le_refl _
  cases taskChange_of_effect effect with
  | untouched _ _ same => rw [same]
  | written row named next_eq =>
    rw [next_eq, Store.upsertWorkflowTask, if_neg (not_or.mpr named)]
    split
    · rw [recordedCalls, recordedCalls, List.map_map]
      apply List.sum_le_sum
      intro stored _
      rw [Function.comp_apply]
      split
      · next here => exact callsIn_mergeTask here
      · exact le_refl _
    · have added := callsIn_nonnegative workflowId (Store.boundTask row)
      rw [recordedCalls, recordedCalls, List.map_append, List.sum_append, List.map_singleton,
        List.sum_singleton]
      omega
  | claimed workflowId taskId nowUnixMs newAttempt _ _ _ _ _ _ _ tasks =>
    rw [tasks]
    exact updated _ _ fun _ => ⟨rfl, rfl⟩
  | cancelled workflowId taskId nowUnixMs error resultJson tasks =>
    rw [tasks]
    exact updated _ _ fun _ => ⟨rfl, rfl⟩

def listedCalls (tasks : List WorkflowTaskRow) : Int :=
  (tasks.map fun task => max 0 task.cumulative.toolCallsTotal).sum

theorem listedCalls_listWorkflowTasks (store : Store) (workflowId : Bytes) :
    listedCalls (store.listWorkflowTasks workflowId) = recordedCalls workflowId store.tasks := by
  have sorted := ((store.tasks.filter fun row => row.workflowId = workflowId).perm_insertionSort
    Store.taskOrder).map fun task => max 0 task.cumulative.toolCallsTotal
  rw [listedCalls, Store.listWorkflowTasks, List.map_map]
  calc _ = ((store.tasks.filter fun row => row.workflowId = workflowId).map fun task =>
          max 0 task.cumulative.toolCallsTotal).sum := sorted.sum_eq
    _ = recordedCalls workflowId store.tasks := by
        rw [recordedCalls]
        induction store.tasks with
        | nil => rfl
        | cons row rows induction =>
          rw [List.filter_cons, List.map_cons, List.sum_cons, callsIn, ← induction]
          split
          · next here => rw [if_pos (of_decide_eq_true here), List.map_cons, List.sum_cons]
          · next other =>
            rw [if_neg fun here => other (decide_eq_true here), Int.zero_add]

theorem saturatingAdd_eq_min {left right : Int} (bounded : left ≤ int64Max)
    (nonnegative : 0 ≤ right) : saturatingAdd left right = min int64Max (left + right) := by
  rw [saturatingAdd]
  split
  · omega
  · split
    · omega
    · omega

theorem usageTotals_toolCallsTotal (tasks : List WorkflowTaskRow) :
    (usageTotals tasks).toolCallsTotal = min int64Max (listedCalls tasks) := by
  have totals : ∀ start : Usage, start.toolCallsTotal ≤ int64Max →
      (tasks.foldl (fun total task => Usage.combine saturatingAdd total
        (Usage.combine max {} task.cumulative)) start).toolCallsTotal =
      min int64Max (start.toolCallsTotal + listedCalls tasks) := by
    induction tasks with
    | nil =>
      intro start bounded
      rw [List.foldl_nil, listedCalls, List.map_nil, List.sum_nil, Int.add_zero,
        min_eq_right bounded]
    | cons task tasks induction =>
      intro start bounded
      have first : (Usage.combine saturatingAdd start
          (Usage.combine max {} task.cumulative)).toolCallsTotal =
          min int64Max (start.toolCallsTotal + max 0 task.cumulative.toolCallsTotal) :=
        saturatingAdd_eq_min bounded (le_max_left 0 _)
      have rest : 0 ≤ listedCalls tasks := List.sum_nonneg (by simp)
      have more : listedCalls (task :: tasks) =
          max 0 task.cumulative.toolCallsTotal + listedCalls tasks := List.sum_cons
      rw [List.foldl_cons, induction _ (by rw [first]; exact min_le_left _ _), first, more]
      omega
  have bounded : ({} : Usage).toolCallsTotal ≤ int64Max := by decide
  rw [usageTotals, totals {} bounded, Int.zero_add]

section Knowing

variable {tables store : Store} {events : List DaemonEvent} {workflowId : Bytes} {thread : Nat}

theorem Runs.specified {row workflow : WorkflowRow} (keyed : Keyed tables)
    (trace : DaemonTrace engine tables events store)
    (runs : Runs engine (knownBy engine thread events) row task)
    (member : workflow ∈ tables.workflows) (same : task.workflowId = workflow.workflowId) :
    (knownBy engine thread events).listed = workflow.workflowId ∧
      boundSpecJson row.specJson = boundSpecJson workflow.specJson := by
  rcases runs.claimed with ⟨claim, copy, claim_eq, listed, from_, sameTask⟩
  have claimId : claim.workflowId = workflow.workflowId := by
    rw [← same, sameTask.workflowId]
    exact ((fromListings_of_trace trace thread).claim claim claim_eq copy from_.listed).symm
  have rowId : row.workflowId = workflow.workflowId := by
    rcases runs.named with ⟨other, other_eq, named⟩
    rw [claim_eq] at other_eq
    cases other_eq
    rcases named with named | ⟨read, asked⟩
    · exact named.trans claimId
    · rw [read_of_trace trace thread row read, asked, claimId]
  refine ⟨listed.trans claimId, ?_⟩
  have known := ((identities_of_trace keyed trace).2 thread).workflows row runs.read
  rcases List.mem_map.mp known with ⟨first, there, identity⟩
  have firstId : first.workflowId = row.workflowId := congrArg Prod.fst identity
  rw [keyed.workflow_eq there member (firstId.trans rowId)] at identity
  exact (congrArg (fun parts => parts.2.2) identity).symm

theorem advance_claim {known : Knowledge} {claim : Claim} (allowed : MayCall engine known call)
    (claimed : known.claim = some claim) : (known.advance call response).claim = some claim := by
  cases call with
  | claimWorkflowTaskBudgeted workflowId taskId nowUnixMs newAttempt perWorkflow perSession
      sessionId =>
    have unclaimed : known.claim = none := allowed.2.2.unclaimed
    rw [unclaimed] at claimed
    exact nomatch claimed
  | _ => exact claimed

theorem advance_outcome {known : Knowledge} (allowed : MayCall engine known call)
    (ran : known.outcome = some outcome) :
    (known.advance call response).outcome = some outcome := by
  cases call with
  | claimWorkflowTaskBudgeted workflowId taskId nowUnixMs newAttempt perWorkflow perSession
      sessionId =>
    cases response with
    | false => exact ran
    | true => exact ran
  | runTask =>
    have unrun : known.outcome = none := allowed.first
    rw [unrun] at ran
    exact nomatch ran
  | _ => exact ran

theorem claimed_of_outstanding (trace : DaemonTrace engine tables events store)
    (outstanding : Outstanding workflowId thread events) :
    (∃ claim, (knownBy engine thread events).claim = some claim ∧ claim.workflowId = workflowId) ∧
      ∃ outcome, (knownBy engine thread events).outcome = some outcome := by
  induction trace with
  | nil => exact outstanding.elim
  | @cons events store next caller call response earlier allowed effect induction =>
    by_cases own : caller = thread
    · subst own
      rw [knownBy_cons_self]
      rcases (outstanding_cons outstanding).2 with ⟨_, run, ran, sameId⟩ | before
      · cases call with
        | runTask workflow task =>
          cases ran
          have runs : Runs engine (knownBy engine caller events) workflow task := allowed
          rcases runs.claimed with ⟨claim, copy, claim_eq, _, from_, same⟩
          refine ⟨⟨claim, claim_eq, ?_⟩, response, rfl⟩
          rw [← sameId, same.workflowId]
          exact ((fromListings_of_trace earlier caller).claim claim claim_eq copy
            from_.listed).symm
        | _ => exact nomatch ran
      · rcases induction before with ⟨⟨claim, claim_eq, sameId⟩, outcome, ran⟩
        exact ⟨⟨claim, advance_claim allowed claim_eq, sameId⟩, outcome,
          advance_outcome allowed ran⟩
    · rw [knownBy_cons_other own]
      rcases (outstanding_cons outstanding).2 with ⟨same, _⟩ | before
      · exact absurd same own
      · exact induction before

end Knowing

/-! ## Keeping to the budget -/

/-- The tool calls made are within the budget, and recorded but for those of the
one run that may be outstanding. -/
structure Budgeted (engine : Engine) (workflowId : Bytes) (budget : Int)
    (events : List DaemonEvent) (store : Store) : Prop where
  within : toolCallsMade engine workflowId events ≤ budget
  settled : (∀ thread, ¬Outstanding workflowId thread events) →
    toolCallsMade engine workflowId events ≤ recordedCalls workflowId store.tasks
  pending : ∀ thread outcome, Outstanding workflowId thread events →
    (knownBy engine thread events).outcome = some outcome →
      toolCallsMade engine workflowId events ≤
        recordedCalls workflowId store.tasks + max 0 outcome.usage.toolCallsTotal
  single : ∀ left right, Outstanding workflowId left events →
    Outstanding workflowId right events → left = right
  listed : ∀ thread, (knownBy engine thread events).listed = workflowId →
    (knownBy engine thread events).tasks ≠ [] → Alone workflowId thread events →
      toolCallsMade engine workflowId events ≤ listedCalls (knownBy engine thread events).tasks

section Keeping

variable {tables store next : Store} {events : List DaemonEvent} {workflowId : Bytes}
  {budget : Int} {caller : Nat} {call : Call} {response : Response call}

theorem toolCallsMade_cons {event : DaemonEvent} (other : ¬RunsTaskOf workflowId event) :
    toolCallsMade engine workflowId (event :: events) = toolCallsMade engine workflowId events := by
  rw [toolCallsMade]
  split
  · next workflow task outcome ran =>
    rw [if_neg]
    intro same
    exact other ⟨_, ran, same⟩
  · rfl

theorem Budgeted.listed_cons (budgeted : Budgeted engine workflowId budget events store)
    (effect : Effect call store response next) (thread : Nat) (listed : (knownBy engine thread
      (⟨caller, call, response, store, next⟩ :: events)).listed = workflowId)
    (found : (knownBy engine thread (⟨caller, call, response, store, next⟩ :: events)).tasks ≠ [])
    (alone : Alone workflowId thread (⟨caller, call, response, store, next⟩ :: events)) :
    toolCallsMade engine workflowId (⟨caller, call, response, store, next⟩ :: events) ≤
      listedCalls (knownBy engine thread
        (⟨caller, call, response, store, next⟩ :: events)).tasks := by
  rw [Alone] at alone
  split at alone
  · next listing =>
    rcases listing with ⟨own, listing⟩
    have same : caller = thread := own
    subst same
    rw [knownBy_cons_self] at listed found ⊢
    cases call with
    | listWorkflowTasks asked =>
      rw [toolCallsMade_cons fun ⟨_, ran, _⟩ => nomatch ran]
      have asked_eq : asked = workflowId := listed
      subst asked_eq
      rcases listing_of_effect effect with answered | failed
      · subst answered
        apply le_trans (budgeted.settled _)
        · exact le_of_eq (listedCalls_listWorkflowTasks store asked).symm
        · intro thread outstanding
          rcases thread_of_outstanding outstanding with ⟨other, member, same⟩
          rw [← same] at outstanding
          exact alone other member outstanding
      · subst failed
        exact absurd rfl found
    | _ => exact nomatch listing
  · next other =>
    rw [toolCallsMade_cons alone.1]
    by_cases own : caller = thread
    · subst own
      have unlisting : isListing call = false :=
        Bool.eq_false_of_not_eq_true fun listing => other ⟨rfl, listing⟩
      rw [knownBy_cons_self, advance_listed unlisting] at listed
      rw [knownBy_cons_self, advance_tasks unlisting] at found ⊢
      exact budgeted.listed caller listed found alone.2
    · rw [knownBy_cons_other own] at listed found ⊢
      exact budgeted.listed thread listed found alone.2

theorem outcome_cons {thread : Nat} (allowed : MayCall engine (knownBy engine caller events) call)
    (ran : ∃ outcome, (knownBy engine thread events).outcome = some outcome)
    (now : (knownBy engine thread
      (⟨caller, call, response, store, next⟩ :: events)).outcome = some outcome) :
    (knownBy engine thread events).outcome = some outcome := by
  rcases ran with ⟨before, ran⟩
  by_cases own : caller = thread
  · subst own
    rw [knownBy_cons_self, advance_outcome allowed ran] at now
    cases now
    exact ran
  · rw [knownBy_cons_other own] at now
    exact now

theorem Budgeted.other (budgeted : Budgeted engine workflowId budget events store)
    (trace : DaemonTrace engine tables events store)
    (allowed : MayCall engine (knownBy engine caller events) call)
    (effect : Effect call store response next)
    (unrun : ¬RunsTaskOf workflowId ⟨caller, call, response, store, next⟩)
    (unrecorded : (writeOf call response).isSome → ¬Outstanding workflowId caller events) :
    Budgeted engine workflowId budget (⟨caller, call, response, store, next⟩ :: events) next := by
  have grows : recordedCalls workflowId store.tasks ≤ recordedCalls workflowId next.tasks :=
    recordedCalls_mono effect
  have before : ∀ thread, Outstanding workflowId thread
      (⟨caller, call, response, store, next⟩ :: events) → Outstanding workflowId thread events := by
    intro thread outstanding
    rcases (outstanding_cons outstanding).2 with ⟨_, runs⟩ | before
    · exact absurd runs unrun
    · exact before
  have behind : ∀ thread, Outstanding workflowId thread events → Outstanding workflowId thread
      (⟨caller, call, response, store, next⟩ :: events) := by
    intro thread outstanding
    rw [Outstanding, if_neg]
    · exact .inr outstanding
    · rintro ⟨own, written⟩
      have same : caller = thread := own
      subst same
      exact unrecorded written outstanding
  constructor
  · rw [toolCallsMade_cons unrun]
    exact budgeted.within
  · intro quiet
    rw [toolCallsMade_cons unrun]
    exact le_trans (budgeted.settled fun thread outstanding =>
      quiet thread (behind thread outstanding)) grows
  · intro thread outcome outstanding ran
    rw [toolCallsMade_cons unrun]
    have outstandingBefore := before thread outstanding
    have ranBefore := outcome_cons allowed (claimed_of_outstanding trace outstandingBefore).2 ran
    have pending := budgeted.pending thread outcome outstandingBefore ranBefore
    omega
  · intro left right outstandingLeft outstandingRight
    exact budgeted.single left right (before left outstandingLeft) (before right outstandingRight)
  · exact budgeted.listed_cons effect

/-- A run that keeps to its requests keeps to what its listing leaves of the
budget. -/
theorem KeepsToRequest.callsMade_le {row : WorkflowRow}
    {requests : WorkflowTaskRow → List WorkflowTaskRow → TaskRequest}
    (kept : KeepsToRequest engine requests ⟨caller, .runTask row task, outcome, store, next⟩ events)
    (runs : Runs engine (knownBy engine caller events) row task)
    (limit : (engine.workflowLimits row.specJson).maxToolCallsTotal = budget)
    (positive : 0 < budget) (bounded : budget ≤ int64Max) :
    callsMade engine (knownBy engine caller events).tasks task outcome = 0 ∨
      callsMade engine (knownBy engine caller events).tasks task outcome +
        listedCalls (knownBy engine caller events).tasks ≤ budget := by
  cases budgeted : engine.budgetedKind task (knownBy engine caller events).tasks with
  | none =>
    left
    rw [callsMade, budgeted]
    rfl
  | some kind =>
    right
    have unlimited : exceededLimit (engine.workflowLimits row.specJson)
        (usageTotals (knownBy engine caller events).tasks) = none := by
      rcases runs.budget with unbudgeted | unlimited
      · rw [Engine.budgetedKind, unbudgeted] at budgeted
        exact nomatch budgeted
      · exact unlimited
    rw [exceededLimit_eq] at unlimited
    have limited : 0 < (engine.workflowLimits row.specJson).maxToolCallsTotal := by
      rw [limit]
      exact positive
    have remaining := remaining_of_exhaustedLimit unlimited limited
    have allowed : outcome.usage.toolCallsTotal ≤ _ :=
      (kept _ rfl kind budgeted).le_remaining unlimited limited
    have left_eq : (remainingLimits (engine.workflowLimits row.specJson)
        (usageTotals (knownBy engine caller events).tasks)).maxToolCallsTotal =
        max 0 (budget - max 0 (min budget
          (min int64Max (listedCalls (knownBy engine caller events).tasks)))) := by
      rw [← usageTotals_toolCallsTotal, ← limit]
      exact if_pos limited
    rw [left_eq] at remaining allowed
    rw [callsMade, budgeted, Option.isSome_some, if_pos rfl]
    omega

theorem Budgeted.run {workflow row : WorkflowRow}
    {requests : WorkflowTaskRow → List WorkflowTaskRow → TaskRequest}
    (budgeted : Budgeted engine workflow.workflowId budget events store) (keyed : Keyed tables)
    (member : workflow ∈ tables.workflows) (trace : DaemonTrace engine tables events store)
    (runs : Runs engine (knownBy engine caller events) row task)
    (effect : Effect (.runTask row task) store outcome next)
    (limit : (engine.workflowLimits row.specJson).maxToolCallsTotal = budget)
    (positive : 0 < budget) (bounded : budget ≤ int64Max)
    (kept : KeepsToRequest engine requests ⟨caller, .runTask row task, outcome, store, next⟩ events)
    (alone : RunsAlone engine workflow.workflowId
      ⟨caller, .runTask row task, outcome, store, next⟩ events)
    (same : task.workflowId = workflow.workflowId) : Budgeted engine workflow.workflowId budget
      (⟨caller, .runTask row task, outcome, store, next⟩ :: events) next := by
  have runsHere : RunsTaskOf workflow.workflowId
      ⟨caller, .runTask row task, outcome, store, next⟩ := ⟨_, rfl, same⟩
  have started := alone runsHere
  have quiet := not_outstanding_of_alone started.2
  have own : ∀ thread, Outstanding workflow.workflowId thread
      (⟨caller, .runTask row task, outcome, store, next⟩ :: events) → caller = thread := by
    intro thread outstanding
    rcases (outstanding_cons outstanding).2 with ⟨own, _⟩ | before
    · exact own
    · exact absurd before (quiet thread)
  have made : toolCallsMade engine workflow.workflowId
      (⟨caller, .runTask row task, outcome, store, next⟩ :: events) =
      callsMade engine (knownBy engine caller events).tasks task outcome +
        toolCallsMade engine workflow.workflowId events := if_pos same
  have most : callsMade engine (knownBy engine caller events).tasks task outcome ≤
      max 0 outcome.usage.toolCallsTotal := by
    rw [callsMade]
    split
    · exact le_refl _
    · exact le_max_left 0 _
  have settled := budgeted.settled quiet
  have grows : recordedCalls workflow.workflowId store.tasks ≤
      recordedCalls workflow.workflowId next.tasks := recordedCalls_mono effect
  constructor
  · rw [made]
    have listed := budgeted.listed caller (runs.specified keyed trace member same).1
      started.1 started.2
    have within := budgeted.within
    rcases kept.callsMade_le runs limit positive bounded with nothing | left
    · omega
    · omega
  · intro none
    refine absurd ?_ (none caller)
    rw [Outstanding, if_neg fun both => Bool.false_ne_true both.2]
    exact .inl ⟨rfl, runsHere⟩
  · intro thread ended outstanding ran
    have same := own thread outstanding
    subst same
    rw [knownBy_cons_self] at ran
    cases ran
    rw [made]
    omega
  · intro left right outstandingLeft outstandingRight
    exact (own left outstandingLeft).symm.trans (own right outstandingRight)
  · exact budgeted.listed_cons effect

theorem recordedCalls_record {old : WorkflowTaskRow}
    (named : row.workflowId ≠ [] ∧ row.taskId ≠ []) (there : old ∈ store.tasks)
    (sameKey : old.key = row.key) (sameId : row.workflowId = workflowId)
    (range : old.cumulative.InRange)
    (cumulative : row.cumulative = cumulativeBehind old.cumulative (some outcome)) :
    recordedCalls workflowId store.tasks + max 0 outcome.usage.toolCallsTotal ≤
        recordedCalls workflowId (store.upsertWorkflowTask row).2.tasks ∨
      int64Max ≤ recordedCalls workflowId (store.upsertWorkflowTask row).2.tasks := by
  have here : Store.isTask row.workflowId row.taskId old = true := isTask_iff.mpr sameKey
  have grows : ∀ stored ∈ store.tasks,
      callsIn workflowId stored ≤ callsIn workflowId (mergeRow row stored) := by
    intro stored _
    rw [mergeRow]
    split
    · next isHere => exact callsIn_mergeTask isHere
    · exact le_refl _
  have oldId : old.workflowId = workflowId := (congrArg Prod.fst sameKey).trans sameId
  have before : callsIn workflowId old = max 0 old.cumulative.toolCallsTotal := if_pos oldId
  have merged : callsIn workflowId (mergeRow row old) =
      max 0 (max (max 0 row.cumulative.toolCallsTotal) old.cumulative.toolCallsTotal) := by
    rw [mergeRow, if_pos here]
    exact if_pos sameId
  have behind : row.cumulative.toolCallsTotal = min int64Max
      (max 0 old.cumulative.toolCallsTotal + max 0 outcome.usage.toolCallsTotal) := by
    rw [cumulative, ← saturatingAdd_eq_min _ (le_max_left 0 _)]
    · rfl
    · exact max_le (by decide) (range .toolCallsTotal).2
  rw [recordedCalls, recordedCalls, upsertWorkflowTask_tasks named there sameKey, List.map_map]
  by_cases full : max 0 old.cumulative.toolCallsTotal + max 0 outcome.usage.toolCallsTotal ≤
      int64Max
  · left
    apply sum_map_add_le grows there
    rw [before, merged, behind]
    omega
  · right
    have alone : (store.tasks.map fun _ => (0 : Int)).sum + int64Max ≤
        (store.tasks.map (callsIn workflowId ∘ mergeRow row)).sum := by
      apply sum_map_add_le (fun stored _ => callsIn_nonnegative workflowId (mergeRow row stored))
        there
      rw [merged, behind]
      omega
    simpa using alone

theorem Budgeted.record (budgeted : Budgeted engine workflowId budget events store)
    (keyed : Keyed tables) (range : ∀ task ∈ tables.tasks, task.cumulative.InRange)
    (trace : DaemonTrace engine tables events store) (current : Throughout ClaimsCurrent events)
    (bounded : budget ≤ int64Max) (writes : WritesTask (knownBy engine caller events) row)
    (effect : Effect (.upsertWorkflowTask row) store true (store.upsertWorkflowTask row).2)
    (named : row.workflowId ≠ [] ∧ row.taskId ≠ [])
    (outstanding : Outstanding workflowId caller events) : Budgeted engine workflowId budget
      (⟨caller, .upsertWorkflowTask row, true, store, (store.upsertWorkflowTask row).2⟩ :: events)
      (store.upsertWorkflowTask row).2 := by
  rcases claimed_of_outstanding trace outstanding with ⟨⟨claim, claim_eq, claimId⟩, outcome, ran⟩
  have holds : HoldsClaim engine caller claim events := by
    have allowed := writes
    rw [WritesTask, claim_eq] at allowed
    exact ⟨claim_eq, allowed.1⟩
  rcases holds.writes trace writes with ⟨own, copy, from_, records⟩
  rcases List.mem_map.mp (((identities_of_trace keyed trace).2 caller).writesTask writes) with
    ⟨task, member, identity⟩
  have taskKey : task.key = row.key := congrArg TaskIdentity.key identity
  have charged := charged_of_trace keyed member (range task member) trace current
  rcases present_of_trace keyed trace member with ⟨old, there, oldKey⟩
  have stored := charged.stored old there oldKey
  have cumulative := records.cumulative
  rw [ran, charged.claimed caller claim holds (own.symm.trans taskKey.symm) copy from_, ← stored]
    at cumulative
  have oldRange : old.cumulative.InRange := by
    rw [stored]
    exact totalOf_inRange (range task member) events
  have grown := recordedCalls_record named there (oldKey.trans taskKey)
    ((congrArg Prod.fst own).trans claimId) oldRange cumulative
  have pending := budgeted.pending caller outcome outstanding ran
  have within := budgeted.within
  have unrun : ¬RunsTaskOf workflowId ⟨caller, .upsertWorkflowTask row, true, store,
      (store.upsertWorkflowTask row).2⟩ := by
    rintro ⟨_, ⟨⟩, _⟩
  have quiet : ∀ thread, ¬Outstanding workflowId thread (⟨caller, .upsertWorkflowTask row, true,
      store, (store.upsertWorkflowTask row).2⟩ :: events) := by
    intro thread still
    rcases outstanding_cons still with ⟨unwritten, ⟨_, runs⟩ | before⟩
    · exact unrun runs
    · exact unwritten ⟨budgeted.single caller thread outstanding before, rfl⟩
  constructor
  · rw [toolCallsMade_cons unrun]
    exact within
  · intro _
    rw [toolCallsMade_cons unrun]
    omega
  · intro thread _ still
    exact absurd still (quiet thread)
  · intro left _ still
    exact absurd still (quiet left)
  · exact budgeted.listed_cons effect

end Keeping

theorem workflowLimits_boundSpecJson (empty : engine.workflowLimits [] = {})
    (emptyObject : engine.workflowLimits (ascii "\x7b\x7d") = {}) (specJson : Bytes) :
    engine.workflowLimits (boundSpecJson specJson) = engine.workflowLimits specJson := by
  rw [boundSpecJson]
  split
  · next none => rw [none, empty, emptyObject]
  · rfl

section Budget

variable {tables store : Store} {events : List DaemonEvent} {workflow : WorkflowRow} {budget : Int}
  {requests : WorkflowTaskRow → List WorkflowTaskRow → TaskRequest}

theorem budgeted_of_trace (keyed : Keyed tables)
    (range : ∀ task ∈ tables.tasks, task.cumulative.InRange) (empty : engine.workflowLimits [] = {})
    (emptyObject : engine.workflowLimits (ascii "\x7b\x7d") = {})
    (member : workflow ∈ tables.workflows)
    (limit : (engine.workflowLimits workflow.specJson).maxToolCallsTotal = budget)
    (positive : 0 < budget) (bounded : budget ≤ int64Max)
    (trace : DaemonTrace engine tables events store)
    (kept : Throughout (KeepsToRequest engine requests) events)
    (current : Throughout ClaimsCurrent events)
    (alone : Throughout (RunsAlone engine workflow.workflowId) events) :
    Budgeted engine workflow.workflowId budget events store := by
  induction trace with
  | nil =>
    constructor
    · exact le_of_lt positive
    · intro _
      apply List.sum_nonneg
      intro calls there
      rcases List.mem_map.mp there with ⟨row, _, same⟩
      rw [← same]
      exact callsIn_nonnegative _ row
    · intro thread _ impossible
      exact impossible.elim
    · intro left _ impossible
      exact impossible.elim
    · intro thread _ _ impossible
      exact impossible.elim
  | @cons events store next caller call response earlier allowed effect induction =>
    have budgeted := induction kept.2 current.2 alone.2
    by_cases runs : RunsTaskOf workflow.workflowId ⟨caller, call, response, store, next⟩
    · rcases runs with ⟨run, ran, same⟩
      cases call with
      | runTask row task =>
        cases ran
        have mayRun : Runs engine (knownBy engine caller events) row task := allowed
        have spec := (mayRun.specified keyed earlier member same).2
        have rowLimit : (engine.workflowLimits row.specJson).maxToolCallsTotal = budget := by
          rw [← workflowLimits_boundSpecJson empty emptyObject, spec,
            workflowLimits_boundSpecJson empty emptyObject, limit]
        exact budgeted.run keyed member earlier mayRun effect rowLimit positive bounded kept.1
          alone.1 same
      | _ => exact nomatch ran
    · by_cases outstanding : Outstanding workflow.workflowId caller events
      · cases taskChange_of_effect effect with
        | written row named next_eq =>
          subst next_eq
          exact budgeted.record keyed range earlier current.2 bounded allowed effect named
            outstanding
        | untouched _ unwritten _ =>
          apply budgeted.other earlier allowed effect runs
          intro written
          rw [unwritten] at written
          exact nomatch written
        | claimed =>
          exact budgeted.other earlier allowed effect runs fun impossible => nomatch impossible
        | cancelled =>
          exact budgeted.other earlier allowed effect runs fun impossible => nomatch impossible
      · exact budgeted.other earlier allowed effect runs fun _ => outstanding

end Budget

/-- In every run in which each run of a task of a workflow starts with a listing
that has the result of every other run, and in which no claim is made from a
listing in front of a requeueing of its task: the tool calls of a workflow with
a budget are within it, if each run keeps to the requests given to it. -/
theorem tool_calls_within_budget (engine : Engine)
    (requests : WorkflowTaskRow → List WorkflowTaskRow → TaskRequest)
    (empty : engine.workflowLimits [] = {})
    (emptyObject : engine.workflowLimits (ascii "\x7b\x7d") = {})
    {tables : Store} (keyed : Keyed tables)
    (range : ∀ task ∈ tables.tasks, task.cumulative.InRange)
    {workflow : WorkflowRow} (member : workflow ∈ tables.workflows) {budget : Int}
    (limit : (engine.workflowLimits workflow.specJson).maxToolCallsTotal = budget)
    (positive : 0 < budget) (bounded : budget ≤ int64Max)
    {events : List DaemonEvent} {state : DaemonState} (run : DaemonRun engine tables events state)
    (kept : Throughout (KeepsToRequest engine requests) events)
    (current : Throughout ClaimsCurrent events)
    (alone : Throughout (RunsAlone engine workflow.workflowId) events) :
    toolCallsMade engine workflow.workflowId events ≤ budget :=
  (budgeted_of_trace keyed range empty emptyObject member limit positive bounded
    (daemonTrace_of_run run) kept current alone).within

/-! ## Sample runs -/

def budgetEngine (budget : Int) : Engine :=
  { sampleEngine with
    workflowLimits := fun specJson =>
      if specJson = [] ∨ specJson = ascii "\x7b\x7d" then {} else { maxToolCallsTotal := budget } }

def budgetWorkflow : WorkflowRow where
  workflowId := sampleWorkflow
  specJson := ascii "[]"

def budgetTables : Store where
  workflows := [budgetWorkflow]
  tasks :=
    [{ workflowId := sampleWorkflow, taskId := ascii "t" },
      { workflowId := sampleWorkflow, taskId := ascii "u" }]

theorem keyed_budgetTables : Keyed budgetTables :=
  ⟨by decide, by decide⟩

theorem inRange_budgetTables : ∀ task ∈ budgetTables.tasks, task.cumulative.InRange := by
  intro task member counter
  have fresh : task.cumulative = {} := by
    rcases List.mem_cons.mp member with first | rest
    · rw [first]
    · rw [List.mem_singleton.mp rest]
  rw [fresh, Usage.empty_counter]
  decide

def oneCall : Outside where
  outcome := { ok := true, usage := { toolCallsTotal := 1 } }

/-- No request is clamped below one tool call. -/
theorem runAllows_one {limits remaining : WorkflowLimits} {kind : Bytes} {toolCalls : Int}
    (other : kind ≠ ascii "delegate") (one : toolCalls ≤ 1) :
    RunAllows limits remaining kind {} toolCalls := by
  rw [RunAllows, if_neg other]
  split
  · exact one
  · intro request clamped
    rw [workflowApplyRunBudgetClamps] at clamped
    split at clamped
    · cases clamped
    · next unlimited =>
      cases clamped
      rw [RunRequest.Allows, clampToLimits_maxToolCallsTotal]
      by_cases limited : 0 < limits.maxToolCallsTotal
      · have left := remaining_of_exhaustedLimit unlimited limited
        have set : Member.absent.clampOrSet remaining.maxToolCallsTotal =
            .integer remaining.maxToolCallsTotal := if_neg (Int.not_le.mpr left)
        rw [if_pos limited, max_eq_right (le_of_lt left), set]
        exact le_trans one left
      · rw [if_neg limited]
        trivial

theorem keepsToRequest_one {budget : Int} {events : List DaemonEvent}
    (one : Throughout (fun event _ => ∀ run ∈ runOf event.call event.response,
      run.2.2.usage.toolCallsTotal ≤ 1) events) :
    Throughout (KeepsToRequest (budgetEngine budget) fun _ _ => {}) events := by
  apply one.mono
  intro event earlier one run ran tasks limits kind expanded
  cases expanded
  exact runAllows_one (by decide) (one run ran)

/-- A worker executes one task, and then another worker the other one. -/
def budgetInTurn : List (SharedStore.Move Operation Outside) :=
  .start .workerTurn :: List.replicate 16 (.advance 0 oneCall) ++
    .start .workerTurn :: List.replicate 16 (.advance 1 oneCall)

theorem tool_calls_within_budget_sample :
    toolCallsMade (budgetEngine 2) sampleWorkflow
      (recordedRun (budgetEngine 2) budgetTables budgetInTurn).1 = 2 ∧
    toolCallsMade (budgetEngine 2) budgetWorkflow.workflowId
      (recordedRun (budgetEngine 2) budgetTables budgetInTurn).1 ≤ 2 :=
  ⟨by decide, tool_calls_within_budget (budgetEngine 2) (fun _ _ => {}) (by decide)
    (by decide) keyed_budgetTables inRange_budgetTables (List.mem_singleton.mpr rfl) (by decide)
    (by decide) (by decide) (run_recordedRun (budgetEngine 2) budgetTables budgetInTurn)
    (keepsToRequest_one (by decide)) (by decide) (by decide)⟩

/-- Two workers list the tasks before either of them runs one. -/
def budgetAtOnce : List (SharedStore.Move Operation Outside) :=
  .start .workerTurn :: List.replicate 10 (.advance 0 oneCall) ++
    .start .workerTurn :: List.replicate 10 (.advance 1 oneCall) ++ [.advance 0 oneCall]

/-- Two tool calls are made with a budget of one. -/
theorem tool_call_budget_exceeded :
    (((budgetEngine 1).workflowLimits budgetWorkflow.specJson).maxToolCallsTotal = 1) ∧
    ∃ (events : List DaemonEvent) (state : DaemonState),
      DaemonRun (budgetEngine 1) budgetTables events state ∧
      Throughout (KeepsToRequest (budgetEngine 1) fun _ _ => {}) events ∧
      ¬toolCallsMade (budgetEngine 1) budgetWorkflow.workflowId events ≤ 1 :=
  ⟨by decide, _, _, run_recordedRun (budgetEngine 1) budgetTables budgetAtOnce,
    keepsToRequest_one (by decide), by decide⟩

end AgentC.Workflow
