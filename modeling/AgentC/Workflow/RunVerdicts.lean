import AgentC.Workflow.ToolCallBudget

/-! # Verdicts on runs

A task is stored as done or as in error by the worker that has run it, with the
result of the run. The verdict joins what the result says with the expectation. -/

namespace AgentC.Workflow

/-- The run that a worker has made, and the row of the workflow read since. -/
structure MadeRun where
  latest : WorkflowRow
  task : WorkflowTaskRow
  outcome : RunOutcome
  current : Option WorkflowRow := none
deriving DecidableEq, Repr

namespace MadeRun

def advance : Option MadeRun → (call : Call) → Response call → Option MadeRun
  | _, .runTask latest task, outcome => some { latest, task, outcome }
  | some made, .getWorkflow _, response => some { made with current := response }
  | known, _, _ => known

def Passes (made : MadeRun) : Prop :=
  made.outcome.ok = true ∧ made.outcome.unmetExpectation = none

/-- The task has another attempt, and its workflow is not cancelled. -/
def Retried (made : MadeRun) : Prop :=
  made.task.attempt < max 1 made.task.maxAttempts ∧
    (made.current.getD made.latest).cancelRequested = false

instance : DecidablePred Passes := fun _ =>
  inferInstanceAs (Decidable (_ ∧ _))

instance : DecidablePred Retried := fun _ =>
  inferInstanceAs (Decidable (_ ∧ _))

end MadeRun

def Ended (row : WorkflowTaskRow) : Prop :=
  row.status = .done ∨ row.status = .error

structure Judges (made : MadeRun) (row : WorkflowTaskRow) : Prop where
  key : row.key = made.task.key
  resultJson : row.resultJson = made.outcome.resultJson
  uncancelled : made.outcome.cancelled = false
  done : row.status = .done → made.Passes
  error : row.status = .error → ¬made.Passes ∧ ¬made.Retried

def RecordsVerdict (known : Option MadeRun) : Call → Prop
  | .upsertWorkflowTask row => Ended row → ∃ made, known = some made ∧ Judges made row
  | _ => True

/-- Only a task that has been run is stored as ended, with the verdict on the run. -/
def verdicts : Description (Option MadeRun) Call Response where
  advance := MadeRun.advance
  allowed := RecordsVerdict

def LeavesOpen : Call → Prop
  | .upsertWorkflowTask row => ¬Ended row
  | _ => True

abbrev EndsNoTask {α : Type} (program : Action α) : Prop :=
  program.Satisfies (fun _ _ => True) LeavesOpen fun _ => True

variable {known : Option MadeRun} {call : Call} {made : MadeRun} {events : List DaemonEvent}

section Programs

variable {α : Type}

theorem EndsNoTask.follows {program : Action α} (endsNone : EndsNoTask program) :
    program.Follows verdicts (fun _ _ => True) known := by
  apply Program.Satisfies.follows_always _ endsNone
  intro known call promised
  cases call with
  | upsertWorkflowTask row => exact fun ended => absurd ended promised
  | _ => trivial

theorem endsNoTask_pure (value : α) : EndsNoTask (pure value : Action α) :=
  trivial

theorem endsNoTask_call {rest : Response call → Action α} (stays : LeavesOpen call)
    (next : ∀ response, EndsNoTask (rest response)) : EndsNoTask (Program.request call >>= rest) :=
  Program.satisfies_call stays fun response _ => next response

theorem not_ended_of_cancelled {row : WorkflowTaskRow} (cancelled : row.status = .cancelled) :
    ¬Ended row := by
  rw [Ended, cancelled]
  exact fun ended => ended.elim (nomatch ·) (nomatch ·)

variable (engine : Engine)

variable (workflowId : Bytes) (workflow : WorkflowRow)

theorem endsNoTask_cancelRequest : EndsNoTask (cancelRequest workflowId) := by
  refine endsNoTask_call trivial fun read => ?_
  cases read with
  | none => exact endsNoTask_pure ()
  | some workflow =>
    refine endsNoTask_call trivial fun nowUnixMs => ?_
    exact endsNoTask_call trivial fun _ => endsNoTask_pure ()

theorem endsNoTask_maybeFinalizeWorkflow :
    EndsNoTask (maybeFinalizeWorkflow engine workflowId) := by
  refine endsNoTask_call trivial fun read => ?_
  cases read with
  | none => exact endsNoTask_pure ()
  | some workflow =>
    refine endsNoTask_call trivial fun listed => ?_
    cases listed with
    | none => exact endsNoTask_pure ()
    | some tasks =>
      apply Program.satisfies_ite
      · intro _
        refine endsNoTask_call trivial fun nowUnixMs => ?_
        exact endsNoTask_call trivial fun _ => endsNoTask_pure ()
      · intro _
        exact endsNoTask_pure ()

/-! Picking -/

theorem endsNoTask_cancelQueued (tasks : List WorkflowTaskRow)
    {cancelled : WorkflowTaskRow → WorkflowTaskRow}
    (cancels : ∀ task, (cancelled task).status = .cancelled) :
    EndsNoTask (cancelQueued tasks cancelled) := by
  apply Program.satisfies_forM
  intro task _
  exact endsNoTask_call (not_ended_of_cancelled (cancels task)) fun _ => endsNoTask_pure ()

variable (nowUnixMs : Int)

theorem endsNoTask_cancelAtDeadline (workflow : WorkflowRow) :
    EndsNoTask (cancelAtDeadline engine nowUnixMs workflow) := by
  refine endsNoTask_call trivial fun listed => ?_
  apply Program.satisfies_then (endsNoTask_cancelQueued _ fun _ => rfl)
  intro _
  have finish : EndsNoTask
      (if anyQueued (listed.getD []) || (!workflow.cancelRequested ||
          workflow.error != ascii "deadline exceeded") then
        maybeFinalizeWorkflow engine workflow.workflowId else pure ()) :=
    Program.satisfies_ite (fun _ => endsNoTask_maybeFinalizeWorkflow engine _) fun _ =>
      endsNoTask_pure ()
  apply Program.satisfies_ite
  · intro _
    exact endsNoTask_call trivial fun _ => finish
  · intro _
    exact finish

theorem endsNoTask_claimFirst (workflow : WorkflowRow) (tasks remaining : List WorkflowTaskRow) :
    EndsNoTask (claimFirst engine nowUnixMs workflow tasks remaining) := by
  induction remaining with
  | nil => exact endsNoTask_pure none
  | cons task remaining induction =>
    rw [claimFirst]
    apply Program.satisfies_ite
    · intro _
      exact induction
    · intro _
      refine endsNoTask_call trivial fun claimed => ?_
      apply Program.satisfies_ite
      · intro _
        exact induction
      · intro _
        apply Program.satisfies_ite
        · intro _
          exact endsNoTask_call trivial fun _ => endsNoTask_pure _
        · intro _
          exact endsNoTask_pure _

theorem endsNoTask_tryPickInWorkflow (workflow : WorkflowRow) :
    EndsNoTask (tryPickInWorkflow engine nowUnixMs workflow) := by
  have finish : EndsNoTask (do
      maybeFinalizeWorkflow engine workflow.workflowId
      return (none : Option (WorkflowRow × WorkflowTaskRow))) :=
    Program.satisfies_then (endsNoTask_maybeFinalizeWorkflow engine _) fun _ =>
      endsNoTask_pure none
  apply Program.satisfies_ite
  · intro _
    exact endsNoTask_pure none
  · intro _
    apply Program.satisfies_ite
    · intro _
      exact Program.satisfies_then (endsNoTask_cancelAtDeadline engine nowUnixMs workflow)
        fun _ => endsNoTask_pure none
    · intro _
      refine endsNoTask_call trivial fun listed => ?_
      cases listed with
      | none => exact endsNoTask_pure none
      | some tasks =>
        apply Program.satisfies_ite
        · intro _
          exact endsNoTask_pure none
        · intro _
          apply Program.satisfies_ite
          · intro _
            apply Program.satisfies_then (endsNoTask_cancelQueued _ fun _ => rfl)
            intro _
            exact Program.satisfies_ite (fun _ => finish) fun _ => endsNoTask_pure none
          · intro _
            apply Program.satisfies_then (endsNoTask_claimFirst engine nowUnixMs workflow tasks _)
            intro picked
            cases picked with
            | some picked => exact endsNoTask_pure _
            | none => exact finish

theorem endsNoTask_pickInOrder (candidates : List WorkflowRow) (order : List Nat) :
    EndsNoTask (pickInOrder engine nowUnixMs candidates order) := by
  induction order with
  | nil => exact endsNoTask_pure none
  | cons index order induction =>
    rw [pickInOrder]
    split
    · exact induction
    · next workflow _ =>
      apply Program.satisfies_then (endsNoTask_tryPickInWorkflow engine nowUnixMs workflow)
      intro picked
      cases picked with
      | some picked => exact endsNoTask_pure _
      | none => exact induction

theorem endsNoTask_pickAndClaimOne : EndsNoTask (pickAndClaimOne engine nowUnixMs) := by
  refine endsNoTask_call trivial fun queued => ?_
  cases queued with
  | none => exact endsNoTask_pure none
  | some queued =>
    refine endsNoTask_call trivial fun running => ?_
    cases running with
    | none => exact endsNoTask_pure none
    | some running =>
      refine endsNoTask_call trivial fun order => ?_
      exact endsNoTask_pickInOrder engine nowUnixMs _ order

/-! Executing -/

theorem endsNoTask_cancelTaskNow (workflowId : Bytes) (task : WorkflowTaskRow) (reason : Bytes) :
    EndsNoTask (cancelTaskNow engine nowUnixMs workflowId task reason) :=
  endsNoTask_call (not_ended_of_cancelled rfl) fun _ =>
    endsNoTask_maybeFinalizeWorkflow engine workflowId

theorem endsNoTask_workflowBudgetExceededCancel (workflowId : Bytes) (latest : WorkflowRow)
    (task : WorkflowTaskRow) (which : Bytes) :
    EndsNoTask (workflowBudgetExceededCancel engine nowUnixMs workflowId latest task which) := by
  refine endsNoTask_call trivial fun _ => ?_
  refine endsNoTask_call trivial fun listed => ?_
  apply Program.satisfies_then
  · apply Program.satisfies_forM
    intro other _
    exact endsNoTask_call trivial fun _ => endsNoTask_pure ()
  · intro _
    exact endsNoTask_cancelTaskNow engine nowUnixMs workflowId task _

theorem endsNoTask_recordCancelled (workflowId : Bytes) (recorded : WorkflowTaskRow)
    (outcome : RunOutcome) :
    EndsNoTask (recordCancelled engine nowUnixMs workflowId recorded outcome) := by
  refine endsNoTask_call (not_ended_of_cancelled rfl) fun _ => ?_
  have finish : EndsNoTask (maybeFinalizeWorkflow engine workflowId) :=
    endsNoTask_maybeFinalizeWorkflow engine workflowId
  refine endsNoTask_call trivial fun read => ?_
  cases read with
  | none => exact finish
  | some workflow =>
    apply Program.satisfies_ite
    · intro _
      exact endsNoTask_call trivial fun _ => finish
    · intro _
      exact finish

abbrev KeepsVerdicts (known : Option MadeRun) (program : Action Unit) : Prop :=
  program.Follows verdicts (fun _ _ => True) known

theorem keepsVerdicts_recordFailed (workflowId : Bytes)
    (uncancelled : made.outcome.cancelled = false) (failed : ¬made.Passes) :
    KeepsVerdicts (some made) (recordFailed engine nowUnixMs workflowId made.latest
      (recordedTask nowUnixMs made.task made.outcome) made.outcome) := by
  refine Program.follows_call trivial fun current => ?_
  apply Program.follows_ite
  · intro _
    refine Program.follows_call ?_ fun _ => trivial
    exact fun ended => ended.elim (nomatch ·) (nomatch ·)
  · intro unretried
    refine Program.follows_call ?_
      fun _ => (endsNoTask_maybeFinalizeWorkflow engine _).follows
    intro _
    refine ⟨{ made with current }, rfl, rfl, rfl, uncancelled, (nomatch ·), fun _ => ⟨failed, ?_⟩⟩
    rintro ⟨left, running⟩
    apply unretried
    rw [Bool.and_eq_true, decide_eq_true_eq, Bool.not_eq_true']
    exact ⟨left, running⟩

theorem keepsVerdicts_runAndRecord (workflowId : Bytes) (latest : WorkflowRow)
    (task : WorkflowTaskRow) :
    KeepsVerdicts known (runAndRecord engine nowUnixMs workflowId latest task) := by
  refine Program.follows_call trivial fun outcome => ?_
  apply Program.follows_ite
  · intro _
    exact (endsNoTask_recordCancelled engine nowUnixMs workflowId _ outcome).follows
  · intro uncancelled
    have uncancelled := Bool.eq_false_iff.mpr uncancelled
    have joined : (outcome.ok && outcome.unmetExpectation.isNone) = true ↔
        MadeRun.Passes { latest, task, outcome } := by
      rw [Bool.and_eq_true, Option.isNone_iff_eq_none]
      exact Iff.rfl
    apply Program.follows_ite
    · intro passes
      refine Program.follows_call ?_
        fun _ => (endsNoTask_maybeFinalizeWorkflow engine _).follows
      intro _
      exact ⟨_, rfl, rfl, rfl, uncancelled, fun _ => joined.mp passes, (nomatch ·)⟩
    · intro failed
      exact keepsVerdicts_recordFailed engine nowUnixMs workflowId uncancelled
        fun passes => failed (joined.mpr passes)

theorem keepsVerdicts_executeClaimedTask (task : WorkflowTaskRow) :
    KeepsVerdicts known (executeClaimedTask engine workflow task) := by
  refine Program.follows_call trivial fun nowUnixMs => ?_
  refine Program.follows_call trivial fun current => ?_
  apply Program.follows_ite
  · intro _
    exact (endsNoTask_cancelTaskNow engine nowUnixMs _ task _).follows
  · intro _
    apply Program.follows_ite
    · intro _
      exact Program.follows_call trivial fun _ =>
        (endsNoTask_cancelTaskNow engine nowUnixMs _ task _).follows
    · intro _
      refine Program.follows_call trivial fun listed => ?_
      dsimp only
      split
      · exact (endsNoTask_workflowBudgetExceededCancel engine nowUnixMs _ _ task _).follows
      · exact keepsVerdicts_runAndRecord engine nowUnixMs _ _ task

theorem keepsVerdicts_program (operation : Operation) :
    KeepsVerdicts none (operation.program engine) := by
  cases operation with
  | cancelRequest workflowId => exact (endsNoTask_cancelRequest workflowId).follows
  | finalize workflowId => exact (endsNoTask_maybeFinalizeWorkflow engine workflowId).follows
  | workerTurn =>
    refine Program.follows_call trivial fun nowUnixMs => ?_
    apply Program.follows_bind
    apply (endsNoTask_pickAndClaimOne engine nowUnixMs).follows.mono
    intro later picked _
    cases picked with
    | none => trivial
    | some picked => exact keepsVerdicts_executeClaimedTask engine picked.1 picked.2

end Programs

/-- The run that a thread has made. -/
def madeRun (thread : Nat) (events : List DaemonEvent) : Option MadeRun :=
  SharedStore.known verdicts none thread events

abbrev VerdictTrace (engine : Engine) (tables : Store) :=
  (daemon engine).Trace verdicts none tables

theorem verdictTrace_of_run {engine : Engine} {tables : Store} {state : DaemonState}
    (run : DaemonRun engine tables events state) : VerdictTrace engine tables events state.store :=
  SharedStore.Run.trace (daemon engine) (keepsVerdicts_program engine) run

theorem MadeRun.advance_cases {response : Response call}
    (advanced : advance known call response = some made) :
    runOf call response = some (made.latest, made.task, made.outcome) ∨
      ∃ old, known = some old ∧ made = { old with current := made.current } := by
  cases call with
  | runTask =>
    cases advanced
    exact .inl rfl
  | getWorkflow asked =>
    cases known with
    | none => exact nomatch advanced
    | some old =>
      cases advanced
      exact .inr ⟨old, rfl, rfl⟩
  | _ =>
    cases known with
    | none => exact nomatch advanced
    | some old =>
      cases advanced
      exact .inr ⟨made, rfl, rfl⟩

theorem exists_runOf_of_madeRun {thread : Nat} (known : madeRun thread events = some made) :
    ∃ event ∈ events,
      runOf event.call event.response = some (made.latest, made.task, made.outcome) := by
  induction events generalizing made with
  | nil => exact nomatch known
  | cons event events induction =>
    have earlier : ∀ old, madeRun thread events = some old → ∃ other ∈ event :: events,
        runOf other.call other.response = some (old.latest, old.task, old.outcome) := by
      intro old known
      rcases induction known with ⟨other, member, runs⟩
      exact ⟨other, List.mem_cons_of_mem event member, runs⟩
    rw [madeRun, SharedStore.known] at known
    split at known
    · rcases MadeRun.advance_cases known with runs | ⟨old, before, same⟩
      · exact ⟨event, List.mem_cons_self .., runs⟩
      · rw [same]
        exact earlier old before
    · exact earlier made known

theorem ended_of_effect {store next : Store} {response : Response call}
    (effect : Effect call store response next) {row : WorkflowTaskRow} (member : row ∈ next.tasks)
    (ended : Ended row) :
    row ∈ store.tasks ∨ ∃ written, call = .upsertWorkflowTask written ∧ row.key = written.key ∧
      row.status = written.status ∧ row.resultJson = written.resultJson := by
  cases taskChange_of_effect effect with
  | untouched unclaimed unwritten same =>
    rw [same] at member
    exact .inl member
  | written written named next_eq =>
    subst next_eq
    rcases mem_upsertWorkflowTask_cases named member with
      ⟨old, _, _, merged⟩ | ⟨_, new⟩ | untouched
    · rw [merged]
      exact .inr ⟨written, rfl, rfl, rfl, rfl⟩
    · rw [new]
      exact .inr ⟨written, rfl, rfl, rfl, rfl⟩
    · exact .inl untouched.1
  | claimed workflowId taskId nowUnixMs newAttempt perWorkflow perSession sessionId queued
      inWorkflow inSession workflows tasks =>
    rw [tasks] at member
    rcases mem_updateQueued member with ⟨old, _, _, _, claimed⟩ | untouched
    · rw [Ended, claimed] at ended
      exact ended.elim (nomatch ·) (nomatch ·)
    · exact .inl untouched.1
  | cancelled workflowId taskId nowUnixMs error resultJson tasks =>
    rw [tasks] at member
    rcases mem_updateQueued member with ⟨old, _, _, _, cancelled⟩ | untouched
    · rw [Ended, cancelled] at ended
      exact ended.elim (nomatch ·) (nomatch ·)
    · exact .inl untouched.1

def PassesTask (key : Bytes × Bytes) (event : DaemonEvent) : Prop :=
  ∃ run ∈ runOf event.call event.response,
    run.2.1.key = key ∧ run.2.2.ok = true ∧ run.2.2.unmetExpectation = none

/-- Every task that is done has been from the start, or has made a run that was
ok and met its expectation. -/
theorem passed_of_done {engine : Engine} {tables store : Store}
    (trace : VerdictTrace engine tables events store) : ∀ row ∈ store.tasks, row.status = .done →
      (∃ old ∈ tables.tasks, old.key = row.key ∧ old.status = .done) ∨
        ∃ event ∈ events, PassesTask row.key event := by
  induction trace with
  | nil => exact fun row member done => .inl ⟨row, member, rfl, done⟩
  | @cons events store next thread call response earlier allowed effect induction =>
    intro row member done
    rcases ended_of_effect effect member (.inl done) with old | ⟨written, rfl, key, status, _⟩
    · rcases induction row old done with start | ⟨event, there, passes⟩
      · exact .inl start
      · exact .inr ⟨event, List.mem_cons_of_mem _ there, passes⟩
    · rw [status] at done
      rcases allowed (.inl done) with ⟨made, known, judges⟩
      rcases exists_runOf_of_madeRun known with ⟨event, there, runs⟩
      refine .inr ⟨event, List.mem_cons_of_mem _ there, _, runs, ?_, judges.done done⟩
      rw [key, judges.key]

end AgentC.Workflow
