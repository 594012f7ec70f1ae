import AgentC.Workflow.QuorumHonesty
import AgentC.Workflow.RunVerdicts
import AgentC.Workflow.SubmittedDependencies

/-! # Tasks that an aggregate counts

An aggregate sees the stored results of the tasks that are done or in error, and
counts those that say they are ok. It counts no task in error as long as no run
that says so is the last one of a task whose expectation it misses. -/

namespace AgentC.Workflow

open Json (Tree)

def collectedResult (json : JsonLibrary) (row : WorkflowTaskRow) : Option Tree :=
  if row.resultJson = [] then none
  else
    match json.parse row.resultJson with
    | none => none
    | some result =>
      if !result.isObject ∨ row.taskId = [] ∨ row.status ≠ .done ∧ row.status ≠ .error then none
      else some result

/-- `result_json_by_task`: of several rows of a task the last one counts. -/
def resultJsonByTask (json : JsonLibrary) (tasks : List WorkflowTaskRow) (taskId : Bytes) :
    Option Tree :=
  (tasks.filter fun row => row.taskId = taskId).reverse.findSome? (collectedResult json)

def aggregateInputOf (json : JsonLibrary) (asInt : Bytes → Option Int)
    (tasks : List WorkflowTaskRow) : AggregateInput where
  json := json
  asInt := asInt
  results := resultJsonByTask json tasks

variable {json : JsonLibrary}

theorem mem_of_resultJsonByTask {tasks : List WorkflowTaskRow} {taskId : Bytes} {result : Tree}
    (found : resultJsonByTask json tasks taskId = some result) :
    ∃ row ∈ tasks, row.taskId = taskId ∧ Ended row ∧ json.parse row.resultJson = some result := by
  rcases List.exists_of_findSome?_eq_some found with ⟨row, listed, collected⟩
  rcases List.mem_filter.mp (List.mem_reverse.mp listed) with ⟨member, same⟩
  rw [collectedResult] at collected
  split at collected
  · exact nomatch collected
  · split at collected
    · exact nomatch collected
    · next read parsed =>
      split at collected
      · exact nomatch collected
      · next counts =>
        cases collected
        refine ⟨row, member, of_decide_eq_true same, ?_, parsed⟩
        rw [not_or, not_or, not_and_or, not_not, not_not] at counts
        exact counts.2.2

inductive OkMode
  | firstOk
  | quorumOk
  | strictAllOk
deriving DecidableEq, Repr

def AggregateInput.okReport (input : AggregateInput) : OkMode → Tree → Except Bytes OkReport
  | .firstOk, agg => input.workflowAggregateFirstOk agg
  | .quorumOk, agg => input.workflowAggregateQuorumOk agg
  | .strictAllOk, agg => input.workflowAggregateStrictAllOk agg

/-- The report counts the task as ok, or chooses it. -/
def OkReport.CountsOk (report : OkReport) (taskId : Bytes) : Prop :=
  taskId ∈ report.okTaskIds ∨ report.okByTask.member taskId = some (.bool true) ∨
    ∃ root, report.chosen = some (taskId, root)

namespace AggregateInput

variable {input : AggregateInput} {agg : Tree} {report : OkReport} {taskId : Bytes}

theorem taskOk_of_firstOkTask {config : OkConfig} {root : Tree}
    (first : input.firstOkTask config = some (taskId, root)) :
    input.taskOk config taskId = some true := by
  rcases List.exists_of_findSome?_eq_some first with ⟨other, _, chosen⟩
  split at chosen
  · next isOk =>
    rcases Option.map_eq_some_iff.mp chosen with ⟨_, _, same⟩
    cases same
    exact isOk
  · exact nomatch chosen

theorem judged_parts (report : OkReport) (ok : Bool) (error : String) :
    (input.judged report ok error).config = report.config ∧
      (input.judged report ok error).okTaskIds = report.okTaskIds ∧
      (input.judged report ok error).okByTask = report.okByTask ∧
      ((input.judged report ok error).chosen = report.chosen ∨
        (input.judged report ok error).chosen = input.firstOkTask report.config) := by
  cases ok with
  | false => exact ⟨rfl, rfl, rfl, .inl rfl⟩
  | true => exact ⟨rfl, rfl, rfl, .inr rfl⟩

theorem taskOk_of_judged {ok : Bool} {error : String} (unchosen : report.chosen = none)
    (listed : ∀ taskId ∈ report.okTaskIds, input.taskOk report.config taskId = some true)
    (shown : ∀ taskId, report.okByTask.member taskId = some (.bool true) →
      input.taskOk report.config taskId = some true)
    (counts : (input.judged report ok error).CountsOk taskId) :
    input.taskOk report.config taskId = some true := by
  rcases @judged_parts input report ok error with ⟨_, sameIds, sameShown, chosen⟩
  rcases counts with inList | inShown | ⟨root, isChosen⟩
  · rw [sameIds] at inList
    exact listed taskId inList
  · rw [sameShown] at inShown
    exact shown taskId inShown
  · rcases chosen with old | new
    · rw [old, unchosen] at isChosen
      exact nomatch isChosen
    · rw [new] at isChosen
      exact taskOk_of_firstOkTask isChosen

theorem taskOk_of_okByTask {config : OkConfig}
    (shown : (input.okByTask config).member taskId = some (.bool true)) :
    input.taskOk config taskId = some true := by
  rcases Option.map_eq_some_iff.mp (value_of_member shown).2 with ⟨ok, isOk, same⟩
  cases same
  exact isOk

theorem taskOk_of_countsOk {mode : OkMode} (aggregated : input.okReport mode agg = .ok report)
    (counts : report.CountsOk taskId) : input.taskOk report.config taskId = some true := by
  cases mode with
  | firstOk =>
    rcases bind_eq_ok.mp aggregated with ⟨config, _, made⟩
    cases made
    rw [(judged_parts ..).1]
    apply taskOk_of_judged rfl _ _ counts
    · exact fun _ impossible => nomatch impossible
    · exact fun _ impossible => nomatch impossible
  | quorumOk =>
    rcases bind_eq_ok.mp aggregated with ⟨config, _, made⟩
    cases made
    rw [(judged_parts ..).1]
    apply taskOk_of_judged rfl _ _ counts
    · exact fun _ member => of_decide_eq_true (List.mem_filter.mp member).2
    · exact fun _ shown => taskOk_of_okByTask shown
  | strictAllOk =>
    rcases bind_eq_ok.mp aggregated with ⟨config, _, made⟩
    cases made
    rw [(judged_parts ..).1]
    apply taskOk_of_judged rfl _ _ counts
    · exact fun _ impossible => nomatch impossible
    · exact fun _ shown => taskOk_of_okByTask shown

end AggregateInput

def SaysOk (result : Tree) : Prop :=
  result.member (ascii "ok") = some (.bool true)

def StoresOk (json : JsonLibrary) (resultJson : Bytes) : Prop :=
  ∃ result, json.parse resultJson = some result ∧ SaysOk result

theorem saysOk_of_pointer {root : Tree}
    (found : Json.jsonPointerGet root (ascii "/ok") = some (.bool true)) : SaysOk root := by
  have step : root.child (ascii "ok") = some (.bool true) := by
    change (root.child (ascii "ok")).bind some = some (.bool true) at found
    rwa [Option.bind_fun_some] at found
  cases root with
  | object members => exact step
  | array items => exact nomatch step
  | _ => exact nomatch step

theorem storesOk_of_countsOk {json : JsonLibrary} {asInt : Bytes → Option Int}
    {tasks : List WorkflowTaskRow} {mode : OkMode} {agg : Tree} {report : OkReport}
    {taskId : Bytes} (aggregated : (aggregateInputOf json asInt tasks).okReport mode agg = .ok report)
    (pointer : report.config.okPointer = ascii "/ok") (counts : report.CountsOk taskId) :
    ∃ row ∈ tasks, row.taskId = taskId ∧ Ended row ∧ StoresOk json row.resultJson := by
  have isOk := AggregateInput.taskOk_of_countsOk aggregated counts
  rcases Option.map_eq_some_iff.mp isOk with ⟨root, found, verdict⟩
  rcases mem_of_resultJsonByTask found with ⟨row, member, same, ended, parsed⟩
  refine ⟨row, member, same, ended, root, parsed, saysOk_of_pointer ?_⟩
  rw [pointer] at verdict
  split at verdict
  · next ok pointed =>
    rw [pointed, verdict]
  · exact nomatch verdict

/-- An outcome as the engine takes it from the result of a run: the verdict is
that of the result, and of what its text reads back as. -/
def Reported (json : JsonLibrary) (outcome : RunOutcome) : Prop :=
  ∃ result : Tree, (outcome.ok = true ↔ SaysOk result) ∧
    outcome.resultJson = json.write result ∧
    ∀ read, json.parse (json.write result) = some read → SaysOk read → SaysOk result

theorem Reported.ok_of_storesOk {outcome : RunOutcome} (reported : Reported json outcome)
    (stores : StoresOk json outcome.resultJson) : outcome.ok = true := by
  rcases reported with ⟨result, verdict, written, readsBack⟩
  rcases stores with ⟨read, parsed, isOk⟩
  rw [written] at parsed
  exact verdict.mpr (readsBack read parsed isOk)

def writesTask : Call → Bool
  | .upsertWorkflowTask _ => true
  | _ => false

/-- A run that is ok but misses its expectation is not the last one of its task,
when the task is written. -/
def RetriesUnmet (event : DaemonEvent) (earlier : List DaemonEvent) : Prop :=
  writesTask event.call = true → ∀ made ∈ madeRun event.thread earlier,
    made.outcome.ok = true → made.outcome.cancelled = false →
      made.outcome.unmetExpectation = none ∨ made.Retried

instance (event : DaemonEvent) (earlier : List DaemonEvent) :
    Decidable (RetriesUnmet event earlier) :=
  inferInstanceAs (Decidable (_ → _))

theorem not_storesOk_of_error {engine : Engine} {tables store : Store} {events : List DaemonEvent}
    (trace : VerdictTrace engine tables events store)
    (start : ∀ row ∈ tables.tasks, row.status = .error → ¬StoresOk json row.resultJson)
    (reported : ∀ event ∈ events, ∀ run ∈ runOf event.call event.response, Reported json run.2.2)
    (retries : Throughout RetriesUnmet events) :
    ∀ row ∈ store.tasks, row.status = .error → ¬StoresOk json row.resultJson := by
  induction trace with
  | nil => exact start
  | @cons events store next thread call response earlier allowed effect induction =>
    intro row member failed stores
    rcases ended_of_effect effect member (.inr failed) with old | ⟨written, rfl, _, status, text⟩
    · exact induction (fun event there => reported event (List.mem_cons_of_mem _ there))
        retries.2 row old failed stores
    · rw [status] at failed
      rcases allowed (.inr failed) with ⟨made, known, judges⟩
      rcases exists_runOf_of_madeRun known with ⟨event, there, runs⟩
      rw [text, judges.resultJson] at stores
      have isOk := (reported event (List.mem_cons_of_mem _ there) _ runs).ok_of_storesOk stores
      rcases retries.1 rfl made known isOk judges.uncancelled with met | retried
      · exact (judges.error failed).1 ⟨isOk, met⟩
      · exact (judges.error failed).2 retried

/-- In every run in which the runs that are ok meet their expectations, or are
tried again, an aggregate counts and chooses only tasks that are done: that have
been from the start, or have made a run that was ok and met its expectation. -/
theorem counted_tasks_passed (json : JsonLibrary) (asInt : Bytes → Option Int) {engine : Engine}
    {tables : Store} {events : List DaemonEvent} {state : DaemonState}
    (run : DaemonRun engine tables events state)
    (start : ∀ row ∈ tables.tasks, row.status = .error → ¬StoresOk json row.resultJson)
    (reported : ∀ event ∈ events, ∀ run ∈ runOf event.call event.response,
      Reported json run.2.2)
    (retries : Throughout RetriesUnmet events) (workflowId : Bytes) (mode : OkMode) (agg : Tree)
    {report : OkReport}
    (aggregated : (aggregateInputOf json asInt
      (state.store.listWorkflowTasks workflowId)).okReport mode agg = .ok report)
    (pointer : report.config.okPointer = ascii "/ok") {taskId : Bytes}
    (counts : report.CountsOk taskId) :
    ∃ row ∈ state.store.listWorkflowTasks workflowId, row.taskId = taskId ∧ row.status = .done ∧
      ((∃ old ∈ tables.tasks, old.key = row.key ∧ old.status = .done) ∨
        ∃ event ∈ events, PassesTask row.key event) := by
  have trace := verdictTrace_of_run run
  rcases storesOk_of_countsOk aggregated pointer counts with ⟨row, listed, same, ended, stores⟩
  rcases mem_listWorkflowTasks.mp listed with ⟨held, there, rfl, _⟩
  rcases ended with done | failed
  · exact ⟨_, listed, same, done, passed_of_done trace held there done⟩
  · exact absurd stores (not_storesOk_of_error trace start reported retries held there failed)

def sampleVerdict (outcome : RunOutcome) : List (SharedStore.Move Operation Outside) :=
  .start .workerTurn :: List.replicate 13 (.advance 0 { outcome })

def sampleOkResult : Bytes :=
  sampleLibrary.write (.object [(ascii "ok", .bool true)])

def sampleOkAggregate : Tree :=
  .object [(ascii "task_ids", .array [.string (ascii "t")])]

def sampleOkOutcome (unmetExpectation : Option Bytes) : RunOutcome where
  ok := true
  unmetExpectation := unmetExpectation
  resultJson := sampleOkResult

theorem reported_sampleOkOutcome (unmetExpectation : Option Bytes) :
    Reported sampleLibrary (sampleOkOutcome unmetExpectation) :=
  ⟨.object [(ascii "ok", .bool true)], ⟨fun _ => rfl, fun _ => rfl⟩, rfl, fun _ _ _ => rfl⟩

theorem counted_tasks_passed_sample :
    ∃ row ∈ (recordedRun sampleEngine sampleTables
        (sampleVerdict (sampleOkOutcome none))).2.store.listWorkflowTasks sampleWorkflow,
      row.taskId = ascii "t" ∧ row.status = .done ∧
        ((∃ old ∈ sampleTables.tasks, old.key = row.key ∧ old.status = .done) ∨
          ∃ event ∈ (recordedRun sampleEngine sampleTables
            (sampleVerdict (sampleOkOutcome none))).1, PassesTask row.key event) := by
  apply counted_tasks_passed sampleLibrary (fun _ => none) (run_recordedRun ..) _ _ _ _ .quorumOk
    sampleOkAggregate rfl rfl
  · exact .inl (by decide)
  · intro row member failed
    rw [List.mem_singleton.mp member] at failed
    exact nomatch failed
  · intro event member run ran
    have same : ∀ event ∈ (recordedRun sampleEngine sampleTables
        (sampleVerdict (sampleOkOutcome none))).1, ∀ run ∈ runOf event.call event.response,
          run.2.2 = sampleOkOutcome none := by
      decide
    rw [same event member run ran]
    exact reported_sampleOkOutcome none
  · decide

/-- A task whose run was ok and missed its expectation is in error, and counted. -/
theorem unmet_expectation_counted :
    ∃ state, Reachable sampleEngine state ∧
      (∀ row ∈ state.store.listWorkflowTasks sampleWorkflow, row.taskId = ascii "t" →
        row.status = .error) ∧
      ∀ mode, ∃ report,
        (aggregateInputOf sampleLibrary (fun _ => none)
          (state.store.listWorkflowTasks sampleWorkflow)).okReport mode sampleOkAggregate =
            .ok report ∧
        report.config.okPointer = ascii "/ok" ∧ report.CountsOk (ascii "t") := by
  refine ⟨sampleRun (sampleVerdict (sampleOkOutcome (some (ascii "unmet")))),
    reachable_sampleRun _, by decide, fun mode => ?_⟩
  cases mode with
  | firstOk => exact ⟨_, rfl, rfl, .inr (.inr ⟨_, rfl⟩)⟩
  | quorumOk => exact ⟨_, rfl, rfl, .inr (.inr ⟨_, rfl⟩)⟩
  | strictAllOk => exact ⟨_, rfl, rfl, .inr (.inr ⟨_, rfl⟩)⟩

end AgentC.Workflow
