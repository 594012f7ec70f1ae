import AgentC.Workflow.EndedWorkflows
import AgentC.Workflow.SubmittedDependencies

/-! # A single worker

One worker runs beside the endpoint that accepts submissions. A workflow that
ends leaves no task queued or running, except that one task that fails ends it
at once, with the other tasks as they are. -/

namespace AgentC.Workflow

/-- The tables, and what is left of the operation of the worker. -/
structure WorkerState where
  store : Store := {}
  remaining : Action Unit := .done ()

/-- A workflow is submitted, or the worker, when it is idle, begins a turn or a
finalization, or the worker makes its next call. -/
inductive WorkerStep (json : JsonLibrary) (limits : AdmissionLimits) (engine : Engine) :
    WorkerState → WorkerState → Prop
  | submit {store next : Store} {remaining : Action Unit} {workflowId : Bytes} (earlier : Store)
      (submission : Submission)
      (accepted : workflowSubmitHandle json limits earlier store submission =
        (.ok (.created workflowId), next)) :
      WorkerStep json limits engine { store, remaining } { store := next, remaining }
  | turn (store : Store) :
      WorkerStep json limits engine { store } { store, remaining := workerTurn engine }
  | finalize (store : Store) (workflowId : Bytes) :
      WorkerStep json limits engine { store }
        { store, remaining := maybeFinalizeWorkflow engine workflowId }
  | perform {store next : Store} {call : Call} {response : Response call}
      {continuation : Response call → Action Unit} (effect : Effect call store response next) :
      WorkerStep json limits engine { store, remaining := .call call continuation }
        { store := next, remaining := continuation response }

/-- A call that records a task without `allow_error` as failed is made when no
other task of its workflow is queued or running. -/
def RecordsLast (store : Store) : Call → Prop
  | .upsertWorkflowTask row => row.isHardError = true → ∀ other ∈ store.tasks,
      other.workflowId = row.workflowId → other.key ≠ row.key → Store.isInflight other = false
  | _ => True

/-- The next call of the worker, if it has one, records no failure too early. -/
def WorkerState.RecordsLast (state : WorkerState) : Prop :=
  match state.remaining with
  | .call call _ => Workflow.RecordsLast state.store call
  | .done _ => True

/-! ## Tasks of workflows that have ended -/

theorem isInflight_eq (row : WorkflowTaskRow) : Store.isInflight row = !row.status.isTerminal := by
  rw [Store.isInflight]
  cases row.status with
  | _ => rfl

/-- The workflow has a row, and none of its tasks is queued or running. -/
structure HasEnded (store : Store) (workflowId : Bytes) : Prop where
  present : ∃ row ∈ store.workflows, row.workflowId = workflowId
  tasks : ∀ task ∈ store.tasks, task.workflowId = workflowId → Store.isInflight task = false

/-- Workflows keep their rows, and those that have ended stay so. -/
structure Persists (store next : Store) : Prop where
  present : ∀ workflowId, (∃ row ∈ store.workflows, row.workflowId = workflowId) →
    ∃ row ∈ next.workflows, row.workflowId = workflowId
  ended : ∀ workflowId, HasEnded store workflowId → HasEnded next workflowId

/-- Until the worker records its task, the task is running. -/
def ClaimRuns (known : Knowledge) (store : Store) : Prop :=
  ∀ claim, known.claim = some claim → known.recorded = false →
    ∃ row ∈ store.tasks, row.key = claim.key ∧ row.status = .running

variable {row task : WorkflowTaskRow}

section Calls

variable {engine : Engine} {known : Knowledge} {store next : Store} {call : Call}
  {response : Response call}

theorem present_of_effect (effect : Effect call store response next) {workflowId : Bytes}
    (present : ∃ row ∈ store.workflows, row.workflowId = workflowId) :
    ∃ row ∈ next.workflows, row.workflowId = workflowId := by
  rcases workflows_of_effect effect with same | ⟨row, _, next_eq⟩
  · rw [same]
    exact present
  · rw [next_eq]
    exact Store.upsertWorkflow_present (.inl present)

/-- A task that the worker writes is cancelled, or is the one that it runs. -/
theorem WritesTask.cases (from_ : FromListings known) (runs : ClaimRuns known store)
    (writes : WritesTask known row) :
    (known.claim = none ∧ row.status = .cancelled ∧ ∃ copy ∈ known.tasks, copy.key = row.key) ∨
      ∃ held ∈ store.tasks, held.key = row.key ∧ held.status = .running := by
  cases claimed : known.claim with
  | none =>
    rw [WritesTask, claimed] at writes
    rcases writes with ⟨copy, member, cancels⟩
    refine .inl ⟨rfl, cancels.status, copy, member, ?_⟩
    rw [WorkflowTaskRow.key, WorkflowTaskRow.key, cancels.same.workflowId, cancels.same.taskId]
  | some claim =>
    rw [WritesTask, claimed] at writes
    rcases writes with ⟨unrecorded, copy, made, records⟩
    rcases runs claim claimed unrecorded with ⟨held, there, heldKey, running⟩
    refine .inr ⟨held, there, heldKey.trans ?_, running⟩
    rw [Claim.key, WorkflowTaskRow.key, records.same.workflowId, records.same.taskId,
      from_.claim claim claimed copy made.listed, made.taskId]

theorem persists_of_effect (from_ : FromListings known) (runs : ClaimRuns known store)
    (allowed : MayCall engine known call) (effect : Effect call store response next) :
    Persists store next := by
  refine ⟨fun _ => present_of_effect effect, ?_⟩
  intro workflowId ended
  refine ⟨present_of_effect effect ended.present, ?_⟩
  intro task member named
  cases taskChange_of_effect effect with
  | untouched _ _ same =>
    rw [same] at member
    exact ended.tasks task member named
  | written row isNamed next_eq =>
    rw [next_eq] at member
    rcases mem_upsertWorkflowTask isNamed member with new | ⟨old, _⟩
    · rcases WritesTask.cases from_ runs allowed with ⟨_, cancelled, _⟩ | ⟨held, there, key, running⟩
      · rw [isInflight_eq, new.status, cancelled]
        rfl
      · have heldId : held.workflowId = workflowId :=
          (congrArg Prod.fst (key.trans new.key.symm)).trans named
        have impossible := ended.tasks held there heldId
        rw [isInflight_eq, running] at impossible
        exact nomatch impossible
    · exact ended.tasks task old named
  | claimed wid taskId nowUnixMs newAttempt _ _ _ _ _ _ _ tasks =>
    rw [tasks] at member
    rcases mem_updateQueued member with ⟨old, there, _, queued, updated⟩ | ⟨old, _⟩
    · rw [updated] at named
      have impossible := ended.tasks old there named
      rw [isInflight_eq, queued] at impossible
      exact nomatch impossible
    · exact ended.tasks task old named
  | cancelled _ _ _ _ _ tasks =>
    rw [tasks] at member
    rcases mem_updateQueued member with ⟨old, _, _, _, updated⟩ | ⟨old, _⟩
    · rw [updated]
      rfl
    · exact ended.tasks task old named

theorem running_of_effect {held : WorkflowTaskRow} (effect : Effect call store response next)
    (unwritten : ∀ row, call ≠ .upsertWorkflowTask row) (there : held ∈ store.tasks)
    (running : held.status = .running) : held ∈ next.tasks := by
  have unqueued : ∀ key update, updateQueued key update held = held := by
    intro key update
    rw [updateQueued, if_neg]
    rw [running]
    rintro ⟨_, ⟨⟩⟩
  cases taskChange_of_effect effect with
  | untouched _ _ same => rw [same]; exact there
  | written row => exact absurd rfl (unwritten row)
  | claimed workflowId taskId _ _ _ _ _ _ _ _ _ tasks =>
    rw [tasks]
    exact List.mem_map.mpr ⟨held, there, unqueued _ _⟩
  | cancelled workflowId taskId _ _ _ tasks =>
    rw [tasks]
    exact List.mem_map.mpr ⟨held, there, unqueued _ _⟩

theorem ClaimRuns.effect (runs : ClaimRuns known store) (effect : Effect call store response next) :
    ClaimRuns (known.advance call response) next := by
  have kept : (∀ row, call ≠ .upsertWorkflowTask row) → ClaimRuns known next := by
    intro unwritten claim claimed unrecorded
    rcases runs claim claimed unrecorded with ⟨held, there, key, running⟩
    exact ⟨held, running_of_effect effect unwritten there running, key, running⟩
  cases call with
  | upsertWorkflowTask row =>
    intro claim claimed unrecorded
    have isClaimed : known.claim = some claim := claimed
    have recorded : (known.recorded || known.claim.isSome) = false := unrecorded
    rw [isClaimed, Option.isSome_some, Bool.or_true] at recorded
    exact nomatch recorded
  | claimWorkflowTaskBudgeted workflowId taskId nowUnixMs newAttempt perWorkflow perSession
      sessionId =>
    cases response with
    | false => exact kept fun row impossible => nomatch impossible
    | true =>
      intro claim claimed _
      cases claimed
      have change : TaskChange store next (.claimWorkflowTaskBudgeted workflowId taskId nowUnixMs
        newAttempt perWorkflow perSession sessionId) true := taskChange_of_effect effect
      cases change with
      | untouched unclaimed => exact nomatch unclaimed
      | claimed _ _ _ _ _ _ _ queued _ _ _ tasks =>
        rcases queued with ⟨row, there, key, isQueued⟩
        rw [tasks]
        refine ⟨claimedRow nowUnixMs newAttempt row, ?_, key, rfl⟩
        exact List.mem_map.mpr ⟨row, there, if_pos ⟨key, isQueued⟩⟩
  | _ => exact kept fun row impossible => nomatch impossible

end Calls

/-! ## What the worker knows -/

/-- What the worker has read of workflows and tasks that have ended is so still. -/
structure Informed (known : Knowledge) (store : Store) : Prop where
  from_ : FromListings known
  workflows : ∀ copy ∈ known.workflows,
    ∃ row ∈ store.workflows, row.workflowId = copy.workflowId
  ended : ∀ copy ∈ known.workflows, copy.status.isTerminal = true →
    HasEnded store copy.workflowId
  read : ∀ copy, known.read = some copy →
    copy ∈ known.workflows ∧ copy.workflowId = known.asked
  tasks : ∀ copy ∈ known.tasks, ∃ row ∈ store.workflows, row.workflowId = copy.workflowId
  hard : ∀ copy ∈ known.tasks, copy.isHardError = true → HasEnded store copy.workflowId
  complete : ∀ copy, known.seen = some copy → copy.workflowId = known.listed →
    (∀ task ∈ known.tasks, task.status.isTerminal = true) → HasEnded store known.listed

theorem informed_nothing (store : Store) : Informed {} store where
  from_ := ⟨fun _ member => (nomatch member), fun _ claimed => (nomatch claimed)⟩
  workflows := fun _ member => (nomatch member)
  ended := fun _ member => (nomatch member)
  read := fun _ read => (nomatch read)
  tasks := fun _ member => (nomatch member)
  hard := fun _ member => (nomatch member)
  complete := fun _ seen => (nomatch seen)

variable {store : Store}

theorem Informed.persists {known : Knowledge} {next : Store} (informed : Informed known store)
    (persists : Persists store next) : Informed known next where
  from_ := informed.from_
  workflows := fun copy member => persists.present _ (informed.workflows copy member)
  ended := fun copy member terminal => persists.ended _ (informed.ended copy member terminal)
  read := informed.read
  tasks := fun copy member => persists.present _ (informed.tasks copy member)
  hard := fun copy member isHard => persists.ended _ (informed.hard copy member isHard)
  complete := fun copy seen named all => persists.ended _ (informed.complete copy seen named all)

/-- Every task has a workflow, and a workflow has ended if one of its tasks has
failed or its row says so. -/
structure Orderly (store : Store) : Prop where
  anchored : Anchored store
  hard : ∀ task ∈ store.tasks, task.isHardError = true → HasEnded store task.workflowId
  ended : ∀ workflow ∈ store.workflows, workflow.status.isTerminal = true →
    HasEnded store workflow.workflowId

section Reading

variable {engine : Engine} {known : Knowledge} {store next : Store} {call : Call}
  {response : Response call}

theorem Informed.written {copy row : WorkflowRow} (informed : Informed known store)
    (writes : WritesWorkflow engine known copy row) :
    copy ∈ known.workflows ∧ row.workflowId = copy.workflowId := by
  rcases writes.identity with ⟨source, same⟩
  refine ⟨?_, congrArg Prod.fst same⟩
  rcases source with member | read
  · exact member
  · exact (informed.read copy read).1

theorem Informed.advance_read (informed : Informed known store)
    (effect : Effect call store response next) :
    ∀ copy, (known.advance call response).read = some copy →
      copy ∈ (known.advance call response).workflows ∧
        copy.workflowId = (known.advance call response).asked := by
  intro copy read
  cases call with
  | getWorkflow asked =>
    have reads : Reads store (.getWorkflow asked) response := reads_of_effect effect
    rcases reads copy read with ⟨held, _, same, named⟩
    refine ⟨List.mem_append_left _ (Option.mem_toList.mpr read), ?_⟩
    rw [same]
    exact named
  | listWorkflowsByStatus =>
    exact ⟨List.mem_append_right _ (informed.read copy read).1, (informed.read copy read).2⟩
  | upsertWorkflow row =>
    have quiet : known.Quiet (.upsertWorkflow row) := trivial
    exact ⟨(Knowledge.extends_advance quiet response).workflows (informed.read copy read).1,
      (informed.read copy read).2⟩
  | claimWorkflowTaskBudgeted workflowId taskId nowUnixMs newAttempt perWorkflow perSession
      sessionId =>
    cases response with
    | false => exact informed.read copy read
    | true => exact informed.read copy read
  | _ => exact informed.read copy read

/-- A listing that shows no task queued or running is one of a workflow that has
ended, if the worker had read the row of the workflow. -/
theorem Informed.listing {asked : Bytes} {listed : Option (List WorkflowTaskRow)}
    (informed : Informed known store) (reads : Reads store (.listWorkflowTasks asked) listed)
    {copy : WorkflowRow} (seen : (if listed.isSome then known.read else none) = some copy)
    (named : copy.workflowId = asked)
    (all : ∀ task ∈ listed.getD [], task.status.isTerminal = true) : HasEnded store asked := by
  cases listed with
  | none => exact nomatch seen
  | some rows =>
    constructor
    · rw [← named]
      exact informed.workflows copy (informed.read copy seen).1
    · intro task there belongs
      have terminal := all _ ((reads rows rfl _).mpr ⟨task, there, rfl, belongs⟩)
      rw [isInflight_eq, show task.status.isTerminal = true from terminal]
      rfl

theorem Informed.advance (informed : Informed known store) (orderly : Orderly store)
    (allowed : MayCall engine known call) (effect : Effect call store response next) :
    Informed (known.advance call response) store := by
  constructor
  · exact informed.from_.advance allowed effect
  · intro copy member
    rcases mem_advance_workflows effect member with ⟨held, there, read⟩ | ⟨marked, _⟩ | old
    · rw [read]
      exact ⟨held, there, rfl⟩
    · subst marked
      rcases allowed with ⟨source, writes⟩
      rcases informed.written writes with ⟨sourceMember, same⟩
      rw [same]
      exact informed.workflows source sourceMember
    · exact informed.workflows copy old
  · intro copy member terminal
    rcases mem_advance_workflows effect member with ⟨held, there, read⟩ | ⟨_, running⟩ | old
    · rw [read] at terminal ⊢
      exact orderly.ended held there terminal
    · rw [running] at terminal
      exact nomatch terminal
    · exact informed.ended copy old terminal
  · exact informed.advance_read effect
  · intro copy member
    rcases mem_advance_tasks effect member with ⟨_, held, there, read⟩ | ⟨_, old⟩
    · rw [read]
      exact orderly.anchored held there
    · exact informed.tasks copy old
  · intro copy member isHard
    rcases mem_advance_tasks effect member with ⟨_, held, there, read⟩ | ⟨_, old⟩
    · rw [read] at isHard ⊢
      exact orderly.hard held there isHard
    · exact informed.hard copy old isHard
  · intro copy seen named all
    by_cases listing : isListing call = true
    · cases call with
      | listWorkflowTasks asked => exact informed.listing (reads_of_effect effect) seen named all
      | _ => exact nomatch listing
    · have other := Bool.eq_false_of_not_eq_true listing
      rw [advance_seen other] at seen
      rw [advance_listed other] at named ⊢
      rw [advance_tasks other] at all
      exact informed.complete copy seen named all

/-! ## What the worker writes -/

theorem Informed.ends {copy row : WorkflowRow} (informed : Informed known store)
    (writes : WritesWorkflow engine known copy row) (terminal : row.status.isTerminal = true) :
    HasEnded store copy.workflowId := by
  have member := (informed.written writes).1
  cases writes with
  | marked => exact nomatch terminal
  | flagged => exact informed.ended copy member terminal
  | requested =>
    apply informed.ended copy member
    dsimp only at terminal
    split at terminal
    · exact nomatch terminal
    · exact terminal
  | final nowUnixMs read seen listed =>
    have named : copy.workflowId = known.listed :=
      (informed.read copy read).2.trans listed.symm
    have complete := informed.complete copy seen named
    have status : Finalizes copy known.tasks (finalStatus copy known.tasks).1 :=
      finalizes copy known.tasks
    rw [show (finalRow engine copy known.tasks nowUnixMs).status =
      (finalStatus copy known.tasks).1 from rfl] at terminal
    generalize (finalStatus copy known.tasks).1 = final at status terminal
    cases status with
    | error hard =>
      rcases hard with ⟨task, listedTask, isHard⟩
      have ended := informed.hard task listedTask isHard
      rw [informed.from_.tasks task listedTask, ← named] at ended
      exact ended
    | cancelled _ _ all =>
      rw [named]
      exact complete all
    | done _ _ _ all =>
      rw [named]
      exact complete all
    | live _ _ open_ =>
      rw [terminal] at open_
      exact nomatch open_
    | none => exact informed.ended copy member terminal

theorem origin_of_effect (effect : Effect call store response next) (member : task ∈ next.tasks) :
    (∃ held ∈ store.tasks, held.workflowId = task.workflowId ∧
      (task.isHardError = true → held.isHardError = true)) ∨
      ∃ row, call = .upsertWorkflowTask row ∧ (row.workflowId ≠ [] ∧ row.taskId ≠ []) ∧
        next = (store.upsertWorkflowTask row).2 ∧ WrittenTask row task := by
  cases taskChange_of_effect effect with
  | untouched _ _ same =>
    rw [same] at member
    exact .inl ⟨task, member, rfl, id⟩
  | written row named next_eq =>
    rw [next_eq] at member
    rcases mem_upsertWorkflowTask named member with new | ⟨old, _⟩
    · exact .inr ⟨row, rfl, named, next_eq, new⟩
    · exact .inl ⟨task, old, rfl, id⟩
  | claimed _ _ _ _ _ _ _ _ _ _ _ tasks =>
    rw [tasks] at member
    rcases mem_updateQueued member with ⟨old, there, _, _, updated⟩ | ⟨old, _⟩
    · rw [updated]
      exact .inl ⟨old, there, rfl, fun impossible => nomatch impossible⟩
    · exact .inl ⟨task, old, rfl, id⟩
  | cancelled _ _ _ _ _ tasks =>
    rw [tasks] at member
    rcases mem_updateQueued member with ⟨old, there, _, _, updated⟩ | ⟨old, _⟩
    · rw [updated]
      exact .inl ⟨old, there, rfl, fun impossible => nomatch impossible⟩
    · exact .inl ⟨task, old, rfl, id⟩

theorem Informed.writtenTask (informed : Informed known store) (anchored : Anchored store)
    (runs : ClaimRuns known store) (writes : WritesTask known row) :
    ∃ workflow ∈ store.workflows, workflow.workflowId = row.workflowId := by
  rcases writes.cases informed.from_ runs with ⟨_, _, copy, member, key⟩ | ⟨held, there, key, _⟩
  · rw [← show copy.workflowId = row.workflowId from congrArg Prod.fst key]
    exact informed.tasks copy member
  · rw [← show held.workflowId = row.workflowId from congrArg Prod.fst key]
    exact anchored held there

theorem hasEnded_of_recorded (named : row.workflowId ≠ [] ∧ row.taskId ≠ [])
    (last : RecordsLast store (.upsertWorkflowTask row)) (written : WrittenTask row task)
    (isHard : task.isHardError = true)
    (present : ∃ workflow ∈ store.workflows, workflow.workflowId = row.workflowId) :
    HasEnded (store.upsertWorkflowTask row).2 task.workflowId := by
  have belongs : task.workflowId = row.workflowId := congrArg Prod.fst written.key
  have rowIsHard : row.isHardError = true :=
    (isHardError_congr written.status written.allowError).symm.trans isHard
  rw [belongs]
  constructor
  · rw [store.upsertWorkflowTask_workflows]
    exact present
  · intro other member sameWorkflow
    rcases mem_upsertWorkflowTask named member with new | ⟨old, otherKey⟩
    · rw [isInflight_eq, new.status, (of_decide_eq_true rowIsHard).1]
      rfl
    · exact last rowIsHard other old sameWorkflow otherKey

theorem Orderly.effect (orderly : Orderly store) (informed : Informed known store)
    (runs : ClaimRuns known store) (allowed : MayCall engine known call)
    (effect : Effect call store response next) (last : RecordsLast store call) : Orderly next := by
  have persists := persists_of_effect informed.from_ runs allowed effect
  constructor
  · intro task member
    apply persists.present
    rcases origin_of_effect effect member with ⟨held, there, same, _⟩ | ⟨row, call_eq, _, _, new⟩
    · rw [← same]
      exact orderly.anchored held there
    · subst call_eq
      rw [show task.workflowId = row.workflowId from congrArg Prod.fst new.key]
      exact informed.writtenTask orderly.anchored runs allowed
  · intro task member isHard
    rcases origin_of_effect effect member with
      ⟨held, there, same, wasHard⟩ | ⟨row, call_eq, named, next_eq, new⟩
    · rw [← same]
      exact persists.ended _ (orderly.hard held there (wasHard isHard))
    · subst call_eq next_eq
      exact hasEnded_of_recorded named last new isHard
        (informed.writtenTask orderly.anchored runs allowed)
  · intro workflow member terminal
    rcases workflows_of_effect effect with same | ⟨row, call_eq, next_eq⟩
    · rw [same] at member
      exact persists.ended _ (orderly.ended workflow member terminal)
    · subst call_eq next_eq
      apply persists.ended
      by_cases unnamed : row.workflowId = []
      · rw [Store.upsertWorkflow_unnamed unnamed] at member
        exact orderly.ended workflow member terminal
      · rcases Store.mem_upsertWorkflow unnamed member with new | ⟨old, _⟩
        · rcases allowed with ⟨copy, writes⟩
          rw [new.status] at terminal
          rw [new.workflowId, (informed.written writes).2]
          exact informed.ends writes terminal
        · exact orderly.ended workflow old terminal

end Reading

section Submissions

variable {json : JsonLibrary} {submission : Submission}
  {identified : List (Bytes × SubmittedTask)} {workflow : WorkflowRow}
  {tasks : List WorkflowTaskRow} {store next : Store}

theorem Creates.persists (creates : Creates store workflow tasks next) : Persists store next := by
  have present : ∀ workflowId, (∃ row ∈ store.workflows, row.workflowId = workflowId) →
      ∃ row ∈ next.workflows, row.workflowId = workflowId := by
    intro workflowId stored
    rcases stored with ⟨row, member, named⟩
    rw [creates.workflows]
    exact ⟨row, List.mem_append_left _ member, named⟩
  refine ⟨present, ?_⟩
  intro workflowId ended
  refine ⟨present workflowId ended.present, ?_⟩
  intro task member named
  rw [creates.tasks] at member
  rcases List.mem_append.mp member with old | new
  · exact ended.tasks task old named
  · rcases List.mem_map.mp new with ⟨row, _, created⟩
    rcases ended.present with ⟨held, there, heldId⟩
    have sameId : workflow.workflowId = workflowId := by
      rw [← named, ← created]
      rfl
    exact absurd (heldId.trans sameId.symm) (creates.fresh held there)

theorem Submission.Passes.queued_tasks (passes : submission.Passes json identified workflow tasks)
    (member : row ∈ tasks) : row.status = .queued := by
  rw [passes.tasks] at member
  rcases List.mem_map.mp member with ⟨entry, _, made⟩
  rw [← made]
  rfl

theorem Orderly.creates (orderly : Orderly store)
    (passes : submission.Passes json identified workflow tasks)
    (creates : Creates store workflow tasks next) : Orderly next := by
  have persists := creates.persists
  constructor
  · intro task member
    rw [creates.tasks] at member
    rcases List.mem_append.mp member with old | new
    · exact persists.present _ (orderly.anchored task old)
    · rcases List.mem_map.mp new with ⟨row, _, created⟩
      rw [creates.workflows, ← created]
      exact ⟨_, List.mem_append_right _ (List.mem_singleton.mpr rfl), rfl⟩
  · intro task member isHard
    rw [creates.tasks] at member
    rcases List.mem_append.mp member with old | new
    · exact persists.ended _ (orderly.hard task old isHard)
    · rcases List.mem_map.mp new with ⟨row, rowMember, created⟩
      rw [← created] at isHard
      have failed : row.status = .error := (of_decide_eq_true isHard).1
      rw [passes.queued_tasks rowMember] at failed
      exact nomatch failed
  · intro row member terminal
    rw [creates.workflows] at member
    rcases List.mem_append.mp member with old | new
    · exact persists.ended _ (orderly.ended row old terminal)
    · rw [List.mem_singleton.mp new] at terminal
      have impossible : workflow.status.isTerminal = true := terminal
      rw [passes.queued] at impossible
      exact nomatch impossible

end Submissions

/-! ## Runs -/

/-- What holds in every state that the worker reaches. -/
structure WorkerState.Sound (engine : Engine) (state : WorkerState) : Prop where
  orderly : Orderly state.store
  worker : ∃ known, Conducts engine known state.remaining ∧ Informed known state.store ∧
    ClaimRuns known state.store

theorem claimRuns_nothing (store : Store) : ClaimRuns {} store :=
  fun _ claimed => nomatch claimed

theorem WorkerState.Sound.step {json : JsonLibrary} {limits : AdmissionLimits} {engine : Engine}
    {before after : WorkerState} (sound : before.Sound engine)
    (step : WorkerStep json limits engine before after) (last : before.RecordsLast) :
    after.Sound engine := by
  cases step with
  | submit earlier submission accepted =>
    rcases passes_of_created accepted with ⟨identified, workflow, tasks, passes, _, creates⟩
    rcases sound.worker with ⟨known, conducts, informed, runs⟩
    refine ⟨sound.orderly.creates passes creates, known, conducts,
      informed.persists creates.persists, ?_⟩
    intro claim claimed unrecorded
    rcases runs claim claimed unrecorded with ⟨held, there, running⟩
    refine ⟨held, ?_, running⟩
    rw [creates.tasks]
    exact List.mem_append_left _ there
  | turn store =>
    exact ⟨sound.orderly, {}, conducts_workerTurn, informed_nothing store,
      claimRuns_nothing store⟩
  | finalize store workflowId =>
    exact ⟨sound.orderly, {}, (keepsClaim_maybeFinalizeWorkflow workflowId).conducts,
      informed_nothing store, claimRuns_nothing store⟩
  | perform effect =>
    rcases sound.worker with ⟨known, conducts, informed, runs⟩
    have persists := persists_of_effect informed.from_ runs conducts.1 effect
    exact ⟨sound.orderly.effect informed runs conducts.1 effect last, _, conducts.2 _,
      (informed.advance sound.orderly conducts.1 effect).persists persists, runs.effect effect⟩

def NoLiveTasks (store : Store) : Prop :=
  ∀ workflow ∈ store.workflows, workflow.status.isTerminal = true →
    ∀ task ∈ store.tasks, task.workflowId = workflow.workflowId → Store.isInflight task = false

def isScheduled (store : Store) (inScope : WorkflowRow → Bool) (task : WorkflowTaskRow) : Bool :=
  store.workflows.any fun workflow =>
    workflow.workflowId = task.workflowId ∧ inScope workflow ∧
      (workflow.status = .queued ∨ workflow.status = .running)

/-- The counters of admission control count tasks of workflows that the
scheduler lists, and no others. -/
structure CountsScheduled (store : Store) : Prop where
  total : store.countWorkflowInflightTasksTotal =
    store.tasks.countP fun task => Store.isInflight task && isScheduled store (fun _ => true) task
  session : ∀ sessionId, store.countWorkflowInflightTasksForSession sessionId =
    store.tasks.countP fun task => Store.isInflight task &&
      isScheduled store (fun workflow => workflow.sessionId = sessionId) task

theorem Orderly.noLiveTasks (orderly : Orderly store) : NoLiveTasks store :=
  fun workflow member terminal => (orderly.ended workflow member terminal).tasks

theorem Orderly.listed (orderly : Orderly store) (there : task ∈ store.tasks)
    (inflight : Store.isInflight task = true) {workflow : WorkflowRow}
    (member : workflow ∈ store.workflows) (named : workflow.workflowId = task.workflowId) :
    workflow.status = .queued ∨ workflow.status = .running := by
  have live : workflow.status.isTerminal = false := by
    apply Bool.eq_false_of_not_eq_true
    intro terminal
    rw [orderly.noLiveTasks workflow member terminal task there named.symm] at inflight
    exact nomatch inflight
  cases status : workflow.status with
  | queued => exact .inl rfl
  | running => exact .inr rfl
  | done =>
    rw [status] at live
    exact nomatch live
  | error =>
    rw [status] at live
    exact nomatch live
  | cancelled =>
    rw [status] at live
    exact nomatch live

theorem Orderly.isScheduled_eq (orderly : Orderly store) (there : task ∈ store.tasks)
    (inflight : Store.isInflight task = true) (inScope : WorkflowRow → Bool) :
    isScheduled store inScope task =
      store.workflows.any fun workflow =>
        workflow.workflowId = task.workflowId ∧ inScope workflow := by
  rw [isScheduled, Bool.eq_iff_iff, List.any_eq_true, List.any_eq_true]
  constructor
  · rintro ⟨workflow, member, holds⟩
    have parts := of_decide_eq_true holds
    exact ⟨workflow, member, decide_eq_true ⟨parts.1, parts.2.1⟩⟩
  · rintro ⟨workflow, member, holds⟩
    have parts := of_decide_eq_true holds
    exact ⟨workflow, member, decide_eq_true
      ⟨parts.1, parts.2, orderly.listed there inflight member parts.1⟩⟩

theorem Orderly.countsScheduled (orderly : Orderly store) : CountsScheduled store := by
  constructor
  · apply List.countP_congr
    intro task there
    rw [Bool.and_eq_true, iff_self_and]
    intro inflight
    rw [orderly.isScheduled_eq there inflight, List.any_eq_true]
    rcases orderly.anchored task there with ⟨workflow, member, named⟩
    exact ⟨workflow, member, decide_eq_true ⟨named, rfl⟩⟩
  · intro sessionId
    apply List.countP_congr
    intro task there
    rw [Bool.and_eq_true, Bool.and_eq_true, and_congr_right_iff]
    intro inflight
    rw [orderly.isScheduled_eq there inflight]
    simp only [decide_eq_true_eq]

/-- In every run of a single worker and the endpoint for submissions, from empty
tables on, in which no task without `allow_error` is recorded as failed while
another task of its workflow is queued or running: a workflow with a final
status has no task queued or running, and admission control counts tasks of
workflows that the scheduler lists only. -/
theorem terminal_workflows_hold_no_live_tasks (json : JsonLibrary) (limits : AdmissionLimits)
    (engine : Engine) {state : WorkerState}
    (reached : Relation.ReflTransGen (fun before after =>
      WorkerStep json limits engine before after ∧ before.RecordsLast) {} state) :
    NoLiveTasks state.store ∧ CountsScheduled state.store := by
  have sound : state.Sound engine := by
    induction reached with
    | refl =>
      constructor
      · exact ⟨fun _ member => (nomatch member), fun _ member => (nomatch member),
          fun _ member => (nomatch member)⟩
      · exact ⟨{}, trivial, informed_nothing _, claimRuns_nothing _⟩
    | tail _ step induction => exact induction.step step.1 step.2
  exact ⟨sound.orderly.noLiveTasks, sound.orderly.countsScheduled⟩

/-! ## Sample runs -/

inductive WorkerMove
  | submit (submission : Submission)
  | turn
  | advance (outside : Outside)

section Moves

variable (json : JsonLibrary) (engine : Engine)

/-- A move that is not possible does nothing. -/
def WorkerState.move (state : WorkerState) : WorkerMove → WorkerState
  | .submit submission =>
    match workflowSubmitHandle json {} state.store state.store submission with
    | (.ok (.created _), next) => { state with store := next }
    | _ => state
  | .turn =>
    match state.remaining with
    | .done _ => { state with remaining := workerTurn engine }
    | .call _ _ => state
  | .advance outside =>
    match state.remaining with
    | .done _ => state
    | .call call continuation =>
      { store := (answer outside call state.store).2
        remaining := continuation (answer outside call state.store).1 }

theorem WorkerState.step_move (state : WorkerState) (move : WorkerMove) :
    state.move json engine move = state ∨
      WorkerStep json {} engine state (state.move json engine move) := by
  cases move with
  | submit submission =>
    rw [WorkerState.move]
    split
    · next accepted => exact .inr (.submit state.store submission accepted)
    · exact .inl rfl
  | turn =>
    rcases state with ⟨store, remaining⟩
    cases remaining with
    | done value => exact .inr (.turn store)
    | call => exact .inl rfl
  | advance outside =>
    rcases state with ⟨store, remaining⟩
    cases remaining with
    | done value => exact .inl rfl
    | call => exact .inr (.perform (.inl ⟨outside, rfl⟩))

instance (store : Store) (call : Call) : Decidable (RecordsLast store call) :=
  match call with
  | .upsertWorkflowTask row =>
    inferInstanceAs (Decidable (row.isHardError = true → ∀ other ∈ store.tasks,
      other.workflowId = row.workflowId → other.key ≠ row.key → Store.isInflight other = false))
  | .getWorkflow _ | .listWorkflowsByStatus _ _ | .listWorkflowTasks _ | .upsertWorkflow _
  | .cancelWorkflowTaskIfQueued .. | .claimWorkflowTaskBudgeted .. | .unixMsNow | .schedule _
  | .runTask _ _ => inferInstanceAs (Decidable True)

instance (state : WorkerState) : Decidable state.RecordsLast :=
  match state with
  | ⟨store, .call call _⟩ => inferInstanceAs (Decidable (RecordsLast store call))
  | ⟨_, .done _⟩ => inferInstanceAs (Decidable True)

def Careful (required : WorkerState → Prop) : List WorkerMove → WorkerState → Prop
  | [], _ => True
  | move :: rest, state => required state ∧ Careful required rest (state.move json engine move)

instance decideCareful (required : WorkerState → Prop) [DecidablePred required] :
    (moves : List WorkerMove) → (state : WorkerState) →
      Decidable (Careful json engine required moves state)
  | [], _ => inferInstanceAs (Decidable True)
  | move :: rest, state =>
    have := decideCareful required rest (state.move json engine move)
    inferInstanceAs (Decidable (required state ∧
      Careful json engine required rest (state.move json engine move)))

theorem reaches_of_careful {required : WorkerState → Prop} (moves : List WorkerMove)
    {state : WorkerState} (careful : Careful json engine required moves state) :
    Relation.ReflTransGen (fun before after =>
      WorkerStep json {} engine before after ∧ required before) state
      (moves.foldl (WorkerState.move json engine) state) := by
  induction moves generalizing state with
  | nil => exact .refl
  | cons move rest induction =>
    have further := induction careful.2
    rcases state.step_move json engine move with same | step
    · rw [same] at further
      rw [List.foldl_cons, same]
      exact further
    · exact .head ⟨step, careful.1⟩ further

end Moves

def parsingEngine : Engine :=
  { sampleEngine with parseDepIds := parseDepIds sampleLibrary }

def failedRun : Outside where
  outcome := { ok := false }

def firstTurn (outside : Outside) : List WorkerMove :=
  .submit (sampleSubmission (ascii "a")) :: .turn :: List.replicate 20 (.advance outside)

def failsLast : List WorkerMove :=
  firstTurn {} ++ .turn :: List.replicate 20 (.advance failedRun)

theorem terminal_workflows_hold_no_live_tasks_sample :
    ((failsLast.foldl (WorkerState.move sampleLibrary parsingEngine) {}).store.workflows.map
      WorkflowRow.status = [.error]) ∧
      NoLiveTasks (failsLast.foldl (WorkerState.move sampleLibrary parsingEngine) {}).store := by
  have careful : Careful sampleLibrary parsingEngine WorkerState.RecordsLast failsLast {} := by
    decide
  have reached := reaches_of_careful sampleLibrary parsingEngine failsLast careful
  exact ⟨by decide,
    (terminal_workflows_hold_no_live_tasks sampleLibrary {} parsingEngine reached).1⟩

/-- The first task fails: the workflow has ended, the second task stays queued
and is counted by admission control. -/
theorem failed_workflow_holds_queued_task :
    ∃ state, Relation.ReflTransGen (WorkerStep sampleLibrary {} parsingEngine) {} state ∧
      ¬NoLiveTasks state.store ∧ ¬CountsScheduled state.store := by
  have careful : Careful sampleLibrary parsingEngine (fun _ => True) (firstTurn failedRun) {} := by
    decide
  have reached := reaches_of_careful sampleLibrary parsingEngine (firstTurn failedRun) careful
  refine ⟨_, Relation.ReflTransGen.mono (fun _ _ step => step.1) _ _ reached, ?_, ?_⟩
  · intro none
    have live : ∃ workflow ∈ ((firstTurn failedRun).foldl
        (WorkerState.move sampleLibrary parsingEngine) {}).store.workflows,
          workflow.status.isTerminal = true ∧ ∃ task ∈ ((firstTurn failedRun).foldl
            (WorkerState.move sampleLibrary parsingEngine) {}).store.tasks,
              task.workflowId = workflow.workflowId ∧ Store.isInflight task = true := by
      decide
    rcases live with ⟨workflow, member, terminal, task, there, named, inflight⟩
    rw [none workflow member terminal task there named] at inflight
    exact nomatch inflight
  · intro counts
    exact absurd counts.total (by decide)

end AgentC.Workflow
