import AgentC.Foundation.Runs
import AgentC.Workflow.System

/-! # Conduct of the operations

What the operations may write and claim, by what they have read before. Every
statement about runs of the daemon rests on this description; the programs are
gone through once, to show that they keep to it. -/

namespace AgentC.Workflow

/-- A claim that succeeded, with the listing it was made from. -/
structure Claim where
  workflowId : Bytes
  taskId : Bytes
  attempt : Int
  listing : List WorkflowTaskRow
deriving DecidableEq, Repr

structure Claim.From (claim : Claim) (copy : WorkflowTaskRow) : Prop where
  listed : copy ∈ claim.listing
  taskId : copy.taskId = claim.taskId
  queued : copy.status = .queued
  attempt : claim.attempt = copy.attempt + 1

/-- What an operation has read, and how far it has come. -/
structure Knowledge where
  /-- Every copy of a workflow row it has read, or marked as running. -/
  workflows : List WorkflowRow := []
  /-- The workflow it asked for last, and the row it got. -/
  asked : Bytes := []
  read : Option WorkflowRow := none
  /-- The workflow whose tasks it listed last, and these tasks. -/
  listed : Bytes := []
  tasks : List WorkflowTaskRow := []
  /-- The row it had read when it listed them. -/
  seen : Option WorkflowRow := none
  claim : Option Claim := none
  outcome : Option RunOutcome := none
  /-- The claimed task has been written. -/
  recorded : Bool := false

def Knowledge.advance (known : Knowledge) : (call : Call) → Response call → Knowledge
  | .getWorkflow workflowId, response =>
    { known with
      asked := workflowId
      read := response
      workflows := response.toList ++ known.workflows }
  | .listWorkflowsByStatus _ _, response =>
    { known with workflows := response.getD [] ++ known.workflows }
  | .listWorkflowTasks workflowId, response =>
    { known with
      listed := workflowId
      tasks := response.getD []
      seen := if response.isSome then known.read else none }
  | .upsertWorkflow row, _ =>
    { known with
      workflows :=
        if row.status = .running then row :: known.workflows else known.workflows }
  | .upsertWorkflowTask _, _ => { known with recorded := known.recorded || known.claim.isSome }
  | .claimWorkflowTaskBudgeted workflowId taskId _ newAttempt _ _ _, claimed =>
    if claimed then
      { known with claim := some ⟨workflowId, taskId, newAttempt, known.tasks⟩ }
    else known
  | .runTask _ _, outcome => { known with outcome := some outcome }
  | _, _ => known

/-! ## What an operation may write -/

/-- A copy of a task row in which the parts that belong to the task and not to
its execution are as they were. -/
structure SameTask (row copy : WorkflowTaskRow) : Prop where
  workflowId : row.workflowId = copy.workflowId
  taskId : row.taskId = copy.taskId
  allowError : row.allowError = copy.allowError
  maxAttempts : row.maxAttempts = copy.maxAttempts
  dependsOnJson : row.dependsOnJson = copy.dependsOnJson
  requestJson : row.requestJson = copy.requestJson

structure Cancels (copy row : WorkflowTaskRow) : Prop where
  same : SameTask row copy
  listed : copy.status = .queued
  status : row.status = .cancelled
  attempt : row.attempt = copy.attempt
  cumulative : row.cumulative = copy.cumulative

/-- The resources of a task behind an attempt that had an outcome, or none. -/
def cumulativeBehind (before : Usage) : Option RunOutcome → Usage
  | none => before
  | some outcome =>
    Usage.combine saturatingAdd (Usage.combine max {} before) (Usage.combine max {} outcome.usage)

structure Records (copy : WorkflowTaskRow) (outcome : Option RunOutcome) (row : WorkflowTaskRow) :
    Prop where
  same : SameTask row copy
  attempt : row.attempt = copy.attempt + 1
  cumulative : row.cumulative = cumulativeBehind copy.cumulative outcome
  stopped : row.status ≠ .running
  retried : row.status = .queued → row.attempt < max 1 row.maxAttempts
  unrun : outcome = none → row.status = .cancelled

variable (engine : Engine)

/-- The rows of workflows that may be written, each from a copy. -/
inductive WritesWorkflow (known : Knowledge) : WorkflowRow → WorkflowRow → Prop
  | marked (copy : WorkflowRow) (nowUnixMs : Int) (member : copy ∈ known.workflows)
      (unmarked : copy.status = .queued) (claimed : known.claim.isSome) :
      WritesWorkflow known copy { copy with status := .running, updatedUnixMs := nowUnixMs }
  | flagged (copy : WorkflowRow) (nowUnixMs : Int) (error : Bytes)
      (member : copy ∈ known.workflows) :
      WritesWorkflow known copy
        { copy with cancelRequested := true, updatedUnixMs := nowUnixMs, error }
  | requested (copy : WorkflowRow) (nowUnixMs : Int) (read : known.read = some copy) :
      WritesWorkflow known copy
        { copy with
          cancelRequested := true
          updatedUnixMs := nowUnixMs
          status := if copy.status = .queued then .running else copy.status }
  | final (copy : WorkflowRow) (nowUnixMs : Int) (read : known.read = some copy)
      (seen : known.seen = some copy) (listed : known.listed = known.asked) :
      WritesWorkflow known copy (finalRow engine copy known.tasks nowUnixMs)

/-- The rows of tasks that may be written: copies listed as queued, until a
claim succeeds, and from then on the claimed task, once. -/
def WritesTask (known : Knowledge) (row : WorkflowTaskRow) : Prop :=
  match known.claim with
  | none => ∃ copy ∈ known.tasks, Cancels copy row
  | some claim => known.recorded = false ∧ ∃ copy, claim.From copy ∧ Records copy known.outcome row

structure Claims (known : Knowledge) (workflowId taskId : Bytes) (newAttempt : Int)
    (sessionId : Bytes) : Prop where
  unclaimed : known.claim = none
  listed : known.listed = workflowId
  workflow : ∃ copy ∈ known.workflows, copy.workflowId = workflowId ∧ copy.sessionId = sessionId
  task : ∃ copy ∈ known.tasks, copy.taskId = taskId ∧ copy.status = .queued ∧
    newAttempt = copy.attempt + 1 ∧ dependenciesMet engine known.tasks copy = true

/-- A run that may be started: no limit is used up, if the limits matter. -/
structure Runs (known : Knowledge) (workflow : WorkflowRow) (task : WorkflowTaskRow) : Prop where
  claimed : ∃ claim copy, known.claim = some claim ∧ known.listed = claim.workflowId ∧
    claim.From copy ∧ SameTask task copy
  unrecorded : known.recorded = false
  first : known.outcome = none
  read : workflow ∈ known.workflows
  named : ∃ claim, known.claim = some claim ∧ (workflow.workflowId = claim.workflowId ∨
    known.read = some workflow ∧ known.asked = claim.workflowId)
  budget : (engine.expandedKind task known.tasks).filter (fun kind => kind ∉ unbudgetedKinds) =
      none ∨
    exceededLimit (engine.workflowLimits workflow.specJson) (usageTotals known.tasks) = none

def MayCall (known : Knowledge) : Call → Prop
  | .upsertWorkflow row => ∃ copy, WritesWorkflow engine known copy row
  | .upsertWorkflowTask row => WritesTask known row
  | .claimWorkflowTaskBudgeted workflowId taskId _ newAttempt perWorkflow perSession sessionId =>
    perWorkflow = engine.maxInflightPerWorkflow ∧ perSession = engine.maxInflightPerSession ∧
      Claims engine known workflowId taskId newAttempt sessionId
  | .runTask workflow task => Runs engine known workflow task
  | _ => True

def conduct : Description Knowledge Call Response where
  advance := Knowledge.advance
  allowed := MayCall engine

/-! ## The operations keep to it -/

/-- The operation has read more; its claim and the attempt are as before. -/
structure Knowledge.Extends (known later : Knowledge) : Prop where
  workflows : known.workflows ⊆ later.workflows
  claim : later.claim = known.claim
  outcome : later.outcome = known.outcome
  recorded : later.recorded = known.recorded

theorem Knowledge.Extends.refl (known : Knowledge) : known.Extends known :=
  ⟨List.Subset.refl _, rfl, rfl, rfl⟩

theorem Knowledge.Extends.trans {known later last : Knowledge} (first : known.Extends later)
    (second : later.Extends last) : known.Extends last where
  workflows := List.Subset.trans first.workflows second.workflows
  claim := second.claim.trans first.claim
  outcome := second.outcome.trans first.outcome
  recorded := second.recorded.trans first.recorded

def Knowledge.Quiet (known : Knowledge) : Call → Prop
  | .claimWorkflowTaskBudgeted .. => False
  | .runTask _ _ => False
  | .upsertWorkflowTask _ => known.claim = none
  | _ => True

variable {call : Call} (nowUnixMs : Int) {workflow : WorkflowRow}

theorem Knowledge.extends_advance {known : Knowledge} (quiet : known.Quiet call)
    (response : Response call) : known.Extends (known.advance call response) := by
  cases call with
  | getWorkflow asked => exact ⟨List.subset_append_right .., rfl, rfl, rfl⟩
  | listWorkflowsByStatus => exact ⟨List.subset_append_right .., rfl, rfl, rfl⟩
  | upsertWorkflow row =>
    refine ⟨?_, rfl, rfl, rfl⟩
    rw [advance]
    dsimp only
    split
    · exact List.subset_cons_self ..
    · exact List.Subset.refl _
  | upsertWorkflowTask row =>
    refine ⟨List.Subset.refl _, rfl, rfl, ?_⟩
    rw [advance, show known.claim = none from quiet]
    exact Bool.or_false known.recorded
  | claimWorkflowTaskBudgeted => exact quiet.elim
  | runTask => exact quiet.elim
  | _ => exact ⟨List.Subset.refl _, rfl, rfl, rfl⟩

/-- Programs that keep to the description and leave the claim alone. -/
abbrev KeepsClaim {α : Type} (known : Knowledge) (program : Action α) : Prop :=
  program.Follows (conduct engine) (fun later _ => known.Extends later) known

variable {engine} {known : Knowledge} {α β : Type}

theorem keepsClaim_pure (value : α) : KeepsClaim engine known (pure value : Action α) :=
  Knowledge.Extends.refl known

theorem keepsClaim_bind {program : Action α} {rest : α → Action β}
    (first : KeepsClaim engine known program)
    (next : ∀ later value, known.Extends later → KeepsClaim engine later (rest value)) :
    KeepsClaim engine known (program >>= rest) := by
  apply Program.follows_bind
  apply first.mono
  intro later value extended
  exact (next later value extended).mono fun _ _ further => extended.trans further

theorem keepsClaim_call {rest : Response call → Action α}
    (allowed : MayCall engine known call) (quiet : known.Quiet call)
    (next : ∀ response, KeepsClaim engine (known.advance call response) (rest response)) :
    KeepsClaim engine known (Program.request call >>= rest) := by
  apply Program.follows_call allowed
  intro response
  exact (next response).mono fun _ _ further =>
    (Knowledge.extends_advance quiet response).trans further

theorem keepsClaim_maybeFinalizeWorkflow (workflowId : Bytes) :
    KeepsClaim engine known (maybeFinalizeWorkflow engine workflowId) := by
  refine keepsClaim_call trivial trivial fun read => ?_
  cases read with
  | none => exact keepsClaim_pure ()
  | some workflow =>
    refine keepsClaim_call trivial trivial fun listed => ?_
    cases listed with
    | none => exact keepsClaim_pure ()
    | some tasks =>
      apply Program.follows_ite
      · intro _
        refine keepsClaim_call trivial trivial fun nowUnixMs => ?_
        exact keepsClaim_call
          ⟨workflow, WritesWorkflow.final workflow nowUnixMs rfl rfl rfl⟩ trivial
          fun _ => keepsClaim_pure ()
      · intro _
        exact keepsClaim_pure ()

theorem keepsClaim_cancelRequest (workflowId : Bytes) :
    KeepsClaim engine known (cancelRequest workflowId) := by
  refine keepsClaim_call trivial trivial fun read => ?_
  cases read with
  | none => exact keepsClaim_pure ()
  | some workflow =>
    refine keepsClaim_call trivial trivial fun nowUnixMs => ?_
    exact keepsClaim_call
      ⟨workflow, WritesWorkflow.requested workflow nowUnixMs rfl⟩ trivial
      fun _ => keepsClaim_pure ()

/-! Picking -/

variable {response : Response call}

theorem keepsClaim_cancelQueued (unclaimed : known.claim = none) {tasks : List WorkflowTaskRow}
    (listed : known.tasks = tasks) {cancelled : WorkflowTaskRow → WorkflowTaskRow}
    (cancels : ∀ task, task.status = .queued → Cancels task (cancelled task)) :
    KeepsClaim engine known (cancelQueued tasks cancelled) := by
  have kept : (cancelQueued tasks cancelled).Follows (conduct engine)
      (fun later _ => known.Extends later ∧ later.tasks = tasks) known := by
    apply Program.follows_forM
    · intro task member later stays
      have parts := List.mem_filter.mp member
      have unclaimedLater : later.claim = none := stays.1.claim.trans unclaimed
      have writes : WritesTask later (cancelled task) := by
        rw [WritesTask, unclaimedLater]
        refine ⟨task, ?_, cancels task (of_decide_eq_true parts.2)⟩
        rw [stays.2]
        exact parts.1
      apply Program.follows_call writes
      intro response
      have quiet : later.Quiet (.upsertWorkflowTask (cancelled task)) := unclaimedLater
      exact ⟨stays.1.trans (Knowledge.extends_advance quiet response), stays.2⟩
    · exact ⟨.refl known, listed⟩
  exact kept.mono fun _ _ stays => stays.1

theorem keepsClaim_cancelAtDeadline (unclaimed : known.claim = none)
    (member : workflow ∈ known.workflows) :
    KeepsClaim engine known (cancelAtDeadline engine nowUnixMs workflow) := by
  refine keepsClaim_call trivial trivial fun listed => ?_
  apply keepsClaim_bind
  · apply keepsClaim_cancelQueued
    · exact unclaimed
    · rfl
    · intro task queued
      exact ⟨⟨rfl, rfl, rfl, rfl, rfl, rfl⟩, queued, rfl, rfl, rfl⟩
  · intro later _ extended
    have finish : ∀ last, KeepsClaim engine last
        (if anyQueued (listed.getD []) || (!workflow.cancelRequested ||
            workflow.error != ascii "deadline exceeded") then
          maybeFinalizeWorkflow engine workflow.workflowId else pure ()) := by
      intro last
      apply Program.follows_ite
      · intro _
        exact keepsClaim_maybeFinalizeWorkflow _
      · intro _
        exact keepsClaim_pure ()
    apply Program.follows_ite
    · intro _
      exact keepsClaim_call
        ⟨workflow, WritesWorkflow.flagged workflow nowUnixMs _ (extended.workflows member)⟩ trivial
        fun _ => finish _
    · intro _
      exact finish later

/-- What a worker knows once it has claimed a task of a workflow and holds its
row, with the outcome of the run if there was one. -/
structure Knowledge.Holds (known : Knowledge) (workflowId : Bytes) (task : WorkflowTaskRow)
    (outcome : Option RunOutcome) : Prop where
  claimed : ∃ claim copy, known.claim = some claim ∧ claim.workflowId = workflowId ∧
    claim.From copy ∧ SameTask task copy ∧ task.attempt = copy.attempt + 1 ∧
    task.cumulative = copy.cumulative
  outcome : known.outcome = outcome
  unrecorded : known.recorded = false

/-- A worker that picks has claimed nothing, and holds the task it returns. -/
def Picked (known : Knowledge) (later : Knowledge) :
    Option (WorkflowRow × WorkflowTaskRow) → Prop
  | none => known.Extends later
  | some (workflow, task) =>
    later.Holds workflow.workflowId task none ∧ workflow ∈ later.workflows

structure Knowledge.Picking (known : Knowledge) : Prop where
  unclaimed : known.claim = none
  unrun : known.outcome = none
  unrecorded : known.recorded = false

theorem Knowledge.Picking.later {later : Knowledge} (picking : known.Picking)
    (extended : known.Extends later) : later.Picking where
  unclaimed := extended.claim.trans picking.unclaimed
  unrun := extended.outcome.trans picking.unrun
  unrecorded := extended.recorded.trans picking.unrecorded

theorem holds_claimed {later : Knowledge} {workflowId : Bytes} {task : WorkflowTaskRow}
    (picking : known.Picking) (there : task ∈ known.tasks) (queued : task.status = .queued)
    (claim : later.claim = some ⟨workflowId, task.taskId, task.attempt + 1, known.tasks⟩)
    (outcome : later.outcome = known.outcome) (recorded : later.recorded = known.recorded) :
    later.Holds workflowId { task with
        status := .running
        attempt := task.attempt + 1
        startedUnixMs := nowUnixMs
        updatedUnixMs := nowUnixMs } none where
  claimed := ⟨_, task, claim, rfl, ⟨there, rfl, queued, rfl⟩, ⟨rfl, rfl, rfl, rfl, rfl, rfl⟩, rfl,
    rfl⟩
  outcome := outcome.trans picking.unrun
  unrecorded := recorded.trans picking.unrecorded

theorem picked_claimFirst (picking : known.Picking) (member : workflow ∈ known.workflows)
    (live : workflow.status = .queued ∨ workflow.status = .running)
    (listed : known.listed = workflow.workflowId) {remaining : List WorkflowTaskRow}
    (among : remaining ⊆ known.tasks) :
    (claimFirst engine nowUnixMs workflow known.tasks remaining).Follows (conduct engine)
      (Picked known) known := by
  induction remaining with
  | nil => exact Knowledge.Extends.refl known
  | cons task remaining induction =>
    have others := induction fun _ later => among (List.mem_cons_of_mem task later)
    rw [claimFirst]
    apply Program.follows_ite
    · intro _
      exact others
    · intro startable
      have queued : task.status = .queued := by
        by_contra other
        exact startable (.inl other)
      have met : dependenciesMet engine known.tasks task = true := by
        by_contra unmet
        exact startable (.inr (.inr (by simpa using unmet)))
      have there : task ∈ known.tasks := among (List.mem_cons_self ..)
      refine Program.follows_call ⟨rfl, rfl, picking.unclaimed, listed,
        ⟨workflow, member, rfl, rfl⟩, task, there, rfl, queued, rfl, met⟩ fun claimed => ?_
      apply Program.follows_ite
      · intro failed
        have lost : claimed = false := by simpa using failed
        subst lost
        exact others
      · intro succeeded
        have won : claimed = true := by simpa using succeeded
        subst won
        apply Program.follows_ite
        · intro notRunning
          have unmarked : workflow.status = .queued := live.resolve_right notRunning
          refine Program.follows_call
            ⟨workflow, WritesWorkflow.marked workflow nowUnixMs member unmarked rfl⟩ fun _ => ?_
          rw [if_pos notRunning]
          exact ⟨holds_claimed nowUnixMs picking there queued rfl rfl rfl,
            List.mem_cons_self ..⟩
        · intro running
          rw [if_neg running]
          exact ⟨holds_claimed nowUnixMs picking there queued rfl rfl rfl, member⟩

theorem picked_tryPickInWorkflow (picking : known.Picking) (member : workflow ∈ known.workflows) :
    (tryPickInWorkflow engine nowUnixMs workflow).Follows (conduct engine) (Picked known)
      known := by
  have nothing : ∀ {later : Knowledge} {program : Action Unit}, known.Extends later →
      KeepsClaim engine later program →
      (program >>= fun _ => pure none : Action (Option (WorkflowRow × WorkflowTaskRow))).Follows
        (conduct engine) (Picked known) later := by
    intro later program extended keeps
    apply Program.follows_bind
    exact keeps.mono fun _ _ further => extended.trans further
  apply Program.follows_ite
  · intro _
    exact Knowledge.Extends.refl known
  · intro open_
    have live : workflow.status = .queued ∨ workflow.status = .running := by
      by_contra closed
      exact open_ (.inr (not_or.mp closed))
    apply Program.follows_ite
    · intro _
      exact nothing (.refl known) (keepsClaim_cancelAtDeadline nowUnixMs picking.unclaimed member)
    · intro _
      refine Program.follows_call trivial fun listed => ?_
      have quiet : known.Quiet (.listWorkflowTasks workflow.workflowId) := trivial
      have extended := Knowledge.extends_advance quiet listed
      cases listed with
      | none => exact extended
      | some tasks =>
        apply Program.follows_ite
        · intro _
          exact extended
        · intro _
          apply Program.follows_ite
          · intro _
            apply Program.follows_bind
            have cancels : KeepsClaim engine
                (known.advance (.listWorkflowTasks workflow.workflowId) (some tasks))
                (cancelQueued tasks fun task =>
                  { task with
                    status := .cancelled
                    updatedUnixMs := nowUnixMs
                    error := if task.error = [] then ascii "cancelled" else task.error }) := by
              apply keepsClaim_cancelQueued
              · exact picking.unclaimed
              · rfl
              · intro task queued
                exact ⟨⟨rfl, rfl, rfl, rfl, rfl, rfl⟩, queued, rfl, rfl, rfl⟩
            apply cancels.mono
            intro later _ further
            apply Program.follows_ite
            · intro _
              exact nothing (extended.trans further) (keepsClaim_maybeFinalizeWorkflow _)
            · intro _
              exact extended.trans further
          · intro _
            apply Program.follows_bind
            apply Program.Follows.mono
            · apply picked_claimFirst nowUnixMs (picking.later extended)
                (extended.workflows member) live rfl
              intro task there
              exact (List.mem_insertionSort _).mp there
            intro later picked holds
            cases picked with
            | some picked => exact holds
            | none =>
              exact nothing (extended.trans holds) (keepsClaim_maybeFinalizeWorkflow _)

theorem Picked.after {later last : Knowledge} {picked : Option (WorkflowRow × WorkflowTaskRow)}
    (extended : known.Extends later) (holds : Picked later last picked) :
    Picked known last picked := by
  cases picked with
  | none => exact extended.trans holds
  | some picked => exact holds

theorem picked_pickInOrder (picking : known.Picking) {candidates : List WorkflowRow}
    (read : candidates ⊆ known.workflows) (order : List Nat) :
    (pickInOrder engine nowUnixMs candidates order).Follows (conduct engine) (Picked known)
      known := by
  induction order generalizing known with
  | nil => exact Knowledge.Extends.refl known
  | cons index order induction =>
    rw [pickInOrder]
    split
    · exact induction picking read
    · next workflow found =>
      apply Program.follows_bind
      apply (picked_tryPickInWorkflow nowUnixMs picking
        (read (List.mem_of_getElem? found))).mono
      intro later picked holds
      cases picked with
      | some picked => exact holds
      | none =>
        apply (induction (picking.later holds) (List.Subset.trans read holds.workflows)).mono
        intro last picked further
        exact further.after holds

theorem picked_pickAndClaimOne (picking : known.Picking) :
    (pickAndClaimOne engine nowUnixMs).Follows (conduct engine) (Picked known) known := by
  refine Program.follows_call trivial fun queued => ?_
  have first := Knowledge.extends_advance
    (show known.Quiet (.listWorkflowsByStatus .queued _) from trivial) queued
  cases queued with
  | none => exact first
  | some queued =>
    refine Program.follows_call trivial fun running => ?_
    have second := first.trans (Knowledge.extends_advance
      (show Knowledge.Quiet _ (.listWorkflowsByStatus .running _) from trivial) running)
    cases running with
    | none => exact second
    | some running =>
      refine Program.follows_call trivial fun order => ?_
      apply Program.Follows.mono
      · apply picked_pickInOrder nowUnixMs (picking.later second)
        intro workflow member
        have listed := mem_of_mem_dedupWorkflows (List.mem_filter.mp member).1
        rcases List.mem_append.mp listed with inQueued | inRunning
        · exact List.mem_append_right _ (List.mem_append_left _ inQueued)
        · exact List.mem_append_left _ inRunning
      · intro last picked holds
        exact holds.after second

/-! Executing -/

section Executing

variable {workflowId : Bytes} {task : WorkflowTaskRow} {outcome : Option RunOutcome}

variable {latest : WorkflowRow} {recorded : WorkflowTaskRow}

theorem Knowledge.Holds.later {later : Knowledge} (holds : known.Holds workflowId task outcome)
    (extended : known.Extends later) : later.Holds workflowId task outcome where
  claimed := by
    rw [extended.claim]
    exact holds.claimed
  outcome := extended.outcome.trans holds.outcome
  unrecorded := extended.recorded.trans holds.unrecorded

theorem Knowledge.Holds.writes (holds : known.Holds workflowId task outcome)
    {row : WorkflowTaskRow} (same : SameTask row task) (attempt : row.attempt = task.attempt)
    (cumulative : row.cumulative = cumulativeBehind task.cumulative outcome)
    (stopped : row.status ≠ .running)
    (retried : row.status = .queued → row.attempt < max 1 row.maxAttempts)
    (unrun : outcome = none → row.status = .cancelled) : WritesTask known row := by
  rcases holds.claimed with ⟨claim, copy, claimed, _, from_, sameCopy, attemptCopy, cumulativeCopy⟩
  rw [WritesTask, claimed]
  refine ⟨holds.unrecorded, copy, from_, ?_⟩
  constructor
  · exact ⟨same.workflowId.trans sameCopy.workflowId, same.taskId.trans sameCopy.taskId,
      same.allowError.trans sameCopy.allowError, same.maxAttempts.trans sameCopy.maxAttempts,
      same.dependsOnJson.trans sameCopy.dependsOnJson, same.requestJson.trans sameCopy.requestJson⟩
  · exact attempt.trans attemptCopy
  · rw [cumulative, cumulativeCopy, holds.outcome]
  · exact stopped
  · exact retried
  · rw [holds.outcome]
    exact unrun

abbrev Conducts (engine : Engine) (known : Knowledge) (program : Action Unit) : Prop :=
  program.Follows (conduct engine) (fun _ _ => True) known

theorem KeepsClaim.conducts {program : Action Unit} (keeps : KeepsClaim engine known program) :
    Conducts engine known program :=
  keeps.mono fun _ _ _ => trivial

theorem conducts_quiet_bind {rest : Response call → Action Unit}
    (holds : known.Holds workflowId task outcome) (allowed : MayCall engine known call)
    (quiet : known.Quiet call)
    (next : ∀ response, (known.advance call response).Holds workflowId task outcome →
      Conducts engine (known.advance call response) (rest response)) :
    Conducts engine known (Program.request call >>= rest) := by
  apply Program.follows_call allowed
  intro response
  exact next response (holds.later (Knowledge.extends_advance quiet response))

theorem conducts_cancelTaskNow (reason : Bytes) (holds : known.Holds workflowId task none) :
    Conducts engine known (cancelTaskNow engine nowUnixMs workflowId task reason) := by
  refine Program.follows_call ?_ fun _ => (keepsClaim_maybeFinalizeWorkflow _).conducts
  exact holds.writes ⟨rfl, rfl, rfl, rfl, rfl, rfl⟩ rfl rfl (fun impossible => nomatch impossible)
    (fun impossible => nomatch impossible) fun _ => rfl

theorem holds_cancelOthers (others : List WorkflowTaskRow) (nowUnixMs : Int)
    (error resultJson : Bytes) (holds : known.Holds workflowId task none) :
    (others.forM fun other => do
      let _ ← cancelWorkflowTaskIfQueued workflowId other.taskId nowUnixMs error
        resultJson).Follows (conduct engine) (fun later _ => later.Holds workflowId task none)
      known := by
  apply Program.follows_forM
  · intro other _ later holdsLater
    exact Program.follows_call trivial fun _ => holdsLater
  · exact holds

theorem conducts_workflowBudgetExceededCancel (which : Bytes)
    (holds : known.Holds workflowId task none) (read : latest ∈ known.workflows) :
    Conducts engine known
      (workflowBudgetExceededCancel engine nowUnixMs workflowId latest task which) := by
  refine conducts_quiet_bind holds ⟨latest, WritesWorkflow.flagged latest nowUnixMs _ read⟩
    trivial fun _ holds => ?_
  refine conducts_quiet_bind holds trivial trivial fun listed holds => ?_
  apply Program.follows_bind
  apply (holds_cancelOthers _ nowUnixMs _ _ holds).mono
  intro later _ holdsLater
  exact conducts_cancelTaskNow nowUnixMs _ holdsLater

theorem conducts_recordCancelled {ended : RunOutcome}
    (holds : known.Holds workflowId task (some ended)) (same : SameTask recorded task)
    (attempt : recorded.attempt = task.attempt)
    (cumulative : recorded.cumulative = cumulativeBehind task.cumulative (some ended)) :
    Conducts engine known (recordCancelled engine nowUnixMs workflowId recorded ended) := by
  have writes : WritesTask known
      { recorded with
        status := .cancelled
        readyUnixMs := 0
        error := if (ended.error.getD []).isEmpty then
            if ended.deadlineExceeded then ascii "deadline exceeded" else ascii "cancelled"
          else ended.error.getD [] } :=
    holds.writes ⟨same.workflowId, same.taskId, same.allowError, same.maxAttempts,
      same.dependsOnJson, same.requestJson⟩ attempt cumulative (fun impossible => nomatch impossible)
      (fun impossible => nomatch impossible) fun _ => rfl
  refine Program.follows_call writes fun _ => ?_
  refine Program.follows_call trivial fun read => ?_
  cases read with
  | none => exact (keepsClaim_maybeFinalizeWorkflow _).conducts
  | some workflow =>
    apply Program.follows_ite
    · intro _
      exact Program.follows_call
        ⟨workflow, WritesWorkflow.flagged workflow nowUnixMs _ (List.mem_cons_self ..)⟩
        fun _ => (keepsClaim_maybeFinalizeWorkflow _).conducts
    · intro _
      exact (keepsClaim_maybeFinalizeWorkflow _).conducts

theorem conducts_recordFailed (latest : WorkflowRow) {ended : RunOutcome}
    (holds : known.Holds workflowId task (some ended)) (same : SameTask recorded task)
    (attempt : recorded.attempt = task.attempt)
    (cumulative : recorded.cumulative = cumulativeBehind task.cumulative (some ended)) :
    Conducts engine known (recordFailed engine nowUnixMs workflowId latest recorded ended) := by
  have sameFailed : ∀ status readyUnixMs error,
      SameTask { recorded with status, readyUnixMs, error } task := fun _ _ _ =>
    ⟨same.workflowId, same.taskId, same.allowError, same.maxAttempts, same.dependsOnJson,
      same.requestJson⟩
  refine conducts_quiet_bind holds trivial trivial fun current holds => ?_
  apply Program.follows_ite
  · intro retries
    have left := (Bool.and_eq_true_iff.mp retries).1
    refine Program.follows_call ?_ fun _ => trivial
    exact holds.writes (sameFailed ..) attempt cumulative (fun impossible => nomatch impossible)
      (fun _ => of_decide_eq_true left) fun impossible => nomatch impossible
  · intro _
    refine Program.follows_call ?_ fun _ => (keepsClaim_maybeFinalizeWorkflow _).conducts
    exact holds.writes (sameFailed ..) attempt cumulative (fun impossible => nomatch impossible)
      (fun impossible => nomatch impossible) fun impossible => nomatch impossible

theorem conducts_runAndRecord (holds : known.Holds workflowId task none)
    (listed : known.listed = workflowId) (read : latest ∈ known.workflows)
    (named : latest.workflowId = workflowId ∨ known.read = some latest ∧ known.asked = workflowId)
    (budget : (engine.expandedKind task known.tasks).filter (fun kind => kind ∉ unbudgetedKinds) =
        none ∨
      exceededLimit (engine.workflowLimits latest.specJson) (usageTotals known.tasks) = none) :
    Conducts engine known (runAndRecord engine nowUnixMs workflowId latest task) := by
  have claimed : ∃ claim copy, known.claim = some claim ∧ known.listed = claim.workflowId ∧
      claim.From copy ∧ SameTask task copy := by
    rcases holds.claimed with ⟨claim, copy, claim_eq, sameId, from_, same, _⟩
    exact ⟨claim, copy, claim_eq, listed.trans sameId.symm, from_, same⟩
  have namedClaim : ∃ claim, known.claim = some claim ∧
      (latest.workflowId = claim.workflowId ∨
        known.read = some latest ∧ known.asked = claim.workflowId) := by
    rcases holds.claimed with ⟨claim, _, claim_eq, sameId, _⟩
    rw [← sameId] at named
    exact ⟨claim, claim_eq, named⟩
  refine Program.follows_call
    ⟨claimed, holds.unrecorded, holds.outcome, read, namedClaim, budget⟩ fun ended => ?_
  have holdsEnded : (known.advance (.runTask latest task) ended).Holds workflowId task
      (some ended) := ⟨holds.claimed, rfl, holds.unrecorded⟩
  have same : SameTask (recordedTask nowUnixMs task ended) task := ⟨rfl, rfl, rfl, rfl, rfl, rfl⟩
  apply Program.follows_ite
  · intro _
    exact conducts_recordCancelled nowUnixMs holdsEnded same rfl rfl
  · intro _
    apply Program.follows_ite
    · intro _
      refine Program.follows_call ?_
        fun _ => (keepsClaim_maybeFinalizeWorkflow _).conducts
      exact holdsEnded.writes ⟨rfl, rfl, rfl, rfl, rfl, rfl⟩ rfl rfl
        (fun impossible => nomatch impossible) (fun impossible => nomatch impossible)
        fun impossible => nomatch impossible
    · intro _
      exact conducts_recordFailed nowUnixMs latest holdsEnded same rfl rfl

theorem conducts_executeClaimedTask (holds : known.Holds workflow.workflowId task none)
    (read : workflow ∈ known.workflows) :
    Conducts engine known (executeClaimedTask engine workflow task) := by
  refine conducts_quiet_bind holds trivial trivial fun nowUnixMs holds => ?_
  refine conducts_quiet_bind holds trivial trivial fun current holds => ?_
  have latest : current.getD workflow ∈
      (known.advance (.getWorkflow workflow.workflowId) current).workflows := by
    cases current with
    | none => exact read
    | some row => exact List.mem_cons_self ..
  apply Program.follows_ite
  · intro _
    exact conducts_cancelTaskNow nowUnixMs _ holds
  · intro _
    apply Program.follows_ite
    · intro _
      exact conducts_quiet_bind holds ⟨_, WritesWorkflow.flagged _ nowUnixMs _ latest⟩ trivial
        fun _ holds => conducts_cancelTaskNow nowUnixMs _ holds
    · intro _
      refine conducts_quiet_bind holds trivial trivial fun listed holds => ?_
      dsimp only
      split
      · exact conducts_workflowBudgetExceededCancel nowUnixMs _ holds latest
      · next unlimited =>
        apply conducts_runAndRecord nowUnixMs holds rfl latest
        · cases current with
          | none => exact .inl rfl
          | some row => exact .inr ⟨rfl, rfl⟩
        · rw [or_iff_not_imp_left]
          intro limited
          rw [← ne_eq, Option.ne_none_iff_exists'] at limited
          rcases limited with ⟨kind, limited⟩
          rw [Option.eq_none_iff_forall_ne_some]
          intro which exceeded
          exact unlimited kind which limited exceeded

end Executing

theorem conducts_workerTurn : Conducts engine {} (workerTurn engine) := by
  refine Program.follows_call trivial fun nowUnixMs => ?_
  apply Program.follows_bind
  apply (picked_pickAndClaimOne nowUnixMs ⟨rfl, rfl, rfl⟩).mono
  intro later picked holds
  cases picked with
  | none => trivial
  | some picked => exact conducts_executeClaimedTask holds.1 holds.2

theorem conducts_program (engine : Engine) (operation : Operation) :
    Conducts engine {} (operation.program engine) := by
  cases operation with
  | cancelRequest workflowId => exact (keepsClaim_cancelRequest workflowId).conducts
  | workerTurn => exact conducts_workerTurn
  | finalize workflowId => exact (keepsClaim_maybeFinalizeWorkflow workflowId).conducts

/-! ## Runs of the daemon -/

abbrev DaemonEvent := Event Store Call Response

def knownBy (engine : Engine) (thread : Nat) (events : List DaemonEvent) : Knowledge :=
  SharedStore.known (conduct engine) {} thread events

abbrev DaemonRun (engine : Engine) (tables : Store) :=
  (daemon engine).Run { store := tables }

abbrev DaemonTrace (engine : Engine) (tables : Store) :=
  (daemon engine).Trace (conduct engine) {} tables

variable {events : List DaemonEvent}

theorem daemonTrace_of_run {engine : Engine} {tables : Store} {state : DaemonState}
    (run : DaemonRun engine tables events state) : DaemonTrace engine tables events state.store :=
  SharedStore.Run.trace (daemon engine) (conducts_program engine) run


theorem knownBy_cons_self {engine : Engine} {thread : Nat} {before after : Store} :
    knownBy engine thread (⟨thread, call, response, before, after⟩ :: events) =
      (knownBy engine thread events).advance call response :=
  if_pos rfl

theorem knownBy_cons_other {engine : Engine} {thread other : Nat} {before after : Store}
    (different : other ≠ thread) :
    knownBy engine thread (⟨other, call, response, before, after⟩ :: events) =
      knownBy engine thread events :=
  if_neg different

def recordedRun (engine : Engine) (tables : Store)
    (schedule : List (SharedStore.Move Operation Outside)) : List DaemonEvent × DaemonState :=
  schedule.foldl ((daemon engine).record answer) ([], { store := tables })

theorem run_recordedRun (engine : Engine) (tables : Store)
    (schedule : List (SharedStore.Move Operation Outside)) :
    DaemonRun engine tables (recordedRun engine tables schedule).1
      (recordedRun engine tables schedule).2 :=
  (daemon engine).run_records (daemon_answers engine) .refl schedule

end AgentC.Workflow
