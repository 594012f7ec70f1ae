import AgentC.Workflow.EndedTasks

/-! # Workflows that have ended

The row of a workflow is written from a copy read before. A workflow that has
ended keeps its status as long as its row is written from copies that show it. -/

namespace AgentC.Workflow

def storeOf : (call : Call) → Response call → Option WorkflowRow
  | .upsertWorkflow row, stored => if stored then some row else none
  | _, _ => none

/-- Whoever stores the row of a workflow that has ended does so from a copy with
its status, and asks for no cancellation of one that is done. -/
def WritesEnded (engine : Engine) (event : DaemonEvent) (earlier : List DaemonEvent) : Prop :=
  ∀ row ∈ storeOf event.call event.response, ∀ stored ∈ event.before.workflows,
    stored.workflowId = row.workflowId → stored.status.isTerminal = true →
      (∃ copy, WritesWorkflow engine (knownBy engine event.thread earlier) copy row ∧
        copy.status = stored.status) ∧
      (stored.status = .done → row.cancelRequested = false)

/-! ## The status that tasks give -/

def WorkflowTaskRow.isHardError (task : WorkflowTaskRow) : Bool :=
  task.status = .error ∧ ¬task.allowError

/-- The tasks of a workflow give it a final status. -/
def Gives (tasks : List WorkflowTaskRow) : Status → Prop
  | .error => ∃ task ∈ tasks, task.isHardError = true
  | .done => tasks ≠ [] ∧
      ∀ task ∈ tasks, task.status.isTerminal = true ∧ task.isHardError = false
  | .cancelled => ∀ task ∈ tasks, task.status.isTerminal = true ∧ task.isHardError = false
  | _ => False

/-- The flag of a workflow that has ended. -/
structure FlagFits (row : WorkflowRow) : Prop where
  done : row.status = .done → row.cancelRequested = false
  cancelled : row.status = .cancelled → row.cancelRequested = true

variable {tasks : List WorkflowTaskRow} {status : Status} {row : WorkflowRow}

theorem hardErrors_isEmpty :
    (tasks.filter fun task => task.status = .error ∧ ¬task.allowError).isEmpty = true ↔
      ∀ task ∈ tasks, task.isHardError = false := by
  rw [List.isEmpty_iff, List.filter_eq_nil_iff]
  simp [WorkflowTaskRow.isHardError]

inductive Finalizes (workflow : WorkflowRow) (tasks : List WorkflowTaskRow) : Status → Prop
  | error (hard : ∃ task ∈ tasks, task.isHardError = true) : Finalizes workflow tasks .error
  | cancelled (soft : ∀ task ∈ tasks, task.isHardError = false)
      (flagged : workflow.cancelRequested = true)
      (ended : ∀ task ∈ tasks, task.status.isTerminal = true) :
      Finalizes workflow tasks .cancelled
  | done (soft : ∀ task ∈ tasks, task.isHardError = false)
      (unflagged : workflow.cancelRequested = false) (some : tasks ≠ [])
      (ended : ∀ task ∈ tasks, task.status.isTerminal = true) :
      Finalizes workflow tasks .done
  | live {status : Status} (soft : ∀ task ∈ tasks, task.isHardError = false)
      (unended : ¬∀ task ∈ tasks, task.status.isTerminal = true)
      (live : status.isTerminal = false) : Finalizes workflow tasks status
  | none (unflagged : workflow.cancelRequested = false) (none : tasks = []) :
      Finalizes workflow tasks workflow.status

theorem exists_live (unended : ¬∀ task ∈ tasks, task.status.isTerminal = true) :
    (tasks.any fun task => task.status = .running) = true ∨
      (tasks.any fun task => task.status = .queued) = true := by
  simp only [not_forall] at unended
  rcases unended with ⟨task, member, live⟩
  cases status : task.status with
  | running => exact .inl (List.any_eq_true.mpr ⟨task, member, decide_eq_true status⟩)
  | queued => exact .inr (List.any_eq_true.mpr ⟨task, member, decide_eq_true status⟩)
  | done => simp [status, Status.isTerminal] at live
  | error => simp [status, Status.isTerminal] at live
  | cancelled => simp [status, Status.isTerminal] at live

theorem finalizes (workflow : WorkflowRow) (tasks : List WorkflowTaskRow) :
    Finalizes workflow tasks (finalStatus workflow tasks).1 := by
  rw [finalStatus]
  dsimp only
  split
  · next hard =>
    apply Finalizes.error
    by_contra none
    have soft : ∀ task ∈ tasks, task.isHardError = false := by
      intro task member
      exact Bool.eq_false_of_not_eq_true fun isHard => none ⟨task, member, isHard⟩
    rw [hardErrors_isEmpty.mpr soft] at hard
    exact nomatch hard
  · next noHard =>
    have soft := hardErrors_isEmpty.mp (by simpa using noHard)
    split
    · next flagged =>
      split
      · next ended => exact .cancelled soft flagged (List.all_eq_true.mp ended)
      · next unended => exact .live soft (fun ended => unended (List.all_eq_true.mpr ended)) rfl
    · next unflagged =>
      have flag := Bool.eq_false_of_not_eq_true unflagged
      split
      · next ended =>
        rw [Bool.and_eq_true, List.all_eq_true] at ended
        refine .done soft flag ?_ ended.1
        intro empty
        simp [empty] at ended
      · next unended =>
        have nothing : tasks = [] ∨ ¬∀ task ∈ tasks, task.status.isTerminal = true := by
          by_contra both
          rw [not_or, not_not] at both
          apply unended
          rw [Bool.and_eq_true, List.all_eq_true]
          exact ⟨both.2, by simp [both.1]⟩
        rcases nothing with empty | live
        · subst empty
          exact .none flag rfl
        · split
          · exact .live soft live rfl
          · next notRunning =>
            split
            · exact .live soft live rfl
            · next notQueued =>
              rcases exists_live live with running | queued
              · exact absurd running notRunning
              · exact absurd queued notQueued

theorem gives_of_finalizes {workflow : WorkflowRow} (final : Finalizes workflow tasks status)
    (live : workflow.status.isTerminal = false) (terminal : status.isTerminal = true) :
    Gives tasks status ∧ (status = .done → workflow.cancelRequested = false) ∧
      (status = .cancelled → workflow.cancelRequested = true) := by
  cases final with
  | error hard =>
    exact ⟨hard, fun impossible => (nomatch impossible), fun impossible => (nomatch impossible)⟩
  | cancelled soft flagged ended =>
    exact ⟨fun task member => ⟨ended task member, soft task member⟩,
      fun impossible => (nomatch impossible), fun _ => flagged⟩
  | done soft unflagged some ended =>
    exact ⟨⟨some, fun task member => ⟨ended task member, soft task member⟩⟩, fun _ => unflagged,
      fun impossible => (nomatch impossible)⟩
  | live _ _ open_ =>
    rw [terminal] at open_
    exact nomatch open_
  | none =>
    rw [terminal] at live
    exact nomatch live

theorem Gives.cases (gives : Gives tasks status) :
    (status = .error ∧ ∃ task ∈ tasks, task.isHardError = true) ∨
      (status = .done ∧ tasks ≠ [] ∨ status = .cancelled) ∧
        ∀ task ∈ tasks, task.status.isTerminal = true ∧ task.isHardError = false := by
  cases status with
  | error => exact .inl ⟨rfl, gives⟩
  | done => exact .inr ⟨.inl ⟨rfl, gives.1⟩, gives.2⟩
  | cancelled => exact .inr ⟨.inr rfl, gives⟩
  | queued => exact gives.elim
  | running => exact gives.elim

theorem not_hard_of_soft (soft : ∀ task ∈ tasks, task.isHardError = false)
    (hard : ∃ task ∈ tasks, task.isHardError = true) : False := by
  rcases hard with ⟨task, member, isHard⟩
  rw [soft task member] at isHard
  exact nomatch isHard

theorem finalStatus_of_gives {workflow : WorkflowRow} (fits : FlagFits workflow)
    (gives : Gives tasks workflow.status) : (finalStatus workflow tasks).1 = workflow.status := by
  have final := finalizes workflow tasks
  generalize (finalStatus workflow tasks).1 = status at final
  rcases gives.cases with ⟨isError, hard⟩ | ⟨ends, ended⟩
  · cases final with
    | error => exact isError.symm
    | cancelled soft => exact (not_hard_of_soft soft hard).elim
    | done soft => exact (not_hard_of_soft soft hard).elim
    | live soft => exact (not_hard_of_soft soft hard).elim
    | none => rfl
  · cases final with
    | error hard => exact (not_hard_of_soft (fun task member => (ended task member).2) hard).elim
    | cancelled _ flagged =>
      rcases ends with ⟨isDone, _⟩ | isCancelled
      · rw [fits.done isDone] at flagged
        exact nomatch flagged
      · exact isCancelled.symm
    | done _ unflagged =>
      rcases ends with ⟨isDone, _⟩ | isCancelled
      · exact isDone.symm
      · rw [fits.cancelled isCancelled] at unflagged
        exact nomatch unflagged
    | live _ unended => exact absurd (fun task member => (ended task member).1) unended
    | none => rfl

variable {engine : Engine}

theorem WritesWorkflow.keeps {known : Knowledge} {copy : WorkflowRow}
    (writes : WritesWorkflow engine known copy row) (terminal : copy.status.isTerminal = true)
    (fits : FlagFits copy) (gives : known.read = some copy → known.seen = some copy →
      known.listed = known.asked → Gives known.tasks copy.status) :
    row.status = copy.status ∧ (copy.status = .cancelled → row.cancelRequested = true) := by
  cases writes with
  | marked nowUnixMs member unmarked =>
    rw [unmarked] at terminal
    exact nomatch terminal
  | flagged => exact ⟨rfl, fun _ => rfl⟩
  | requested =>
    refine ⟨if_neg ?_, fun _ => rfl⟩
    intro queued
    rw [queued] at terminal
    exact nomatch terminal
  | final nowUnixMs read seen listed =>
    exact ⟨finalStatus_of_gives fits (gives read seen listed), fits.cancelled⟩

theorem WritesWorkflow.ends {known : Knowledge} {copy : WorkflowRow}
    (writes : WritesWorkflow engine known copy row) (live : copy.status.isTerminal = false)
    (terminal : row.status.isTerminal = true) :
    Gives known.tasks row.status ∧ FlagFits row ∧ known.read = some copy ∧
      known.seen = some copy ∧ known.listed = known.asked := by
  cases writes with
  | marked => exact nomatch terminal
  | flagged =>
    rw [show copy.status.isTerminal = true from terminal] at live
    exact nomatch live
  | requested =>
    dsimp only at terminal
    split at terminal
    · exact nomatch terminal
    · rw [terminal] at live
      exact nomatch live
  | final nowUnixMs read seen listed =>
    have given := gives_of_finalizes (finalizes copy known.tasks) live terminal
    exact ⟨given.1, ⟨given.2.1, given.2.2⟩, read, seen, listed⟩

theorem storeOf_of_effect {call : Call} {store next : Store} {response : Response call}
    (effect : Effect call store response next) : next.workflows = store.workflows ∨
      ∃ row, storeOf call response = some row ∧ call = .upsertWorkflow row ∧
        row.workflowId ≠ [] ∧ next = (store.upsertWorkflow row).2 := by
  rcases effect with ⟨outside, answered⟩ | ⟨_, unchanged⟩
  · rcases Prod.ext_iff.mp answered with ⟨rfl, rfl⟩
    cases call with
    | upsertWorkflow row =>
      by_cases unnamed : row.workflowId = []
      · left
        exact congrArg (fun pair => pair.2.workflows) (Store.upsertWorkflow_unnamed unnamed)
      · have stored : (store.upsertWorkflow row).1 = true := by
          rw [Store.upsertWorkflow, if_neg unnamed]
          split
          · rfl
          · rfl
        refine .inr ⟨row, ?_, rfl, unnamed, rfl⟩
        exact if_pos stored
    | _ =>
      left
      apply answer_workflows outside store
      intro row impossible
      cases impossible
  · rw [unchanged]
    exact .inl rfl

/-! ## Tasks in the tables and in listings -/

def tasksOf (workflowId : Bytes) (store : Store) : List WorkflowTaskRow :=
  store.tasks.filter fun row => row.workflowId = workflowId

theorem mem_tasksOf {workflowId : Bytes} {store : Store} {row : WorkflowTaskRow} :
    row ∈ tasksOf workflowId store ↔ row ∈ store.tasks ∧ row.workflowId = workflowId := by
  rw [tasksOf, List.mem_filter, decide_eq_true_eq]

theorem isHardError_congr {left right : WorkflowTaskRow} (status : left.status = right.status)
    (allowError : left.allowError = right.allowError) : left.isHardError = right.isHardError := by
  rw [WorkflowTaskRow.isHardError, WorkflowTaskRow.isHardError, status, allowError]

theorem Gives.transfer {left right : List WorkflowTaskRow} (gives : Gives left status)
    (found : ∀ task ∈ left, task.status.isTerminal = true →
      ∃ other ∈ right, other.status = task.status ∧ other.allowError = task.allowError)
    (covered : ∀ other ∈ right, ∃ task ∈ left, other.allowError = task.allowError ∧
      (task.status.isTerminal = true → other.status = task.status)) : Gives right status := by
  rcases gives.cases with ⟨isError, task, member, hard⟩ | ⟨ends, ended⟩
  · subst isError
    have terminal : task.status.isTerminal = true := by
      rw [(of_decide_eq_true hard).1]
      rfl
    rcases found task member terminal with ⟨other, there, sameStatus, sameAllow⟩
    exact ⟨other, there, (isHardError_congr sameStatus sameAllow).trans hard⟩
  · have endedRight : ∀ other ∈ right,
        other.status.isTerminal = true ∧ other.isHardError = false := by
      intro other there
      rcases covered other there with ⟨task, member, sameAllow, sameStatus⟩
      have status := sameStatus (ended task member).1
      rw [status, isHardError_congr status sameAllow]
      exact ended task member
    rcases ends with ⟨isDone, some⟩ | isCancelled
    · subst isDone
      refine ⟨?_, endedRight⟩
      rcases List.exists_mem_of_ne_nil left some with ⟨task, member⟩
      rcases found task member (ended task member).1 with ⟨other, there, _⟩
      exact List.ne_nil_of_mem there
    · subst isCancelled
      exact endedRight

section Tasks

variable {engine : Engine} {tables store next : Store} {events : List DaemonEvent}
  {workflowId : Bytes} {status : Status} {caller : Nat} {call : Call} {response : Response call}

theorem Gives.stored {thread : Nat} (keyed : Keyed tables)
    (trace : DaemonTrace engine tables events store)
    (careful : Throughout (CancelsUnclaimed engine) events)
    (seen : (knownBy engine thread events).seen.isSome)
    (gives : Gives (knownBy engine thread events).tasks status) :
    Gives (tasksOf (knownBy engine thread events).listed store) status := by
  have identities := listsAll_of_trace keyed trace
  have lists := identities.2 thread
  have same : ∀ row ∈ store.tasks, ∀ copy ∈ (knownBy engine thread events).tasks,
      row.key = copy.key → row.identity = copy.identity := by
    intro row there copy member sameKey
    exact identities.1.identity_eq keyed there (lists.copies.tasks copy member) sameKey
  apply gives.transfer
  · intro copy member terminal
    have stored := hasStatus_of_listed keyed trace careful member terminal
    rcases stored.present with ⟨row, there, sameKey⟩
    refine ⟨row, mem_tasksOf.mpr ⟨there, ?_⟩, stored.status row there sameKey, ?_⟩
    · rw [← (fromListings_of_trace trace thread).tasks copy member]
      exact congrArg Prod.fst sameKey
    · exact congrArg TaskIdentity.allowError (same row there copy member sameKey)
  · intro row member
    rcases mem_tasksOf.mp member with ⟨there, listed⟩
    have known := List.mem_map_of_mem (f := WorkflowTaskRow.identity) there
    rw [identities.1.tasks] at known
    rcases List.mem_map.mp known with ⟨first, firstThere, identity⟩
    have firstId : first.workflowId = row.workflowId :=
      congrArg (fun parts => parts.key.1) identity
    rcases lists.complete seen first firstThere (firstId.trans listed) with
      ⟨copy, copyMember, copySame⟩
    have rowSame : row.identity = copy.identity := (copySame.trans identity).symm
    refine ⟨copy, copyMember, congrArg TaskIdentity.allowError rowSame, ?_⟩
    intro terminal
    exact (hasStatus_of_listed keyed trace careful copyMember terminal).status row there
      (congrArg TaskIdentity.key rowSame)

theorem Gives.step (keyed : Keyed tables) (trace : DaemonTrace engine tables events store)
    (careful : Throughout (CancelsUnclaimed engine) events)
    (allowed : MayCall engine (knownBy engine caller events) call)
    (effect : Effect call store response next)
    (carefulNow : CancelsUnclaimed engine ⟨caller, call, response, store, next⟩ events)
    (gives : Gives (tasksOf workflowId store) status) : Gives (tasksOf workflowId next) status := by
  have identities := identities_of_trace keyed trace
  have nextIdentities := identities.1.effect keyed (identities.2 caller) allowed effect
  have keyedStore := keyed.of_sameIdentities identities.1
  have sameTasks : next.tasks.map WorkflowTaskRow.identity =
      store.tasks.map WorkflowTaskRow.identity := nextIdentities.tasks.trans identities.1.tasks.symm
  have kept : ∀ row ∈ store.tasks, row.status.isTerminal = true →
      HasStatus next row.key row.status := by
    intro row there terminal
    exact (keyedStore.hasStatus there).step keyed trace careful allowed effect carefulNow terminal
  apply gives.transfer
  · intro row member terminal
    rcases mem_tasksOf.mp member with ⟨there, named⟩
    have stored := kept row there terminal
    rcases stored.present with ⟨other, otherThere, sameKey⟩
    have known := List.mem_map_of_mem (f := WorkflowTaskRow.identity) there
    rw [identities.1.tasks] at known
    have identity := nextIdentities.identity_eq keyed otherThere known sameKey
    refine ⟨other, mem_tasksOf.mpr ⟨otherThere, ?_⟩, stored.status other otherThere sameKey, ?_⟩
    · exact (congrArg Prod.fst sameKey).trans named
    · exact congrArg TaskIdentity.allowError identity
  · intro other member
    rcases mem_tasksOf.mp member with ⟨otherThere, named⟩
    have known := List.mem_map_of_mem (f := WorkflowTaskRow.identity) otherThere
    rw [sameTasks] at known
    rcases List.mem_map.mp known with ⟨row, there, identity⟩
    have sameKey : row.key = other.key := congrArg TaskIdentity.key identity
    refine ⟨row, mem_tasksOf.mpr ⟨there, (congrArg Prod.fst sameKey).trans named⟩,
      (congrArg TaskIdentity.allowError identity).symm, ?_⟩
    intro terminal
    exact (kept row there terminal).status other otherThere sameKey.symm

end Tasks

/-! ## Workflows in the tables -/

/-- Where a workflow has ended its tasks and its flag give its status, and every
copy with a final status shows it. -/
structure EndsSoundly (engine : Engine) (workflowId : Bytes) (events : List DaemonEvent)
    (store : Store) : Prop where
  rows : ∀ row ∈ store.workflows, row.workflowId = workflowId → row.status.isTerminal = true →
    Gives (tasksOf workflowId store) row.status ∧ FlagFits row
  copies : ∀ thread, ∀ copy ∈ (knownBy engine thread events).workflows,
    copy.workflowId = workflowId → copy.status.isTerminal = true →
      FlagFits copy ∧ ∀ row ∈ store.workflows, row.workflowId = workflowId →
        row.status = copy.status
  seen : ∀ thread copy, (knownBy engine thread events).seen = some copy →
    copy.workflowId = workflowId → (knownBy engine thread events).listed = workflowId →
      copy.status.isTerminal = true → Gives (knownBy engine thread events).tasks copy.status

section Workflows

variable {engine : Engine} {tables store next : Store} {events : List DaemonEvent}
  {workflowId : Bytes} {caller : Nat} {call : Call} {response : Response call}

theorem workflow_present (same : SameIdentities tables store)
    (known : row.identity ∈ tables.workflows.map WorkflowRow.identity) :
    ∃ held ∈ store.workflows, held.workflowId = row.workflowId := by
  rw [← same.workflows] at known
  rcases List.mem_map.mp known with ⟨held, there, identity⟩
  exact ⟨held, there, congrArg Prod.fst identity⟩

/-- A row stored for a workflow that has ended has its status, and one with a
final status has the tasks and the flag for it. -/
theorem EndsSoundly.write {row : WorkflowRow} (ends : EndsSoundly engine workflowId events store)
    (keyed : Keyed tables) (trace : DaemonTrace engine tables events store)
    (careful : Throughout (CancelsUnclaimed engine) events)
    (allowed : MayCall engine (knownBy engine caller events) (.upsertWorkflow row))
    (current : ∀ stored ∈ store.workflows, stored.workflowId = row.workflowId →
      stored.status.isTerminal = true →
        (∃ copy, WritesWorkflow engine (knownBy engine caller events) copy row ∧
          copy.status = stored.status) ∧ (stored.status = .done → row.cancelRequested = false))
    (named : row.workflowId = workflowId) :
    (∀ held ∈ store.workflows, held.workflowId = workflowId → held.status.isTerminal = true →
      row.status = held.status) ∧
    (row.status.isTerminal = true → Gives (tasksOf workflowId store) row.status ∧ FlagFits row) := by
  have identities := identities_of_trace keyed trace
  have keyedStore := keyed.of_sameIdentities identities.1
  have copies := identities.2 caller
  have sources : ∀ copy, WritesWorkflow engine (knownBy engine caller events) copy row →
      copy ∈ (knownBy engine caller events).workflows ∧ copy.workflowId = workflowId := by
    intro copy writes
    rcases writes.identity with ⟨source, identity⟩
    have sameId : row.workflowId = copy.workflowId := congrArg Prod.fst identity
    refine ⟨?_, sameId.symm.trans named⟩
    rcases source with member | read
    · exact member
    · exact copies.read copy read
  have listed : ∀ copy, (knownBy engine caller events).read = some copy →
      copy.workflowId = workflowId →
      (knownBy engine caller events).listed = (knownBy engine caller events).asked →
      (knownBy engine caller events).listed = workflowId := by
    intro copy read copyId sameListed
    rw [sameListed, ← read_of_trace trace caller copy read, copyId]
  rcases workflow_present identities.1 (copies.writesWorkflow allowed) with ⟨held, there, heldRow⟩
  have heldId := heldRow.trans named
  have only : ∀ other ∈ store.workflows, other.workflowId = workflowId → other = held :=
    fun other otherThere otherId =>
      keyedStore.workflow_eq otherThere there (otherId.trans heldId.symm)
  cases terminal : held.status.isTerminal with
  | true =>
    rcases current held there heldRow terminal with ⟨⟨copy, writes, status⟩, unflagged⟩
    rcases sources copy writes with ⟨member, copyId⟩
    have copyTerminal : copy.status.isTerminal = true := by
      rw [status]
      exact terminal
    have keeps := writes.keeps copyTerminal (ends.copies caller copy member copyId copyTerminal).1
      fun read seen sameListed => ends.seen caller copy seen copyId
        (listed copy read copyId sameListed) copyTerminal
    have sameStatus : row.status = held.status := keeps.1.trans status
    constructor
    · intro other otherThere otherId _
      rw [only other otherThere otherId]
      exact sameStatus
    · intro _
      rw [sameStatus]
      refine ⟨(ends.rows held there heldId terminal).1, ?_, ?_⟩
      · rw [sameStatus]
        exact unflagged
      · rw [sameStatus, ← status]
        exact keeps.2
  | false =>
    constructor
    · intro other otherThere otherId otherTerminal
      rw [only other otherThere otherId, terminal] at otherTerminal
      exact nomatch otherTerminal
    · intro rowTerminal
      rcases allowed with ⟨copy, writes⟩
      rcases sources copy writes with ⟨member, copyId⟩
      have live : copy.status.isTerminal = false := by
        rw [Bool.eq_false_iff]
        intro copyTerminal
        have shown := (ends.copies caller copy member copyId copyTerminal).2 held there heldId
        rw [shown, copyTerminal] at terminal
        exact nomatch terminal
      rcases writes.ends live rowTerminal with ⟨gives, fits, read, seen, sameListed⟩
      have isSeen : (knownBy engine caller events).seen.isSome := by
        rw [seen]
        rfl
      have stored := gives.stored keyed trace careful isSeen
      rw [listed copy read copyId sameListed] at stored
      exact ⟨stored, fits⟩

theorem EndsSoundly.stored (ends : EndsSoundly engine workflowId events store)
    (keyed : Keyed tables) (trace : DaemonTrace engine tables events store)
    (careful : Throughout (CancelsUnclaimed engine) events)
    (allowed : MayCall engine (knownBy engine caller events) call)
    (effect : Effect call store response next)
    (current : WritesEnded engine ⟨caller, call, response, store, next⟩ events) :
    ∀ row ∈ next.workflows, row.workflowId = workflowId →
      (∀ held ∈ store.workflows, held.workflowId = workflowId → held.status.isTerminal = true →
        row.status = held.status) ∧ (row.status.isTerminal = true →
        Gives (tasksOf workflowId store) row.status ∧ FlagFits row) := by
  have keyedStore := keyed.of_sameIdentities (identities_of_trace keyed trace).1
  have untouched : ∀ row ∈ store.workflows, row.workflowId = workflowId →
      (∀ held ∈ store.workflows, held.workflowId = workflowId → held.status.isTerminal = true →
        row.status = held.status) ∧
      (row.status.isTerminal = true →
        Gives (tasksOf workflowId store) row.status ∧ FlagFits row) := by
    intro row there named
    refine ⟨?_, ends.rows row there named⟩
    intro held heldThere heldId _
    rw [keyedStore.workflow_eq there heldThere (named.trans heldId.symm)]
  rcases storeOf_of_effect effect with same | ⟨written, stored, call_eq, unnamed, next_eq⟩
  · rw [same]
    exact untouched
  · subst call_eq next_eq
    intro row member named
    rcases Store.mem_upsertWorkflow unnamed member with new | ⟨old, _⟩
    · have write := ends.write keyed trace careful allowed (current written stored)
        (new.workflowId.symm.trans named)
      rw [new.status]
      refine ⟨write.1, ?_⟩
      intro terminal
      rcases write.2 terminal with ⟨gives, fits⟩
      refine ⟨gives, ?_, ?_⟩
      · rw [new.status, new.cancelRequested]
        exact fits.done
      · rw [new.status, new.cancelRequested]
        exact fits.cancelled
    · exact untouched row old named

theorem gives_listWorkflowTasks (gives : Gives (tasksOf workflowId store) status) :
    Gives (store.listWorkflowTasks workflowId) status := by
  apply gives.transfer
  · intro row member _
    rcases mem_tasksOf.mp member with ⟨there, named⟩
    exact ⟨Store.readTask row, mem_listWorkflowTasks.mpr ⟨row, there, rfl, named⟩, rfl, rfl⟩
  · intro copy member
    rcases mem_listWorkflowTasks.mp member with ⟨row, there, read, named⟩
    refine ⟨row, mem_tasksOf.mpr ⟨there, named⟩, ?_⟩
    rw [read]
    exact ⟨rfl, fun _ => rfl⟩

/-- The tasks that an operation has listed behind a call give the status that it
had read. -/
theorem EndsSoundly.seen_cons (ends : EndsSoundly engine workflowId events store)
    (keyed : Keyed tables) (trace : DaemonTrace engine tables events store)
    (effect : Effect call store response next) (thread : Nat) (copy : WorkflowRow)
    (seen : (knownBy engine thread (⟨caller, call, response, store, next⟩ :: events)).seen =
      some copy) (named : copy.workflowId = workflowId)
    (listed : (knownBy engine thread (⟨caller, call, response, store, next⟩ :: events)).listed =
      workflowId) (terminal : copy.status.isTerminal = true) :
    Gives (knownBy engine thread (⟨caller, call, response, store, next⟩ :: events)).tasks
      copy.status := by
  by_cases own : caller = thread
  · subst own
    rw [knownBy_cons_self] at seen listed ⊢
    by_cases listing : isListing call = true
    · cases call with
      | listWorkflowTasks asked =>
        have asked_eq : asked = workflowId := listed
        subst asked_eq
        rcases listing_of_effect effect with answered | failed
        · subst answered
          have identities := identities_of_trace keyed trace
          have member := (identities.2 caller).read copy seen
          have known := (identities.2 caller).workflows copy member
          rcases workflow_present identities.1 known with ⟨held, there, heldCopy⟩
          have heldId := heldCopy.trans named
          have shown := (ends.copies caller copy member named terminal).2 held there heldId
          rw [← shown] at terminal ⊢
          exact gives_listWorkflowTasks (ends.rows held there heldId terminal).1
        · subst failed
          exact nomatch seen
      | _ => exact nomatch listing
    · have unlisting := Bool.eq_false_of_not_eq_true listing
      rw [advance_seen unlisting] at seen
      rw [advance_listed unlisting] at listed
      rw [advance_tasks unlisting]
      exact ends.seen caller copy seen named listed terminal
  · rw [knownBy_cons_other own] at seen listed ⊢
    exact ends.seen thread copy seen named listed terminal

theorem EndsSoundly.step (ends : EndsSoundly engine workflowId events store)
    (keyed : Keyed tables) (trace : DaemonTrace engine tables events store)
    (careful : Throughout (CancelsUnclaimed engine) events)
    (allowed : MayCall engine (knownBy engine caller events) call)
    (effect : Effect call store response next)
    (carefulNow : CancelsUnclaimed engine ⟨caller, call, response, store, next⟩ events)
    (current : WritesEnded engine ⟨caller, call, response, store, next⟩ events) :
    EndsSoundly engine workflowId (⟨caller, call, response, store, next⟩ :: events) next := by
  have stored := ends.stored keyed trace careful allowed effect current
  have identities := identities_of_trace keyed trace
  constructor
  · intro row member named terminal
    rcases (stored row member named).2 terminal with ⟨gives, fits⟩
    exact ⟨gives.step keyed trace careful allowed effect carefulNow, fits⟩
  · intro thread copy member named terminal
    have shown : ∀ held ∈ store.workflows, held.workflowId = workflowId →
        held.status = copy.status → ∀ row ∈ next.workflows, row.workflowId = workflowId →
          row.status = copy.status := by
      intro held there heldId same row rowMember rowId
      rw [← same] at terminal ⊢
      exact (stored row rowMember rowId).1 held there heldId terminal
    have old : copy ∈ (knownBy engine thread events).workflows → FlagFits copy ∧
        ∀ row ∈ next.workflows, row.workflowId = workflowId → row.status = copy.status := by
      intro before
      have earlier := ends.copies thread copy before named terminal
      have known := (identities.2 thread).workflows copy before
      rcases workflow_present identities.1 known with ⟨held, there, heldCopy⟩
      have heldId := heldCopy.trans named
      exact ⟨earlier.1, shown held there heldId (earlier.2 held there heldId)⟩
    by_cases own : caller = thread
    · subst own
      rw [knownBy_cons_self] at member
      rcases mem_advance_workflows effect member with
        ⟨held, there, read⟩ | ⟨_, running⟩ | before
      · have heldId : held.workflowId = workflowId := by
          rw [← named, read]
          rfl
        have same : held.status = copy.status := by
          rw [read]
          rfl
        have fits : FlagFits held := (ends.rows held there heldId (by rw [same]; exact terminal)).2
        refine ⟨?_, shown held there heldId same⟩
        rw [read]
        exact ⟨fits.done, fits.cancelled⟩
      · rw [running] at terminal
        exact nomatch terminal
      · exact old before
    · rw [knownBy_cons_other own] at member
      exact old member
  · exact ends.seen_cons keyed trace effect

theorem endsSoundly_of_trace (keyed : Keyed tables)
    (fresh : ∀ row ∈ tables.workflows, row.workflowId = workflowId → row.status.isTerminal = false)
    (trace : DaemonTrace engine tables events store)
    (careful : Throughout (CancelsUnclaimed engine) events)
    (current : Throughout (WritesEnded engine) events) :
    EndsSoundly engine workflowId events store := by
  induction trace with
  | nil =>
    constructor
    · intro row there named terminal
      rw [fresh row there named] at terminal
      exact nomatch terminal
    · intro thread copy impossible
      exact nomatch impossible
    · intro thread copy impossible
      exact nomatch impossible
  | cons earlier allowed effect induction =>
    exact (induction careful.2 current.2).step keyed earlier careful.2 allowed effect careful.1
      current.1

end Workflows

/-! ## Runs -/

structure HasWorkflowStatus (store : Store) (workflowId : Bytes) (status : Status) : Prop where
  present : ∃ row ∈ store.workflows, row.workflowId = workflowId
  status : ∀ row ∈ store.workflows, row.workflowId = workflowId → row.status = status

theorem hasWorkflowStatus_of_trace {tables last : Store} {workflowId : Bytes}
    {earlier later : List DaemonEvent} (keyed : Keyed tables)
    (fresh : ∀ row ∈ tables.workflows, row.workflowId = workflowId → row.status.isTerminal = false)
    (trace : DaemonTrace engine tables (later ++ earlier) last)
    (careful : Throughout (CancelsUnclaimed engine) (later ++ earlier))
    (current : Throughout (WritesEnded engine) (later ++ earlier))
    (ended : HasWorkflowStatus (SharedStore.storeBehind tables earlier) workflowId status)
    (terminal : status.isTerminal = true) : HasWorkflowStatus last workflowId status := by
  induction later generalizing last with
  | nil =>
    rw [trace.store_eq]
    exact ended
  | cons event later induction =>
    cases trace with
    | cons before allowed effect =>
      have stored := induction before careful.2 current.2
      have ends := endsSoundly_of_trace keyed fresh before careful.2 current.2
      have identities := identities_of_trace keyed before
      rcases stored.present with ⟨held, there, heldId⟩
      have heldStatus := stored.status held there heldId
      constructor
      · have same := identities.1.effect keyed (identities.2 _) allowed effect
        have known := List.mem_map_of_mem (f := WorkflowRow.identity) there
        rw [identities.1.workflows] at known
        rcases workflow_present same known with ⟨row, member, named⟩
        exact ⟨row, member, named.trans heldId⟩
      · intro row member named
        rw [← heldStatus] at terminal ⊢
        exact (ends.stored keyed before careful.2 allowed effect current.1 row member named).1
          held there heldId terminal

/-- In every run in which the row of a workflow that has ended is stored from
copies with its status only, no cancellation is asked for one that is done, and
no pick cancels a task that was claimed behind its listing: once a workflow has
a final status it has that status in every later state. -/
theorem ended_workflow_stays (engine : Engine) {tables : Store} (keyed : Keyed tables)
    {workflowId : Bytes}
    (fresh : ∀ row ∈ tables.workflows, row.workflowId = workflowId → row.status.isTerminal = false)
    {earlier later : List DaemonEvent} {state : DaemonState}
    (run : DaemonRun engine tables (later ++ earlier) state)
    (careful : Throughout (CancelsUnclaimed engine) (later ++ earlier))
    (current : Throughout (WritesEnded engine) (later ++ earlier)) {status : Status}
    (ended : HasWorkflowStatus (SharedStore.storeBehind tables earlier) workflowId status)
    (terminal : status.isTerminal = true) : HasWorkflowStatus state.store workflowId status :=
  hasWorkflowStatus_of_trace keyed fresh (daemonTrace_of_run run) careful current ended terminal

def endingExecution : List (SharedStore.Move Operation Outside) :=
  execution ++ List.replicate 5 (.advance 0 {})

def endedExecution : List (SharedStore.Move Operation Outside) :=
  endingExecution ++ .start (.finalize sampleWorkflow) :: List.replicate 2 (.advance 1 {}) ++
    .start .workerTurn :: List.replicate 4 (.advance 2 {})

theorem writesEnded_of_live {events : List DaemonEvent}
    (live : Throughout (fun event _ => ∀ row ∈ storeOf event.call event.response,
      ∀ stored ∈ event.before.workflows, stored.workflowId = row.workflowId →
        stored.status.isTerminal = false) events) :
    Throughout (WritesEnded engine) events := by
  apply live.mono
  intro event earlier live row stored held there same terminal
  rw [live row stored held there same] at terminal
  exact nomatch terminal

theorem ended_workflow_stays_sample :
    HasWorkflowStatus (recordedRun sampleEngine sampleTables endedExecution).2.store
      sampleWorkflow .done := by
  have run := run_recordedRun sampleEngine sampleTables endedExecution
  exact @ended_workflow_stays sampleEngine sampleTables keyed_sampleTables sampleWorkflow
    (by decide) (recordedRun sampleEngine sampleTables endingExecution).1 [_, _, _, _, _, _] _ run
    (by decide) (writesEnded_of_live (by decide)) .done
    ⟨by decide, by decide⟩ rfl

/-- A cancel request reads the row while the task runs, and the worker finalizes
the workflow. -/
def cancelBesideEnding : List (SharedStore.Move Operation Outside) :=
  execution ++ [.start (.cancelRequest sampleWorkflow), .advance 1 {}] ++
    List.replicate 5 (.advance 0 {})

/-- The workflow is done, and running again when the cancel request has stored
its copy of the row. -/
theorem ended_workflow_overwritten :
    ∃ (earlier later : List DaemonEvent) (state : DaemonState),
      DaemonRun sampleEngine sampleTables (later ++ earlier) state ∧
      HasWorkflowStatus (SharedStore.storeBehind sampleTables earlier) sampleWorkflow .done ∧
      HasWorkflowStatus state.store sampleWorkflow .running := by
  have run := run_recordedRun sampleEngine sampleTables
    (cancelBesideEnding ++ List.replicate 2 (.advance 1 {}))
  exact ⟨(recordedRun sampleEngine sampleTables cancelBesideEnding).1, [_, _], _, run,
    ⟨by decide, by decide⟩, ⟨by decide, by decide⟩⟩

end AgentC.Workflow
