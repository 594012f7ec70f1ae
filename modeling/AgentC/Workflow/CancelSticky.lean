import AgentC.Workflow.System

/-! # Stickiness of a cancel request

A row that an operation has read is written back whole, with the flag it had
when it was read. The flag stays set once no operation under way holds a copy
without it that it may still write. -/

namespace AgentC.Workflow

structure CancelStored (workflowId : Bytes) (store : Store) : Prop where
  present : ∃ row ∈ store.workflows, row.workflowId = workflowId
  flagged : ∀ row ∈ store.workflows, row.workflowId = workflowId → row.cancelRequested = true

/-- A copy of a row that does not undo the request when it is written. -/
def Harmless (workflowId : Bytes) (row : WorkflowRow) : Prop :=
  row.workflowId = workflowId → row.cancelRequested = true

/-- Responses that tables with the flag give. -/
def Shown (workflowId : Bytes) : (call : Call) → Response call → Prop
  | .getWorkflow _, response => ∀ row, response = some row → Harmless workflowId row
  | .listWorkflowsByStatus _ _, response =>
    ∀ rows, response = some rows → ∀ row ∈ rows, Harmless workflowId row
  | _, _ => True

def Respects (workflowId : Bytes) : Call → Prop
  | .upsertWorkflow row => Harmless workflowId row
  | _ => True

variable {store : Store} {row : WorkflowRow} {state next : DaemonState}

theorem CancelStored.getWorkflow {workflowId : Bytes} (stored : CancelStored workflowId store)
    (asked : Bytes) : ∀ row, store.getWorkflow asked = some row → Harmless workflowId row := by
  intro row found same
  rw [Store.getWorkflow] at found
  split at found
  · exact nomatch found
  · rcases Option.map_eq_some_iff.mp found with ⟨held, there, read⟩
    subst read
    exact stored.flagged held (List.mem_of_find?_eq_some there) same

theorem CancelStored.listWorkflowsByStatus {workflowId : Bytes}
    (stored : CancelStored workflowId store) (status : Status) (maxRows : Nat) :
    ∀ row ∈ store.listWorkflowsByStatus status maxRows, Harmless workflowId row := by
  intro row member same
  rcases List.mem_map.mp member with ⟨held, there, read⟩
  subst read
  have listed := List.mem_of_mem_take there
  rw [List.mem_insertionSort] at listed
  exact stored.flagged held (List.mem_filter.mp listed).1 same

/-- Tables whose other rows are harmless have the flag behind a harmless write. -/
theorem cancelStored_upsertWorkflow {workflowId : Bytes} (named : row.workflowId ≠ [])
    (harmless : Harmless workflowId row)
    (present : (∃ stored ∈ store.workflows, stored.workflowId = workflowId) ∨
      row.workflowId = workflowId)
    (others : ∀ stored ∈ store.workflows, stored.workflowId ≠ row.workflowId →
      Harmless workflowId stored) :
    CancelStored workflowId (store.upsertWorkflow row).2 where
  present := Store.upsertWorkflow_present (present.imp_right fun own => ⟨own, named⟩)
  flagged := by
    intro stored member same
    rcases Store.mem_upsertWorkflow named member with written | untouched
    · rw [written.cancelRequested]
      exact harmless (written.workflowId.symm.trans same)
    · exact others stored untouched.1 untouched.2 same

theorem CancelStored.upsertWorkflow {workflowId : Bytes} (stored : CancelStored workflowId store)
    (harmless : Harmless workflowId row) :
    CancelStored workflowId (store.upsertWorkflow row).2 := by
  by_cases unnamed : row.workflowId = []
  · rw [Store.upsertWorkflow_unnamed unnamed]
    exact stored
  · exact cancelStored_upsertWorkflow unnamed harmless (.inl stored.present)
      fun other member _ => stored.flagged other member

theorem CancelStored.of_workflows_eq {workflowId : Bytes} {next : Store}
    (stored : CancelStored workflowId store) (same : next.workflows = store.workflows) :
    CancelStored workflowId next where
  present := by
    rw [same]
    exact stored.present
  flagged := by
    rw [same]
    exact stored.flagged

theorem CancelStored.effect {workflowId : Bytes} {call : Call} {next : Store}
    {response : Response call} (stored : CancelStored workflowId store)
    (respects : Respects workflowId call) (effect : Effect call store response next) :
    Shown workflowId call response ∧ CancelStored workflowId next := by
  rcases effect with ⟨outside, answered⟩ | ⟨failed, unchanged⟩
  · rcases Prod.ext_iff.mp answered with ⟨rfl, rfl⟩
    cases call with
    | getWorkflow asked => exact ⟨stored.getWorkflow asked, stored⟩
    | listWorkflowsByStatus status maxRows =>
      refine ⟨?_, stored⟩
      intro rows listed
      cases listed
      exact stored.listWorkflowsByStatus status maxRows
    | upsertWorkflow row => exact ⟨trivial, stored.upsertWorkflow respects⟩
    | _ =>
      refine ⟨trivial, stored.of_workflows_eq (answer_workflows outside store ?_)⟩
      intro row impossible
      exact nomatch impossible
  · subst unchanged
    refine ⟨?_, stored⟩
    cases call with
    | getWorkflow asked =>
      subst failed
      exact fun row impossible => nomatch impossible
    | listWorkflowsByStatus =>
      subst failed
      exact fun rows impossible => nomatch impossible
    | _ => trivial

/-- As long as the rows it reads from now on have the flag, the program writes
no row of the workflow without it. -/
abbrev HoldsNoStaleCopy {α : Type} (workflowId : Bytes) (program : Action α) : Prop :=
  program.Satisfies (Shown workflowId) (Respects workflowId) fun _ => True

section Programs

variable {workflowId : Bytes} {α : Type}

theorem holds_pure (value : α) : HoldsNoStaleCopy workflowId (pure value) :=
  trivial

theorem holds_bind {β : Type} {program : Action α} {rest : α → Action β}
    (first : HoldsNoStaleCopy workflowId program)
    (next : ∀ value, HoldsNoStaleCopy workflowId (rest value)) :
    HoldsNoStaleCopy workflowId (program >>= rest) :=
  Program.satisfies_then first next

theorem holds_ite {condition : Prop} [Decidable condition] {left right : Action α}
    (holdsLeft : condition → HoldsNoStaleCopy workflowId left)
    (holdsRight : ¬condition → HoldsNoStaleCopy workflowId right) :
    HoldsNoStaleCopy workflowId (if condition then left else right) :=
  Program.satisfies_ite holdsLeft holdsRight

/-- A call that respects the flag, and what follows any response. Every call
but the write of a workflow row does. -/
theorem holds_call {call : Call} {rest : Response call → Action α}
    (respects : Respects workflowId call)
    (next : ∀ response, HoldsNoStaleCopy workflowId (rest response)) :
    HoldsNoStaleCopy workflowId (Program.request call >>= rest) :=
  Program.satisfies_call respects fun response _ => next response

theorem holds_getWorkflow_bind {asked : Bytes} {rest : Option WorkflowRow → Action α}
    (missing : HoldsNoStaleCopy workflowId (rest none))
    (found : ∀ row, Harmless workflowId row → HoldsNoStaleCopy workflowId (rest (some row))) :
    HoldsNoStaleCopy workflowId (getWorkflow asked >>= rest) := by
  apply Program.satisfies_call trivial
  intro response shown
  cases response with
  | none => exact missing
  | some row => exact found row (shown row rfl)

theorem holds_upsertWorkflow_bind {rest : Bool → Action α} (harmless : Harmless workflowId row)
    (next : ∀ response, HoldsNoStaleCopy workflowId (rest response)) :
    HoldsNoStaleCopy workflowId (upsertWorkflow row >>= rest) :=
  holds_call harmless next

variable (engine : Engine)

theorem holds_cancelRequest (asked : Bytes) :
    HoldsNoStaleCopy workflowId (cancelRequest asked) := by
  apply holds_getWorkflow_bind
  · exact holds_pure ()
  · intro row _
    exact holds_call trivial fun nowUnixMs =>
      holds_upsertWorkflow_bind (fun _ => rfl) fun _ => holds_pure ()

theorem holds_maybeFinalizeWorkflow (asked : Bytes) :
    HoldsNoStaleCopy workflowId (maybeFinalizeWorkflow engine asked) := by
  apply holds_getWorkflow_bind
  · exact holds_pure ()
  · intro row harmless
    refine holds_call trivial fun listed => ?_
    cases listed with
    | none => exact holds_pure ()
    | some tasks =>
      apply holds_ite
      · intro _
        exact holds_call trivial fun nowUnixMs =>
          holds_upsertWorkflow_bind harmless fun _ => holds_pure ()
      · intro _
        exact holds_pure ()

/-! Picking: only a copy listed as queued is written back as it is. -/

theorem holds_cancelQueued (tasks : List WorkflowTaskRow)
    (cancelled : WorkflowTaskRow → WorkflowTaskRow) :
    HoldsNoStaleCopy workflowId (cancelQueued tasks cancelled) := by
  apply Program.satisfies_forM
  intro task _
  exact holds_call trivial fun _ => holds_pure ()

variable (nowUnixMs : Int)

theorem holds_cancelAtDeadline (row : WorkflowRow) :
    HoldsNoStaleCopy workflowId (cancelAtDeadline engine nowUnixMs row) := by
  refine holds_call trivial fun listed => ?_
  apply holds_bind (holds_cancelQueued _ _)
  intro _
  have finish : HoldsNoStaleCopy workflowId
      (if anyQueued (listed.getD []) || (!row.cancelRequested ||
          row.error != ascii "deadline exceeded") then
        maybeFinalizeWorkflow engine row.workflowId else pure ()) :=
    holds_ite (fun _ => holds_maybeFinalizeWorkflow engine _) fun _ => holds_pure ()
  apply holds_ite
  · intro _
    exact holds_upsertWorkflow_bind (fun _ => rfl) fun _ => finish
  · intro _
    exact finish

/-- A copy that has the flag, or was listed as running, is not written back
without the flag by claiming. -/
theorem holds_claimFirst (safe : Harmless workflowId row ∨ row.status = .running)
    (tasks remaining : List WorkflowTaskRow) :
    HoldsNoStaleCopy workflowId (claimFirst engine nowUnixMs row tasks remaining) := by
  induction remaining with
  | nil => exact holds_pure none
  | cons task remaining induction =>
    rw [claimFirst]
    apply holds_ite
    · intro _
      exact induction
    · intro _
      refine holds_call trivial fun claimed => ?_
      apply holds_ite
      · intro _
        exact induction
      · intro _
        apply holds_ite
        · intro notRunning
          have harmless : Harmless workflowId row := safe.resolve_right notRunning
          exact holds_upsertWorkflow_bind harmless fun _ => holds_pure _
        · intro _
          exact holds_pure _

theorem holds_tryPickInWorkflow (safe : Harmless workflowId row ∨ row.status = .running) :
    HoldsNoStaleCopy workflowId (tryPickInWorkflow engine nowUnixMs row) := by
  apply holds_ite
  · intro _
    exact holds_pure none
  · intro _
    apply holds_ite
    · intro _
      exact holds_bind (holds_cancelAtDeadline engine nowUnixMs row) fun _ => holds_pure none
    · intro _
      refine holds_call trivial fun listed => ?_
      cases listed with
      | none => exact holds_pure none
      | some tasks =>
        apply holds_ite
        · intro _
          exact holds_pure none
        · intro _
          apply holds_ite
          · intro _
            apply holds_bind (holds_cancelQueued _ _)
            intro _
            apply holds_ite
            · intro _
              exact holds_bind (holds_maybeFinalizeWorkflow engine _) fun _ => holds_pure none
            · intro _
              exact holds_pure none
          · intro _
            apply holds_bind (holds_claimFirst engine nowUnixMs safe tasks _)
            intro picked
            cases picked with
            | some picked => exact holds_pure _
            | none =>
              exact holds_bind (holds_maybeFinalizeWorkflow engine _) fun _ => holds_pure none

theorem holds_pickInOrder {candidates : List WorkflowRow}
    (safe : ∀ row ∈ candidates, Harmless workflowId row ∨ row.status = .running)
    (order : List Nat) :
    HoldsNoStaleCopy workflowId (pickInOrder engine nowUnixMs candidates order) := by
  induction order with
  | nil => exact holds_pure none
  | cons index order induction =>
    rw [pickInOrder]
    split
    · exact induction
    · next row found =>
      apply holds_bind
        (holds_tryPickInWorkflow engine nowUnixMs (safe row (List.mem_of_getElem? found)))
      intro picked
      cases picked with
      | some picked => exact holds_pure _
      | none => exact induction

theorem holds_listWorkflowsByStatus_bind {status : Status} {maxRows : Nat}
    {rest : Option (List WorkflowRow) → Action α} (failed : HoldsNoStaleCopy workflowId (rest none))
    (listed : ∀ rows, (∀ row ∈ rows, Harmless workflowId row) →
      HoldsNoStaleCopy workflowId (rest (some rows))) :
    HoldsNoStaleCopy workflowId (listWorkflowsByStatus status maxRows >>= rest) := by
  apply Program.satisfies_call trivial
  intro response shown
  cases response with
  | none => exact failed
  | some rows => exact listed rows (shown rows rfl)

theorem holds_pickAndClaimOne : HoldsNoStaleCopy workflowId (pickAndClaimOne engine nowUnixMs) := by
  apply holds_listWorkflowsByStatus_bind
  · exact holds_pure none
  · intro queued queuedHarmless
    apply holds_listWorkflowsByStatus_bind
    · exact holds_pure none
    · intro running runningHarmless
      refine holds_call trivial fun order => ?_
      apply holds_pickInOrder
      intro row member
      have listed := mem_of_mem_dedupWorkflows (List.mem_filter.mp member).1
      left
      rcases List.mem_append.mp listed with inQueued | inRunning
      · exact queuedHarmless row inQueued
      · exact runningHarmless row inRunning

/-! Executing: every write of the workflow row sets the flag. -/

theorem holds_cancelTaskNow (asked : Bytes) (task : WorkflowTaskRow) (reason : Bytes) :
    HoldsNoStaleCopy workflowId (cancelTaskNow engine nowUnixMs asked task reason) :=
  holds_call trivial fun _ => holds_maybeFinalizeWorkflow engine asked

theorem holds_workflowBudgetExceededCancel (asked : Bytes) (latest : WorkflowRow)
    (task : WorkflowTaskRow) (which : Bytes) : HoldsNoStaleCopy workflowId
      (workflowBudgetExceededCancel engine nowUnixMs asked latest task which) := by
  refine holds_upsertWorkflow_bind (fun _ => rfl) fun _ => ?_
  refine holds_call trivial fun listed => ?_
  apply holds_bind
  · apply Program.satisfies_forM
    intro other _
    exact holds_call trivial fun _ => holds_pure ()
  · intro _
    exact holds_cancelTaskNow engine nowUnixMs asked task _

theorem holds_recordCancelled (asked : Bytes) (recorded : WorkflowTaskRow) (outcome : RunOutcome) :
    HoldsNoStaleCopy workflowId (recordCancelled engine nowUnixMs asked recorded outcome) := by
  refine holds_call trivial fun _ => ?_
  have finish : HoldsNoStaleCopy workflowId (maybeFinalizeWorkflow engine asked) :=
    holds_maybeFinalizeWorkflow engine asked
  apply holds_getWorkflow_bind
  · exact finish
  · intro row _
    apply holds_ite
    · intro _
      exact holds_upsertWorkflow_bind (fun _ => rfl) fun _ => finish
    · intro _
      exact finish

theorem holds_recordFailed (asked : Bytes) (latest : WorkflowRow) (recorded : WorkflowTaskRow)
    (outcome : RunOutcome) : HoldsNoStaleCopy workflowId
      (recordFailed engine nowUnixMs asked latest recorded outcome) := by
  refine holds_call trivial fun current => ?_
  apply holds_ite
  · intro _
    exact holds_call trivial fun _ => holds_pure ()
  · intro _
    exact holds_call trivial fun _ => holds_maybeFinalizeWorkflow engine asked

theorem holds_runAndRecord (asked : Bytes) (latest : WorkflowRow) (task : WorkflowTaskRow) :
    HoldsNoStaleCopy workflowId (runAndRecord engine nowUnixMs asked latest task) := by
  refine holds_call trivial fun outcome => ?_
  apply holds_ite
  · intro _
    exact holds_recordCancelled engine nowUnixMs asked _ outcome
  · intro _
    apply holds_ite
    · intro _
      exact holds_call trivial fun _ => holds_maybeFinalizeWorkflow engine asked
    · intro _
      exact holds_recordFailed engine nowUnixMs asked latest _ outcome

theorem holds_executeClaimedTask (row : WorkflowRow) (task : WorkflowTaskRow) :
    HoldsNoStaleCopy workflowId (executeClaimedTask engine row task) := by
  refine holds_call trivial fun nowUnixMs => ?_
  refine holds_call trivial fun current => ?_
  apply holds_ite
  · intro _
    exact holds_cancelTaskNow engine nowUnixMs _ task _
  · intro _
    apply holds_ite
    · intro _
      exact holds_upsertWorkflow_bind (fun _ => rfl) fun _ =>
        holds_cancelTaskNow engine nowUnixMs _ task _
    · intro _
      refine holds_call trivial fun listed => ?_
      dsimp only
      split
      · exact holds_workflowBudgetExceededCancel engine nowUnixMs _ _ task _
      · exact holds_runAndRecord engine nowUnixMs _ _ task

theorem holds_workerTurn : HoldsNoStaleCopy workflowId (workerTurn engine) := by
  refine holds_call trivial fun nowUnixMs => ?_
  apply holds_bind (holds_pickAndClaimOne engine nowUnixMs)
  intro picked
  cases picked with
  | none => exact holds_pure ()
  | some picked => exact holds_executeClaimedTask engine picked.1 picked.2

theorem holds_program (operation : Operation) :
    HoldsNoStaleCopy workflowId (operation.program engine) := by
  cases operation with
  | cancelRequest asked => exact holds_cancelRequest asked
  | workerTurn => exact holds_workerTurn engine
  | finalize asked => exact holds_maybeFinalizeWorkflow engine asked

end Programs

def CancelRequested (workflowId : Bytes) (store : Store) : Prop :=
  ∃ row, store.getWorkflow workflowId = some row ∧ row.cancelRequested = true

theorem CancelStored.cancelRequested {workflowId : Bytes} (named : workflowId ≠ [])
    (stored : CancelStored workflowId store) : CancelRequested workflowId store := by
  rcases stored.present with ⟨row, member, same⟩
  rcases found : store.workflows.find? fun row => row.workflowId = workflowId with _ | first
  · exact absurd (decide_eq_true same) (List.find?_eq_none.mp found row member)
  · have read : store.getWorkflow workflowId = some (Store.readWorkflow first) := by
      rw [Store.getWorkflow, if_neg named, found]
      rfl
    have sameFirst : first.workflowId = workflowId := by simpa using List.find?_some found
    exact ⟨_, read, stored.flagged first (List.mem_of_find?_eq_some found) sameFirst⟩

/-- The step in which a cancel request stores its row. -/
structure CancelStore (state next : DaemonState) where
  asked : Bytes
  row : WorkflowRow
  continuation : Bool → Action Unit
  front : List (Thread Operation Call Response)
  rest : List (Thread Operation Call Response)
  before : state.threads =
    front ++ ⟨.cancelRequest asked, .call (.upsertWorkflow row) continuation⟩ :: rest
  after : next.threads = front ++ ⟨.cancelRequest asked, continuation true⟩ :: rest
  stored : state.store.upsertWorkflow row = (true, next.store)

def CancelStore.others {state next : DaemonState} (store : CancelStore state next) :
    List (Thread Operation Call Response) :=
  store.front ++ store.rest

/-- Cancel requests write rows with the flag only. -/
def OnlyFlagged : Operation → Call → Prop
  | .cancelRequest _, .upsertWorkflow row => row.cancelRequested = true
  | _, _ => True

theorem onlyFlagged_program (engine : Engine) (operation : Operation) :
    (operation.program engine).Satisfies (fun _ _ => True) (OnlyFlagged operation)
      fun _ => True := by
  cases operation with
  | cancelRequest asked =>
    apply Program.satisfies_call trivial
    intro found _
    cases found with
    | none => trivial
    | some row =>
      apply Program.satisfies_call trivial
      intro nowUnixMs _
      exact Program.satisfies_call rfl fun _ _ => trivial
  | workerTurn => exact Program.satisfies_of_all (fun _ => trivial) _
  | finalize asked => exact Program.satisfies_of_all (fun _ => trivial) _

theorem CancelStore.flagged {engine : Engine} (reachable : Reachable engine state)
    (store : CancelStore state next) : store.row.cancelRequested = true ∧
      HoldsNoStaleCopy store.row.workflowId (store.continuation true) := by
  rcases reachable with ⟨tables, run⟩
  have flaggedOnly := ((daemon engine).invariant_reaches (fun _ _ _ => ⟨trivial, trivial⟩)
    (onlyFlagged_program engine) run ⟨trivial, fun _ member => nomatch member⟩).2
  rw [store.before] at flaggedOnly
  have own := flaggedOnly _ (List.mem_append_right store.front (List.mem_cons_self ..))
  constructor
  · exact own.1
  · apply (own.2 true trivial).weaken (fun _ _ _ => trivial)
    intro call flagged
    cases call with
    | upsertWorkflow row => exact fun _ => flagged
    | _ => trivial

theorem CancelStore.named (store : CancelStore state next) : store.row.workflowId ≠ [] := by
  intro unnamed
  have failed := store.stored
  rw [Store.upsertWorkflow_unnamed unnamed] at failed
  exact nomatch congrArg Prod.fst failed

theorem CancelStore.cancelStored (store : CancelStore state next)
    (flagged : store.row.cancelRequested = true) :
    CancelStored store.row.workflowId next.store := by
  have written : CancelStored store.row.workflowId (state.store.upsertWorkflow store.row).2 :=
    cancelStored_upsertWorkflow store.named (fun _ => flagged) (.inr rfl)
      fun _ _ different same => absurd same different
  rw [store.stored] at written
  exact written

/-- In every run: once a cancel request has stored its row while no other
operation under way holds a copy without the flag that it may still write, the
flag is set in every later state. -/
theorem cancel_sticky (engine : Engine) {state next later : DaemonState}
    (reachable : Reachable engine state) (store : CancelStore state next)
    (alone : ∀ thread ∈ store.others, HoldsNoStaleCopy store.row.workflowId thread.remaining)
    (reached : (daemon engine).Reaches next later) :
    CancelRequested store.row.workflowId later.store := by
  have own := store.flagged reachable
  have stored := store.cancelStored own.1
  have programs : ∀ thread ∈ next.threads,
      HoldsNoStaleCopy store.row.workflowId thread.remaining := by
    intro thread member
    rw [store.after] at member
    rcases List.mem_append.mp member with inFront | behind
    · exact alone thread (List.mem_append_left _ inFront)
    · rcases List.mem_cons.mp behind with same | inRest
      · rw [same]
        exact own.2
      · exact alone thread (List.mem_append_right _ inRest)
  have kept := (daemon engine).invariant_reaches
    (fun stored respects effect => stored.effect respects effect)
    (fun operation => holds_program engine operation) reached ⟨stored, programs⟩
  exact kept.1.cancelRequested store.named

def cancelBesideWorker : List (SharedStore.Move Operation Outside) :=
  [.start (.cancelRequest sampleWorkflow), .advance 0 {}, .advance 0 {}, .start .workerTurn]

def cancelBesideWorkerStore :
    CancelStore (sampleRun cancelBesideWorker)
      (sampleRun (cancelBesideWorker ++ [.advance 0 {}])) where
  asked := sampleWorkflow
  row := _
  continuation := _
  front := []
  rest := [⟨.workerTurn, workerTurn sampleEngine⟩]
  before := rfl
  after := rfl
  stored := rfl

/-- The flag is there when the worker has listed and gone through the workflow. -/
theorem cancel_sticky_sample :
    CancelRequested sampleWorkflow (sampleRun (cancelBesideWorker ++ [.advance 0 {}] ++
      [.advance 1 {}, .advance 1 {}, .advance 1 {}, .advance 1 {}, .advance 1 {}])).store := by
  apply cancel_sticky sampleEngine (reachable_sampleRun cancelBesideWorker)
    cancelBesideWorkerStore
  · intro thread member
    rw [List.mem_singleton.mp member]
    exact holds_workerTurn sampleEngine
  · exact reaches_sampleRun _ _

/-- A worker lists the workflow as queued and claims its task, and a cancel
request reads the row. -/
def cancelInsideClaim : List (SharedStore.Move Operation Outside) :=
  [.start .workerTurn, .advance 0 {}, .advance 0 {}, .advance 0 {}, .advance 0 {}, .advance 0 {},
    .advance 0 {}, .start (.cancelRequest sampleWorkflow), .advance 1 {}, .advance 1 {}]

def cancelInsideClaimStore :
    CancelStore (sampleRun cancelInsideClaim)
      (sampleRun (cancelInsideClaim ++ [.advance 1 {}])) where
  asked := sampleWorkflow
  row := _
  continuation := _
  front := [_]
  rest := []
  before := rfl
  after := rfl
  stored := rfl

/-- The request stores its row, the worker writes its copy back, and the flag
is gone. -/
theorem cancel_lost :
    ∃ state next later : DaemonState, Reachable sampleEngine state ∧
      (∃ store : CancelStore state next, store.row.workflowId = sampleWorkflow) ∧
      (daemon sampleEngine).Reaches next later ∧
      ¬CancelRequested sampleWorkflow later.store := by
  refine ⟨sampleRun cancelInsideClaim, _, sampleRun (cancelInsideClaim ++ [.advance 1 {}] ++
    [.advance 0 {}]), reachable_sampleRun _, ⟨cancelInsideClaimStore, rfl⟩,
    reaches_sampleRun _ _, ?_⟩
  intro requested
  rcases requested with ⟨row, found, flagged⟩
  have unflagged : ((sampleRun (cancelInsideClaim ++ [.advance 1 {}] ++
      [.advance 0 {}])).store.getWorkflow sampleWorkflow).map WorkflowRow.cancelRequested =
      some false := by
    decide
  rw [found, Option.map_some, flagged] at unflagged
  exact nomatch unflagged

end AgentC.Workflow
