import AgentC.EdgeTasks.Store

/-! # Calls of the edge platform

What the handlers and engines ask of the database and of the clock. Each call is
atomic; it does its work or fails and leaves the tables as they are. -/

namespace AgentC.EdgeTasks

inductive Call
  | unixMsNow
  | makeUuidishMsgId
  /-- A look at the flag that asks an engine to stop. -/
  | stopRequested
  | insertEdgeInboxMessageWithSeqGuard (row : EdgeInboxMessageRow)
      (guard : Option EdgeInboxAuthSeqGuard)
  | getEdgeInboxMessageProcessed (msgId : Bytes)
  | markEdgeInboxMessageProcessed (msgId : Bytes)
  | getEdgeNode (nodeId : Bytes)
  | listEdgeNodes (maxRows : Nat)
  | upsertEdgeNode (row : EdgeNodeRow)
  | getEdgeTask (taskId stepId : Bytes)
  | getEdgeTaskByNodeIdempotency (nodeId idempotencyKey : Bytes)
  | getEdgeTaskLockConflict (nodeId resourceLock : Bytes)
  | listEdgeTasksExpiredDeadline (time : Int) (maxRows : Nat)
  | upsertEdgeTask (row : EdgeTaskRow)
  | insertEdgeTaskEvent (row : EdgeTaskEventRow)
  | insertEdgeOutboxMessage (row : EdgeOutboxMessageRow)
  | getEdgeWorkflow (workflowId : Bytes)
  | listEdgeWorkflowsByStatus (status : Bytes) (maxRows : Nat)
  | upsertEdgeWorkflow (row : EdgeWorkflowRow)
  | listEdgeWorkflowSteps (workflowId : Bytes)
  | upsertEdgeWorkflowStep (row : EdgeWorkflowStepRow)
  | insertEdgeWorkflowEvent (row : EdgeWorkflowEventRow)
  | getEdgeToolRateState (nodeId toolName : Bytes)
  | upsertEdgeToolRateState (row : EdgeToolRateStateRow)
  /-- The response to a request leaves the daemon. -/
  | respond (status : Nat)

def Response : Call → Type
  | .unixMsNow => Int
  | .makeUuidishMsgId => Bytes
  | .stopRequested => Bool
  | .insertEdgeInboxMessageWithSeqGuard .. => Store.InboxOutcome
  | .getEdgeInboxMessageProcessed _ => Option Bool
  | .markEdgeInboxMessageProcessed _ => Bool
  | .getEdgeNode _ => Option EdgeNodeRow
  | .listEdgeNodes _ => Option (List EdgeNodeRow)
  | .upsertEdgeNode _ => Bool
  | .getEdgeTask _ _ => Option EdgeTaskRow
  | .getEdgeTaskByNodeIdempotency _ _ => Option EdgeTaskRow
  | .getEdgeTaskLockConflict _ _ => Option TaskKey
  | .listEdgeTasksExpiredDeadline _ _ => List EdgeTaskRow
  | .upsertEdgeTask _ => Bool
  | .insertEdgeTaskEvent _ => Bool
  | .insertEdgeOutboxMessage _ => Option Nat
  | .getEdgeWorkflow _ => Option EdgeWorkflowRow
  | .listEdgeWorkflowsByStatus _ _ => List EdgeWorkflowRow
  | .upsertEdgeWorkflow _ => Bool
  | .listEdgeWorkflowSteps _ => Option (List EdgeWorkflowStepRow)
  | .upsertEdgeWorkflowStep _ => Bool
  | .insertEdgeWorkflowEvent _ => Bool
  | .getEdgeToolRateState _ _ => Option EdgeToolRateStateRow
  | .upsertEdgeToolRateState _ => Bool
  | .respond _ => Unit

abbrev Action := Program Call Response

def unixMsNow : Action Int :=
  Program.request Call.unixMsNow

def makeUuidishMsgId : Action Bytes :=
  Program.request Call.makeUuidishMsgId

def stopRequested : Action Bool :=
  Program.request Call.stopRequested

def insertEdgeInboxMessageWithSeqGuard (row : EdgeInboxMessageRow) (guard : Option EdgeInboxAuthSeqGuard) :
    Action Store.InboxOutcome :=
  Program.request (Call.insertEdgeInboxMessageWithSeqGuard row guard)

def getEdgeInboxMessageProcessed (msgId : Bytes) : Action (Option Bool) :=
  Program.request (Call.getEdgeInboxMessageProcessed msgId)

def markEdgeInboxMessageProcessed (msgId : Bytes) : Action Bool :=
  Program.request (Call.markEdgeInboxMessageProcessed msgId)

def getEdgeNode (nodeId : Bytes) : Action (Option EdgeNodeRow) :=
  Program.request (Call.getEdgeNode nodeId)

def listEdgeNodes (maxRows : Nat) : Action (Option (List EdgeNodeRow)) :=
  Program.request (Call.listEdgeNodes maxRows)

def upsertEdgeNode (row : EdgeNodeRow) : Action Bool :=
  Program.request (Call.upsertEdgeNode row)

def getEdgeTask (taskId stepId : Bytes) : Action (Option EdgeTaskRow) :=
  Program.request (Call.getEdgeTask taskId stepId)

def getEdgeTaskByNodeIdempotency (nodeId idempotencyKey : Bytes) : Action (Option EdgeTaskRow) :=
  Program.request (Call.getEdgeTaskByNodeIdempotency nodeId idempotencyKey)

def getEdgeTaskLockConflict (nodeId resourceLock : Bytes) : Action (Option TaskKey) :=
  Program.request (Call.getEdgeTaskLockConflict nodeId resourceLock)

def listEdgeTasksExpiredDeadline (time : Int) (maxRows : Nat) : Action (List EdgeTaskRow) :=
  Program.request (Call.listEdgeTasksExpiredDeadline time maxRows)

def upsertEdgeTask (row : EdgeTaskRow) : Action Bool :=
  Program.request (Call.upsertEdgeTask row)

def insertEdgeTaskEvent (row : EdgeTaskEventRow) : Action Bool :=
  Program.request (Call.insertEdgeTaskEvent row)

def insertEdgeOutboxMessage (row : EdgeOutboxMessageRow) : Action (Option Nat) :=
  Program.request (Call.insertEdgeOutboxMessage row)

def getEdgeWorkflow (workflowId : Bytes) : Action (Option EdgeWorkflowRow) :=
  Program.request (Call.getEdgeWorkflow workflowId)

def listEdgeWorkflowsByStatus (status : Bytes) (maxRows : Nat) : Action (List EdgeWorkflowRow) :=
  Program.request (Call.listEdgeWorkflowsByStatus status maxRows)

def upsertEdgeWorkflow (row : EdgeWorkflowRow) : Action Bool :=
  Program.request (Call.upsertEdgeWorkflow row)

def listEdgeWorkflowSteps (workflowId : Bytes) : Action (Option (List EdgeWorkflowStepRow)) :=
  Program.request (Call.listEdgeWorkflowSteps workflowId)

def upsertEdgeWorkflowStep (row : EdgeWorkflowStepRow) : Action Bool :=
  Program.request (Call.upsertEdgeWorkflowStep row)

def insertEdgeWorkflowEvent (row : EdgeWorkflowEventRow) : Action Bool :=
  Program.request (Call.insertEdgeWorkflowEvent row)

def getEdgeToolRateState (nodeId toolName : Bytes) : Action (Option EdgeToolRateStateRow) :=
  Program.request (Call.getEdgeToolRateState nodeId toolName)

def upsertEdgeToolRateState (row : EdgeToolRateStateRow) : Action Bool :=
  Program.request (Call.upsertEdgeToolRateState row)

def respond (status : Nat) : Action Unit :=
  Program.request (Call.respond status)

/-- An action under a condition, whatever it answers. -/
def performWhen {α : Type} (condition : Bool) (action : Action α) : Action Unit :=
  if condition then action >>= fun _ => pure () else pure ()

/-- What is outside of the database: the clock, the source of identifiers and the
flag of the engine. -/
structure Outside where
  nowUtcMs : Int := 1
  msgId : Bytes := ascii "m"
  stop : Bool := false
deriving DecidableEq, Repr

def answer (outside : Outside) : (call : Call) → Store → Response call × Store
  | .unixMsNow, store => (outside.nowUtcMs, store)
  | .makeUuidishMsgId, store => (outside.msgId, store)
  | .stopRequested, store => (outside.stop, store)
  | .insertEdgeInboxMessageWithSeqGuard row guard, store =>
    store.insertEdgeInboxMessageWithSeqGuard outside.nowUtcMs row guard
  | .getEdgeInboxMessageProcessed msgId, store => (store.getEdgeInboxMessageProcessed msgId, store)
  | .markEdgeInboxMessageProcessed msgId, store => store.markEdgeInboxMessageProcessed msgId
  | .getEdgeNode nodeId, store => (store.getEdgeNode nodeId, store)
  | .listEdgeNodes maxRows, store => (some (store.listEdgeNodes maxRows), store)
  | .upsertEdgeNode row, store => store.upsertEdgeNode row
  | .getEdgeTask taskId stepId, store => (store.getEdgeTask taskId stepId, store)
  | .getEdgeTaskByNodeIdempotency nodeId idempotencyKey, store =>
    (store.getEdgeTaskByNodeIdempotency nodeId idempotencyKey, store)
  | .getEdgeTaskLockConflict nodeId resourceLock, store =>
    (store.getEdgeTaskLockConflict nodeId resourceLock, store)
  | .listEdgeTasksExpiredDeadline time maxRows, store =>
    (store.listEdgeTasksExpiredDeadline outside.nowUtcMs time maxRows, store)
  | .upsertEdgeTask row, store => store.upsertEdgeTask outside.nowUtcMs row
  | .insertEdgeTaskEvent row, store => store.insertEdgeTaskEvent outside.nowUtcMs row
  | .insertEdgeOutboxMessage row, store => store.insertEdgeOutboxMessage outside.nowUtcMs row
  | .getEdgeWorkflow workflowId, store => (store.getEdgeWorkflow workflowId, store)
  | .listEdgeWorkflowsByStatus status maxRows, store =>
    (store.listEdgeWorkflowsByStatus status maxRows, store)
  | .upsertEdgeWorkflow row, store => store.upsertEdgeWorkflow outside.nowUtcMs row
  | .listEdgeWorkflowSteps workflowId, store =>
    (if workflowId = [] then none else some (store.listEdgeWorkflowSteps workflowId), store)
  | .upsertEdgeWorkflowStep row, store => store.upsertEdgeWorkflowStep outside.nowUtcMs row
  | .insertEdgeWorkflowEvent row, store => store.insertEdgeWorkflowEvent outside.nowUtcMs row
  | .getEdgeToolRateState nodeId toolName, store =>
    (store.getEdgeToolRateState nodeId toolName, store)
  | .upsertEdgeToolRateState row, store => store.upsertEdgeToolRateState row
  | .respond _, store => ((), store)

/-- The response of a call that the database fails: nothing, or the rows of a
listing up to the failure. -/
def Failed : (call : Call) → Store → Response call → Prop
  | .unixMsNow, _, _ => False
  | .makeUuidishMsgId, _, _ => False
  | .stopRequested, _, _ => False
  | .insertEdgeInboxMessageWithSeqGuard .., _, response => response = .failed
  | .getEdgeInboxMessageProcessed _, _, response => response = none
  | .markEdgeInboxMessageProcessed _, _, response => response = false
  | .getEdgeNode _, _, response => response = none
  | .listEdgeNodes maxRows, store, response =>
    response = none ∨ ∃ rows, response = some rows ∧ rows <+: store.listEdgeNodes maxRows
  | .upsertEdgeNode _, _, response => response = false
  | .getEdgeTask _ _, _, response => response = none
  | .getEdgeTaskByNodeIdempotency _ _, _, response => response = none
  | .getEdgeTaskLockConflict _ _, _, response => response = none
  | .listEdgeTasksExpiredDeadline time maxRows, store, response =>
    ∃ nowUtcMs, response <+: store.listEdgeTasksExpiredDeadline nowUtcMs time maxRows
  | .upsertEdgeTask _, _, response => response = false
  | .insertEdgeTaskEvent _, _, response => response = false
  | .insertEdgeOutboxMessage _, _, response => response = none
  | .getEdgeWorkflow _, _, response => response = none
  | .listEdgeWorkflowsByStatus status maxRows, store, response =>
    response <+: store.listEdgeWorkflowsByStatus status maxRows
  | .upsertEdgeWorkflow _, _, response => response = false
  | .listEdgeWorkflowSteps workflowId, store, response =>
    response = none ∨
      ∃ rows, response = some rows ∧ rows <+: store.listEdgeWorkflowSteps workflowId
  | .upsertEdgeWorkflowStep _, _, response => response = false
  | .insertEdgeWorkflowEvent _, _, response => response = false
  | .getEdgeToolRateState _ _, _, response => response = none
  | .upsertEdgeToolRateState _, _, response => response = false
  | .respond _, _, _ => False

def Effect (call : Call) (store : Store) (response : Response call) (next : Store) : Prop :=
  (∃ outside, (response, next) = answer outside call store) ∨
    Failed call store response ∧ next = store

theorem effect_answer (outside : Outside) (call : Call) (store : Store) :
    Effect call store (answer outside call store).1 (answer outside call store).2 :=
  .inl ⟨outside, rfl⟩

variable {α : Type}

namespace Store

variable (store : Store)

variable (nowUtcMs : Int) {table : Store → α}

theorem insertEdgeInboxMessageWithSeqGuard_keeps (row : EdgeInboxMessageRow)
    (guard : Option EdgeInboxAuthSeqGuard)
    (inbox : ∀ (store : Store) entries, table { store with inbox := entries } = table store)
    (nodes : ∀ (store : Store) entries, table { store with nodes := entries } = table store) :
    table (store.insertEdgeInboxMessageWithSeqGuard nowUtcMs row guard).2 = table store := by
  rw [insertEdgeInboxMessageWithSeqGuard]
  split
  · rfl
  · split
    · rfl
    · split
      · rfl
      · cases guard with
        | none => exact inbox ..
        | some guard =>
          cases bumped : store.bumpSeq guard with
          | none => simp only [bumped]
          | some entries =>
            simp only [bumped]
            exact (nodes ..).trans (inbox ..)

theorem markEdgeInboxMessageProcessed_keeps (msgId : Bytes)
    (inbox : ∀ (store : Store) entries, table { store with inbox := entries } = table store) :
    table (store.markEdgeInboxMessageProcessed msgId).2 = table store := by
  rw [markEdgeInboxMessageProcessed]
  split
  · rfl
  · exact inbox ..

theorem upsertEdgeNode_keeps (row : EdgeNodeRow)
    (nodes : ∀ (store : Store) entries, table { store with nodes := entries } = table store) :
    table (store.upsertEdgeNode row).2 = table store := by
  rw [upsertEdgeNode]
  split
  · rfl
  · exact nodes ..

theorem upsertEdgeTask_keeps (row : EdgeTaskRow)
    (tasks : ∀ (store : Store) rows, table { store with tasks := rows } = table store) :
    table (store.upsertEdgeTask nowUtcMs row).2 = table store := by
  rw [upsertEdgeTask]
  split
  · exact tasks ..
  · rfl

theorem insertEdgeTaskEvent_keeps (row : EdgeTaskEventRow)
    (taskEvents : ∀ (store : Store) rows, table { store with taskEvents := rows } = table store) :
    table (store.insertEdgeTaskEvent nowUtcMs row).2 = table store := by
  rw [insertEdgeTaskEvent]
  split
  · rfl
  · exact taskEvents ..

theorem insertEdgeOutboxMessage_keeps (row : EdgeOutboxMessageRow)
    (outbox : ∀ (store : Store) rows, table { store with outbox := rows } = table store) :
    table (store.insertEdgeOutboxMessage nowUtcMs row).2 = table store := by
  rw [insertEdgeOutboxMessage]
  split
  · rfl
  · exact outbox ..

theorem upsertEdgeWorkflow_keeps (row : EdgeWorkflowRow)
    (workflows : ∀ (store : Store) rows, table { store with workflows := rows } = table store) :
    table (store.upsertEdgeWorkflow nowUtcMs row).2 = table store := by
  rw [upsertEdgeWorkflow]
  split
  · rfl
  · exact workflows ..

theorem upsertEdgeWorkflowStep_keeps (row : EdgeWorkflowStepRow)
    (steps : ∀ (store : Store) rows, table { store with steps := rows } = table store) :
    table (store.upsertEdgeWorkflowStep nowUtcMs row).2 = table store := by
  rw [upsertEdgeWorkflowStep]
  split
  · rfl
  · exact steps ..

theorem insertEdgeWorkflowEvent_keeps (row : EdgeWorkflowEventRow)
    (workflowEvents : ∀ (store : Store) rows,
      table { store with workflowEvents := rows } = table store) :
    table (store.insertEdgeWorkflowEvent nowUtcMs row).2 = table store := by
  rw [insertEdgeWorkflowEvent]
  split
  · rfl
  · exact workflowEvents ..

theorem upsertEdgeToolRateState_keeps (row : EdgeToolRateStateRow)
    (rateStates : ∀ (store : Store) rows, table { store with rateStates := rows } = table store) :
    table (store.upsertEdgeToolRateState row).2 = table store := by
  rw [upsertEdgeToolRateState]
  split
  · rfl
  · exact rateStates ..

end Store

inductive Table
  | inbox
  | nodes
  | tasks
  | taskEvents
  | outbox
  | workflows
  | steps
  | workflowEvents
  | rateStates
deriving DecidableEq, Repr

def Call.writes : Call → Table → Bool
  | .insertEdgeInboxMessageWithSeqGuard .., table => table = .inbox ∨ table = .nodes
  | .markEdgeInboxMessageProcessed _, table => table = .inbox
  | .upsertEdgeNode _, table => table = .nodes
  | .upsertEdgeTask _, table => table = .tasks
  | .insertEdgeTaskEvent _, table => table = .taskEvents
  | .insertEdgeOutboxMessage _, table => table = .outbox
  | .upsertEdgeWorkflow _, table => table = .workflows
  | .upsertEdgeWorkflowStep _, table => table = .steps
  | .insertEdgeWorkflowEvent _, table => table = .workflowEvents
  | .upsertEdgeToolRateState _, table => table = .rateStates
  | _, _ => false

/-- A view of the tables that does not depend on a table. -/
def Table.Irrelevant {α : Type} (view : Store → α) : Table → Prop
  | .inbox => ∀ (store : Store) rows, view { store with inbox := rows } = view store
  | .nodes => ∀ (store : Store) rows, view { store with nodes := rows } = view store
  | .tasks => ∀ (store : Store) rows, view { store with tasks := rows } = view store
  | .taskEvents => ∀ (store : Store) rows, view { store with taskEvents := rows } = view store
  | .outbox => ∀ (store : Store) rows, view { store with outbox := rows } = view store
  | .workflows => ∀ (store : Store) rows, view { store with workflows := rows } = view store
  | .steps => ∀ (store : Store) rows, view { store with steps := rows } = view store
  | .workflowEvents => ∀ (store : Store) rows, view { store with workflowEvents := rows } = view store
  | .rateStates => ∀ (store : Store) rows, view { store with rateStates := rows } = view store

section Frames

variable {call : Call} {store next : Store} {response : Response call}

theorem Effect.keeps {view : Store → α} (effect : Effect call store response next)
    (irrelevant : ∀ table, call.writes table = true → table.Irrelevant view) :
    view next = view store := by
  rcases effect with ⟨outside, answered⟩ | ⟨-, same⟩
  · rw [show next = (answer outside call store).2 from congrArg Prod.snd answered]
    cases call with
    | insertEdgeInboxMessageWithSeqGuard row guard =>
      exact store.insertEdgeInboxMessageWithSeqGuard_keeps _ row guard (irrelevant .inbox rfl)
        (irrelevant .nodes rfl)
    | markEdgeInboxMessageProcessed msgId =>
      exact store.markEdgeInboxMessageProcessed_keeps msgId (irrelevant .inbox rfl)
    | upsertEdgeNode row => exact store.upsertEdgeNode_keeps row (irrelevant .nodes rfl)
    | upsertEdgeTask row => exact store.upsertEdgeTask_keeps _ row (irrelevant .tasks rfl)
    | insertEdgeTaskEvent row =>
      exact store.insertEdgeTaskEvent_keeps _ row (irrelevant .taskEvents rfl)
    | insertEdgeOutboxMessage row =>
      exact store.insertEdgeOutboxMessage_keeps _ row (irrelevant .outbox rfl)
    | upsertEdgeWorkflow row => exact store.upsertEdgeWorkflow_keeps _ row (irrelevant .workflows rfl)
    | upsertEdgeWorkflowStep row =>
      exact store.upsertEdgeWorkflowStep_keeps _ row (irrelevant .steps rfl)
    | insertEdgeWorkflowEvent row =>
      exact store.insertEdgeWorkflowEvent_keeps _ row (irrelevant .workflowEvents rfl)
    | upsertEdgeToolRateState row =>
      exact store.upsertEdgeToolRateState_keeps row (irrelevant .rateStates rfl)
    | _ => rfl
  · rw [same]

theorem Effect.tasks (effect : Effect call store response next)
    (other : call.writes .tasks = false) : next.tasks = store.tasks := by
  apply effect.keeps
  intro table writes
  cases table with
  | tasks => exact nomatch writes.symm.trans other
  | _ => exact fun _ _ => rfl

theorem Effect.nodes (effect : Effect call store response next)
    (other : call.writes .nodes = false) : next.nodes = store.nodes := by
  apply effect.keeps
  intro table writes
  cases table with
  | nodes => exact nomatch writes.symm.trans other
  | _ => exact fun _ _ => rfl

theorem Effect.workflows (effect : Effect call store response next)
    (other : call.writes .workflows = false) : next.workflows = store.workflows := by
  apply effect.keeps
  intro table writes
  cases table with
  | workflows => exact nomatch writes.symm.trans other
  | _ => exact fun _ _ => rfl

end Frames

variable {store next : Store}

theorem effect_upsertEdgeWorkflow {row : EdgeWorkflowRow} {response : Bool}
    (effect : Effect (.upsertEdgeWorkflow row) store response next) :
    (response = true ∧ row.workflowId ≠ [] ∧ ∃ nowUtcMs, next = { store with
        workflows := upsertBy (·.workflowId) Store.mergeEdgeWorkflow
          (Store.boundEdgeWorkflow nowUtcMs row) store.workflows }) ∨
      next = store := by
  rcases effect with ⟨outside, answered⟩ | ⟨-, same⟩
  · simp only [answer, Store.upsertEdgeWorkflow] at answered
    split at answered
    · exact .inr (congrArg Prod.snd answered)
    · next accepts =>
      refine .inl ⟨congrArg Prod.fst answered, ?_, outside.nowUtcMs, congrArg Prod.snd answered⟩
      exact fun empty => accepts (.inl empty)
  · exact .inr same

theorem effect_upsertEdgeTask {row : EdgeTaskRow} {response : Bool}
    (effect : Effect (.upsertEdgeTask row) store response next) :
    (response = true ∧ store.acceptsEdgeTask row = true ∧ ∃ nowUtcMs, next = { store with
        tasks := upsertBy (·.key) Store.mergeTask (Store.boundTask nowUtcMs row) store.tasks }) ∨
      (response = false ∧ next = store) := by
  rcases effect with ⟨outside, answered⟩ | ⟨failed, same⟩
  · simp only [answer, Store.upsertEdgeTask] at answered
    split at answered
    · next accepts =>
      exact .inl ⟨congrArg Prod.fst answered, accepts, outside.nowUtcMs, congrArg Prod.snd answered⟩
    · exact .inr ⟨congrArg Prod.fst answered, congrArg Prod.snd answered⟩
  · exact .inr ⟨failed, same⟩

theorem effect_getEdgeTask {taskId stepId : Bytes} {response : Option EdgeTaskRow}
    (effect : Effect (.getEdgeTask taskId stepId) store response next) :
    next = store ∧ (response = none ∨ response = store.getEdgeTask taskId stepId) := by
  rcases effect with ⟨outside, answered⟩ | ⟨failed, same⟩
  · exact ⟨congrArg Prod.snd answered, .inr (congrArg Prod.fst answered)⟩
  · exact ⟨same, .inl failed⟩

theorem lookupBy_of_getEdgeTask {taskId stepId : Bytes} {row : EdgeTaskRow}
    (found : store.getEdgeTask taskId stepId = some row) :
    lookupBy (·.key) (taskId, stepId) store.tasks = some row := by
  rw [Store.getEdgeTask] at found
  split at found
  · cases found
  · exact found

end AgentC.EdgeTasks
