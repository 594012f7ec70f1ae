import AgentC.EdgeTasks.MessageEffects

/-! # Tasks of other nodes

Whose tasks the messages of a node can change. `update_task_state` looks the row
up by the identifiers in the body; it does not compare the node of the row with
the sender. -/

namespace AgentC.EdgeTasks

open Program

def nodeMessages (config : EdgeConfig) : SharedStore Store Envelope Call Response where
  effect := Effect
  program := handleEdgeMessage config

/-- What a message can report about a task: its state, its result with the hash
and the attestation, and its error. -/
structure Outcome where
  state : Bytes
  resultJson : Bytes
  resultSha256 : Bytes
  attestJson : Bytes
  error : Bytes
deriving DecidableEq, Repr

def EdgeTaskRow.outcome (row : EdgeTaskRow) : Outcome where
  state := row.state
  resultJson := row.resultJson
  resultSha256 := row.resultSha256
  attestJson := row.attestJson
  error := row.error

/-- The message of a node changes what is reported about a task only if the task
is assigned to the node. -/
def Isolated (performance : Performance Store Envelope) : Prop :=
  ∀ row, lookupBy (·.key) row.key performance.before.tasks = some row →
    nodeIdOf performance.operation.fromId ≠ [] →
    (lookupBy (·.key) row.key performance.after.tasks).map (·.outcome) ≠ some row.outcome →
    nodeIdOf performance.operation.fromId = row.nodeId

/-- The message names the task, with its idempotency key, while the task has not
ended. -/
def Envelope.addresses (envelope : Envelope) (row : EdgeTaskRow) : Bool :=
  let fields := taskFields envelope.body
  row.key = (fields.taskId, fields.stepId) ∧ ¬isTerminalTaskState row.state ∧
    (row.idempotencyKey = [] ∨ row.idempotencyKey = fields.idempotencyKey)

def SentByAssignee (performance : Performance Store Envelope) : Prop :=
  ∀ row ∈ performance.before.tasks, performance.operation.addresses row = true →
    nodeIdOf performance.operation.fromId ≠ [] →
    nodeIdOf performance.operation.fromId = row.nodeId

variable {row : EdgeTaskRow} {config : EdgeConfig}

theorem Store.outcome_merged {new : EdgeTaskRow} (same : new.outcome = row.outcome)
    (nowUtcMs : Int) : (mergeTask row (boundTask nowUtcMs new)).outcome = row.outcome := by
  simp only [EdgeTaskRow.outcome, Outcome.mk.injEq] at same
  rcases same with ⟨state, resultJson, resultSha256, attestJson, error⟩
  simp only [mergeTask, boundTask, EdgeTaskRow.outcome, state, resultJson, resultSha256,
    attestJson, error, ite_self]

theorem TaskUpdate.outcome_of_not_applies (config : EdgeConfig) (update : TaskUpdate)
    (ignored : update.applies row = false) (nowUtcMs : Int) :
    (Store.mergeTask row (Store.boundTask nowUtcMs (update.rowBehind config row))).outcome =
      row.outcome := by
  rcases update.rowBehind_of_not_applies config ignored with ⟨traceId, updatedUtcMs, behind⟩
  rw [behind]
  exact Store.outcome_merged rfl nowUtcMs

variable {verdict : Json.Tree → Bytes → Prop}

theorem Envelope.Carries.addresses {envelope : Envelope} {update : TaskUpdate}
    (carries : envelope.Carries config verdict update)
    (valid : (taskFields envelope.body).valid = true)
    (named : row.key = (update.taskId, update.stepId)) (applies : update.applies row = true) :
    envelope.addresses row = true := by
  rw [TaskUpdate.applies, Bool.and_eq_true, Bool.not_eq_true', Bool.not_eq_true'] at applies
  have matching := of_decide_eq_false applies.2
  rw [carries.gotIdem] at matching
  have keyed : (taskFields envelope.body).idempotencyKey ≠ [] := by
    intro empty
    simp only [TaskFields.valid, Bool.and_eq_true] at valid
    rw [empty] at valid
    exact nomatch valid.2
  apply decide_eq_true
  refine ⟨?_, ?_, ?_⟩
  · rw [named, carries.taskId, carries.stepId]
  · rw [applies.1]
    exact Bool.false_ne_true
  · by_cases unkeyed : row.idempotencyKey = []
    · exact .inl unkeyed
    · right
      by_contra other
      exact matching ⟨keyed, unkeyed, fun same => other same.symm⟩

theorem Envelope.Does.addresses {envelope : Envelope} {before after : List EdgeTaskRow}
    (does : envelope.Does config verdict before after)
    (stored : lookupBy (·.key) row.key before = some row)
    (changed : (lookupBy (·.key) row.key after).map (·.outcome) ≠ some row.outcome) :
    envelope.addresses row = true := by
  have unchanged : lookupBy (·.key) row.key after ≠ lookupBy (·.key) row.key before := by
    intro same
    rw [same, stored] at changed
    exact changed rfl
  rcases does with same | ⟨update, carries, valid, updates⟩
  · rw [same] at unchanged
    exact absurd rfl unchanged
  · rcases updates.lookup row.key with same | ⟨found, nowUtcMs, named, there, -, written⟩
    · exact absurd same unchanged
    · cases stored.symm.trans there
      rw [written, Option.map_some] at changed
      cases applies : update.applies row with
      | false =>
        exact absurd (congrArg some (update.outcome_of_not_applies config applies nowUtcMs)) changed
      | true => exact carries.addresses valid named applies

theorem performs_does {performance : Performance Store Envelope}
    (performs : (nodeMessages config).Performs performance) :
    performance.operation.Does config (fun _ _ => True) performance.before.tasks
      performance.after.tasks := by
  have ensures : (handleEdgeMessage config performance.operation).Ensures Effect
      (fun _ after => performance.operation.Does config (fun _ _ => True) performance.before.tasks
        after.tasks) performance.before := by
    apply handleEdgeMessage_ensures id
    exact fun result store alike => checkResultSchema_leaves id _ result alike
  exact ensures.of_executes performs

def samplePerformance (config : EdgeConfig) (envelope : Envelope) :
    Performance Store Envelope where
  operation := envelope
  before := { tasks := [sampleTask] }
  after := ((handleEdgeMessage config envelope).execute (answer {}) { tasks := [sampleTask] }).2

theorem performs_samplePerformance (config : EdgeConfig) (envelope : Envelope) :
    (nodeMessages config).Performs (samplePerformance config envelope) :=
  executes_execute (effect_answer {}) (handleEdgeMessage config envelope) _

/-- The node `a` refuses its task. -/
def sampleRefusal : Performance Store Envelope :=
  samplePerformance sampleConfig
    (sampleMessage .taskFailed (ascii "node:a") [(ascii "error", .string (ascii "e"))])

/-- The node `b` reports that the task of the node `a` has failed. -/
def sampleForgery : Performance Store Envelope :=
  samplePerformance sampleConfig
    (sampleMessage .taskFailed (ascii "node:b") [(ascii "error", .string (ascii "e"))])

end AgentC.EdgeTasks
