import AgentC.EdgeTasks.NodeIsolation

/-! # Results that fit their schema

A manifest may declare a schema for the results of a tool. `TASK_DONE` checks it;
`TASK_EVENT` can report a success too, and does not. -/

namespace AgentC.EdgeTasks

open Program

def schemaInForce (config : EdgeConfig) (store : Store) (row : EdgeTaskRow) : Option Json.Tree :=
  if row.mode = ascii "invoke" ∧ row.nodeId ≠ [] ∧ row.toolName ≠ [] then
    resultSchema config (store.manifestOf row.nodeId) row.toolName
  else none

/-- A stored result: the bytes of a value whose data satisfies the schema. -/
def FitsSchema (config : EdgeConfig) (schema : Json.Tree) (resultJson : Bytes) : Prop :=
  ∃ result data, resultJson = (TaskUpdate.storedForm (config.json.write result)).bytes ∧
    result.member (ascii "data") = some data ∧
    Json.schemaError config.numbers schema (ascii "result.data") data = none

/-- The message moves the task to a success. -/
structure Accepts (performance : Performance Store Envelope) (row behind : EdgeTaskRow) :
    Prop where
  stored : lookupBy (·.key) row.key performance.before.tasks = some row
  moved : row.state ≠ TaskState.succeeded
  found : lookupBy (·.key) row.key performance.after.tasks = some behind
  succeeded : behind.state = TaskState.succeeded

/-- In a store behind some messages, the result of a successful task fits the
schema that was in force when the task was accepted. -/
def ResultsFit (config : EdgeConfig) (performances : List (Performance Store Envelope))
    (last : Store) : Prop :=
  ∀ front accepting rest row behind final schema,
    performances = front ++ accepting :: rest → Accepts accepting row behind →
    lookupBy (·.key) row.key last.tasks = some final → final.mode = ascii "invoke" →
    final.state = TaskState.succeeded →
    schemaInForce config accepting.before row = some schema →
    FitsSchema config schema final.resultJson

/-- The guardrail of `TASK_DONE` also holds of a success that is reported by a
`TASK_EVENT`. -/
def GuardedEvent (config : EdgeConfig) (performance : Performance Store Envelope) : Prop :=
  performance.operation.type = .taskEvent →
    performance.operation.body.text (ascii "state") = TaskState.succeeded →
    ∀ row ∈ performance.before.tasks, performance.operation.addresses row = true →
    ∀ schema, schemaInForce config performance.before row = some schema →
    ∃ result, performance.operation.body.member (ascii "result") = some result ∧
      resultSchemaError config schema result = []

def ReadsAnswered : (call : Call) → Store → Response call → Store → Prop
  | .getEdgeTask taskId stepId, store, response, next =>
    (response, next) = (store.getEdgeTask taskId stepId, store)
  | .getEdgeNode nodeId, store, response, next =>
    (response, next) = (store.getEdgeNode nodeId, store)
  | other, store, response, next => Effect other store response next

theorem ReadsAnswered.effect {call : Call} {store next : Store} {response : Response call}
    (answered : ReadsAnswered call store response next) : Effect call store response next := by
  cases call with
  | getEdgeTask => exact .inl ⟨{}, answered⟩
  | getEdgeNode nodeId => exact .inl ⟨{}, answered⟩
  | _ => exact answered

theorem readsAnswered_answer (call : Call) (store : Store) :
    ReadsAnswered call store (answer {} call store).1 (answer {} call store).2 := by
  cases call with
  | getEdgeTask => rfl
  | getEdgeNode nodeId => rfl
  | _ => exact effect_answer {} _ store

def readableMessages (config : EdgeConfig) : SharedStore Store Envelope Call Response where
  effect := ReadsAnswered
  program := handleEdgeMessage config

section Guardrail

variable {config : EdgeConfig} {fields : TaskFields} {result : Json.Tree} {before store : Store}

def Verdict (config : EdgeConfig) (before : Store) (fields : TaskFields) (result : Json.Tree)
    (error : Bytes) : Prop :=
  ∀ row schema, before.getEdgeTask fields.taskId fields.stepId = some row →
    schemaInForce config before row = some schema → error = resultSchemaError config schema result

theorem resultSchema_of_getEdgeNode {node : EdgeNodeRow} {nodeId : Bytes}
    (found : store.getEdgeNode nodeId = some node) : node.manifestJson = store.manifestOf nodeId := by
  rw [Store.getEdgeNode] at found
  split at found
  · cases found
  · rcases Option.map_eq_some_iff.mp found with ⟨entry, there, row⟩
    rw [Store.manifestOf, there, ← row]
    rfl

theorem resultSchema_of_missing {nodeId toolName : Bytes} (named : nodeId ≠ [])
    (missing : store.getEdgeNode nodeId = none) :
    resultSchema config (store.manifestOf nodeId) toolName = none := by
  rw [Store.getEdgeNode, if_neg named, Option.map_eq_none_iff] at missing
  rw [Store.manifestOf, missing, resultSchema]
  exact if_pos (.inl rfl)

theorem checkResultSchema_ensures (alike : store.Alike before) :
    (checkResultSchema config fields result).Ensures ReadsAnswered
      (fun error after => after.tasks = before.tasks ∧ Verdict config before fields result error)
      store := by
  have sameTask : before.getEdgeTask fields.taskId fields.stepId =
      store.getEdgeTask fields.taskId fields.stepId := by
    rw [Store.getEdgeTask, Store.getEdgeTask, alike.tasks]
  rw [checkResultSchema]
  apply ensures_call
  intro response middle answered
  cases answered
  cases found : store.getEdgeTask fields.taskId fields.stepId with
  | none =>
    refine ⟨alike.tasks, fun row schema stored => ?_⟩
    cases (sameTask.trans found).symm.trans stored
  | some row =>
    have decides : ∀ error, (∀ schema, schemaInForce config before row = some schema →
        error = resultSchemaError config schema result) →
          Verdict config before fields result error := by
      intro error holds other schema stored inForce
      cases (sameTask.trans found).symm.trans stored
      exact holds schema inForce
    simp only
    split
    · next checked =>
      have inForce : schemaInForce config before row =
          resultSchema config (store.manifestOf row.nodeId) row.toolName := by
        rw [schemaInForce, if_pos checked, alike.manifests]
      apply ensures_call
      intro response middle answered
      cases answered
      cases node : store.getEdgeNode row.nodeId with
      | none =>
        refine ⟨alike.tasks, decides _ fun schema there => ?_⟩
        rw [inForce, resultSchema_of_missing checked.2.1 node] at there
        cases there
      | some node =>
        rw [← resultSchema_of_getEdgeNode node] at inForce
        simp only
        split
        · next none =>
          refine ⟨alike.tasks, decides _ fun schema there => ?_⟩
          cases (inForce.trans none).symm.trans there
        · next schema declared =>
          refine ⟨alike.tasks, decides _ fun other there => ?_⟩
          cases (inForce.trans declared).symm.trans there
          rfl
    · next unchecked =>
      refine ⟨alike.tasks, decides _ fun schema there => ?_⟩
      rw [schemaInForce, if_neg unchecked] at there
      cases there

end Guardrail

theorem storedForm_ne_nil {plain : Bytes} (written : plain ≠ []) :
    (TaskUpdate.storedForm plain).bytes ≠ [] := by
  simp only [TaskUpdate.storedForm]
  split
  · split
    · split
      · exact written
      · next canonical _ nonempty => exact nonempty
    · exact written
  · exact written

variable {config : EdgeConfig} {schema : Json.Tree} {update : TaskUpdate} {row : EdgeTaskRow}

theorem data_of_resultSchemaError {result : Json.Tree}
    (fits : resultSchemaError config schema result = []) :
    result.isObject = true ∧ ∃ data, result.member (ascii "data") = some data ∧
      Json.schemaError config.numbers schema (ascii "result.data") data = none := by
  rw [resultSchemaError] at fits
  split at fits
  · exact absurd fits (by decide)
  · next object =>
    split at fits
    · exact absurd fits (by decide)
    · next data member =>
      refine ⟨by simpa using object, data, member, ?_⟩
      split at fits
      · split at fits
        · exact absurd fits (by decide)
        · next nonempty => exact absurd fits nonempty
      · next valid => exact valid

theorem TaskUpdate.stateEff_of_accepted (state : update.state = TaskState.succeeded)
    (attested : update.attestFailure config row = none) :
    update.stateEff config row = TaskState.succeeded := by
  rw [stateEff, if_neg, state]
  rintro ⟨-, failure⟩
  rw [attested] at failure
  cases failure

theorem TaskUpdate.resultJson_appliedRow (config : EdgeConfig)
    (state : update.state = TaskState.succeeded)
    (attested : update.attestFailure config row = none) (reported : update.resultJson ≠ []) :
    (update.appliedRow config row).resultJson = (update.storedResult config).bytes := by
  have effective := stateEff_of_accepted state attested
  have base : (update.withResult config row).resultJson = (update.storedResult config).bytes := by
    rw [withResult]
    split <;> rw [withHash, if_pos reported]
  simp only [appliedRow, effective, if_pos state, ne_eq, not_true_eq_false, and_false, if_false]
  exact base

theorem TaskUpdate.resultJson_merged
    (writes : ∀ tree : Json.Tree, tree.isObject = true → config.json.write tree ≠ [])
    (state : update.state = TaskState.succeeded)
    (attested : update.attestFailure config row = none) (reported : update.resultJson ≠ [])
    (nowUtcMs : Int) :
    (Store.mergeTask row (Store.boundTask nowUtcMs (update.appliedRow config row))).resultJson =
      (update.storedResult config).bytes := by
  have applied := resultJson_appliedRow config state attested reported
  have plain : update.plainResult config ≠ [] := by
    rw [plainResult]
    split
    · split
      · next value found _ =>
        exact writes _ (Json.Tree.isObject_removeMember.trans
          (Option.filter_eq_some_iff.mp found).2)
      · exact reported
    · exact reported
  rw [← applied]
  apply if_neg
  intro empty
  exact storedForm_ne_nil plain (applied.symm.trans empty)

theorem TaskUpdate.fitsSchema_storedResult {config : EdgeConfig} {update : TaskUpdate}
    {schema result : Json.Tree} (member : update.eventData.member (ascii "result") = some result)
    (written : update.resultJson = config.json.write result)
    (fits : resultSchemaError config schema result = []) :
    FitsSchema config schema (update.storedResult config).bytes := by
  rcases data_of_resultSchemaError fits with ⟨object, data, there, valid⟩
  have plain : update.eventData.objectMember (ascii "result") = some result := by
    rw [Json.Tree.objectMember, member, Option.filter_some, object]
    rfl
  rw [storedResult, plainResult, plain]
  simp only
  split
  · refine ⟨_, data, rfl, ?_, valid⟩
    rw [Json.Tree.member_removeMember_of_ne (by decide), there]
  · rw [written]
    exact ⟨_, data, rfl, there, valid⟩

section Sequences

variable {config : EdgeConfig} {performance : Performance Store Envelope}

theorem readable_does (performs : (readableMessages config).Performs performance) :
    performance.operation.Does config
      (Verdict config performance.before (taskFields performance.operation.body))
      performance.before.tasks performance.after.tasks := by
  have ensures := @handleEdgeMessage_ensures config ReadsAnswered ReadsAnswered.effect _
    performance.operation performance.before fun _ _ alike => checkResultSchema_ensures alike
  exact ensures.of_executes performs

theorem getEdgeTask_of_lookupBy {store : Store} {fields : TaskFields} (valid : fields.valid = true)
    (found : lookupBy (·.key) (fields.taskId, fields.stepId) store.tasks = some row) :
    store.getEdgeTask fields.taskId fields.stepId = some row := by
  simp only [TaskFields.valid, Bool.and_eq_true] at valid
  rw [Store.getEdgeTask, if_neg, found]
  rintro (empty | empty)
  · rw [empty] at valid
    cases valid.1.1
  · rw [empty] at valid
    cases valid.1.2

theorem Envelope.Carries.fitting (carries : performance.operation.Carries config
      (Verdict config performance.before (taskFields performance.operation.body)) update)
    (guarded : GuardedEvent config performance) (member : row ∈ performance.before.tasks)
    (addressed : performance.operation.addresses row = true)
    (stored : performance.before.getEdgeTask (taskFields performance.operation.body).taskId
      (taskFields performance.operation.body).stepId = some row)
    (inForce : schemaInForce config performance.before row = some schema)
    (state : update.state = TaskState.succeeded) :
    ∃ result, performance.operation.body.member (ascii "result") = some result ∧
      update.resultJson = config.json.write result ∧
      resultSchemaError config schema result = [] := by
  rcases carries.succeeds state with ⟨now, ⟨type, same⟩ | ⟨result, _, there, checked, same⟩⟩
  · subst same
    rcases guarded type state row member addressed schema inForce with ⟨result, there, fits⟩
    refine ⟨result, there, ?_, fits⟩
    simp only [Envelope.update, resultJsonOf, there]
  · rw [same]
    exact ⟨result, there, rfl, (checked row schema stored inForce).symm⟩

variable {behind : EdgeTaskRow}

theorem Accepts.changed (accepts : Accepts performance row behind) :
    (lookupBy (·.key) row.key performance.after.tasks).map (·.outcome) ≠ some row.outcome := by
  rw [accepts.found, Option.map_some]
  intro same
  have states : behind.state = row.state := congrArg Outcome.state (Option.some.inj same)
  exact accepts.moved (states.symm.trans accepts.succeeded)

theorem fitsSchema_of_accepts
    (writes : ∀ tree : Json.Tree, tree.isObject = true → config.json.write tree ≠ [])
    (performs : (readableMessages config).Performs performance)
    (guarded : GuardedEvent config performance) (accepts : Accepts performance row behind)
    (inForce : schemaInForce config performance.before row = some schema) :
    FitsSchema config schema behind.resultJson := by
  have does := readable_does performs
  have addressed := does.addresses accepts.stored accepts.changed
  rcases does.accepted accepts.stored accepts.moved accepts.found accepts.succeeded with
    ⟨update, nowUtcMs, carries, valid, named, -, state, attested, -, written⟩
  have stored : performance.before.getEdgeTask (taskFields performance.operation.body).taskId
      (taskFields performance.operation.body).stepId = some row := by
    apply getEdgeTask_of_lookupBy valid
    rw [← carries.taskId, ← carries.stepId, ← named]
    exact accepts.stored
  rcases carries.fitting guarded (mem_of_lookupBy accepts.stored) addressed stored inForce state with
    ⟨result, member, reported, fits⟩
  have object := (data_of_resultSchemaError fits).1
  have nonempty : update.resultJson ≠ [] := reported ▸ writes result object
  have fitting := TaskUpdate.fitsSchema_storedResult
    ((carries.member (by decide) (by decide)).trans member) reported fits
  rw [written, TaskUpdate.resultJson_merged writes state attested nonempty]
  exact fitting

theorem outcome_of_terminal {system : SharedStore Store Envelope Call Response}
    (does : ∀ performance, system.Performs performance →
      ∃ verdict, performance.operation.Does config verdict performance.before.tasks
        performance.after.tasks)
    {first last : Store} {performances : List (Performance Store Envelope)} {key : TaskKey}
    {outcome : Outcome} (sequence : system.Sequence first performances last)
    (terminal : isTerminalTaskState outcome.state = true)
    (stored : (lookupBy (·.key) key first.tasks).map (·.outcome) = some outcome) :
    (lookupBy (·.key) key last.tasks).map (·.outcome) = some outcome := by
  induction sequence with
  | nil store => exact stored
  | @cons performance performances last performs rest induction =>
    apply induction
    rcases Option.map_eq_some_iff.mp stored with ⟨row, there, same⟩
    have keyed := key_of_lookupBy there
    subst keyed same
    by_contra changed
    rcases does performance performs with ⟨verdict, done⟩
    have addressed := of_decide_eq_true (done.addresses there changed)
    exact addressed.2.1 terminal

theorem fitsSchema_of_sequence
    (writes : ∀ tree : Json.Tree, tree.isObject = true → config.json.write tree ≠ [])
    {first last : Store} {front rest : List (Performance Store Envelope)}
    {accepting : Performance Store Envelope}
    (sequence : (readableMessages config).Sequence first (front ++ accepting :: rest) last)
    (guarded : GuardedEvent config accepting) {final : EdgeTaskRow}
    (accepts : Accepts accepting row behind)
    (stored : lookupBy (·.key) row.key last.tasks = some final)
    (inForce : schemaInForce config accepting.before row = some schema) :
    FitsSchema config schema final.resultJson := by
  induction front generalizing first with
  | nil =>
    cases sequence with
    | cons performs later =>
      have fits := fitsSchema_of_accepts writes performs guarded accepts inForce
      have reported : (lookupBy (·.key) row.key last.tasks).map (·.outcome) =
          some behind.outcome := by
        apply outcome_of_terminal (fun _ performs => ⟨_, readable_does performs⟩) later
        · rw [show behind.outcome.state = behind.state from rfl, accepts.succeeded]
          decide
        · rw [accepts.found, Option.map_some]
      rw [stored, Option.map_some] at reported
      have same : final.resultJson = behind.resultJson :=
        congrArg Outcome.resultJson (Option.some.inj reported)
      rw [same]
      exact fits
  | cons performance front induction =>
    cases sequence with
    | cons performs later => exact induction later

end Sequences

def sampleSchema : Json.Tree :=
  .object [(ascii "type", .string (ascii "object"))]

def sampleManifestJson : Bytes :=
  ascii "\x7b\"tools\":[\x7b\"name\":\"f\",\"result_schema\":\x7b\"type\":\"object\"\x7d\x7d]\x7d"

def sampleManifest : Json.Tree :=
  .object [(ascii "tools", .array [
    .object [(ascii "name", .string (ascii "f")), (ascii "result_schema", sampleSchema)]])]

def sampleSchemaConfig : EdgeConfig :=
  { sampleConfig with
    json := {
      write := Json.Tree.render
      parse := fun text => if text = sampleManifestJson then some sampleManifest else none } }

def sampleSchemaStore : Store where
  nodes := [{ nodeId := ascii "a", manifestJson := sampleManifestJson }]
  tasks := [sampleTask]

def sampleSchemaPerformance (envelope : Envelope) : Performance Store Envelope where
  operation := envelope
  before := sampleSchemaStore
  after := ((handleEdgeMessage sampleSchemaConfig envelope).execute (answer {}) sampleSchemaStore).2

theorem sequence_sampleSchemaPerformance (envelope : Envelope) :
    (readableMessages sampleSchemaConfig).Sequence sampleSchemaStore
      [sampleSchemaPerformance envelope] (sampleSchemaPerformance envelope).after := by
  have performs : (readableMessages sampleSchemaConfig).Performs (sampleSchemaPerformance envelope) :=
    executes_execute readsAnswered_answer (handleEdgeMessage sampleSchemaConfig envelope) _
  exact .cons performs (.nil _)

theorem write_ne_nil_of_isObject (tree : Json.Tree) (object : tree.isObject = true) :
    sampleSchemaConfig.json.write tree ≠ [] := by
  cases tree with
  | object members => exact List.cons_ne_nil _ _
  | _ => exact nomatch object

def sampleDone : Envelope :=
  sampleMessage .taskDone (ascii "node:a")
    [(ascii "result", .object [(ascii "data", .object [])])]

def sampleEvent : Envelope :=
  sampleMessage .taskEvent (ascii "node:a") [(ascii "state", .string TaskState.succeeded)]

end AgentC.EdgeTasks
