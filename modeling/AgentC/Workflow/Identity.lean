import AgentC.Workflow.TaskTable

/-! # What no operation changes

The operations write back rows they have read, so that the parts of a row that
belong to the workflow or the task itself are the same in every copy of it. -/

namespace AgentC.Workflow

/-- A specification as it is written: an empty one becomes an empty object. -/
def boundSpecJson (specJson : Bytes) : Bytes :=
  if specJson = [] then ascii "\x7b\x7d" else specJson

def WorkflowRow.identity (row : WorkflowRow) : Bytes × Bytes × Bytes :=
  (row.workflowId, row.sessionId, boundSpecJson row.specJson)

structure TaskIdentity where
  key : Bytes × Bytes
  allowError : Bool
  maxAttempts : Int
  dependsOnJson : Bytes
  requestJson : Bytes

def WorkflowTaskRow.identity (row : WorkflowTaskRow) : TaskIdentity where
  key := row.key
  allowError := row.allowError
  maxAttempts := max 1 row.maxAttempts
  dependsOnJson := row.dependsOnJson
  requestJson := row.requestJson

variable {row : WorkflowTaskRow} {tables store : Store} {engine : Engine} {known : Knowledge}

theorem SameTask.identity {copy : WorkflowTaskRow} (same : SameTask row copy) :
    row.identity = copy.identity := by
  simp only [WorkflowTaskRow.identity, WorkflowTaskRow.key, same.workflowId, same.taskId,
    same.allowError, same.maxAttempts, same.dependsOnJson, same.requestJson]

theorem WrittenTask.identity {stored : WorkflowTaskRow} (written : WrittenTask row stored) :
    stored.identity = row.identity := by
  have attempts : max 1 stored.maxAttempts = max 1 row.maxAttempts := by
    rw [written.maxAttempts]
    split
    · omega
    · rfl
  simp only [WorkflowTaskRow.identity, written.key, written.allowError, attempts,
    written.dependsOnJson, written.requestJson]

/-- Tables that differ from others in what operations may change only. -/
structure SameIdentities (tables store : Store) : Prop where
  workflows : store.workflows.map WorkflowRow.identity = tables.workflows.map WorkflowRow.identity
  tasks : store.tasks.map WorkflowTaskRow.identity = tables.tasks.map WorkflowTaskRow.identity

theorem Keyed.of_sameIdentities (keyed : Keyed tables) (same : SameIdentities tables store) :
    Keyed store where
  workflows := by
    have ids : store.workflows.map WorkflowRow.workflowId =
        tables.workflows.map WorkflowRow.workflowId := by
      have firsts := congrArg (List.map Prod.fst) same.workflows
      rw [List.map_map, List.map_map] at firsts
      exact firsts
    rw [ids]
    exact keyed.workflows
  tasks := by
    have keys : store.tasks.map WorkflowTaskRow.key = tables.tasks.map WorkflowTaskRow.key := by
      have firsts := congrArg (List.map TaskIdentity.key) same.tasks
      rw [List.map_map, List.map_map] at firsts
      exact firsts
    rw [keys]
    exact keyed.tasks

variable {events : List DaemonEvent}

theorem Keyed.task_eq (keyed : Keyed store) {left right : WorkflowTaskRow}
    (leftMember : left ∈ store.tasks) (rightMember : right ∈ store.tasks)
    (same : left.key = right.key) : left = right :=
  List.inj_on_of_nodup_map keyed.tasks leftMember rightMember same

theorem Keyed.workflow_eq (keyed : Keyed store) {left right : WorkflowRow}
    (leftMember : left ∈ store.workflows) (rightMember : right ∈ store.workflows)
    (same : left.workflowId = right.workflowId) : left = right :=
  List.inj_on_of_nodup_map keyed.workflows leftMember rightMember same

theorem SameIdentities.identity_eq (same : SameIdentities tables store) (keyed : Keyed tables)
    {copy : WorkflowTaskRow} (there : row ∈ store.tasks)
    (known : copy.identity ∈ tables.tasks.map WorkflowTaskRow.identity)
    (sameKey : row.key = copy.key) : row.identity = copy.identity := by
  have rowKnown := List.mem_map_of_mem (f := WorkflowTaskRow.identity) there
  rw [same.tasks] at rowKnown
  rcases List.mem_map.mp rowKnown with ⟨first, firstThere, firstSame⟩
  rcases List.mem_map.mp known with ⟨second, secondThere, secondSame⟩
  have firstKey : first.key = row.key := congrArg TaskIdentity.key firstSame
  have secondKey : second.key = copy.key := congrArg TaskIdentity.key secondSame
  rw [← firstSame, ← secondSame, keyed.task_eq firstThere secondThere
    ((firstKey.trans sameKey).trans secondKey.symm)]

theorem identities_upsertWorkflowTask (keyed : Keyed store)
    (known : row.identity ∈ store.tasks.map WorkflowTaskRow.identity) :
    (store.upsertWorkflowTask row).2.tasks.map WorkflowTaskRow.identity =
      store.tasks.map WorkflowTaskRow.identity := by
  rcases List.mem_map.mp known with ⟨held, there, identity⟩
  have sameKey : held.key = row.key := congrArg TaskIdentity.key identity
  have present : store.tasks.any (Store.isTask row.workflowId row.taskId) = true :=
    List.any_eq_true.mpr ⟨held, there, isTask_iff.mpr sameKey⟩
  rw [Store.upsertWorkflowTask]
  split
  · rfl
  · dsimp only
    rw [List.map_map]
    apply List.map_congr_left
    intro stored member
    rw [Function.comp_apply]
    split
    · next here =>
      have same : stored = held :=
        keyed.task_eq member there ((isTask_iff.mp here).trans sameKey.symm)
      rw [writtenTask_merge.identity, same]
      exact identity.symm
    · rfl

theorem boundSpecJson_idem (specJson : Bytes) :
    boundSpecJson (boundSpecJson specJson) = boundSpecJson specJson := by
  by_cases empty : specJson = []
  · rw [empty]
    decide
  · have same : boundSpecJson specJson = specJson := if_neg empty
    rw [same, same]

theorem identities_upsertWorkflow (keyed : Keyed store) {row : WorkflowRow}
    (known : row.identity ∈ store.workflows.map WorkflowRow.identity) :
    (store.upsertWorkflow row).2.workflows.map WorkflowRow.identity =
      store.workflows.map WorkflowRow.identity := by
  rcases List.mem_map.mp known with ⟨held, there, identity⟩
  have sameId : held.workflowId = row.workflowId := congrArg Prod.fst identity
  have present : (store.workflows.any fun stored => stored.workflowId = row.workflowId) = true :=
    List.any_eq_true.mpr ⟨held, there, decide_eq_true sameId⟩
  rw [Store.upsertWorkflow]
  split
  · rfl
  · dsimp only
    rw [List.map_map]
    apply List.map_congr_left
    intro stored member
    rw [Function.comp_apply]
    split
    · next here =>
      have same : stored = held := keyed.workflow_eq member there (here.trans sameId.symm)
      have session : held.sessionId = row.sessionId :=
        congrArg (fun parts => parts.2.1) identity
      have merged : (Store.mergeWorkflow stored (Store.boundWorkflow row)).identity =
          (row.workflowId, if row.sessionId = [] then stored.sessionId else row.sessionId,
            boundSpecJson (boundSpecJson row.specJson)) := rfl
      rw [merged, boundSpecJson_idem, same, session, ite_self]
      exact identity.symm
    · rfl

theorem identities_updateQueued {tasks : List WorkflowTaskRow} {key : Bytes × Bytes}
    {update : WorkflowTaskRow → WorkflowTaskRow}
    (keeps : ∀ row, (update row).identity = row.identity) :
    (tasks.map (updateQueued key update)).map WorkflowTaskRow.identity =
      tasks.map WorkflowTaskRow.identity := by
  rw [List.map_map]
  apply List.map_congr_left
  intro row _
  rw [Function.comp_apply, updateQueued]
  split
  · exact keeps row
  · rfl

/-- Every copy that an operation holds is one of a row of the tables. -/
structure HoldsCopies (tables : Store) (known : Knowledge) : Prop where
  workflows : ∀ copy ∈ known.workflows,
    copy.identity ∈ tables.workflows.map WorkflowRow.identity
  read : ∀ copy, known.read = some copy → copy ∈ known.workflows
  tasks : ∀ copy ∈ known.tasks, copy.identity ∈ tables.tasks.map WorkflowTaskRow.identity
  claim : ∀ claim, known.claim = some claim → ∀ copy ∈ claim.listing,
    copy.identity ∈ tables.tasks.map WorkflowTaskRow.identity

theorem WritesWorkflow.identity {copy row : WorkflowRow}
    (writes : WritesWorkflow engine known copy row) :
    (copy ∈ known.workflows ∨ known.read = some copy) ∧ row.identity = copy.identity := by
  cases writes with
  | marked nowUnixMs member => exact ⟨.inl member, rfl⟩
  | flagged nowUnixMs error member => exact ⟨.inl member, rfl⟩
  | requested nowUnixMs read => exact ⟨.inr read, rfl⟩
  | final nowUnixMs read => exact ⟨.inr read, rfl⟩

theorem WritesTask.copy (writes : WritesTask known row) :
    ∃ copy, (copy ∈ known.tasks ∨ ∃ claim, known.claim = some claim ∧ copy ∈ claim.listing) ∧
      SameTask row copy := by
  rw [WritesTask] at writes
  split at writes
  · rcases writes with ⟨copy, member, cancels⟩
    exact ⟨copy, .inl member, cancels.same⟩
  · next claim claimed =>
    rcases writes with ⟨_, copy, from_, records⟩
    exact ⟨copy, .inr ⟨claim, claimed, from_.listed⟩, records.same⟩

theorem HoldsCopies.writesTask (copies : HoldsCopies tables known) (writes : WritesTask known row) :
    row.identity ∈ tables.tasks.map WorkflowTaskRow.identity := by
  rcases writes.copy with ⟨copy, source, same⟩
  rw [same.identity]
  rcases source with listed | ⟨claim, claimed, listed⟩
  · exact copies.tasks copy listed
  · exact copies.claim claim claimed copy listed

theorem HoldsCopies.writesWorkflow {row : WorkflowRow} (copies : HoldsCopies tables known)
    (writes : ∃ copy, WritesWorkflow engine known copy row) :
    row.identity ∈ tables.workflows.map WorkflowRow.identity := by
  rcases writes with ⟨copy, writes⟩
  rcases writes.identity with ⟨source, same⟩
  rw [same]
  rcases source with member | read
  · exact copies.workflows copy member
  · exact copies.workflows copy (copies.read copy read)

theorem SameIdentities.effect {next : Store} {call : Call} {response : Response call}
    (keyed : Keyed tables) (same : SameIdentities tables store)
    (copies : HoldsCopies tables known) (allowed : MayCall engine known call)
    (effect : Effect call store response next) :
    SameIdentities tables next where
  workflows := by
    rw [← same.workflows]
    rcases workflows_of_effect effect with unchanged | ⟨row, writes, next_eq⟩
    · rw [unchanged]
    · subst writes
      rw [next_eq]
      apply identities_upsertWorkflow (keyed.of_sameIdentities same)
      rw [same.workflows]
      exact copies.writesWorkflow allowed
  tasks := by
    rw [← same.tasks]
    cases taskChange_of_effect effect with
    | untouched _ _ unchanged => rw [unchanged]
    | written row named next_eq =>
      rw [next_eq]
      apply identities_upsertWorkflowTask (keyed.of_sameIdentities same)
      rw [same.tasks]
      exact copies.writesTask allowed
    | claimed workflowId taskId nowUnixMs newAttempt _ _ _ _ _ _ _ tasks =>
      rw [tasks]
      exact identities_updateQueued fun _ => rfl
    | cancelled workflowId taskId nowUnixMs error resultJson tasks =>
      rw [tasks]
      exact identities_updateQueued fun _ => rfl

theorem readWorkflow_identity (row : WorkflowRow) :
    (Store.readWorkflow row).identity = row.identity :=
  rfl

theorem readTask_identity (row : WorkflowTaskRow) : (Store.readTask row).identity = row.identity :=
  rfl

theorem SameIdentities.listed (same : SameIdentities tables store) {asked : Bytes}
    {response : Option (List WorkflowTaskRow)}
    (reads : Reads store (.listWorkflowTasks asked) response) :
    ∀ copy ∈ response.getD [], copy.identity ∈ tables.tasks.map WorkflowTaskRow.identity := by
  intro copy member
  cases response with
  | none => exact nomatch member
  | some rows =>
    rcases (reads rows rfl copy).mp member with ⟨held, there, read, _⟩
    rw [read, readTask_identity, ← same.tasks]
    exact List.mem_map_of_mem there

theorem HoldsCopies.advance {next : Store} {call : Call} {response : Response call}
    (same : SameIdentities tables store) (copies : HoldsCopies tables known)
    (allowed : MayCall engine known call) (effect : Effect call store response next) :
    HoldsCopies tables (known.advance call response) := by
  have reads := reads_of_effect effect
  have known_of_held : ∀ row held, held ∈ store.workflows → row = Store.readWorkflow held →
      row.identity ∈ tables.workflows.map WorkflowRow.identity := by
    intro row held there read
    rw [read, readWorkflow_identity, ← same.workflows]
    exact List.mem_map_of_mem there
  cases call with
  | getWorkflow asked =>
    refine ⟨?_, ?_, copies.tasks, copies.claim⟩
    · intro copy member
      rcases List.mem_append.mp member with new | old
      · rcases reads copy (Option.mem_toList.mp new) with ⟨held, there, read, _⟩
        exact known_of_held copy held there read
      · exact copies.workflows copy old
    · intro copy read
      exact List.mem_append_left _ (Option.mem_toList.mpr read)
  | listWorkflowsByStatus =>
    refine ⟨?_, ?_, copies.tasks, copies.claim⟩
    · intro copy member
      rcases List.mem_append.mp member with new | old
      · cases response with
        | none => exact nomatch new
        | some rows =>
          rcases reads rows rfl copy new with ⟨held, there, read, _⟩
          exact known_of_held copy held there read
      · exact copies.workflows copy old
    · intro copy read
      exact List.mem_append_right _ (copies.read copy read)
  | listWorkflowTasks asked =>
    exact ⟨copies.workflows, copies.read, same.listed reads, copies.claim⟩
  | upsertWorkflow row =>
    refine ⟨?_, ?_, copies.tasks, copies.claim⟩
    · intro copy member
      rw [Knowledge.advance] at member
      dsimp only at member
      split at member
      · rcases List.mem_cons.mp member with new | old
        · rw [new]
          exact copies.writesWorkflow allowed
        · exact copies.workflows copy old
      · exact copies.workflows copy member
    · intro copy read
      have quiet : known.Quiet (.upsertWorkflow row) := trivial
      exact (Knowledge.extends_advance quiet response).workflows (copies.read copy read)
  | claimWorkflowTaskBudgeted workflowId taskId nowUnixMs newAttempt perWorkflow perSession
      sessionId =>
    cases response with
    | false => exact copies
    | true =>
      refine ⟨copies.workflows, copies.read, copies.tasks, ?_⟩
      intro claim claimed
      cases claimed
      exact copies.tasks
  | _ => exact ⟨copies.workflows, copies.read, copies.tasks, copies.claim⟩

theorem identities_of_trace (keyed : Keyed tables)
    (trace : DaemonTrace engine tables events store) :
    SameIdentities tables store ∧ ∀ thread, HoldsCopies tables (knownBy engine thread events) := by
  apply SharedStore.Trace.invariant (daemon engine) _ _ _ trace
  · intro known call response store next same copies allowed effect
    exact ⟨same.effect keyed copies allowed effect, copies.advance same allowed effect⟩
  · exact ⟨rfl, rfl⟩
  · exact ⟨fun _ member => (nomatch member), fun _ read => (nomatch read),
      fun _ member => (nomatch member), fun _ claimed => (nomatch claimed)⟩

theorem read_of_trace (trace : DaemonTrace engine tables events store) (thread : Nat) :
    ∀ row, (knownBy engine thread events).read = some row →
      row.workflowId = (knownBy engine thread events).asked := by
  apply SharedStore.Trace.knowledge (daemon engine)
    (fun known => ∀ row, known.read = some row → row.workflowId = known.asked) _ _ trace
  · intro known call response store next before allowed effect
    cases call with
    | getWorkflow asked =>
      intro row read
      have reads : Reads store (.getWorkflow asked) response := reads_of_effect effect
      rcases reads row read with ⟨held, _, same, sameId⟩
      rw [same]
      exact sameId
    | claimWorkflowTaskBudgeted workflowId taskId nowUnixMs newAttempt perWorkflow perSession
        sessionId =>
      cases response with
      | false => exact before
      | true => exact before
    | _ => exact before
  · intro row impossible
    exact nomatch impossible

end AgentC.Workflow
