import AgentC.Foundation.KeyedTable
import AgentC.Workflow.Conduct

/-! # What the calls read and change

The rows that a call returns, what it can do to the rows of tasks, and what is
known of a row from the call that wrote it. -/

namespace AgentC.Workflow

def WorkflowTaskRow.key (row : WorkflowTaskRow) : Bytes × Bytes :=
  (row.workflowId, row.taskId)

variable {workflowId taskId : Bytes} {row : WorkflowTaskRow} {store : Store} {asked : Bytes}
variable {call : Call} {next : Store} {update : WorkflowTaskRow → WorkflowTaskRow}
variable {response : Response call}

theorem isTask_iff :
    Store.isTask workflowId taskId row = true ↔ row.key = (workflowId, taskId) := by
  simp [Store.isTask, WorkflowTaskRow.key]

/-- The tables have the primary keys that their schema declares. -/
structure Keyed (store : Store) : Prop where
  workflows : (store.workflows.map WorkflowRow.workflowId).Nodup
  tasks : (store.tasks.map WorkflowTaskRow.key).Nodup

def claimOf : (call : Call) → Response call → Option ((Bytes × Bytes) × Int)
  | .claimWorkflowTaskBudgeted workflowId taskId _ newAttempt _ _ _, claimed =>
    if claimed then some ((workflowId, taskId), newAttempt) else none
  | _, _ => none

def writeOf : (call : Call) → Response call → Option WorkflowTaskRow
  | .upsertWorkflowTask row, stored => if stored then some row else none
  | _, _ => none

def Reads (store : Store) : (call : Call) → Response call → Prop
  | .getWorkflow asked, response =>
    ∀ row, response = some row →
      ∃ held ∈ store.workflows, row = Store.readWorkflow held ∧ held.workflowId = asked
  | .listWorkflowsByStatus status _, response =>
    ∀ rows, response = some rows → ∀ row ∈ rows,
      ∃ held ∈ store.workflows, row = Store.readWorkflow held ∧ held.status = status
  | .listWorkflowTasks asked, response =>
    ∀ rows, response = some rows → ∀ row,
      row ∈ rows ↔ ∃ held ∈ store.tasks, row = Store.readTask held ∧ held.workflowId = asked
  | _, _ => True

theorem mem_listWorkflowTasks : row ∈ store.listWorkflowTasks asked ↔
      ∃ held ∈ store.tasks, row = Store.readTask held ∧ held.workflowId = asked := by
  simp only [Store.listWorkflowTasks, List.mem_map, List.mem_insertionSort, List.mem_filter,
    decide_eq_true_eq]
  constructor
  · rintro ⟨held, ⟨there, same⟩, read⟩
    exact ⟨held, there, read.symm, same⟩
  · rintro ⟨held, there, read, same⟩
    exact ⟨held, ⟨there, same⟩, read.symm⟩

theorem mem_listWorkflowsByStatus {status : Status} {maxRows : Nat} {row : WorkflowRow}
    (member : row ∈ store.listWorkflowsByStatus status maxRows) :
    ∃ held ∈ store.workflows, row = Store.readWorkflow held ∧ held.status = status := by
  rcases List.mem_map.mp member with ⟨held, there, read⟩
  have listed := List.mem_of_mem_take there
  rw [List.mem_insertionSort, List.mem_filter] at listed
  exact ⟨held, listed.1, read.symm, of_decide_eq_true listed.2⟩

theorem getWorkflow_eq_some {row : WorkflowRow} (found : store.getWorkflow asked = some row) :
    ∃ held ∈ store.workflows, row = Store.readWorkflow held ∧ held.workflowId = asked := by
  rw [Store.getWorkflow] at found
  split at found
  · exact nomatch found
  · rcases Option.map_eq_some_iff.mp found with ⟨held, there, read⟩
    have same : held.workflowId = asked := by simpa using List.find?_some there
    exact ⟨held, List.mem_of_find?_eq_some there, read.symm, same⟩

theorem reads_of_effect {next : Store} (effect : Effect call store response next) :
    Reads store call response := by
  rcases effect with ⟨outside, answered⟩ | ⟨failed, unchanged⟩
  · rcases Prod.ext_iff.mp answered with ⟨rfl, rfl⟩
    cases call with
    | getWorkflow asked => exact fun row found => getWorkflow_eq_some found
    | listWorkflowsByStatus =>
      intro rows listed row member
      cases listed
      exact mem_listWorkflowsByStatus member
    | listWorkflowTasks asked =>
      intro rows listed row
      cases listed
      exact mem_listWorkflowTasks
    | _ => trivial
  · cases call with
    | getWorkflow asked =>
      subst failed
      exact fun _ impossible => nomatch impossible
    | listWorkflowsByStatus =>
      subst failed
      exact fun _ impossible => nomatch impossible
    | listWorkflowTasks asked =>
      subst failed
      exact fun _ impossible => nomatch impossible
    | _ => trivial

theorem listing_of_effect {response : Option (List WorkflowTaskRow)}
    (effect : Effect (.listWorkflowTasks asked) store response next) :
    response = some (store.listWorkflowTasks asked) ∨ response = none := by
  rcases effect with ⟨outside, answered⟩ | ⟨failed, _⟩
  · exact .inl (congrArg Prod.fst answered)
  · exact .inr failed

/-- The copies of workflow rows that an operation holds behind a call: a row
read now, the row that it marks as running, or a copy it had before. -/
theorem mem_advance_workflows {known : Knowledge} {next : Store} {copy : WorkflowRow}
    (effect : Effect call store response next)
    (member : copy ∈ (known.advance call response).workflows) :
    (∃ held ∈ store.workflows, copy = Store.readWorkflow held) ∨
      (call = .upsertWorkflow copy ∧ copy.status = .running) ∨ copy ∈ known.workflows := by
  have reads := reads_of_effect effect
  cases call with
  | getWorkflow asked =>
    rcases List.mem_append.mp member with new | old
    · rcases reads copy (Option.mem_toList.mp new) with ⟨held, there, read, _⟩
      exact .inl ⟨held, there, read⟩
    · exact .inr (.inr old)
  | listWorkflowsByStatus =>
    rcases List.mem_append.mp member with new | old
    · cases response with
      | none => exact nomatch new
      | some rows =>
        rcases reads rows rfl copy new with ⟨held, there, read, _⟩
        exact .inl ⟨held, there, read⟩
    · exact .inr (.inr old)
  | upsertWorkflow row =>
    rw [Knowledge.advance] at member
    dsimp only at member
    split at member
    · next running =>
      rcases List.mem_cons.mp member with new | old
      · rw [new]
        exact .inr (.inl ⟨rfl, running⟩)
      · exact .inr (.inr old)
    · exact .inr (.inr member)
  | claimWorkflowTaskBudgeted workflowId taskId nowUnixMs newAttempt perWorkflow perSession
      sessionId =>
    cases response with
    | false => exact .inr (.inr member)
    | true => exact .inr (.inr member)
  | _ => exact .inr (.inr member)

theorem workflows_of_effect {response : Response call} (effect : Effect call store response next) :
    next.workflows = store.workflows ∨
      ∃ row, call = .upsertWorkflow row ∧ next = (store.upsertWorkflow row).2 := by
  rcases effect with ⟨outside, answered⟩ | ⟨failed, unchanged⟩
  · rcases Prod.ext_iff.mp answered with ⟨rfl, rfl⟩
    by_cases writes : ∃ row, call = .upsertWorkflow row
    · rcases writes with ⟨row, same⟩
      subst same
      exact .inr ⟨row, rfl, rfl⟩
    · left
      apply answer_workflows outside store
      intro row same
      exact writes ⟨row, same⟩
  · rw [unchanged]
    exact .inl rfl

/-- What a write always takes from the written task row. -/
structure WrittenTask (row stored : WorkflowTaskRow) : Prop where
  key : stored.key = row.key
  status : stored.status = row.status
  attempt : stored.attempt = max 0 row.attempt
  allowError : stored.allowError = row.allowError
  maxAttempts : stored.maxAttempts = if row.maxAttempts ≤ 0 then 1 else row.maxAttempts
  dependsOnJson : stored.dependsOnJson = row.dependsOnJson
  requestJson : stored.requestJson = row.requestJson

variable {old stored : WorkflowTaskRow}

theorem writtenTask_merge : WrittenTask row (Store.mergeTask old (Store.boundTask row)) :=
  ⟨rfl, rfl, rfl, rfl, rfl, rfl, rfl⟩

theorem writtenTask_bound (row : WorkflowTaskRow) : WrittenTask row (Store.boundTask row) :=
  ⟨rfl, rfl, rfl, rfl, rfl, rfl, rfl⟩

/-- A row behind a write is the written one, merged into the row of the task if
there is one, or an untouched one of another task. -/
theorem mem_upsertWorkflowTask_cases (named : row.workflowId ≠ [] ∧ row.taskId ≠ [])
    (member : stored ∈ (store.upsertWorkflowTask row).2.tasks) :
    (∃ old ∈ store.tasks, old.key = row.key ∧ stored = Store.mergeTask old (Store.boundTask row)) ∨
    ((∀ old ∈ store.tasks, old.key ≠ row.key) ∧ stored = Store.boundTask row) ∨
    stored ∈ store.tasks ∧ stored.key ≠ row.key := by
  rw [Store.upsertWorkflowTask, if_neg (not_or.mpr named)] at member
  split at member
  · rcases List.mem_map.mp member with ⟨old, there, merged⟩
    split at merged
    · next here => exact .inl ⟨old, there, isTask_iff.mp here, merged.symm⟩
    · next other =>
      subst merged
      exact .inr (.inr ⟨there, fun same => other (isTask_iff.mpr same)⟩)
  · next absent =>
    have others : ∀ old ∈ store.tasks, old.key ≠ row.key := by
      intro old there same
      exact absent (List.any_eq_true.mpr ⟨old, there, isTask_iff.mpr same⟩)
    rcases List.mem_append.mp member with old | new
    · exact .inr (.inr ⟨old, others stored old⟩)
    · exact .inr (.inl ⟨others, List.mem_singleton.mp new⟩)

/-- What a write does to a row of the table. -/
def mergeRow (row stored : WorkflowTaskRow) : WorkflowTaskRow :=
  if Store.isTask row.workflowId row.taskId stored then Store.mergeTask stored (Store.boundTask row)
  else stored

theorem upsertWorkflowTask_tasks (named : row.workflowId ≠ [] ∧ row.taskId ≠ [])
    (there : old ∈ store.tasks) (sameKey : old.key = row.key) :
    (store.upsertWorkflowTask row).2.tasks = store.tasks.map (mergeRow row) := by
  have present := List.any_eq_true.mpr ⟨old, there, isTask_iff.mpr sameKey⟩
  rw [Store.upsertWorkflowTask, if_neg (not_or.mpr named), if_pos present]
  rfl

theorem mem_upsertWorkflowTask (named : row.workflowId ≠ [] ∧ row.taskId ≠ [])
    (member : stored ∈ (store.upsertWorkflowTask row).2.tasks) :
    WrittenTask row stored ∨ stored ∈ store.tasks ∧ stored.key ≠ row.key := by
  rcases mem_upsertWorkflowTask_cases named member with ⟨old, _, _, merged⟩ | ⟨_, new⟩ | untouched
  · rw [merged]
    exact .inl writtenTask_merge
  · rw [new]
    exact .inl (writtenTask_bound row)
  · exact .inr untouched

def updateQueued (key : Bytes × Bytes) (update : WorkflowTaskRow → WorkflowTaskRow)
    (row : WorkflowTaskRow) : WorkflowTaskRow :=
  if row.key = key ∧ row.status = .queued then update row else row

def claimedRow (nowUnixMs newAttempt : Int) (row : WorkflowTaskRow) : WorkflowTaskRow :=
  { row with
    status := .running
    updatedUnixMs := nowUnixMs
    startedUnixMs := if row.startedUnixMs = 0 then nowUnixMs else row.startedUnixMs
    attempt := max 0 newAttempt }

def cancelledRow (nowUnixMs : Int) (error resultJson : Bytes) (row : WorkflowTaskRow) :
    WorkflowTaskRow :=
  { row with
    status := .cancelled
    updatedUnixMs := nowUnixMs
    finishedUnixMs := nowUnixMs
    readyUnixMs := 0
    error
    resultJson }

theorem affected_eq (workflowId taskId : Bytes) (row : WorkflowTaskRow) :
    (Store.isTask workflowId taskId row && row.status == .queued) =
      decide (row.key = (workflowId, taskId) ∧ row.status = .queued) := by
  rw [Bool.eq_iff_iff, Bool.and_eq_true, decide_eq_true_eq, isTask_iff, beq_iff_eq]

theorem updateQueuedTask_tasks (store : Store) (workflowId taskId : Bytes)
    (update : WorkflowTaskRow → WorkflowTaskRow) :
    (store.updateQueuedTask workflowId taskId update).2.tasks =
      store.tasks.map (updateQueued (workflowId, taskId) update) := by
  apply List.map_congr_left
  intro row _
  simp only [affected_eq, decide_eq_true_eq, updateQueued]

theorem updateQueuedTask_fst : (store.updateQueuedTask workflowId taskId update).1 = true ↔
      ∃ row ∈ store.tasks, row.key = (workflowId, taskId) ∧ row.status = .queued := by
  simp only [Store.updateQueuedTask, affected_eq, List.any_eq_true, decide_eq_true_eq]

theorem mem_updateQueued {tasks : List WorkflowTaskRow} {key : Bytes × Bytes}
    (member : row ∈ tasks.map (updateQueued key update)) :
    (∃ old ∈ tasks, old.key = key ∧ old.status = .queued ∧ row = update old) ∨
      row ∈ tasks ∧ ¬(row.key = key ∧ row.status = .queued) := by
  rcases List.mem_map.mp member with ⟨old, there, updated⟩
  rw [updateQueued] at updated
  split at updated
  · next here => exact .inl ⟨old, there, here.1, here.2, updated.symm⟩
  · next other =>
    subst updated
    exact .inr ⟨there, other⟩

inductive TaskChange (store next : Store) : (call : Call) → Response call → Prop
  | untouched {call : Call} {response : Response call} (unclaimed : claimOf call response = none)
      (unwritten : writeOf call response = none) (same : next.tasks = store.tasks) :
      TaskChange store next call response
  | written (row : WorkflowTaskRow) (named : row.workflowId ≠ [] ∧ row.taskId ≠ [])
      (next_eq : next = (store.upsertWorkflowTask row).2) :
      TaskChange store next (.upsertWorkflowTask row) true
  | claimed (workflowId taskId : Bytes) (nowUnixMs newAttempt perWorkflow perSession : Int)
      (sessionId : Bytes)
      (queued : ∃ row ∈ store.tasks, row.key = (workflowId, taskId) ∧ row.status = .queued)
      (inWorkflow : 0 < perWorkflow → (store.runningInWorkflow workflowId : Int) < perWorkflow)
      (inSession : 0 < perSession → sessionId ≠ [] →
        (store.runningInSession sessionId : Int) < perSession)
      (workflows : next.workflows = store.workflows)
      (tasks : next.tasks = store.tasks.map
        (updateQueued (workflowId, taskId) (claimedRow nowUnixMs newAttempt))) :
      TaskChange store next (.claimWorkflowTaskBudgeted workflowId taskId nowUnixMs newAttempt
        perWorkflow perSession sessionId) true
  | cancelled (workflowId taskId : Bytes) (nowUnixMs : Int) (error resultJson : Bytes)
      {response : Bool}
      (tasks : next.tasks = store.tasks.map
        (updateQueued (workflowId, taskId) (cancelledRow nowUnixMs error resultJson))) :
      TaskChange store next
        (.cancelWorkflowTaskIfQueued workflowId taskId nowUnixMs error resultJson) response

theorem taskChange_failed (failed : Failed call response) :
    TaskChange store store call response := by
  cases call with
  | claimWorkflowTaskBudgeted =>
    subst failed
    exact .untouched rfl rfl rfl
  | upsertWorkflowTask row =>
    subst failed
    exact .untouched rfl rfl rfl
  | _ => exact .untouched rfl rfl rfl

theorem taskChange_upsertWorkflowTask (store : Store) (row : WorkflowTaskRow) :
    TaskChange store (store.upsertWorkflowTask row).2 (.upsertWorkflowTask row)
      (store.upsertWorkflowTask row).1 := by
  by_cases unnamed : row.workflowId = [] ∨ row.taskId = []
  · rw [Store.upsertWorkflowTask, if_pos unnamed]
    exact .untouched rfl rfl rfl
  · have succeeded : (store.upsertWorkflowTask row).1 = true := by
      rw [Store.upsertWorkflowTask, if_neg unnamed]
      split
      · rfl
      · rfl
    rw [succeeded]
    exact .written row (not_or.mp unnamed) rfl

theorem taskChange_cancelWorkflowTaskIfQueued (store : Store) (workflowId taskId : Bytes)
    (nowUnixMs : Int) (error resultJson : Bytes) : TaskChange store
      (store.cancelWorkflowTaskIfQueued workflowId taskId nowUnixMs error resultJson).2
      (.cancelWorkflowTaskIfQueued workflowId taskId nowUnixMs error resultJson)
      (store.cancelWorkflowTaskIfQueued workflowId taskId nowUnixMs error resultJson).1 := by
  rw [Store.cancelWorkflowTaskIfQueued]
  split
  · exact .untouched rfl rfl rfl
  · exact .cancelled _ _ _ _ _ (updateQueuedTask_tasks ..)

theorem updateQueuedTask_missed
    (missed : (store.updateQueuedTask workflowId taskId update).1 = false) :
    (store.updateQueuedTask workflowId taskId update).2.tasks = store.tasks := by
  have unchanged : ∀ row ∈ store.tasks, updateQueued (workflowId, taskId) update row = id row := by
    intro row member
    rw [updateQueued, if_neg]
    · rfl
    · intro here
      rw [updateQueuedTask_fst.mpr ⟨row, member, here⟩] at missed
      exact nomatch missed
  rw [updateQueuedTask_tasks, List.map_congr_left unchanged, List.map_id]

theorem taskChange_claimWorkflowTaskBudgeted (store : Store) (workflowId taskId : Bytes)
    (nowUnixMs newAttempt perWorkflow perSession : Int) (sessionId : Bytes) : TaskChange store
      (store.claimWorkflowTaskBudgeted workflowId taskId nowUnixMs newAttempt perWorkflow
        perSession sessionId).2
      (.claimWorkflowTaskBudgeted workflowId taskId nowUnixMs newAttempt perWorkflow perSession
        sessionId)
      (store.claimWorkflowTaskBudgeted workflowId taskId nowUnixMs newAttempt perWorkflow
        perSession sessionId).1 := by
  rw [Store.claimWorkflowTaskBudgeted]
  split
  · exact .untouched rfl rfl rfl
  · next inWorkflow =>
    split
    · exact .untouched rfl rfl rfl
    · next inSession =>
      by_cases unnamed : workflowId = [] ∨ taskId = []
      · rw [Store.claimWorkflowTask, if_pos unnamed]
        exact .untouched rfl rfl rfl
      · have claims : store.claimWorkflowTask workflowId taskId nowUnixMs newAttempt =
            store.updateQueuedTask workflowId taskId (claimedRow nowUnixMs newAttempt) :=
          if_neg unnamed
        rw [claims]
        cases won :
          (store.updateQueuedTask workflowId taskId (claimedRow nowUnixMs newAttempt)).1 with
        | false => exact .untouched rfl rfl (updateQueuedTask_missed won)
        | true =>
          apply TaskChange.claimed
          · exact updateQueuedTask_fst.mp won
          · intro limited
            exact lt_of_not_ge fun reached => inWorkflow ⟨limited, reached⟩
          · intro limited named
            exact lt_of_not_ge fun reached => inSession ⟨limited, named, reached⟩
          · rfl
          · exact updateQueuedTask_tasks ..

theorem taskChange_of_effect (effect : Effect call store response next) :
    TaskChange store next call response := by
  rcases effect with ⟨outside, answered⟩ | ⟨failed, unchanged⟩
  · rcases Prod.ext_iff.mp answered with ⟨rfl, rfl⟩
    cases call with
    | upsertWorkflow row =>
      exact .untouched rfl rfl (store.upsertWorkflow_tasks row)
    | upsertWorkflowTask row => exact taskChange_upsertWorkflowTask store row
    | cancelWorkflowTaskIfQueued =>
      exact taskChange_cancelWorkflowTaskIfQueued ..
    | claimWorkflowTaskBudgeted => exact taskChange_claimWorkflowTaskBudgeted ..
    | _ => exact .untouched rfl rfl rfl
  · subst unchanged
    exact taskChange_failed failed

end AgentC.Workflow
