import AgentC.Foundation.DependencyOrder
import AgentC.Json.Tree
import AgentC.Workflow.Store
import Mathlib.Data.List.Destutter

/-! # Submitting a workflow

`workflow_submit_handle` of `daemon/src/workflow_submit.cpp` with
`validate_dag_or_error` and the collection of referenced tasks of
`daemon/src/workflow_endpoint_util.cpp`, and `create_workflow` and the counters
of `daemon/src/agent_db_jobs.cpp`. A submission is taken as it is behind the
expansion of macros and the checks of the requests of its tasks. -/

namespace AgentC.Workflow

/-- The JSON library that writes and parses the texts in the tables. -/
structure JsonLibrary where
  write : Json.Tree → Bytes
  parse : Bytes → Option Json.Tree

def stringsOf (items : List Json.Tree) : List Bytes :=
  items.filterMap fun item =>
    match item with
    | .string text => some text
    | _ => none

def parseDepIds (json : JsonLibrary) (dependsOnJson : Bytes) : List Bytes :=
  if dependsOnJson = [] then []
  else
    match json.parse dependsOnJson with
    | some (.array items) => stringsOf items
    | _ => []

def trimCopy (text : Bytes) : Bytes :=
  trimBoth isSpace text

def idCharOk (c : UInt8) : Bool :=
  ('a'.toUInt8 ≤ c && c ≤ 'z'.toUInt8) ||
    ('A'.toUInt8 ≤ c && c ≤ 'Z'.toUInt8) ||
    ('0'.toUInt8 ≤ c && c ≤ '9'.toUInt8) ||
    c == '-'.toUInt8 || c == '_'.toUInt8 || c == '.'.toUInt8 || c == ':'.toUInt8

def idIsSafe (text : Bytes) : Bool :=
  text.length != 0 && text.length ≤ 128 && text.all idCharOk

/-- The text in front of the first occurrence of a pattern, and the text behind it. -/
def splitAtFirst (pattern : Bytes) : Bytes → Option (Bytes × Bytes)
  | [] => none
  | byte :: rest =>
    if pattern <+: byte :: rest then some ([], (byte :: rest).drop pattern.length)
    else (splitAtFirst pattern rest).map fun parts => (byte :: parts.1, parts.2)

/-- `collect_referenced_task_ids_from_task_template_token` -/
def referencedTaskId (token : Bytes) : Option Bytes :=
  let head := ascii "task."
  let suffixText := ascii ".assistant_text"
  if head <+: token then
    let rest := token.drop head.length
    let taskId :=
      if suffixText.length < rest.length ∧ suffixText <:+ rest then
        rest.take (rest.length - suffixText.length)
      else ((splitAtFirst (ascii ".json:") rest).map Prod.fst).getD []
    if idIsSafe taskId then some taskId else none
  else none

def templateTokens : Nat → Bytes → List Bytes
  | 0, _ => []
  | fuel + 1, text =>
    match splitAtFirst (ascii "$\x7btask.") text with
    | none => []
    | some (_, behind) =>
      match splitAtFirst (ascii "\x7d") behind with
      | none => []
      | some (token, rest) => (ascii "task." ++ token) :: templateTokens fuel rest

mutual

/-- `collect_referenced_task_ids_from_json_value` -/
def referencedTaskIds : Json.Tree → List Bytes
  | .string text => (templateTokens text.length text).filterMap referencedTaskId
  | .array items => referencedInItems items
  | .object members =>
    (match members.find? fun member => member.1 = ascii "$ref" with
      | some (_, .string text) => (referencedTaskId (trimCopy text)).toList
      | _ => []) ++ referencedInMembers members
  | _ => []

def referencedInItems : List Json.Tree → List Bytes
  | [] => []
  | item :: rest => referencedTaskIds item ++ referencedInItems rest

def referencedInMembers : List (Bytes × Json.Tree) → List Bytes
  | [] => []
  | member :: rest => referencedTaskIds member.2 ++ referencedInMembers rest

end

example : referencedTaskIds (.array [.string (ascii "see $\x7btask.a.assistant_text\x7d"),
    .object [(ascii "$ref", .string (ascii " task.b.json:/x"))]]) = [ascii "a", ascii "b"] := by
  decide

/-- A task of a submission: a member that is missing or of another type is `none`. -/
structure SubmittedTask where
  taskId : Option Bytes := none
  kind : Bytes := []
  /-- Of the task, or of its request. -/
  priority : Option Int := none
  dependsOn : Option (List Json.Tree) := none
  maxAttempts : Option Int := none
  allowError : Option Bool := none
  /-- The request of the task as it is stored. -/
  request : Json.Tree
  expect : Option Json.Tree := none

structure Submission where
  workflowId : Bytes
  traceId : Bytes := []
  /-- Empty unless sessions are allowed. -/
  sessionId : Bytes := []
  priority : Int := 0
  deadlineUnixMs : Int := 0
  idempotencyKey : Bytes := []
  inferDependsOn : Bool := false
  /-- The redacted view of the request. -/
  specJson : Bytes
  nowUnixMs : Int
  tasks : List SubmittedTask

structure SubmitError where
  status : Nat
  error : Bytes
  detail : Bytes := []
  taskId : Bytes := []
deriving DecidableEq, Repr

def clampPriority (priority : Int) : Int :=
  min 1000 (max (-1000) priority)

namespace SubmittedTask

/-- The identifier of the task at an index. -/
def idAt (task : SubmittedTask) (index : Nat) : Bytes :=
  match task.taskId with
  | some text => trimCopy text
  | none => ascii "task_" ++ decimal index

/-- The texts in `depends_on`. -/
def dependencyTexts (task : SubmittedTask) : List Bytes :=
  stringsOf (task.dependsOn.getD [])

/-- The references of the request that `depends_on` does not have yet. -/
def addedReferences (task : SubmittedTask) (inferDependsOn : Bool) (taskId : Bytes) : List Bytes :=
  if inferDependsOn then
    (referencedTaskIds task.request).dedup.filter fun reference =>
      reference ≠ taskId ∧ reference ∉ task.dependencyTexts.map trimCopy
  else []

def dependencyIds (task : SubmittedTask) (inferDependsOn : Bool) (taskId : Bytes) : List Bytes :=
  let given := task.dependencyTexts.map trimCopy
  let added := task.addedReferences inferDependsOn taskId
  if added = [] then given
  else ((given ++ added).insertionSort lexLE).destutter (· ≠ ·)

def storedDependencies (task : SubmittedTask) (inferDependsOn : Bool) (taskId : Bytes) :
    List Json.Tree :=
  if task.addedReferences inferDependsOn taskId = [] then task.dependsOn.getD []
  else (task.dependencyIds inferDependsOn taskId).map .string

def attemptLimit (task : SubmittedTask) : Int :=
  match task.maxAttempts with
  | some limit => max 1 (min 512 limit)
  | none =>
    if task.kind = ascii "edge_invoke" then 200
    else if task.kind = ascii "edge_wait_sensor" then 400
    else 1

def row (task : SubmittedTask) (json : JsonLibrary) (submission : Submission) (taskId : Bytes) :
    WorkflowTaskRow where
  workflowId := submission.workflowId
  taskId
  priority := some (clampPriority (task.priority.getD (clampPriority submission.priority)))
  createdUnixMs := submission.nowUnixMs
  updatedUnixMs := submission.nowUnixMs
  allowError := task.allowError.getD false
  maxAttempts := task.attemptLimit
  dependsOnJson := json.write (.array (task.storedDependencies submission.inferDependsOn taskId))
  requestJson := json.write task.request
  expectJson := (task.expect.map json.write).getD []

end SubmittedTask

def identifyTasks : Nat → List Bytes → List SubmittedTask →
    Except SubmitError (List (Bytes × SubmittedTask))
  | _, _, [] => return []
  | index, seen, task :: rest => do
    let taskId := task.idAt index
    if !idIsSafe taskId then throw { status := 400, error := ascii "invalid task_id", taskId }
    else if taskId ∈ seen then
      throw { status := 400, error := ascii "duplicate task_id", taskId }
    else
      let identified ← identifyTasks (index + 1) (taskId :: seen) rest
      return (taskId, task) :: identified

def validateDagOrError (taskIds : List Bytes) (deps : List (Bytes × List Bytes)) :
    Except Bytes Unit :=
  let nodes := taskIds.dedup
  match (deps.filter fun entry => entry.1 ∈ nodes).flatMap Prod.snd |>.find? (· ∉ nodes) with
  | some unknown => throw (ascii "unknown dependency: " ++ unknown)
  | none =>
    let frontier := Frontier.initial nodes deps
    if frontier.visit nodes deps nodes.length = nodes.length then return ()
    else throw (ascii "dependency cycle detected")

theorem visit_beyond_tasks (taskIds : List Bytes) {deps : List (Bytes × List Bytes)}
    (keys : (deps.map Prod.fst).Nodup) (extra : Nat) :
    (Frontier.initial taskIds.dedup deps).visit taskIds.dedup deps (taskIds.dedup.length + extra) =
      (Frontier.initial taskIds.dedup deps).visit taskIds.dedup deps taskIds.dedup.length :=
  (sorted_initial (List.nodup_dedup taskIds) keys).visit_add keys (Nat.le_add_left ..) extra

def Submission.rows (submission : Submission) (json : JsonLibrary) :
    Except SubmitError (WorkflowRow × List WorkflowTaskRow) := do
  let identified ← identifyTasks 0 [] submission.tasks
  let deps := identified.map fun entry =>
    (entry.1, entry.2.dependencyIds submission.inferDependsOn entry.1)
  match validateDagOrError (identified.map Prod.fst) deps with
  | .error detail => throw { status := 400, error := ascii "invalid workflow DAG", detail }
  | .ok () =>
    return (
      { workflowId := submission.workflowId
        sessionId := submission.sessionId
        traceId := if submission.traceId = [] then submission.workflowId else submission.traceId
        priority := some (clampPriority submission.priority)
        deadlineUnixMs := submission.deadlineUnixMs
        idempotencyKey := submission.idempotencyKey
        createdUnixMs := submission.nowUnixMs
        updatedUnixMs := submission.nowUnixMs
        specJson := submission.specJson },
      identified.map fun entry => entry.2.row json submission entry.1)

namespace Store

def createdTask (workflow : WorkflowRow) (row : WorkflowTaskRow) : WorkflowTaskRow :=
  { row with
    workflowId := workflow.workflowId
    createdUnixMs := if 0 < row.createdUnixMs then row.createdUnixMs else workflow.createdUnixMs
    updatedUnixMs := if 0 < row.updatedUnixMs then row.updatedUnixMs else workflow.updatedUnixMs
    attempt := max 0 row.attempt
    maxAttempts := if row.maxAttempts ≤ 0 then 1 else row.maxAttempts
    readyUnixMs := max 0 row.readyUnixMs
    startedUnixMs := max 0 row.startedUnixMs
    finishedUnixMs := max 0 row.finishedUnixMs
    cumulative := Usage.combine max {} row.cumulative }

def getWorkflowByIdempotencyKey (store : Store) (sessionId idempotencyKey : Bytes) :
    Option WorkflowRow :=
  if idempotencyKey = [] then none
  else
    ((store.workflows.filter fun row =>
      row.idempotencyKey = idempotencyKey ∧ row.sessionId = sessionId).insertionSort
        fun left right => right.createdUnixMs ≤ left.createdUnixMs).head?.map readWorkflow

/-- `AgentDb::create_workflow`: the keys of both tables and the index on
idempotency keys are unique. -/
def createWorkflow (store : Store) (workflow : WorkflowRow) (tasks : List WorkflowTaskRow) :
    Bool × Store :=
  let created := boundWorkflow workflow
  if workflow.workflowId = [] ∨ workflow.specJson = [] ∨ tasks = [] then (false, store)
  else if store.workflows.any fun row => row.workflowId = workflow.workflowId then (false, store)
  else if (store.getWorkflowByIdempotencyKey workflow.sessionId workflow.idempotencyKey).isSome then
    (false, store)
  else if tasks.any fun row => row.taskId = [] ∨ row.requestJson = [] then (false, store)
  else if ¬(tasks.map WorkflowTaskRow.taskId).Nodup ∨
      tasks.any fun row => store.tasks.any (isTask workflow.workflowId row.taskId) then
    (false, store)
  else
    (true,
      { workflows := store.workflows ++ [created]
        tasks := store.tasks ++ tasks.map (createdTask created) })

def isInflight (row : WorkflowTaskRow) : Bool :=
  row.status = .queued ∨ row.status = .running

def countWorkflowInflightTasksTotal (store : Store) : Nat :=
  store.tasks.countP isInflight

def countWorkflowInflightTasksForSession (store : Store) (sessionId : Bytes) : Nat :=
  store.tasks.countP fun row =>
    isInflight row && store.workflows.any fun workflow =>
      workflow.workflowId = row.workflowId ∧ workflow.sessionId = sessionId

end Store

/-- The limits of admission control; zero is no limit. -/
structure AdmissionLimits where
  maxInflightTasksTotal : Int := 0
  maxInflightTasksPerSession : Int := 0

/-- Submissions that would exceed a limit are to be tried again later. -/
def admissionControl (limits : AdmissionLimits) (store : Store) (submission : Submission) :
    Except SubmitError Unit := do
  let requested := submission.tasks.length
  if 0 < limits.maxInflightTasksTotal ∧
      limits.maxInflightTasksTotal < store.countWorkflowInflightTasksTotal + requested then
    throw
      { status := 429
        error := ascii "workflow admission control: too many inflight tasks (daemon total)" }
  else if 0 < limits.maxInflightTasksPerSession ∧ submission.sessionId ≠ [] ∧
      limits.maxInflightTasksPerSession <
        store.countWorkflowInflightTasksForSession submission.sessionId + requested then
    throw
      { status := 429
        error := ascii "workflow admission control: too many inflight tasks (session)" }
  else return ()

inductive SubmitResponse
  | created (workflowId : Bytes)
  | deduped (workflowId : Bytes)
deriving DecidableEq, Repr

/-- `workflow_submit_handle`. Deduplication and admission control look at the
tables earlier than `create_workflow`, and between them they may change. -/
def workflowSubmitHandle (json : JsonLibrary) (limits : AdmissionLimits) (earlier store : Store)
    (submission : Submission) : Except SubmitError SubmitResponse × Store :=
  if submission.tasks = [] then
    (throw { status := 400, error := ascii "missing tasks (expected non-empty array)" }, store)
  else if !idIsSafe submission.workflowId then
    (throw { status := 400, error := ascii "invalid workflow_id" }, store)
  else if 128 < submission.tasks.length then
    (throw { status := 400, error := ascii "too many tasks (max 128)" }, store)
  else
    let existing := fun (tables : Store) =>
      tables.getWorkflowByIdempotencyKey submission.sessionId submission.idempotencyKey
    match existing earlier with
    | some row => (return .deduped row.workflowId, store)
    | none =>
      match admissionControl limits earlier submission, submission.rows json with
      | .error error, _ => (throw error, store)
      | .ok (), .error error => (throw error, store)
      | .ok (), .ok (workflow, tasks) =>
        match store.createWorkflow workflow tasks with
        | (true, next) => (return .created workflow.workflowId, next)
        | (false, _) =>
          match existing store with
          | some row => (return .deduped row.workflowId, store)
          | none =>
            (throw { status := 409, error := ascii "failed to create workflow" }, store)

/-- Tasks with identifiers that have passed the checks. -/
structure Identified (index : Nat) (seen : List Bytes) (tasks : List SubmittedTask)
    (identified : List (Bytes × SubmittedTask)) : Prop where
  entries : identified = (tasks.zipIdx index).map fun entry => (entry.1.idAt entry.2, entry.1)
  safe : ∀ entry ∈ identified, idIsSafe entry.1 = true
  fresh : ∀ entry ∈ identified, entry.1 ∉ seen
  distinct : (identified.map Prod.fst).Nodup

theorem identified_of_ok {index : Nat} {seen : List Bytes} {tasks : List SubmittedTask}
    {identified : List (Bytes × SubmittedTask)}
    (ok : identifyTasks index seen tasks = .ok identified) :
    Identified index seen tasks identified := by
  induction tasks generalizing index seen identified with
  | nil =>
    cases ok
    exact ⟨rfl, fun _ member => (nomatch member), fun _ member => (nomatch member), .nil⟩
  | cons task rest induction =>
    rw [identifyTasks] at ok
    split at ok
    · exact nomatch ok
    · next safe =>
      split at ok
      · exact nomatch ok
      · next unseen =>
        cases later : identifyTasks (index + 1) (task.idAt index :: seen) rest with
        | error error =>
          rw [later] at ok
          exact nomatch ok
        | ok others =>
          rw [later] at ok
          cases ok
          have next := induction later
          constructor
          · rw [List.zipIdx_cons, List.map_cons, next.entries]
          · intro entry member
            rcases List.mem_cons.mp member with same | behind
            · rw [same]
              simpa using safe
            · exact next.safe entry behind
          · intro entry member
            rcases List.mem_cons.mp member with same | behind
            · rw [same]
              exact unseen
            · exact fun before =>
                next.fresh entry behind (List.mem_cons_of_mem _ before)
          · rw [List.map_cons, List.nodup_cons]
            refine ⟨?_, next.distinct⟩
            intro again
            rcases List.mem_map.mp again with ⟨entry, member, same⟩
            exact next.fresh entry member (same ▸ List.mem_cons_self ..)

/-- Every task belongs to a workflow, as the foreign key of the table demands. -/
def Anchored (store : Store) : Prop :=
  ∀ task ∈ store.tasks, ∃ workflow ∈ store.workflows, workflow.workflowId = task.workflowId

/-- What `create_workflow` stores. -/
structure Creates (store : Store) (workflow : WorkflowRow) (tasks : List WorkflowTaskRow)
    (next : Store) : Prop where
  named : workflow.workflowId ≠ []
  fresh : ∀ row ∈ store.workflows, row.workflowId ≠ workflow.workflowId
  taskIds : ∀ row ∈ tasks, row.taskId ≠ []
  distinct : (tasks.map WorkflowTaskRow.taskId).Nodup
  workflows : next.workflows = store.workflows ++ [Store.boundWorkflow workflow]
  tasks : next.tasks =
    store.tasks ++ tasks.map (Store.createdTask (Store.boundWorkflow workflow))

theorem creates_of_createWorkflow {store next : Store} {workflow : WorkflowRow}
    {tasks : List WorkflowTaskRow} (created : store.createWorkflow workflow tasks = (true, next)) :
    Creates store workflow tasks next := by
  rw [Store.createWorkflow] at created
  split at created
  · exact nomatch created
  · next given =>
    split at created
    · exact nomatch created
    · next fresh =>
      split at created
      · exact nomatch created
      · split at created
        · exact nomatch created
        · next complete =>
          split at created
          · exact nomatch created
          · next distinct =>
            cases created
            rw [not_or] at given
            rw [not_or, not_not] at distinct
            constructor
            · exact given.1
            · intro row member same
              exact fresh (List.any_eq_true.mpr ⟨row, member, decide_eq_true same⟩)
            · intro row member empty
              exact complete
                (List.any_eq_true.mpr ⟨row, member, decide_eq_true (.inl empty)⟩)
            · exact distinct.1
            · rfl
            · rfl

/-- A submission that passes the checks of its tasks. -/
structure Submission.Passes (submission : Submission) (json : JsonLibrary)
    (identified : List (Bytes × SubmittedTask)) (workflow : WorkflowRow)
    (tasks : List WorkflowTaskRow) : Prop where
  isIdentified : Identified 0 [] submission.tasks identified
  valid : validateDagOrError (identified.map Prod.fst) (identified.map fun entry =>
    (entry.1, entry.2.dependencyIds submission.inferDependsOn entry.1)) = .ok ()
  workflowId : workflow.workflowId = submission.workflowId
  queued : workflow.status = .queued
  tasks : tasks = identified.map fun entry => entry.2.row json submission entry.1

theorem passes_of_rows {json : JsonLibrary} {submission : Submission} {workflow : WorkflowRow}
    {tasks : List WorkflowTaskRow} (rows : submission.rows json = .ok (workflow, tasks)) :
    ∃ identified, submission.Passes json identified workflow tasks := by
  rw [Submission.rows] at rows
  cases identifies : identifyTasks 0 [] submission.tasks with
  | error error =>
    rw [identifies] at rows
    exact nomatch rows
  | ok identified =>
    rw [identifies] at rows
    change (match validateDagOrError (identified.map Prod.fst) (identified.map fun entry =>
      (entry.1, entry.2.dependencyIds submission.inferDependsOn entry.1)) with
      | .error _ => _ | .ok () => _) = _ at rows
    split at rows
    · exact nomatch rows
    · next valid =>
      cases rows
      exact ⟨identified, identified_of_ok identifies, valid, rfl, rfl, rfl⟩

theorem passes_of_created {json : JsonLibrary} {limits : AdmissionLimits}
    {earlier store next : Store} {submission : Submission} {workflowId : Bytes}
    (created : workflowSubmitHandle json limits earlier store submission =
      (.ok (.created workflowId), next)) :
    ∃ identified workflow tasks, submission.Passes json identified workflow tasks ∧
      workflow.workflowId = workflowId ∧ Creates store workflow tasks next := by
  rw [workflowSubmitHandle] at created
  split at created
  · exact nomatch created
  · split at created
    · exact nomatch created
    · split at created
      · exact nomatch created
      · dsimp only at created
        split at created
        · exact nomatch created
        · split at created
          · exact nomatch created
          · exact nomatch created
          · next workflow tasks _ rows =>
            split at created
            · next _ stored =>
              cases created
              rcases passes_of_rows rows with ⟨identified, passes⟩
              exact ⟨identified, workflow, tasks, passes, rfl, creates_of_createWorkflow stored⟩
            · split at created
              · exact nomatch created
              · exact nomatch created

end AgentC.Workflow
