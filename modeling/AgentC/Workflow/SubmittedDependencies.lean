import AgentC.Json.Rendering
import AgentC.Workflow.Submission

/-! # Dependencies of submitted tasks

The endpoint validates trimmed dependencies and the engine parses the stored
ones. They are the same as long as what is stored needs no trimming. -/

namespace AgentC.Workflow

theorem isSpace_of_idCharOk (byte : UInt8) : idCharOk byte = true → isSpace byte = false := by
  revert byte
  apply forall_byte
  decide +kernel

theorem trimCopy_of_safe {text : Bytes} (safe : idIsSafe text = true) : trimCopy text = text := by
  rw [idIsSafe, Bool.and_eq_true, List.all_eq_true] at safe
  apply trimBoth_eq_self
  intro byte member
  exact isSpace_of_idCharOk byte (safe.2 byte member)

/-- The JSON library parses an array that it has written: it is an array again,
with the same strings in it. -/
structure JsonLibrary.ReadsBack (json : JsonLibrary) (items : List Json.Tree) : Prop where
  written : json.write (.array items) ≠ []
  strings : ∃ read, json.parse (json.write (.array items)) = some (.array read) ∧
    stringsOf read = stringsOf items

theorem JsonLibrary.ReadsBack.parseDepIds {json : JsonLibrary} {items : List Json.Tree}
    (reads : json.ReadsBack items) :
    parseDepIds json (json.write (.array items)) = stringsOf items := by
  rcases reads.strings with ⟨read, parsed, same⟩
  rw [Workflow.parseDepIds, if_neg reads.written, parsed]
  exact same

theorem stringsOf_map_string (texts : List Bytes) : stringsOf (texts.map .string) = texts := by
  rw [stringsOf, List.filterMap_map]
  exact List.filterMap_some

theorem validateDagOrError_ok {taskIds : List Bytes} {deps : List (Bytes × List Bytes)}
    (keys : deps.map Prod.fst = taskIds) (distinct : taskIds.Nodup)
    (valid : validateDagOrError taskIds deps = .ok ()) :
    (∀ entry ∈ deps, ∀ dependency ∈ entry.2, dependency ∈ taskIds) ∧
      ∀ taskId, ¬Relation.TransGen (DependsOn deps) taskId taskId := by
  have inside : ∀ entry ∈ deps, entry.1 ∈ taskIds := by
    intro entry member
    rw [← keys]
    exact List.mem_map_of_mem member
  rw [validateDagOrError, distinct.dedup] at valid
  dsimp only at valid
  split at valid
  · cases valid
  · next known =>
    split at valid
    · next all =>
      constructor
      · intro entry member dependency listed
        by_contra unknown
        apply List.find?_eq_none.mp known dependency
        · apply List.mem_flatMap.mpr
          exact ⟨entry, List.mem_filter.mpr ⟨member, decide_eq_true (inside entry member)⟩,
            listed⟩
        · exact decide_eq_true unknown
      · apply acyclic_of_visit distinct (keys ▸ distinct) inside all
    · cases valid

variable {entry : Bytes × SubmittedTask}

section Stored

variable {json : JsonLibrary} {submission : Submission}
  {identified : List (Bytes × SubmittedTask)} {workflow : WorkflowRow}
  {tasks : List WorkflowTaskRow}

def validatedDependencies (submission : Submission) (identified : List (Bytes × SubmittedTask)) :
    List (Bytes × List Bytes) :=
  identified.map fun entry => (entry.1, entry.2.dependencyIds submission.inferDependsOn entry.1)

theorem Submission.Passes.validated (passes : submission.Passes json identified workflow tasks) :
    (∀ entry ∈ identified, ∀ dependency ∈ entry.2.dependencyIds submission.inferDependsOn entry.1,
        ∃ other ∈ identified, other.1 = dependency) ∧
      ∀ taskId, ¬Relation.TransGen (DependsOn (validatedDependencies submission identified))
        taskId taskId := by
  have keys : (validatedDependencies submission identified).map Prod.fst =
      identified.map Prod.fst := by
    rw [validatedDependencies, List.map_map]
    rfl
  have valid := validateDagOrError_ok keys passes.isIdentified.distinct passes.valid
  refine ⟨?_, valid.2⟩
  intro entry member dependency listed
  have known := valid.1 _ (List.mem_map_of_mem member) dependency listed
  exact List.mem_map.mp known

theorem parseDepIds_row
    (reads : json.ReadsBack (entry.2.storedDependencies submission.inferDependsOn entry.1)) :
    parseDepIds json (entry.2.row json submission entry.1).dependsOnJson =
      if entry.2.addedReferences submission.inferDependsOn entry.1 = [] then
        entry.2.dependencyTexts
      else entry.2.dependencyIds submission.inferDependsOn entry.1 := by
  apply reads.parseDepIds.trans
  rw [SubmittedTask.storedDependencies]
  split
  · rfl
  · exact stringsOf_map_string _

theorem parseDepIds_row_of_trimmed
    (reads : json.ReadsBack (entry.2.storedDependencies submission.inferDependsOn entry.1))
    (trimmed : entry.2.addedReferences submission.inferDependsOn entry.1 = [] →
      ∀ text ∈ entry.2.dependencyTexts, trimCopy text = text) :
    parseDepIds json (entry.2.row json submission entry.1).dependsOnJson =
      entry.2.dependencyIds submission.inferDependsOn entry.1 := by
  rw [parseDepIds_row reads]
  split
  · next unchanged =>
    rw [SubmittedTask.dependencyIds, if_pos unchanged]
    exact ((List.map_congr_left (trimmed unchanged)).trans (List.map_id' _)).symm
  · rfl

end Stored

def ParsedDependency (json : JsonLibrary) (tasks : List WorkflowTaskRow)
    (taskId dependency : Bytes) : Prop :=
  ∃ row ∈ tasks, row.taskId = taskId ∧ dependency ∈ parseDepIds json row.dependsOnJson

/-- Every dependency that the engine parses is a task, and there is no cycle. -/
structure DependenciesRunnable (json : JsonLibrary) (tasks : List WorkflowTaskRow) : Prop where
  known : ∀ row ∈ tasks, ∀ dependency ∈ parseDepIds json row.dependsOnJson,
    ∃ other ∈ tasks, other.taskId = dependency
  acyclic : ∀ taskId, ¬Relation.TransGen (ParsedDependency json tasks) taskId taskId

theorem Creates.mem_tasks {store next : Store} {workflow : WorkflowRow}
    {tasks : List WorkflowTaskRow} (creates : Creates store workflow tasks next)
    (anchored : Anchored store) {row : WorkflowTaskRow} :
    row ∈ next.tasks.filter (fun row => row.workflowId = workflow.workflowId) ↔
      ∃ task ∈ tasks, Store.createdTask (Store.boundWorkflow workflow) task = row := by
  rw [List.mem_filter, creates.tasks, List.mem_append, List.mem_map]
  constructor
  · rintro ⟨old | new, named⟩
    · rcases anchored row old with ⟨held, there, same⟩
      exact absurd (same.trans (of_decide_eq_true named)) (creates.fresh held there)
    · exact new
  · rintro ⟨task, member, rfl⟩
    exact ⟨.inr ⟨task, member, rfl⟩, decide_eq_true rfl⟩

/-- No text in `depends_on` has white space around it, unless a reference was
added and the stored dependencies were made from the validated ones. -/
def TextsTrimmed (submission : Submission) : Prop :=
  ∀ entry ∈ submission.tasks.zipIdx,
    entry.1.addedReferences submission.inferDependsOn (entry.1.idAt entry.2) = [] →
      ∀ text ∈ entry.1.dependencyTexts, trimCopy text = text

section Accepted

variable {json : JsonLibrary} {submission : Submission}
  {identified : List (Bytes × SubmittedTask)} {workflow : WorkflowRow}
  {tasks : List WorkflowTaskRow} {store next : Store}

theorem Submission.Passes.mem_stored (passes : submission.Passes json identified workflow tasks)
    (creates : Creates store workflow tasks next) (anchored : Anchored store)
    {row : WorkflowTaskRow} :
    row ∈ next.tasks.filter (fun row => row.workflowId = workflow.workflowId) ↔
      ∃ entry ∈ identified, Store.createdTask (Store.boundWorkflow workflow)
        (entry.2.row json submission entry.1) = row := by
  rw [creates.mem_tasks anchored, passes.tasks]
  simp only [List.mem_map, exists_exists_and_eq_and]

theorem Submission.Passes.runnable_of_trimmed
    (passes : submission.Passes json identified workflow tasks)
    (creates : Creates store workflow tasks next) (anchored : Anchored store)
    (parsed : ∀ entry ∈ identified,
      parseDepIds json (entry.2.row json submission entry.1).dependsOnJson =
        entry.2.dependencyIds submission.inferDependsOn entry.1) :
    DependenciesRunnable json
      (next.tasks.filter fun row => row.workflowId = workflow.workflowId) := by
  constructor
  · intro row stored dependency listed
    rcases (passes.mem_stored creates anchored).mp stored with ⟨entry, member, rfl⟩
    rw [Store.createdTask, parsed entry member] at listed
    rcases passes.validated.1 entry member dependency listed with ⟨other, there, same⟩
    exact ⟨_, (passes.mem_stored creates anchored).mpr ⟨other, there, rfl⟩, same⟩
  · have validated : ParsedDependency json
        (next.tasks.filter fun row => row.workflowId = workflow.workflowId) ≤
          DependsOn (validatedDependencies submission identified) := by
      intro taskId dependency depends
      rcases depends with ⟨row, stored, named, listed⟩
      rcases (passes.mem_stored creates anchored).mp stored with ⟨entry, member, rfl⟩
      rw [Store.createdTask, parsed entry member] at listed
      exact ⟨_, List.mem_map_of_mem member, named, listed⟩
    intro taskId cycle
    exact passes.validated.2 taskId (Relation.TransGen.mono validated _ _ cycle)

/-- A dependency that is a task needs no trimming. -/
theorem Submission.Passes.trimmed_of_runnable
    (passes : submission.Passes json identified workflow tasks)
    (creates : Creates store workflow tasks next) (anchored : Anchored store)
    (runnable : DependenciesRunnable json
      (next.tasks.filter fun row => row.workflowId = workflow.workflowId))
    (member : entry ∈ identified) {text : Bytes}
    (listed : text ∈ parseDepIds json (entry.2.row json submission entry.1).dependsOnJson) :
    trimCopy text = text := by
  have stored := (passes.mem_stored creates anchored).mpr ⟨entry, member, rfl⟩
  rcases runnable.known _ stored text listed with ⟨row, otherStored, named⟩
  rcases (passes.mem_stored creates anchored).mp otherStored with ⟨other, there, rfl⟩
  have same : other.1 = text := named
  rw [← same]
  exact trimCopy_of_safe (passes.isIdentified.safe other there)

end Accepted

/-- The tasks of an accepted submission have runnable dependencies if and only
if no text that is stored as it was given has white space around it. -/
theorem submitted_dependencies_runnable_iff (json : JsonLibrary) (limits : AdmissionLimits)
    {earlier store next : Store} (anchored : Anchored store) {submission : Submission}
    {workflowId : Bytes}
    (accepted : workflowSubmitHandle json limits earlier store submission =
      (.ok (.created workflowId), next))
    (reads : ∀ entry ∈ submission.tasks.zipIdx, json.ReadsBack
      (entry.1.storedDependencies submission.inferDependsOn (entry.1.idAt entry.2))) :
    DependenciesRunnable json (next.tasks.filter fun row => row.workflowId = workflowId) ↔
      TextsTrimmed submission := by
  rcases passes_of_created accepted with ⟨identified, workflow, tasks, passes, named, creates⟩
  subst named
  have entries := passes.isIdentified.entries
  constructor
  · intro runnable entry member unchanged text listed
    have there : (entry.1.idAt entry.2, entry.1) ∈ identified := by
      rw [entries]
      exact List.mem_map.mpr ⟨entry, member, rfl⟩
    apply passes.trimmed_of_runnable creates anchored runnable there
    rw [parseDepIds_row (reads entry member), if_pos unchanged]
    exact listed
  · intro trimmed
    apply passes.runnable_of_trimmed creates anchored
    intro named there
    rw [entries] at there
    rcases List.mem_map.mp there with ⟨entry, member, rfl⟩
    exact parseDepIds_row_of_trimmed (reads entry member) (trimmed entry member)

/-- A JSON library that writes and parses as the canonicalizer does. -/
def sampleLibrary : JsonLibrary where
  write := Json.Tree.render
  parse := fun text => (Json.parseText text).toOption

def sampleSubmission (dependency : Bytes) : Submission where
  workflowId := ascii "w"
  specJson := ascii "\x7b\x7d"
  nowUnixMs := 1
  tasks :=
    [{ taskId := some (ascii "a"), request := .object [] },
      { taskId := some (ascii "b"), dependsOn := some [.string dependency], request := .object [] }]

def sampleCreated (dependency : Bytes) : Store :=
  (workflowSubmitHandle sampleLibrary {} {} {} (sampleSubmission dependency)).2

theorem submitted_dependencies_runnable_iff_sample :
    DependenciesRunnable sampleLibrary
      ((sampleCreated (ascii "a")).tasks.filter fun row => row.workflowId = ascii "w") := by
  have accepted : workflowSubmitHandle sampleLibrary {} {} {} (sampleSubmission (ascii "a")) =
      (.ok (.created (ascii "w")), sampleCreated (ascii "a")) := rfl
  apply (submitted_dependencies_runnable_iff sampleLibrary {} _ accepted _).mpr
  · intro entry member _
    revert entry
    decide
  · intro task impossible
    exact nomatch impossible
  · intro entry member
    rcases List.mem_cons.mp member with first | second
    · subst first
      exact ⟨(nomatch ·), [], rfl, rfl⟩
    · rw [List.mem_singleton.mp second]
      exact ⟨(nomatch ·), [.string (ascii "a")], rfl, rfl⟩

/-- With a blank in front of it the dependency passes, and is no task. -/
theorem untrimmed_dependency_waits :
    workflowSubmitHandle sampleLibrary {} {} {} (sampleSubmission (ascii " a")) =
        (.ok (.created (ascii "w")), sampleCreated (ascii " a")) ∧
      ¬DependenciesRunnable sampleLibrary
        ((sampleCreated (ascii " a")).tasks.filter fun row => row.workflowId = ascii "w") := by
  refine ⟨rfl, ?_⟩
  intro runnable
  have parsed : ∃ row ∈ (sampleCreated (ascii " a")).tasks.filter
      (fun row => row.workflowId = ascii "w"),
        ascii " a" ∈ parseDepIds sampleLibrary row.dependsOnJson := by decide
  have missing : ∀ row ∈ (sampleCreated (ascii " a")).tasks.filter
      (fun row => row.workflowId = ascii "w"), row.taskId ≠ ascii " a" := by decide
  rcases parsed with ⟨row, stored, listed⟩
  rcases runnable.known row stored _ listed with ⟨other, there, named⟩
  exact missing other there named

/-! ## Validation of the dependency graph

`validate_dag_or_error` of `daemon/src/workflow_endpoint_util.cpp` keeps the tasks
in hash tables. It accepts the graphs without a cycle, in whatever order it meets
the tasks and their dependencies. -/

/-- `validate_dag_or_error` when the table of in-degrees has the tasks in this
order, and the table of dependencies its entries in the order of the list. -/
def validateDagInOrder (nodes : List Bytes) (deps : List (Bytes × List Bytes)) :
    Except Bytes Unit :=
  match (deps.filter fun entry => entry.1 ∈ nodes).flatMap Prod.snd |>.find? (· ∉ nodes) with
  | some unknown => throw (ascii "unknown dependency: " ++ unknown)
  | none =>
    let frontier := Frontier.initial nodes deps
    if frontier.visit nodes deps nodes.length = nodes.length then return ()
    else throw (ascii "dependency cycle detected")

theorem validateDagOrError_eq (taskIds : List Bytes) (deps : List (Bytes × List Bytes)) :
    validateDagOrError taskIds deps = validateDagInOrder taskIds.dedup deps :=
  rfl

variable {nodes : List Bytes} {deps : List (Bytes × List Bytes)}

def DependenciesKnown (taskIds : List Bytes) (deps : List (Bytes × List Bytes)) : Prop :=
  ∀ entry ∈ deps, entry.1 ∈ taskIds → ∀ dependency ∈ entry.2, dependency ∈ taskIds

def WithoutCycle (taskIds : List Bytes) (deps : List (Bytes × List Bytes)) : Prop :=
  ∀ taskId, ¬Relation.TransGen (DependsWithin taskIds deps) taskId taskId

theorem unknown_eq_none_iff :
    ((deps.filter fun entry => entry.1 ∈ nodes).flatMap Prod.snd).find? (· ∉ nodes) = none ↔
      DependenciesKnown nodes deps := by
  rw [List.find?_eq_none]
  constructor
  · intro none entry there inside dependency listed
    by_contra unknown
    apply none dependency
    · exact List.mem_flatMap.mpr
        ⟨entry, List.mem_filter.mpr ⟨there, decide_eq_true inside⟩, listed⟩
    · exact decide_eq_true unknown
  · intro known dependency member unknown
    rcases List.mem_flatMap.mp member with ⟨entry, kept, listed⟩
    rcases List.mem_filter.mp kept with ⟨there, inside⟩
    exact of_decide_eq_true unknown (known entry there (of_decide_eq_true inside) dependency listed)

theorem validateDagInOrder_ok_iff (distinct : nodes.Nodup) (keys : (deps.map Prod.fst).Nodup) :
    validateDagInOrder nodes deps = .ok () ↔
      DependenciesKnown nodes deps ∧ WithoutCycle nodes deps := by
  rw [validateDagInOrder]
  split
  · next unknown found =>
    refine ⟨by rintro ⟨⟩, fun valid => ?_⟩
    rw [unknown_eq_none_iff.mpr valid.1] at found
    cases found
  · next missing =>
    have known := unknown_eq_none_iff.mp missing
    dsimp only
    split
    · next all =>
      refine ⟨fun _ => ⟨known, fun taskId cycle => ?_⟩, fun _ => rfl⟩
      have inside : taskId ∈ nodes := by
        rcases Relation.TransGen.head'_iff.mp cycle with ⟨_, ⟨inside, _⟩, _⟩
        exact inside
      rcases (sorted_initial distinct keys).order keys (by
        rw [all]
        exact Nat.le_add_left ..) with ⟨order, ordered, complete⟩
      apply ordered.acyclic (complete taskId inside)
      have part : DependsWithin nodes deps ≤ DependsOn deps := fun _ _ depends => depends.2.2
      exact Relation.TransGen.mono part taskId taskId cycle
    · next some =>
      refine ⟨by rintro ⟨⟩, fun valid => ?_⟩
      exact absurd (visit_of_acyclic distinct keys known valid.2) some

theorem dependsWithin_congr {taskIds : List Bytes} (same : ∀ taskId, taskId ∈ nodes ↔
    taskId ∈ taskIds) : DependsWithin nodes deps = DependsWithin taskIds deps := by
  funext node dependency
  rw [DependsWithin, DependsWithin, same, same]

/-- The validation accepts a graph if and only if the listed tasks depend on listed
tasks only and no listed task depends on itself, whatever the order of the
tables. -/
theorem dag_validation_exact (taskIds nodes : List Bytes) (deps : List (Bytes × List Bytes))
    (order : nodes.Perm taskIds.dedup) (keys : (deps.map Prod.fst).Nodup) :
    validateDagInOrder nodes deps = .ok () ↔
      DependenciesKnown taskIds deps ∧ WithoutCycle taskIds deps := by
  have same : ∀ taskId, taskId ∈ nodes ↔ taskId ∈ taskIds := fun taskId => by
    rw [order.mem_iff, List.mem_dedup]
  have distinct : nodes.Nodup := order.nodup_iff.mpr (List.nodup_dedup taskIds)
  rw [validateDagInOrder_ok_iff distinct keys, DependenciesKnown, DependenciesKnown,
    WithoutCycle, WithoutCycle, dependsWithin_congr same]
  simp only [same]

/-- A repeated dependency, and an entry that is no task. -/
theorem dag_validation_exact_sample :
    WithoutCycle [ascii "a", ascii "b", ascii "a"]
      [(ascii "x", [ascii "y"]), (ascii "b", [ascii "a", ascii "a"])] :=
  ((dag_validation_exact [ascii "a", ascii "b", ascii "a"] [ascii "a", ascii "b"]
    [(ascii "x", [ascii "y"]), (ascii "b", [ascii "a", ascii "a"])] (by decide)
    (by decide)).mp (by decide)).2

end AgentC.Workflow
