import AgentC.Workflow.InsertedOutputs

/-! # Task outputs and the rounds for the inputs

What the first pass has put into a request stays there through every round in
which no replaced placeholder and no reference reaches into it. Without inputs
there are no rounds. -/

namespace AgentC.Workflow

open Json (Tree Step)

variable {json : JsonLibrary} {outputs : TaskOutputs} {request : Tree}

def roundScope (json : JsonLibrary) (outputs : TaskOutputs) (request : Tree) :
    Option TemplateScope :=
  match request.member (ascii "inputs") with
  | some (.object inputs) => some { json, outputs, inputs := some (inputsByName inputs) }
  | _ => none

theorem inputRounds_succ (rounds : Nat) :
    (outputs.inputRounds json (rounds + 1) request).1 =
      match roundScope json outputs request with
      | none => request
      | some scope =>
        let expanded := (scope.expandTemplatesInJsonValue request).1
        if TaskOutputs.inputsText json request = TaskOutputs.inputsText json expanded then expanded
        else (outputs.inputRounds json rounds expanded).1 := by
  rw [TaskOutputs.inputRounds, roundScope, TaskOutputs.inputsText]
  cases request.member (ascii "inputs") with
  | none => rfl
  | some inputs =>
    cases inputs with
    | object inputs =>
      simp only
      split <;> rfl
    | _ => rfl

/-- What is asked of the rounds that take place, of a state that moves with them. -/
def EachRound {State : Type} (json : JsonLibrary) (outputs : TaskOutputs)
    (spared : State → TemplateScope → Tree → Prop) (moved : State → TemplateScope → Tree → State) :
    Nat → State → Tree → Prop
  | 0, _, _ => True
  | rounds + 1, state, request =>
    match roundScope json outputs request with
    | none => True
    | some scope =>
      let expanded := (scope.expandTemplatesInJsonValue request).1
      spared state scope request ∧
        (TaskOutputs.inputsText json request = TaskOutputs.inputsText json expanded ∨
          EachRound json outputs spared moved rounds (moved state scope request) expanded)

theorem inputRounds_keep {State : Type} {spared : State → TemplateScope → Tree → Prop}
    {moved : State → TemplateScope → Tree → State} {holds : State → Tree → Prop}
    (round : ∀ {state scope request}, holds state request → spared state scope request →
      holds (moved state scope request) (scope.expandTemplatesInJsonValue request).1)
    {rounds : Nat} {state : State} (start : holds state request)
    (each : EachRound json outputs spared moved rounds state request) :
    ∃ last, holds last (outputs.inputRounds json rounds request).1 := by
  induction rounds generalizing state request with
  | zero => exact ⟨state, start⟩
  | succ rounds induction =>
    rw [EachRound] at each
    rw [inputRounds_succ]
    cases takesPlace : roundScope json outputs request with
    | none => exact ⟨state, start⟩
    | some scope =>
      simp only [takesPlace] at each ⊢
      have next := round start each.1
      split
      · exact ⟨_, next⟩
      next changed => exact induction next (each.2.resolve_left changed)

def ShowsAt (request : Tree) (place : List Step) (part : Bytes) (start : Nat) : Prop :=
  ∃ text, request.locate place = some (.string text) ∧ start ≤ text.length ∧
    part <+: text.drop start

/-- The part of a text at a place is out of reach of the placeholders of a round. -/
def SparesPart (place : List Step) (part : Bytes) (start : Nat) (scope : TemplateScope)
    (request : Tree) : Prop :=
  match request.locate place with
  | some (.string text) => scope.SparesText text start part.length
  | _ => False

def movedStart (place : List Step) (start : Nat) (scope : TemplateScope) (request : Tree) : Nat :=
  match request.locate place with
  | some (.string text) => (scope.expandPromptTemplates (text.take start)).1.length
  | _ => start

variable {place : List Step}

theorem showsAt_round {part : Bytes} {start : Nat} {scope : TemplateScope}
    (shows_ : Walked place request ∧ ShowsAt request place part start)
    (spared : SparesPart place part start scope request) :
    Walked place (scope.expandTemplatesInJsonValue request).1 ∧
      ShowsAt (scope.expandTemplatesInJsonValue request).1 place part
        (movedStart place start scope request) := by
  rcases shows_ with ⟨walked, text, located, short, back, rest⟩
  have split : text = text.take start ++ part ++ back := by
    rw [List.append_assoc, rest, List.take_append_drop]
  have size : (text.take start).length = start := List.length_take_of_le short
  rw [SparesPart, located] at spared
  refine ⟨TemplateScope.walked_expandValue false walked located, ?_⟩
  have expanded : (scope.expandTemplatesInJsonValue request).1.locate place =
      some (.string (scope.expandPromptTemplates text).1) := by
    rw [TemplateScope.expandTemplatesInJsonValue, TemplateScope.locate_expandValue false walked,
      located]
    rfl
  rcases TemplateScope.expandPromptTemplates_of_spares split (size.symm ▸ spared) with
    ⟨more, shown⟩
  refine ⟨_, expanded, ?_, more, ?_⟩
  · rw [movedStart, located, ← shown]
    simp only [List.length_append]
    omega
  · rw [movedStart, located, ← shown, List.append_assoc, List.drop_left]

def taskScope (json : JsonLibrary) (outputs : TaskOutputs) : TemplateScope :=
  { json, outputs }

/-- A placeholder in a text of the request in whose place the first pass puts a text of
a task. -/
structure TaskPlaceholder (json : JsonLibrary) (outputs : TaskOutputs) (request : Tree)
    (place : List Step) (found : Placeholder) (text : Bytes) : Prop where
  walked : Walked place request
  located : ∃ prompt, request.locate place = some (.string prompt) ∧ found ∈ placeholders prompt
  value : ((taskScope json outputs).placeholderText found.token).1 = some text

/-- A reference object of the request in whose place the first pass puts a value of a task. -/
structure TaskReference (json : JsonLibrary) (outputs : TaskOutputs) (request : Tree)
    (place : List Step) (value : Tree) : Prop where
  walked : Walked place request
  located : ∃ members text, request.locate place = some (.object members) ∧
    referenceText members = some text ∧
      ((taskScope json outputs).resolveReference (allowedAt false place) (trimCopy text)).1 =
        .replaced value

def insertedStart (json : JsonLibrary) (outputs : TaskOutputs) (found : Placeholder) : Nat :=
  ((taskScope json outputs).expandPromptTemplates found.front).1.length

theorem showsAt_firstPass {found : Placeholder} {text : Bytes}
    (inserted : TaskPlaceholder json outputs request place found text) :
    Walked place (outputs.firstPass json request).1 ∧
      ShowsAt (outputs.firstPass json request).1 place text (insertedStart json outputs found) := by
  rcases inserted with ⟨walked, ⟨prompt, located, member⟩, value⟩
  refine ⟨TemplateScope.walked_expandValue false walked located, ?_⟩
  have expanded : (outputs.firstPass json request).1.locate place =
      some (.string ((taskScope json outputs).expandPromptTemplates prompt).1) := by
    rw [TaskOutputs.firstPass, TemplateScope.expandTemplatesInJsonValue,
      TemplateScope.locate_expandValue false walked, located]
    rfl
  have shown := @TemplateScope.expandPromptTemplates_at (taskScope json outputs) _ _ member
  rw [TemplateScope.shown, value, Option.getD_some, List.append_assoc] at shown
  refine ⟨_, expanded, ?_, ?_⟩
  · rw [insertedStart, shown, List.length_append]
    omega
  · rw [insertedStart, shown, List.drop_left]
    exact List.prefix_append ..

theorem locate_firstPass {value : Tree}
    (inserted : TaskReference json outputs request place value) :
    (outputs.firstPass json request).1.locate place = some value := by
  rcases inserted with ⟨walked, members, text, located, reference, resolved⟩
  rw [TaskOutputs.firstPass, TemplateScope.expandTemplatesInJsonValue,
    TemplateScope.locate_expandValue false walked, located, Option.map_some]
  have same : taskScope json outputs = { json, outputs } := rfl
  rw [TemplateScope.expandValue, reference]
  simp only [← same, resolved]

/-- No round reaches into the text at a place. -/
def PartSpared (json : JsonLibrary) (outputs : TaskOutputs) (place : List Step) (part : Bytes) :
    Nat → Nat → Tree → Prop :=
  EachRound json outputs (SparesPart place part) (movedStart place)

def ValueSpared (json : JsonLibrary) (outputs : TaskOutputs) (place : List Step) (rounds : Nat)
    (request : Tree) : Prop :=
  EachRound json outputs (fun _ scope request => scope.SparesAt false place request)
    (fun state _ _ => state) rounds () request

theorem request_of_run {expanded : ExpandedRequest} (object : request.isObject = true)
    (run : workflowExpandTemplatesForTaskRequest json outputs request = some expanded) :
    expanded.request = (outputs.inputRounds json 3 (outputs.firstPass json request).1).1 := by
  rw [workflowExpandTemplatesForTaskRequest, object, Bool.not_true, if_neg (by decide)] at run
  simp only at run
  split at run
  · cases run
    rfl
  · cases run
    rfl
  · exact nomatch run

/-- The first pass puts the outputs of tasks into the request as they are, and in the
result they are there as they are unless a round for the inputs reaches into them. -/
theorem inserted_outputs_stay {expanded : ExpandedRequest} (object : request.isObject = true)
    (run : workflowExpandTemplatesForTaskRequest json outputs request = some expanded) :
    let first := (outputs.firstPass json request).1
    (∀ place found text, TaskPlaceholder json outputs request place found text →
      ShowsAt first place text (insertedStart json outputs found) ∧
        (PartSpared json outputs place text 3 (insertedStart json outputs found) first →
          ∃ start, ShowsAt expanded.request place text start)) ∧
    (∀ place value, TaskReference json outputs request place value →
      first.locate place = some value ∧
        (ValueSpared json outputs place 3 first →
          expanded.request.locate place = some value)) ∧
    (roundScope json outputs first = none → expanded.request = first) := by
  rw [request_of_run object run]
  refine ⟨fun place found text inserted => ?_, fun place value inserted => ?_, fun noInputs => ?_⟩
  · have shown := showsAt_firstPass inserted
    refine ⟨shown.2, fun spared => ?_⟩
    rcases inputRounds_keep showsAt_round shown spared with ⟨start, _, stays⟩
    exact ⟨start, stays⟩
  · have located := locate_firstPass inserted
    refine ⟨located, fun spared => ?_⟩
    rcases @inputRounds_keep json outputs _ Unit _ _
      (fun _ request => request.locate place = some value)
      (fun located spared => TemplateScope.locate_of_sparesAt spared located) 3 () located spared
      with ⟨_, stays⟩
    exact stays
  · rw [inputRounds_succ, noInputs]

def promptRequest (prompt : String) : Tree :=
  .object [(ascii "inputs", .object [(ascii "x", .string (ascii "v"))]),
    (ascii "prompt", .string (ascii prompt))]

def textOutputs (text : String) : TaskOutputs where
  assistantText := fun _ => some (ascii text)
  resultJson := fun _ => none

theorem inserted_outputs_stay_in_prompt :
    ∃ expanded, workflowExpandTemplatesForTaskRequest sampleLibrary (textOutputs "$\x7bok\x7d")
        (promptRequest "$\x7binput.x\x7d: $\x7btask.a.assistant_text\x7d") = some expanded ∧
      ∃ start, ShowsAt expanded.request [.member (ascii "prompt")] (ascii "$\x7bok\x7d") start := by
  have run : workflowExpandTemplatesForTaskRequest sampleLibrary (textOutputs "$\x7bok\x7d")
      (promptRequest "$\x7binput.x\x7d: $\x7btask.a.assistant_text\x7d") = some _ := rfl
  refine ⟨_, run, ((inserted_outputs_stay rfl run).1 _
    ⟨ascii "$\x7binput.x\x7d: ", ascii "task.a.assistant_text", []⟩ _ ?_).2 ?_⟩
  · exact ⟨⟨rfl, fun _ _ => trivial⟩, ⟨_, rfl, by decide⟩, rfl⟩
  · refine ⟨?_, .inl rfl⟩
    show TemplateScope.SparesText _ _ _ _
    decide

/-- A placeholder in the output of a task is replaced in a round for the inputs. -/
theorem inserted_output_replaced :
    let outputs := textOutputs "say $\x7binput.x\x7d"
    let request := promptRequest "$\x7btask.a.assistant_text\x7d"
    TaskPlaceholder sampleLibrary outputs request [.member (ascii "prompt")]
        ⟨[], ascii "task.a.assistant_text", []⟩ (ascii "say $\x7binput.x\x7d") ∧
      (workflowExpandTemplatesForTaskRequest sampleLibrary outputs request).map
        (fun expanded => (expanded.ok, expanded.request.text (ascii "prompt"))) =
          some (true, ascii "say v") := by
  refine ⟨⟨⟨rfl, fun _ _ => trivial⟩, ⟨_, rfl, by decide⟩, rfl⟩, ?_⟩
  decide

end AgentC.Workflow
