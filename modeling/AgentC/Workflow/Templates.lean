import AgentC.Json.Pointer
import AgentC.Workflow.Submission

/-! # Templates in the requests of tasks

`daemon/src/workflow_templates.cpp`. -/

namespace AgentC.Workflow

/-- `assistant_text_by_task` and `result_json_by_task` -/
structure TaskOutputs where
  assistantText : Bytes → Option Bytes
  resultJson : Bytes → Option Json.Tree

/-- What an expansion looks names up in; there are no inputs in the first pass. -/
structure TemplateScope where
  json : JsonLibrary
  outputs : TaskOutputs
  inputs : Option (Bytes → Option Json.Tree) := none

/-- An expansion reports errors, and reads stored outputs of tasks. -/
inductive ExpansionNote where
  | error (text : Bytes)
  | read (taskId : Bytes)
deriving DecidableEq

def workflowInputNameIsSafe (name : Bytes) : Bool :=
  name.length != 0 && name.length ≤ 128 && name.all fun c =>
    ('a'.toUInt8 ≤ c && c ≤ 'z'.toUInt8) || ('A'.toUInt8 ≤ c && c ≤ 'Z'.toUInt8) ||
      ('0'.toUInt8 ≤ c && c ≤ '9'.toUInt8) || c == '_'.toUInt8 || c == '-'.toUInt8

/-- What a token or the text of a reference object names. -/
inductive TemplateReference where
  | assistantText (taskId : Bytes)
  | taskJson (taskId pointer : Bytes)
  | inputJson (name pointer : Bytes)
  | input (name : Bytes)
  /-- Of a task, without a known shape. -/
  | invalid
  /-- Neither of a task nor of an input. -/
  | foreign
deriving DecidableEq

def parseTemplateReference (token : Bytes) : TemplateReference :=
  let taskPrefix := ascii "task."
  let inputPrefix := ascii "input."
  let suffixText := ascii ".assistant_text"
  let dotJson := ascii ".json:"
  if taskPrefix <+: token then
    let rest := token.drop taskPrefix.length
    if suffixText.length < rest.length ∧ suffixText <:+ rest then
      .assistantText (rest.take (rest.length - suffixText.length))
    else
      match splitAtFirst dotJson rest with
      | some (taskId, pointer) => .taskJson taskId pointer
      | none => .invalid
  else if inputPrefix <+: token then
    let rest := token.drop inputPrefix.length
    match splitAtFirst dotJson rest with
    | some (name, pointer) => .inputJson name pointer
    | none => .input rest
  else .foreign

/-- The text in front of the first placeholder, and the text from its token on. -/
def nextTemplate (text : Bytes) : Option (Bytes × Bytes) :=
  let task := (splitAtFirst (ascii "$\x7btask.") text).map fun parts =>
    (parts.1, ascii "task." ++ parts.2)
  let input := (splitAtFirst (ascii "$\x7binput.") text).map fun parts =>
    (parts.1, ascii "input." ++ parts.2)
  match task, input with
  | none, input => input
  | some task, none => some task
  | some task, some input => if input.1.length < task.1.length then some input else some task

def embeddedText (json : JsonLibrary) (value : Json.Tree) : Bytes :=
  match value with
  | .string text => text
  | other => json.write other

namespace TemplateScope

def inputValue (scope : TemplateScope) (name : Bytes) : Option Json.Tree :=
  scope.inputs.bind fun inputs => inputs name

/-- The text that takes the place of a placeholder, if any does. -/
def placeholderText (scope : TemplateScope) (token : Bytes) : Option Bytes × List ExpansionNote :=
  match parseTemplateReference token with
  | .assistantText taskId =>
    match scope.outputs.assistantText taskId with
    | none => (none, [])
    | some text => (some text, [.read taskId])
  | .taskJson taskId pointer =>
    match scope.outputs.resultJson taskId with
    | none => (none, [])
    | some root =>
      ((Json.jsonPointerGet root pointer).map (embeddedText scope.json), [.read taskId])
  | .inputJson name pointer =>
    (((scope.inputValue name).bind fun root => Json.jsonPointerGet root pointer).map
      (embeddedText scope.json), [])
  | .input name => ((scope.inputValue name).map (embeddedText scope.json), [])
  | .invalid | .foreign => (none, [])

/-- The turns of the loop of `expand_prompt_templates`. -/
def expandPromptFrom (scope : TemplateScope) : Nat → Bytes → Bytes × List ExpansionNote
  | 0, prompt => (prompt, [])
  | fuel + 1, prompt =>
    match nextTemplate prompt with
    | none => (prompt, [])
    | some (before, behind) =>
      match splitAtFirst (ascii "\x7d") behind with
      | none => (prompt, [])
      | some (token, rest) =>
        let value := scope.placeholderText token
        let expanded := scope.expandPromptFrom fuel rest
        -- A placeholder without a value stays as it is.
        (before ++ value.1.getD (ascii "$\x7b" ++ token ++ ascii "\x7d") ++ expanded.1,
          value.2 ++ expanded.2)

def expandPromptTemplates (scope : TemplateScope) (prompt : Bytes) :
    Bytes × List ExpansionNote :=
  scope.expandPromptFrom prompt.length prompt

end TemplateScope

/-- What becomes of a reference object. -/
inductive ReferenceOutcome where
  | kept
  | replaced (value : Json.Tree)
  | failed (error : Bytes)

/-- The text of an object that is a reference and nothing else. -/
def referenceText (members : List (Bytes × Json.Tree)) : Option Bytes :=
  match members with
  | [(key, .string text)] => if key = ascii "$ref" then some text else none
  | _ => none

namespace TemplateScope

def resolveReference (scope : TemplateScope) (allowUnresolved : Bool) (reference : Bytes) :
    ReferenceOutcome × List ExpansionNote :=
  let unresolved (reason : String) : ReferenceOutcome :=
    if allowUnresolved then .kept else .failed (ascii reason ++ reference)
  match parseTemplateReference reference, scope.inputs with
  | .foreign, _ =>
    (.failed (ascii "invalid $ref (expected task.<id>... or input.<name>...): " ++ reference), [])
  -- References to inputs wait for a pass that has inputs.
  | .inputJson _ _, none | .input _, none => (.kept, [])
  | .assistantText taskId, _ =>
    match scope.outputs.assistantText taskId with
    | none => (unresolved "unresolved $ref assistant_text: ", [])
    | some text => (.replaced (.string text), [.read taskId])
  | .taskJson taskId pointer, _ =>
    match scope.outputs.resultJson taskId with
    | none => (unresolved "unresolved $ref json (task missing): ", [])
    | some root =>
      match Json.jsonPointerGet root pointer with
      | none => (unresolved "unresolved $ref json pointer: ", [.read taskId])
      | some got => (.replaced got, [.read taskId])
  | .inputJson name pointer, some inputs =>
    match inputs name with
    | none => (unresolved "unresolved $ref json (input missing): ", [])
    | some root =>
      match Json.jsonPointerGet root pointer with
      | none => (unresolved "unresolved $ref json pointer: ", [])
      | some got => (.replaced got, [])
  | .input name, some inputs =>
    match inputs name with
    | none => (unresolved "unresolved $ref input: ", [])
    | some value => (.replaced value, [])
  | .invalid, _ =>
    (unresolved ("invalid $ref shape (expected task.<id>.assistant_text or " ++
      "task|input.<id>.json:): "), [])

mutual

/-- `expand_templates_in_json_value_impl` -/
def expandValue (scope : TemplateScope) (allowUnresolved : Bool) :
    Json.Tree → Json.Tree × List ExpansionNote
  | .string text =>
    let expanded := scope.expandPromptTemplates text
    (.string expanded.1, expanded.2)
  | .array items =>
    let expanded := scope.expandItems allowUnresolved items
    (.array expanded.1, expanded.2)
  | .object members =>
    match referenceText members with
    | some text =>
      let resolved := scope.resolveReference allowUnresolved (trimCopy text)
      match resolved.1 with
      | .kept => (.object members, resolved.2)
      | .replaced value => (value, resolved.2)
      | .failed error => (.null, resolved.2 ++ [.error error])
    | none =>
      let expanded := scope.expandMembers allowUnresolved members
      (.object expanded.1, expanded.2)
  | other => (other, [])

def expandItems (scope : TemplateScope) (allowUnresolved : Bool) :
    List Json.Tree → List Json.Tree × List ExpansionNote
  | [] => ([], [])
  | item :: rest =>
    let first := scope.expandValue allowUnresolved item
    let others := scope.expandItems allowUnresolved rest
    (first.1 :: others.1, first.2 ++ others.2)

def expandMembers (scope : TemplateScope) (allowUnresolved : Bool) :
    List (Bytes × Json.Tree) → List (Bytes × Json.Tree) × List ExpansionNote
  | [] => ([], [])
  | member :: rest =>
    let first := scope.expandValue (allowUnresolved || member.1 == ascii "inputs") member.2
    let others := scope.expandMembers allowUnresolved rest
    ((member.1, first.1) :: others.1, first.2 ++ others.2)

end

def expandTemplatesInJsonValue (scope : TemplateScope) (value : Json.Tree) :
    Json.Tree × List ExpansionNote :=
  scope.expandValue false value

end TemplateScope

def unsafeInputNotes (inputs : List (Bytes × Json.Tree)) : List ExpansionNote :=
  (inputs.filter fun member => !workflowInputNameIsSafe member.1).map fun member =>
    .error (ascii "invalid input name (expected [A-Za-z0-9_-], len<=128): " ++ member.1)

def inputsByName (inputs : List (Bytes × Json.Tree)) (name : Bytes) : Option Json.Tree :=
  if workflowInputNameIsSafe name then (Json.Tree.object inputs).member name else none

namespace TaskOutputs

variable (json : JsonLibrary) (outputs : TaskOutputs)

def firstPass (request : Json.Tree) : Json.Tree × List ExpansionNote :=
  { json, outputs : TemplateScope }.expandTemplatesInJsonValue request

/-- The inputs of a request behind a round, as the round compares them. -/
def inputsText (request : Json.Tree) : Bytes :=
  match request.member (ascii "inputs") with
  | some (.object inputs) => json.write (.object inputs)
  | _ => []

def inputRounds : Nat → Json.Tree → Json.Tree × List ExpansionNote
  | 0, request => (request, [])
  | rounds + 1, request =>
    match request.member (ascii "inputs") with
    | none | some .null => (request, [])
    | some (.object inputs) =>
      let scope : TemplateScope := { json, outputs, inputs := some (inputsByName inputs) }
      let expanded := scope.expandTemplatesInJsonValue request
      let notes := unsafeInputNotes inputs ++ expanded.2
      if json.write (.object inputs) = inputsText json expanded.1 then (expanded.1, notes)
      else
        let further := inputRounds rounds expanded.1
        (further.1, notes ++ further.2)
    | some _ => (request, [.error (ascii "inputs must be an object")])

end TaskOutputs

structure ExpandedRequest where
  ok : Bool
  request : Json.Tree
  errors : List Bytes

def expansionErrors (notes : List ExpansionNote) : List Bytes :=
  notes.filterMap fun note =>
    match note with
    | .error text => some text
    | .read _ => none

/-- `workflow_expand_templates_for_task_request`: nothing if the JSON library throws,
because the first pass leaves a value that has no members. -/
def workflowExpandTemplatesForTaskRequest (json : JsonLibrary) (outputs : TaskOutputs)
    (request : Json.Tree) : Option ExpandedRequest :=
  if !request.isObject then some { ok := false, request, errors := [] }
  else
    let first := outputs.firstPass json request
    match first.1 with
    | .null | .object _ =>
      let expanded := outputs.inputRounds json 3 first.1
      let errors := expansionErrors (first.2 ++ expanded.2)
      some { ok := errors.isEmpty, request := expanded.1, errors }
    | _ => none

end AgentC.Workflow
