import AgentC.Workflow.PlaceholderScanning
import AgentC.Workflow.SubmittedDependencies

/-! # Inferred dependencies cover what an expansion reads

The collection of referenced tasks looks for placeholders of tasks only, and an
expansion also looks for those of inputs. In each part of a text that a closing
brace ends, a placeholder of a task that the expansion comes upon is the first
of its kind, so the collection has it too. -/

namespace AgentC.Workflow

namespace TemplateReference

def taskId : TemplateReference → Option Bytes
  | assistantText taskId | taskJson taskId _ => some taskId
  | _ => none

end TemplateReference

theorem referencedTaskId_eq (token : Bytes) :
    referencedTaskId token = (parseTemplateReference token).taskId.filter idIsSafe := by
  rw [referencedTaskId, parseTemplateReference]
  by_cases ofTask : ascii "task." <+: token
  · simp only [if_pos ofTask]
    split
    · rfl
    · cases splitAtFirst (ascii ".json:") (token.drop (ascii "task.").length) with
      | none => rfl
      | some parts => rfl
  · simp only [if_neg ofTask]
    split
    · split <;> rfl
    · rfl

variable {token : Bytes}

theorem referencedTaskId_of_safe {taskId : Bytes}
    (named : (parseTemplateReference token).taskId = some taskId) (safe : idIsSafe taskId = true) :
    referencedTaskId token = some taskId := by
  rw [referencedTaskId_eq, named, Option.filter_some, if_pos safe]

theorem prefix_of_taskId {taskId : Bytes}
    (named : (parseTemplateReference token).taskId = some taskId) : ascii "task." <+: token := by
  by_contra other
  simp only [parseTemplateReference, if_neg other] at named
  split at named
  · split at named <;> exact nomatch named
  · exact nomatch named

namespace TemplateScope

variable {scope : TemplateScope} {taskId : Bytes}

theorem taskId_of_placeholder_read (read : .read taskId ∈ (scope.placeholderText token).2) :
    (parseTemplateReference token).taskId = some taskId := by
  rw [placeholderText] at read
  split at read
  next parsed =>
    split at read
    · exact nomatch read
    · cases List.mem_singleton.mp read
      rw [parsed]
      rfl
  next parsed =>
    split at read
    · exact nomatch read
    · cases List.mem_singleton.mp read
      rw [parsed]
      rfl
  all_goals exact nomatch read

theorem taskId_of_reference_read {allowUnresolved : Bool} {reference : Bytes}
    (read : .read taskId ∈ (scope.resolveReference allowUnresolved reference).2) :
    (parseTemplateReference reference).taskId = some taskId := by
  rw [resolveReference] at read
  cases parsed : parseTemplateReference reference with
  | assistantText named =>
    simp only [parsed] at read
    split at read
    · exact nomatch read
    · cases List.mem_singleton.mp read
      rfl
  | taskJson =>
    simp only [parsed] at read
    split at read
    · exact nomatch read
    · split at read <;>
      · cases List.mem_singleton.mp read
        rfl
  | inputJson =>
    cases inputs : scope.inputs with
    | none =>
      simp only [parsed, inputs] at read
      exact absurd read List.not_mem_nil
    | some values =>
      simp only [parsed, inputs] at read
      split at read
      · exact nomatch read
      · split at read <;> exact nomatch read
  | input name =>
    cases inputs : scope.inputs with
    | none =>
      simp only [parsed, inputs] at read
      exact absurd read List.not_mem_nil
    | some values =>
      simp only [parsed, inputs] at read
      split at read <;> exact nomatch read
  | invalid =>
    simp only [parsed] at read
    exact absurd read List.not_mem_nil
  | foreign =>
    simp only [parsed] at read
    exact absurd read List.not_mem_nil

end TemplateScope

section Tokens

variable {front rest text : Bytes}

theorem templateTokens_of_enough {fuel more : Nat} (enough : text.length ≤ fuel)
    (alsoEnough : text.length ≤ more) : templateTokens fuel text = templateTokens more text := by
  refine fueled_of_enough ?_ ?_ enough alsoEnough
  · intro fuel more
    cases fuel <;> cases more <;> rfl
  · intro fuel more text same
    rw [templateTokens, templateTokens]
    split
    · rfl
    next before behind found =>
      split
      · rfl
      next token rest closed =>
        have started := congrArg List.length (splitAtFirst_eq_append found)
        have ended := congrArg List.length (splitAtFirst_eq_append closed)
        have start : (ascii "$\x7btask.").length = 7 := rfl
        simp only [List.length_append] at started ended
        rw [same rest (by omega)]

def tokensOf (text : Bytes) : List Bytes :=
  templateTokens text.length text

theorem tokensOf_eq (text : Bytes) :
    tokensOf text =
      match splitAtFirst (ascii "$\x7btask.") text with
      | none => []
      | some (_, behind) =>
        match splitAtFirst (ascii "\x7d") behind with
        | none => []
        | some (token, rest) => (ascii "task." ++ token) :: tokensOf rest := by
  rw [tokensOf, templateTokens_of_enough (le_refl _) (Nat.le_succ text.length), templateTokens]
  cases found : splitAtFirst (ascii "$\x7btask.") text with
  | none => rfl
  | some parts =>
    rcases parts with ⟨before, behind⟩
    simp only
    cases closed : splitAtFirst (ascii "\x7d") behind with
    | none => rfl
    | some parts =>
      rcases parts with ⟨token, rest⟩
      have started := congrArg List.length (splitAtFirst_eq_append found)
      have ended := congrArg List.length (splitAtFirst_eq_append closed)
      simp only [List.length_append] at started ended
      have shorter : rest.length ≤ text.length := by omega
      simp only [templateTokens_of_enough shorter (le_refl rest.length)]
      rfl

theorem tokensOf_closed (absent : 125 ∉ front) (rest : Bytes) :
    tokensOf (front ++ 125 :: rest) =
      ((splitAtFirst (ascii "$\x7btask.") front).map fun parts =>
        ascii "task." ++ parts.2).toList ++ tokensOf rest := by
  have split := splitAtFirst_append_mark front rest
    (show 125 ∉ ascii "$\x7btask." by decide) (by decide)
  rw [tokensOf_eq, split]
  cases inFront : splitAtFirst (ascii "$\x7btask.") front with
  | some parts =>
    rcases parts with ⟨before, token⟩
    have absentToken : 125 ∉ token := by
      rw [splitAtFirst_eq_append inFront] at absent
      exact fun occurs => absent (List.mem_append_right _ occurs)
    simp only [show ascii "\x7d" = [125] from rfl, splitAtFirst_mark absentToken]
    rfl
  | none =>
    rw [tokensOf_eq rest]
    cases splitAtFirst (ascii "$\x7btask.") rest with
    | none => rfl
    | some parts => rfl

theorem splitAtFirst_of_nextTemplate {before token : Bytes}
    (found : nextTemplate text = some (before, token)) (ofTask : ascii "task." <+: token) :
    (splitAtFirst (ascii "$\x7btask.") text).map (fun parts => ascii "task." ++ parts.2) =
      some token := by
  have notInput : ∀ behind, token ≠ ascii "input." ++ behind := by
    rintro behind rfl
    exact absurd (List.cons_prefix_cons.mp ofTask).1 (by decide)
  rw [nextTemplate] at found
  cases task : splitAtFirst (ascii "$\x7btask.") text with
  | none =>
    rw [task] at found
    rcases Option.map_eq_some_iff.mp found with ⟨parts, _, same⟩
    exact absurd (congrArg Prod.snd same).symm (notInput parts.2)
  | some taskParts =>
    cases input : splitAtFirst (ascii "$\x7binput.") text with
    | none =>
      rw [task, input] at found
      exact congrArg (Option.map Prod.snd) found
    | some inputParts =>
      simp only [task, input, Option.map_some] at found
      split at found
      · cases found
        exact absurd rfl (notInput inputParts.2)
      · exact congrArg (Option.map Prod.snd) found

end Tokens

namespace TemplateScope

variable {scope : TemplateScope} {taskId : Bytes}

theorem token_of_text_read {text : Bytes}
    (read : .read taskId ∈ (scope.expandPromptTemplates text).2) :
    ∃ token ∈ tokensOf text, (parseTemplateReference token).taskId = some taskId := by
  induction text using closedInduction 125 with
  | unclosed text absent =>
    rw [expandPromptTemplates_unclosed absent] at read
    cases read
  | closed front rest absent induction =>
    rw [expandPromptTemplates_closed absent] at read
    rw [tokensOf_closed absent]
    rcases List.mem_append.mp read with inFront | behind
    · rw [expandClosed] at inFront
      split at inFront
      · cases inFront
      next before token found =>
        have named := taskId_of_placeholder_read inFront
        have here := splitAtFirst_of_nextTemplate found (prefix_of_taskId named)
        refine ⟨token, List.mem_append_left _ ?_, named⟩
        rw [here]
        exact List.mem_singleton_self token
    · rcases induction behind with ⟨token, member, named⟩
      exact ⟨token, List.mem_append_right _ member, named⟩

variable (scope taskId) in
/-- What an expansion of a value reads is referenced in the value. -/
def ReadsReferenced (value : Json.Tree) : Prop :=
  ∀ allowUnresolved, .read taskId ∈ (scope.expandValue allowUnresolved value).2 →
    taskId ∈ referencedTaskIds value

variable (allowUnresolved : Bool)

theorem mem_referencedInItems {items : List Json.Tree}
    (induction : ∀ item ∈ items, scope.ReadsReferenced taskId item)
    (read : .read taskId ∈ (scope.expandItems allowUnresolved items).2) :
    taskId ∈ referencedInItems items := by
  induction items with
  | nil => exact nomatch read
  | cons item items itemsInduction =>
    rcases List.forall_mem_cons.mp induction with ⟨ofItem, ofItems⟩
    rcases List.mem_append.mp read with inItem | inItems
    · exact List.mem_append_left _ (ofItem allowUnresolved inItem)
    · exact List.mem_append_right _ (itemsInduction ofItems inItems)

variable {members : List (Bytes × Json.Tree)}

theorem mem_referencedInMembers
    (induction : ∀ member ∈ members, scope.ReadsReferenced taskId member.2)
    (read : .read taskId ∈ (scope.expandMembers allowUnresolved members).2) :
    taskId ∈ referencedInMembers members := by
  induction members with
  | nil => exact nomatch read
  | cons member members membersInduction =>
    rcases List.forall_mem_cons.mp induction with ⟨ofMember, ofMembers⟩
    rcases List.mem_append.mp read with inMember | inMembers
    · exact List.mem_append_left _ (ofMember _ inMember)
    · exact List.mem_append_right _ (membersInduction ofMembers inMembers)

theorem referenceText_eq_some {text : Bytes} (reference : referenceText members = some text) :
    members = [(ascii "$ref", .string text)] := by
  rw [referenceText.eq_def] at reference
  split at reference
  · split at reference
    next here => rw [here, Option.some.inj reference]
    · exact nomatch reference
  · exact nomatch reference

theorem readsReferenced (safe : idIsSafe taskId = true) (value : Json.Tree) :
    scope.ReadsReferenced taskId value := by
  induction value using Json.Tree.inductionOn with
  | null => exact fun _ read => nomatch read
  | bool value => exact fun _ read => nomatch read
  | number token => exact fun _ read => nomatch read
  | string text =>
    intro _ read
    rcases token_of_text_read read with ⟨token, member, named⟩
    exact List.mem_filterMap.mpr ⟨token, member, referencedTaskId_of_safe named safe⟩
  | array items induction =>
    exact fun allowUnresolved read => mem_referencedInItems allowUnresolved induction read
  | object members induction =>
    intro allowUnresolved read
    simp only [expandValue] at read
    split at read
    next text reference =>
      have named : (parseTemplateReference (trimCopy text)).taskId = some taskId := by
        refine @taskId_of_reference_read scope taskId allowUnresolved _ ?_
        split at read
        · exact read
        · exact read
        · simpa using read
      rw [referenceText_eq_some reference, referencedTaskIds]
      refine List.mem_append_left _ ?_
      simp [referencedTaskId_of_safe named safe]
    next =>
      exact List.mem_append_right _ (mem_referencedInMembers allowUnresolved induction read)

end TemplateScope

/-- Every task with a safe identifier whose stored output the first pass reads is among
the tasks that are inferred from the request. -/
theorem first_pass_reads_inferred (json : JsonLibrary) (outputs : TaskOutputs)
    (request : Json.Tree) (taskId : Bytes)
    (read : .read taskId ∈ (outputs.firstPass json request).2) (safe : idIsSafe taskId = true) :
    taskId ∈ referencedTaskIds request :=
  TemplateScope.readsReferenced safe request false read

theorem first_pass_reads_inferred_of_prompt :
    ascii "a" ∈ referencedTaskIds (.object [(ascii "prompt",
      .string (ascii "$\x7binput.x $\x7btask.b.json:\x7d $\x7btask.a.assistant_text\x7d"))]) :=
  first_pass_reads_inferred sampleLibrary ⟨fun _ => some [], fun _ => none⟩ _ _
    (by decide) (by decide)

end AgentC.Workflow
