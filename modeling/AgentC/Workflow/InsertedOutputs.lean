import AgentC.Workflow.InferredReads
import AgentC.Workflow.Placeholders

/-! # Task outputs in an expanded request

The first pass puts the outputs of tasks into the request and does not look at
them again. The rounds for the inputs look at the whole request, the outputs in
it included. -/

namespace AgentC.Workflow

open Json (Tree Step)

def referenceOf (tree : Tree) : Option Bytes :=
  match tree with
  | .object members => referenceText members
  | _ => none

def allowedBehind (allowUnresolved : Bool) (step : Step) : Bool :=
  allowUnresolved || step == .member (ascii "inputs")

def allowedAt (allowUnresolved : Bool) (place : List Step) : Bool :=
  place.foldl allowedBehind allowUnresolved

/-- No reference is on the way to a place. -/
def Walked : List Step → Tree → Prop
  | [], _ => True
  | step :: place, tree =>
    referenceOf tree = none ∧ ∀ inner, tree.part step = some inner → Walked place inner

namespace ReferenceOutcome

def isKept : ReferenceOutcome → Bool
  | kept => true
  | _ => false

end ReferenceOutcome

namespace TemplateScope

variable {scope : TemplateScope}

variable (allowUnresolved : Bool) {members : List (Bytes × Tree)} {tree : Tree} {place : List Step}
variable {text : Bytes}

theorem expandItems_eq_map (items : List Tree) :
    (scope.expandItems allowUnresolved items).1 =
      items.map fun item => (scope.expandValue allowUnresolved item).1 := by
  induction items with
  | nil => rfl
  | cons item items induction => rw [expandItems, induction, List.map_cons]

theorem allowedBehind_member (key : Bytes) :
    allowedBehind allowUnresolved (.member key) = (allowUnresolved || key == ascii "inputs") := by
  rw [allowedBehind, Bool.eq_iff_iff]
  simp only [Bool.or_eq_true, beq_iff_eq, Step.member.injEq]

theorem expandMembers_eq_map (members : List (Bytes × Tree)) :
    (scope.expandMembers allowUnresolved members).1 = members.map fun member =>
      (member.1, (scope.expandValue (allowedBehind allowUnresolved (.member member.1))
        member.2).1) := by
  induction members with
  | nil => rfl
  | cons member members induction =>
    rw [expandMembers, induction, List.map_cons, allowedBehind_member]

theorem expandValue_object (plain : referenceText members = none) :
    (scope.expandValue allowUnresolved (.object members)).1 =
      .object (scope.expandMembers allowUnresolved members).1 := by
  simp only [expandValue, plain]

theorem part_expandValue (plain : referenceOf tree = none) (step : Step) :
    (scope.expandValue allowUnresolved tree).1.part step =
      (tree.part step).map fun inner =>
        (scope.expandValue (allowedBehind allowUnresolved step) inner).1 := by
  cases tree with
  | array items =>
    cases step with
    | member key => rfl
    | item index =>
      have same : allowedBehind allowUnresolved (.item index) = allowUnresolved := by
        simp [allowedBehind]
      simp only [expandValue, Tree.part, expandItems_eq_map, List.getElem?_map, same]
  | object members =>
    rw [expandValue_object allowUnresolved plain, expandMembers_eq_map]
    cases step with
    | item index => rfl
    | member key =>
      simp only [Tree.part, Tree.member, List.find?_map, Option.map_map, Function.comp_def]
      cases found : members.find? fun member => decide (member.1 = key) with
      | none => rfl
      | some member =>
        have here := List.find?_some found
        rw [Option.map_some, Option.map_some, of_decide_eq_true here]
  | _ => cases step <;> rfl

theorem locate_expandValue (walked : Walked place tree) :
    (scope.expandValue allowUnresolved tree).1.locate place =
      (tree.locate place).map fun inner =>
        (scope.expandValue (allowedAt allowUnresolved place) inner).1 := by
  induction place generalizing tree allowUnresolved with
  | nil => rfl
  | cons step place induction =>
    rcases walked with ⟨plain, walked⟩
    rw [Tree.locate, Tree.locate, part_expandValue allowUnresolved plain]
    cases inner : tree.part step with
    | none => rfl
    | some inside => exact induction _ (walked inside inner)

theorem referenceOf_expandValue {inside : Tree} {step : Step} (plain : referenceOf tree = none)
    (inner : tree.part step = some inside)
    (noText : ∀ text, (scope.expandValue (allowedBehind allowUnresolved step) inside).1 =
      .string text → ∃ before, inside = .string before) :
    referenceOf (scope.expandValue allowUnresolved tree).1 = none := by
  rcases Tree.array_or_object_of_part inner with ⟨items, rfl⟩ | ⟨members, rfl⟩
  · rfl
  · rw [expandValue_object allowUnresolved plain, expandMembers_eq_map]
    cases reference : referenceText (members.map _) with
    | none => exact reference
    | some text =>
      have single := referenceText_eq_some reference
      rcases List.map_eq_singleton_iff.mp single with ⟨⟨key, value⟩, rfl, same⟩
      rcases Prod.mk.inj same with ⟨rfl, isText⟩
      cases step with
      | item index => cases inner
      | member key =>
        simp only [Tree.part, Tree.member, List.find?_cons, List.find?_nil] at inner
        split at inner
        next here =>
          cases inner
          rw [← of_decide_eq_true here] at noText
          rcases noText text isText with ⟨before, rfl⟩
          rw [referenceOf, referenceText, if_pos rfl] at plain
          cases plain
        · cases inner

theorem walked_expandValue (walked : Walked place tree)
    (located : tree.locate place = some (.string text)) :
    Walked place (scope.expandValue allowUnresolved tree).1 := by
  induction place generalizing tree allowUnresolved with
  | nil => trivial
  | cons step place induction =>
    rcases walked with ⟨plain, walked⟩
    rcases Option.bind_eq_some_iff.mp located with ⟨inside, inner, located⟩
    refine ⟨referenceOf_expandValue allowUnresolved plain inner fun shown isText => ?_, ?_⟩
    · cases place with
      | nil => exact ⟨text, Option.some.inj located⟩
      | cons =>
        rcases Option.bind_eq_some_iff.mp located with ⟨deeper, within, _⟩
        have plainInside := (walked inside inner).1
        rcases Tree.array_or_object_of_part within with ⟨items, rfl⟩ | ⟨members, rfl⟩
        · exact nomatch isText
        · rw [expandValue_object _ plainInside] at isText
          exact nomatch isText
    · intro expanded isExpanded
      rw [part_expandValue allowUnresolved plain, inner] at isExpanded
      cases isExpanded
      exact induction _ (walked inside inner) located

mutual

/-- Neither a placeholder nor a reference in a value is replaced. -/
def SparesValue (scope : TemplateScope) (allowUnresolved : Bool) : Tree → Prop
  | .string text => ∀ found ∈ placeholders text, (scope.placeholderText found.token).1 = none
  | .array items => scope.SparesItems allowUnresolved items
  | .object members =>
    match referenceText members with
    | some text => (scope.resolveReference allowUnresolved (trimCopy text)).1.isKept
    | none => scope.SparesMembers allowUnresolved members
  | _ => True

def SparesItems (scope : TemplateScope) (allowUnresolved : Bool) : List Tree → Prop
  | [] => True
  | item :: rest =>
    scope.SparesValue allowUnresolved item ∧ scope.SparesItems allowUnresolved rest

def SparesMembers (scope : TemplateScope) (allowUnresolved : Bool) : List (Bytes × Tree) → Prop
  | [] => True
  | member :: rest =>
    scope.SparesValue (allowUnresolved || member.1 == ascii "inputs") member.2 ∧
      scope.SparesMembers allowUnresolved rest

end

theorem expandPromptTemplates_of_no_placeholder
    (kept : ∀ found ∈ placeholders text, (scope.placeholderText found.token).1 = none) :
    (scope.expandPromptTemplates text).1 = text := by
  induction text using closedInduction 125 with
  | unclosed text absent => rw [expandPromptTemplates_unclosed absent]
  | closed front rest absent induction =>
    rw [placeholders_closed absent] at kept
    rw [expandPromptTemplates_closed absent, joined, expandClosed_of_kept, induction]
    · rw [List.append_assoc, List.singleton_append]
    · exact fun found member =>
        kept (found.after (front ++ [125]))
          (List.mem_append_right _ (List.mem_map_of_mem member))
    · intro parts next
      exact kept ⟨parts.1, parts.2, rest⟩ (List.mem_append_left _
        (Option.mem_toList.mpr (Option.map_eq_some_iff.mpr ⟨parts, next, rfl⟩)))

theorem expandItems_of_spares {items : List Tree} {allowUnresolved : Bool}
    (induction : ∀ item ∈ items, ∀ allowUnresolved, scope.SparesValue allowUnresolved item →
      (scope.expandValue allowUnresolved item).1 = item)
    (spared : scope.SparesItems allowUnresolved items) :
    (scope.expandItems allowUnresolved items).1 = items := by
  induction items with
  | nil => rfl
  | cons item items itemsInduction =>
    rcases List.forall_mem_cons.mp induction with ⟨ofItem, ofItems⟩
    simp only [expandItems, ofItem _ spared.1, itemsInduction ofItems spared.2]

theorem expandMembers_of_spares {allowUnresolved : Bool}
    (induction : ∀ member ∈ members, ∀ allowUnresolved, scope.SparesValue allowUnresolved member.2 →
        (scope.expandValue allowUnresolved member.2).1 = member.2)
    (spared : scope.SparesMembers allowUnresolved members) :
    (scope.expandMembers allowUnresolved members).1 = members := by
  induction members with
  | nil => rfl
  | cons member members membersInduction =>
    rcases List.forall_mem_cons.mp induction with ⟨ofMember, ofMembers⟩
    simp only [expandMembers, ofMember _ spared.1, membersInduction ofMembers spared.2]

theorem expandValue_of_kept {allowUnresolved : Bool} (reference : referenceText members = some text)
    (kept : (scope.resolveReference allowUnresolved (trimCopy text)).1.isKept = true) :
    (scope.expandValue allowUnresolved (.object members)).1 = .object members := by
  simp only [expandValue, reference]
  cases resolved : (scope.resolveReference allowUnresolved (trimCopy text)).1 with
  | kept => rfl
  | replaced value =>
    rw [resolved] at kept
    cases kept
  | failed error =>
    rw [resolved] at kept
    cases kept

theorem expandValue_of_spares (value : Tree) :
    ∀ allowUnresolved, scope.SparesValue allowUnresolved value →
      (scope.expandValue allowUnresolved value).1 = value := by
  induction value using Json.Tree.inductionOn with
  | null => exact fun _ _ => rfl
  | bool value => exact fun _ _ => rfl
  | number token => exact fun _ _ => rfl
  | string text =>
    intro allowUnresolved spared
    rw [expandValue, expandPromptTemplates_of_no_placeholder spared]
  | array items induction =>
    intro allowUnresolved spared
    rw [expandValue, expandItems_of_spares induction spared]
  | object members induction =>
    intro allowUnresolved spared
    rw [SparesValue] at spared
    split at spared
    next text reference => exact expandValue_of_kept reference spared
    next plain =>
      rw [expandValue_object allowUnresolved plain, expandMembers_of_spares induction spared]

def SparesAt (scope : TemplateScope) : Bool → List Step → Tree → Prop
  | allowUnresolved, [], tree => scope.SparesValue allowUnresolved tree
  | allowUnresolved, step :: place, tree =>
    match referenceOf tree with
    | some text => (scope.resolveReference allowUnresolved (trimCopy text)).1.isKept
    | none =>
      ∀ inner, tree.part step = some inner →
        scope.SparesAt (allowedBehind allowUnresolved step) place inner

theorem locate_of_sparesAt {value : Tree} {allowUnresolved : Bool}
    (spared : scope.SparesAt allowUnresolved place tree)
    (located : tree.locate place = some value) :
    (scope.expandValue allowUnresolved tree).1.locate place = some value := by
  induction place generalizing tree allowUnresolved with
  | nil =>
    rw [expandValue_of_spares tree allowUnresolved spared]
    exact located
  | cons step place induction =>
    rw [SparesAt] at spared
    split at spared
    next text reference =>
      cases tree with
      | object members =>
        rw [expandValue_of_kept reference spared]
        exact located
      | _ => exact nomatch reference
    next plain =>
      rcases Option.bind_eq_some_iff.mp located with ⟨inside, inner, located⟩
      rw [Tree.locate, part_expandValue allowUnresolved plain, inner]
      exact induction (spared inside inner) located

end TemplateScope

end AgentC.Workflow
