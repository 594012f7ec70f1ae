import AgentC.Workflow.PlaceholderScanning

/-! # The placeholders of a text

Where the scan of a text finds placeholders, and what an expansion makes of the
text around one of them and around a part that no replaced placeholder reaches
into. -/

namespace AgentC.Workflow

structure Placeholder where
  front : Bytes
  token : Bytes
  back : Bytes
deriving DecidableEq

namespace Placeholder

def literal (found : Placeholder) : Bytes :=
  ascii "$\x7b" ++ found.token ++ ascii "\x7d"

def stop (found : Placeholder) : Nat :=
  found.front.length + found.literal.length

def after (front : Bytes) (found : Placeholder) : Placeholder :=
  { found with front := front ++ found.front }

def before (found : Placeholder) (back : Bytes) : Placeholder :=
  { found with back := found.back ++ back }

end Placeholder

def placeholdersFrom : Nat → Bytes → List Placeholder
  | 0, _ => []
  | fuel + 1, text =>
    match nextTemplate text with
    | none => []
    | some (front, behind) =>
      match splitAtFirst (ascii "\x7d") behind with
      | none => []
      | some (token, back) =>
        let first : Placeholder := { front, token, back }
        first :: (placeholdersFrom fuel back).map (Placeholder.after (front ++ first.literal))

def placeholders (text : Bytes) : List Placeholder :=
  placeholdersFrom text.length text

example : (placeholders (ascii "$\x7binput.x $\x7btask.a.json:\x7d $\x7binput.y\x7d")).map
    Placeholder.token = [ascii "input.x $\x7btask.a.json:", ascii "input.y"] := by
  decide

section Placeholders

variable {text front rest : Bytes}

theorem placeholdersFrom_of_enough {fuel more : Nat} (enough : text.length ≤ fuel)
    (alsoEnough : text.length ≤ more) : placeholdersFrom fuel text = placeholdersFrom more text := by
  refine fueled_of_enough ?_ ?_ enough alsoEnough
  · intro fuel more
    cases fuel <;> cases more <;> rfl
  · intro fuel more text same
    rw [placeholdersFrom, placeholdersFrom]
    split
    · rfl
    next before behind found =>
      split
      · rfl
      next token back closed => rw [same back (length_behind_template found closed)]

theorem placeholders_eq (text : Bytes) :
    placeholders text =
      match nextTemplate text with
      | none => []
      | some (front, behind) =>
        match splitAtFirst (ascii "\x7d") behind with
        | none => []
        | some (token, back) =>
          let first : Placeholder := { front, token, back }
          first :: (placeholders back).map (Placeholder.after (front ++ first.literal)) := by
  rw [placeholders, placeholdersFrom_of_enough (le_refl _) (Nat.le_succ text.length),
    placeholdersFrom]
  cases found : nextTemplate text with
  | none => rfl
  | some parts =>
    rcases parts with ⟨before, behind⟩
    simp only
    cases closed : splitAtFirst (ascii "\x7d") behind with
    | none => rfl
    | some parts =>
      rcases parts with ⟨token, back⟩
      have shorter : back.length ≤ text.length := (length_behind_template found closed).le
      simp only [placeholdersFrom_of_enough shorter (le_refl back.length)]
      rfl

theorem placeholders_unclosed (absent : 125 ∉ text) : placeholders text = [] := by
  rw [placeholders_eq]
  split
  · rfl
  next before behind found => rw [nextTemplate_unclosed absent found]

theorem placeholders_closed (absent : 125 ∉ front) (rest : Bytes) :
    placeholders (front ++ 125 :: rest) =
      ((nextTemplate front).map fun parts => (⟨parts.1, parts.2, rest⟩ : Placeholder)).toList ++
        (placeholders rest).map (Placeholder.after (front ++ [125])) := by
  rw [placeholders_eq, nextTemplate_closed]
  cases inFront : nextTemplate front with
  | some parts =>
    rcases parts with ⟨before, token⟩
    have whole := nextTemplate_eq_append inFront
    have absentToken : 125 ∉ token := by
      rw [whole] at absent
      exact fun occurs => absent (List.mem_append_right _ occurs)
    simp only [show ascii "\x7d" = [125] from rfl, splitAtFirst_mark absentToken]
    rw [whole]
    simp [Placeholder.literal, show ascii "\x7d" = [125] from rfl]
  | none =>
    rw [placeholders_eq rest]
    cases nextTemplate rest with
    | none => rfl
    | some parts =>
      rcases parts with ⟨before, behind⟩
      simp only [Option.map_some]
      cases splitAtFirst (ascii "\x7d") behind with
      | none => rfl
      | some parts =>
        simp [Placeholder.after, Placeholder.literal, Function.comp_def]

end Placeholders

namespace TemplateScope

variable {scope : TemplateScope}

def shown (scope : TemplateScope) (found : Placeholder) : Bytes :=
  (scope.placeholderText found.token).1.getD found.literal

theorem expandPromptTemplates_at {text : Bytes} {found : Placeholder}
    (member : found ∈ placeholders text) : (scope.expandPromptTemplates text).1 =
      (scope.expandPromptTemplates found.front).1 ++ scope.shown found ++
        (scope.expandPromptTemplates found.back).1 := by
  induction text using closedInduction 125 generalizing found with
  | unclosed text absent =>
    rw [placeholders_unclosed absent] at member
    exact nomatch member
  | closed front rest absent induction =>
    rw [placeholders_closed absent] at member
    rw [expandPromptTemplates_closed absent]
    rcases List.mem_append.mp member with here | later
    · rcases Option.map_eq_some_iff.mp (Option.mem_toList.mp here) with ⟨parts, next, rfl⟩
      have absentBefore : 125 ∉ parts.1 := by
        rw [nextTemplate_eq_append next] at absent
        exact fun occurs => absent (List.mem_append_left _ (List.mem_append_left _ occurs))
      rw [expandClosed, next, expandPromptTemplates_unclosed absentBefore]
      rfl
    · rcases List.mem_map.mp later with ⟨inner, there, rfl⟩
      simp only [joined, induction there, Placeholder.after]
      rw [List.append_assoc front, List.singleton_append, expandPromptTemplates_closed absent]
      simp [joined, shown, Placeholder.literal]

/-- No placeholder that is replaced reaches into a part of a text. -/
def SparesText (scope : TemplateScope) (text : Bytes) (start length : Nat) : Prop :=
  ∀ found ∈ placeholders text, (scope.placeholderText found.token).1.isSome →
    found.stop ≤ start ∨ start + length ≤ found.front.length

instance (text : Bytes) (start length : Nat) : Decidable (scope.SparesText text start length) :=
  inferInstanceAs (Decidable (∀ _ ∈ _, _))

theorem expandClosed_of_kept {segment : Bytes}
    (kept : ∀ parts ∈ nextTemplate segment, (scope.placeholderText parts.2).1 = none) :
    (scope.expandClosed segment).1 = segment ++ [125] := by
  rw [expandClosed]
  cases next : nextTemplate segment with
  | none => rfl
  | some parts =>
    rw [nextTemplate_eq_append next]
    simp [kept parts next, show ascii "\x7d" = [125] from rfl]

section Spared

variable {segment rest front part back : Bytes} {start length : Nat}

theorem SparesText.behind (spared : scope.SparesText (segment ++ 125 :: rest) start length)
    (absent : 125 ∉ segment) {found : Placeholder} (member : found ∈ placeholders rest)
    (replaced : (scope.placeholderText found.token).1.isSome) :
    segment.length + 1 + found.stop ≤ start ∨
      start + length ≤ segment.length + 1 + found.front.length := by
  have there : found.after (segment ++ [125]) ∈ placeholders (segment ++ 125 :: rest) := by
    rw [placeholders_closed absent]
    exact List.mem_append_right _ (List.mem_map_of_mem member)
  have apart := spared _ there replaced
  simp only [Placeholder.stop, Placeholder.after, Placeholder.literal, List.length_append,
    List.length_singleton] at apart ⊢
  omega

theorem part_prefix_of_spares (absent : 125 ∉ front ++ segment)
    (split : segment ++ 125 :: rest = part ++ back)
    (spared : scope.SparesText (front ++ segment ++ 125 :: rest) front.length part.length)
    (behind : ∀ later, rest = later ++ back → scope.SparesText rest 0 later.length →
      later <+: (scope.expandPromptTemplates rest).1) : front ++ part <+:
      (scope.expandClosed (front ++ segment)).1 ++ (scope.expandPromptTemplates rest).1 := by
  by_cases kept : ∀ parts ∈ nextTemplate (front ++ segment),
      (scope.placeholderText parts.2).1 = none
  · rw [expandClosed_of_kept kept, List.append_assoc, List.append_assoc,
      List.prefix_append_right_inj]
    rcases List.append_eq_append_iff.mp split with ⟨more, rfl, isMore⟩ | ⟨more, rfl, _⟩
    · rw [List.prefix_append_right_inj]
      cases more with
      | nil => exact List.nil_prefix
      | cons byte later =>
        rcases List.cons.inj isMore with ⟨rfl, isRest⟩
        refine List.cons_prefix_cons.mpr ⟨rfl, behind later isRest ?_⟩
        intro found member replaced
        have apart := spared.behind absent member replaced
        simp only [List.length_append, List.length_cons] at apart
        omega
    · rw [List.append_assoc]
      exact List.prefix_append ..
  · -- The placeholder is replaced, so that the part ends in front of it.
    push Not at kept
    rcases kept with ⟨parts, next, replaced⟩
    have found : (⟨parts.1, parts.2, rest⟩ : Placeholder) ∈
        placeholders (front ++ segment ++ 125 :: rest) := by
      rw [placeholders_closed absent, next]
      exact List.mem_append_left _ (List.mem_singleton_self _)
    have whole := nextTemplate_eq_append next
    have apart := spared _ found (Option.isSome_iff_ne_none.mpr replaced)
    have size := congrArg List.length whole
    simp only [Placeholder.stop, Placeholder.literal, List.length_append,
      show (ascii "\x7d").length = 1 from rfl] at apart size
    have partThere : front ++ part <+: front ++ segment ++ 125 :: rest := by
      rw [List.append_assoc, split]
      exact (List.prefix_append_right_inj front).mpr (List.prefix_append ..)
    have frontThere : parts.1 <+: front ++ segment ++ 125 :: rest := by
      rw [whole, List.append_assoc, List.append_assoc]
      exact List.prefix_append ..
    have inFront : front ++ part <+: parts.1 := by
      refine List.prefix_of_prefix_length_le partThere frontThere ?_
      rw [List.length_append]
      omega
    rw [expandClosed, next]
    simp only [List.append_assoc]
    exact inFront.trans (List.prefix_append ..)

end Spared

/-- A part of a text that no replaced placeholder reaches into is there behind the
expansion of the text in front of it. -/
theorem expandPromptTemplates_of_spares {text front part back : Bytes}
    (split : text = front ++ part ++ back)
    (spared : scope.SparesText text front.length part.length) :
    (scope.expandPromptTemplates front).1 ++ part <+: (scope.expandPromptTemplates text).1 := by
  induction text using closedInduction 125 generalizing front part back with
  | unclosed text absent =>
    have absentFront : 125 ∉ front := by
      rw [split] at absent
      exact fun occurs => absent (List.mem_append_left _ (List.mem_append_left _ occurs))
    rw [expandPromptTemplates_unclosed absent, expandPromptTemplates_unclosed absentFront, split]
    exact List.prefix_append ..
  | closed segment rest absent induction =>
    have inside : ∀ {more}, segment = front ++ more → more ++ 125 :: rest = part ++ back →
        (scope.expandPromptTemplates front).1 ++ part <+:
          (scope.expandPromptTemplates (segment ++ 125 :: rest)).1 := by
      rintro more rfl split
      have absentFront : 125 ∉ front := fun occurs => absent (List.mem_append_left _ occurs)
      rw [expandPromptTemplates_unclosed absentFront, expandPromptTemplates_closed absent]
      refine part_prefix_of_spares absent split spared fun later split spared => ?_
      exact @induction [] later back (by rw [split, List.nil_append]) spared
    rw [List.append_assoc] at split
    rcases List.append_eq_append_iff.mp split with ⟨more, rfl, isMore⟩ | ⟨more, isFront, isPart⟩
    · cases more with
      | nil => exact @inside [] (by simp) (by simpa using isMore)
      | cons byte more =>
        rcases List.cons.inj isMore with ⟨rfl, isRest⟩
        rw [expandPromptTemplates_closed absent, expandPromptTemplates_closed absent, joined,
          List.append_assoc]
        refine (List.prefix_append_right_inj _).mpr (@induction more part back ?_ ?_)
        · exact isRest.trans (List.append_assoc ..).symm
        · intro found member replaced
          have apart := spared.behind absent member replaced
          simp only [List.length_append, List.length_cons] at apart
          omega
    · exact inside isFront isPart.symm

end TemplateScope

end AgentC.Workflow
