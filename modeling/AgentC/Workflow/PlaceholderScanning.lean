import AgentC.Workflow.Templates

/-! # Scanning for placeholders

A placeholder ends at the first closing brace behind its start, and no start has
a closing brace. So the text up to a closing brace and the text behind it are
scanned one after the other. -/

namespace AgentC.Workflow

variable {text : Bytes}

/-- A scan that goes on with shorter texts only is the same for all fuel that is
enough for the text. -/
theorem fueled_of_enough {Result : Type} {scan : Nat → Bytes → Result}
    (empty : ∀ fuel more, scan fuel [] = scan more []) (turn : ∀ fuel more text,
      (∀ rest : Bytes, rest.length < text.length → scan fuel rest = scan more rest) →
        scan (fuel + 1) text = scan (more + 1) text) {fuel more : Nat}
    (enough : text.length ≤ fuel) (alsoEnough : text.length ≤ more) :
    scan fuel text = scan more text := by
  induction fuel generalizing text more with
  | zero =>
    rw [List.length_eq_zero_iff.mp (Nat.le_zero.mp enough)]
    exact empty 0 more
  | succ fuel induction =>
    cases more with
    | zero =>
      rw [List.length_eq_zero_iff.mp (Nat.le_zero.mp alsoEnough)]
      exact empty (fuel + 1) 0
    | succ more =>
      apply turn
      intro rest shorter
      exact induction (by omega) (by omega)

section FirstOccurrence

variable {pattern front rest text before behind : Bytes} {mark : UInt8}

theorem splitAtFirst_eq_append (found : splitAtFirst pattern text = some (before, behind)) :
    text = before ++ pattern ++ behind := by
  induction text generalizing before behind with
  | nil => exact nomatch found
  | cons byte text induction =>
    rw [splitAtFirst] at found
    split at found
    next here =>
      rcases here with ⟨back, split⟩
      cases found
      rw [← split, List.drop_left, List.nil_append]
    next =>
      rcases Option.map_eq_some_iff.mp found with ⟨parts, later, same⟩
      cases same
      rw [induction later]
      rfl

theorem prefix_append_mark (front rest : Bytes) (absent : mark ∉ pattern) :
    pattern <+: front ++ mark :: rest ↔ pattern <+: front := by
  constructor
  · intro isFront
    rcases List.prefix_or_prefix_of_prefix isFront (List.prefix_append ..) with inFront | through
    · exact inFront
    · rcases through with ⟨back, rfl⟩
      cases back with
      | nil => rw [List.append_nil]
      | cons =>
        have isBack := (List.prefix_append_right_inj front).mp isFront
        rw [(List.cons_prefix_cons.mp isBack).1] at absent
        exact absurd (List.mem_append_right front (List.mem_cons_self ..)) absent
  · intro isFront
    exact isFront.trans (List.prefix_append front (mark :: rest))

theorem splitAtFirst_append_mark (front rest : Bytes) (absent : mark ∉ pattern)
    (nonempty : pattern ≠ []) :
    splitAtFirst pattern (front ++ mark :: rest) =
      match splitAtFirst pattern front with
      | some (before, behind) => some (before, behind ++ mark :: rest)
      | none => (splitAtFirst pattern rest).map fun parts => (front ++ mark :: parts.1, parts.2) := by
  induction front with
  | nil =>
    have elsewhere : ¬pattern <+: mark :: rest := by
      intro here
      exact nonempty (List.prefix_nil.mp ((prefix_append_mark [] rest absent).mp here))
    simp only [List.nil_append, splitAtFirst, if_neg elsewhere]
  | cons byte front induction =>
    have same := prefix_append_mark (byte :: front) rest absent
    rw [List.cons_append] at same ⊢
    rw [splitAtFirst, splitAtFirst, induction]
    by_cases here : pattern <+: byte :: front
    · rw [if_pos (same.mpr here), if_pos here]
      have short : pattern.length ≤ (byte :: front).length := here.length_le
      rw [← List.cons_append, List.drop_append_of_le_length short]
    · rw [if_neg (mt same.mp here), if_neg here]
      cases splitAtFirst pattern front with
      | none => cases splitAtFirst pattern rest <;> rfl
      | some parts => rfl

theorem splitAtFirst_mark (absent : mark ∉ front) :
    splitAtFirst [mark] (front ++ mark :: rest) = some (front, rest) := by
  induction front with
  | nil => simp [splitAtFirst]
  | cons byte front induction =>
    rw [List.mem_cons, not_or] at absent
    rcases absent with ⟨different, absent⟩
    rw [List.cons_append, splitAtFirst, induction absent, if_neg]
    · rfl
    · exact fun here => different (List.cons_prefix_cons.mp here).1

theorem splitAtFirst_mark_eq_none (absent : mark ∉ text) : splitAtFirst [mark] text = none := by
  induction text with
  | nil => rfl
  | cons byte text induction =>
    rw [List.mem_cons, not_or] at absent
    rcases absent with ⟨different, absent⟩
    rw [splitAtFirst, induction absent, if_neg]
    · rfl
    · exact fun here => different (List.cons_prefix_cons.mp here).1

theorem closedInduction {motive : Bytes → Prop} (mark : UInt8)
    (unclosed : ∀ text, mark ∉ text → motive text)
    (closed : ∀ front rest, mark ∉ front → motive rest → motive (front ++ mark :: rest)) :
    ∀ text, motive text := by
  intro text
  induction size : text.length using Nat.strong_induction_on generalizing text with
  | _ size induction =>
    by_cases occurs : mark ∈ text
    · rcases List.eq_append_cons_of_mem occurs with ⟨front, rest, rfl, absent⟩
      refine closed front rest absent (induction rest.length ?_ rest rfl)
      rw [← size, List.length_append, List.length_cons]
      omega
    · exact unclosed text occurs

end FirstOccurrence

section NextTemplate

variable {front rest text before behind : Bytes}

theorem nextTemplate_eq_append (found : nextTemplate text = some (before, behind)) :
    text = before ++ ascii "$\x7b" ++ behind := by
  have ofTask : ∀ {parts}, splitAtFirst (ascii "$\x7btask.") text = some parts →
      text = parts.1 ++ ascii "$\x7b" ++ (ascii "task." ++ parts.2) := by
    intro parts found
    rw [splitAtFirst_eq_append found, List.append_assoc, List.append_assoc]
    rfl
  have ofInput : ∀ {parts}, splitAtFirst (ascii "$\x7binput.") text = some parts →
      text = parts.1 ++ ascii "$\x7b" ++ (ascii "input." ++ parts.2) := by
    intro parts found
    rw [splitAtFirst_eq_append found, List.append_assoc, List.append_assoc]
    rfl
  rw [nextTemplate] at found
  cases task : splitAtFirst (ascii "$\x7btask.") text with
  | none =>
    cases input : splitAtFirst (ascii "$\x7binput.") text with
    | none => simp [task, input] at found
    | some parts =>
      simp only [task, input, Option.map_none, Option.map_some, Option.some.injEq,
        Prod.mk.injEq] at found
      rw [← found.1, ← found.2]
      exact ofInput input
  | some taskParts =>
    cases input : splitAtFirst (ascii "$\x7binput.") text with
    | none =>
      simp only [task, input, Option.map_none, Option.map_some, Option.some.injEq,
        Prod.mk.injEq] at found
      rw [← found.1, ← found.2]
      exact ofTask task
    | some inputParts =>
      simp only [task, input, Option.map_some] at found
      split at found
      · cases found
        exact ofInput input
      · cases found
        exact ofTask task

theorem splitAtFirst_length_lt {pattern : Bytes}
    (found : splitAtFirst pattern text = some (before, behind)) : before.length ≤ text.length := by
  rw [splitAtFirst_eq_append found, List.length_append, List.length_append]
  omega

theorem nextTemplate_closed :
    nextTemplate (front ++ 125 :: rest) =
      match nextTemplate front with
      | some (before, behind) => some (before, behind ++ 125 :: rest)
      | none => (nextTemplate rest).map fun parts => (front ++ 125 :: parts.1, parts.2) := by
  have taskSplit := splitAtFirst_append_mark front rest
    (show 125 ∉ ascii "$\x7btask." by decide) (by decide)
  have inputSplit := splitAtFirst_append_mark front rest
    (show 125 ∉ ascii "$\x7binput." by decide) (by decide)
  rw [nextTemplate, taskSplit, inputSplit, nextTemplate, nextTemplate]
  cases task : splitAtFirst (ascii "$\x7btask.") front with
  | none =>
    cases input : splitAtFirst (ascii "$\x7binput.") front with
    | none =>
      cases splitAtFirst (ascii "$\x7btask.") rest with
      | none => cases splitAtFirst (ascii "$\x7binput.") rest <;> rfl
      | some taskParts =>
        cases splitAtFirst (ascii "$\x7binput.") rest with
        | none => rfl
        | some inputParts =>
          simp only [Option.map_none, Option.map_some, List.length_append,
            List.length_cons, Nat.add_lt_add_iff_left, Nat.add_lt_add_iff_right]
          split <;> rfl
    | some inputParts =>
      have short := splitAtFirst_length_lt input
      cases splitAtFirst (ascii "$\x7btask.") rest with
      | none => simp
      | some taskParts =>
        simp only [Option.map_none, Option.map_some, List.length_append, List.length_cons]
        rw [if_pos (by omega), List.append_assoc]
  | some taskParts =>
    have short := splitAtFirst_length_lt task
    cases input : splitAtFirst (ascii "$\x7binput.") front with
    | none =>
      cases splitAtFirst (ascii "$\x7binput.") rest with
      | none => simp
      | some inputParts =>
        simp only [Option.map_none, Option.map_some, List.length_append, List.length_cons]
        rw [if_neg (by omega), List.append_assoc]
    | some inputParts =>
      simp only [Option.map_some]
      split <;> simp

theorem nextTemplate_unclosed (absent : 125 ∉ text)
    (found : nextTemplate text = some (before, behind)) :
    splitAtFirst (ascii "\x7d") behind = none := by
  refine splitAtFirst_mark_eq_none fun occurs => absent ?_
  rw [nextTemplate_eq_append found]
  exact List.mem_append_right _ occurs

theorem length_behind_template {token : Bytes} (found : nextTemplate text = some (before, behind))
    (closed : splitAtFirst (ascii "\x7d") behind = some (token, rest)) :
    rest.length < text.length := by
  rw [nextTemplate_eq_append found, splitAtFirst_eq_append closed]
  have brace : (ascii "\x7d").length = 1 := rfl
  simp only [List.length_append]
  omega

end NextTemplate

def joined (left right : Bytes × List ExpansionNote) : Bytes × List ExpansionNote :=
  (left.1 ++ right.1, left.2 ++ right.2)

namespace TemplateScope

variable (scope : TemplateScope)

/-- What becomes of a text without a closing brace in front of one. -/
def expandClosed (front : Bytes) : Bytes × List ExpansionNote :=
  match nextTemplate front with
  | none => (front ++ [125], [])
  | some (before, token) =>
    let value := scope.placeholderText token
    (before ++ value.1.getD (ascii "$\x7b" ++ token ++ ascii "\x7d"), value.2)

variable {scope}

theorem expandPromptFrom_of_enough {fuel more : Nat} (enough : text.length ≤ fuel)
    (alsoEnough : text.length ≤ more) :
    scope.expandPromptFrom fuel text = scope.expandPromptFrom more text := by
  refine fueled_of_enough ?_ ?_ enough alsoEnough
  · intro fuel more
    cases fuel <;> cases more <;> rfl
  · intro fuel more text same
    rw [expandPromptFrom, expandPromptFrom]
    split
    · rfl
    next before behind found =>
      split
      · rfl
      next token rest closed => rw [same rest (length_behind_template found closed)]

theorem expandPromptTemplates_eq (text : Bytes) :
    scope.expandPromptTemplates text =
      match nextTemplate text with
      | none => (text, [])
      | some (before, behind) =>
        match splitAtFirst (ascii "\x7d") behind with
        | none => (text, [])
        | some (token, rest) =>
          let value := scope.placeholderText token
          joined
            (before ++ value.1.getD (ascii "$\x7b" ++ token ++ ascii "\x7d"), value.2)
            (scope.expandPromptTemplates rest) := by
  have turn : scope.expandPromptTemplates text = scope.expandPromptFrom (text.length + 1) text :=
    expandPromptFrom_of_enough (le_refl _) (Nat.le_succ _)
  rw [turn, expandPromptFrom]
  cases found : nextTemplate text with
  | none => rfl
  | some parts =>
    rcases parts with ⟨before, behind⟩
    simp only
    cases closed : splitAtFirst (ascii "\x7d") behind with
    | none => rfl
    | some parts =>
      rcases parts with ⟨token, rest⟩
      have shorter : rest.length ≤ text.length := (length_behind_template found closed).le
      simp only [expandPromptFrom_of_enough shorter (le_refl rest.length)]
      rfl

theorem expandPromptTemplates_unclosed (absent : 125 ∉ text) :
    scope.expandPromptTemplates text = (text, []) := by
  rw [expandPromptTemplates_eq]
  split
  · rfl
  next before behind found => rw [nextTemplate_unclosed absent found]

theorem expandPromptTemplates_closed {front : Bytes} (absent : 125 ∉ front) (rest : Bytes) :
    scope.expandPromptTemplates (front ++ 125 :: rest) =
      joined (scope.expandClosed front) (scope.expandPromptTemplates rest) := by
  rw [expandPromptTemplates_eq, nextTemplate_closed, expandClosed]
  cases inFront : nextTemplate front with
  | some parts =>
    rcases parts with ⟨before, token⟩
    have absentToken : 125 ∉ token := by
      rw [nextTemplate_eq_append inFront] at absent
      exact fun occurs => absent (List.mem_append_right _ occurs)
    simp only [show ascii "\x7d" = [125] from rfl, splitAtFirst_mark absentToken]
  | none =>
    rw [expandPromptTemplates_eq rest]
    cases nextTemplate rest with
    | none => simp [joined]
    | some parts =>
      rcases parts with ⟨before, behind⟩
      simp only [Option.map_some]
      cases splitAtFirst (ascii "\x7d") behind with
      | none => simp [joined]
      | some parts => simp [joined]

end TemplateScope

end AgentC.Workflow
