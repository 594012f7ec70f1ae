import Mathlib.Data.List.Nodup
import Mathlib.Data.List.TakeWhile

/-! # Selections from lists

When the items of a list that are selected, up to a limit, are the first items of
the list. -/

namespace AgentC

section Selections

variable {Item : Type} {selected : Item → Bool}

/-- An item that is passed over has no selected item behind it, unless the limit
is reached in front of it. -/
def NoGap (selected : Item → Bool) (limit : Nat) (items : List Item) : Prop :=
  ∀ before skipped after, items = before ++ skipped :: after → selected skipped = false →
    limit ≤ (before.filter selected).length ∨ ∀ item ∈ after, selected item = false

theorem noGap_cons_of_selected {limit : Nat} {item : Item} {items : List Item}
    (isSelected : selected item = true) :
    NoGap selected (limit + 1) (item :: items) ↔ NoGap selected limit items := by
  constructor
  · intro noGap before skipped after parts passed
    have wider := noGap (item :: before) skipped after (congrArg (item :: ·) parts) passed
    rw [List.filter_cons_of_pos isSelected, List.length_cons] at wider
    exact wider.imp_left Nat.le_of_succ_le_succ
  · intro noGap before skipped after parts passed
    cases before with
    | nil =>
      rw [List.nil_append, List.cons.injEq] at parts
      rw [← parts.1, isSelected] at passed
      exact nomatch passed
    | cons first before =>
      rw [List.cons_append, List.cons.injEq] at parts
      rw [← parts.1, List.filter_cons_of_pos isSelected, List.length_cons]
      exact (noGap before skipped after parts.2 passed).imp_left Nat.succ_le_succ

theorem noGap_cons_of_passed {limit : Nat} {item : Item} {items : List Item}
    (passed : selected item = false) :
    NoGap selected (limit + 1) (item :: items) ↔ items.filter selected = [] := by
  rw [List.filter_eq_nil_iff]
  constructor
  · intro noGap other member isSelected
    rcases noGap [] item items rfl passed with reached | none
    · exact nomatch reached
    · exact nomatch isSelected.symm.trans (none other member)
  · intro none before skipped after parts _
    right
    intro other member
    apply Bool.eq_false_iff.mpr
    cases before with
    | nil =>
      rw [List.nil_append, List.cons.injEq] at parts
      exact none other (parts.2 ▸ member)
    | cons =>
      rw [List.cons_append, List.cons.injEq] at parts
      apply none other
      rw [parts.2]
      exact List.mem_append_right _ (List.mem_cons_of_mem _ member)

theorem take_filter_eq_take_iff (limit : Nat) (items : List Item) :
    (items.filter selected).take limit = items.take ((items.filter selected).take limit).length ↔
      NoGap selected limit items := by
  induction items generalizing limit with
  | nil =>
    refine ⟨fun _ before skipped after parts => ?_, fun _ => by simp⟩
    exact absurd parts.symm (by simp)
  | cons item items induction =>
    cases limit with
    | zero =>
      refine ⟨fun _ before skipped after _ _ => .inl (Nat.zero_le _), fun _ => by simp⟩
    | succ limit =>
      cases isSelected : selected item with
      | true =>
        rw [noGap_cons_of_selected isSelected, ← induction,
          List.filter_cons_of_pos isSelected, List.take_succ_cons, List.length_cons,
          List.take_succ_cons, List.cons.injEq]
        exact and_iff_right rfl
      | false =>
        rw [noGap_cons_of_passed isSelected, List.filter_cons_of_neg (by simp [isSelected])]
        constructor
        · intro same
          cases chosen : items.filter selected with
          | nil => rfl
          | cons first rest =>
            rw [chosen, List.take_succ_cons, List.length_cons, List.take_succ_cons,
              List.cons.injEq] at same
            have member : first ∈ items.filter selected :=
              chosen ▸ List.mem_cons_self ..
            have wanted := (List.mem_filter.mp member).2
            rw [same.1, isSelected] at wanted
            exact nomatch wanted
        · intro none
          rw [none]
          rfl

theorem eq_of_sublist_of_perm {left right items : List Item} (nodup : items.Nodup)
    (leftPart : left.Sublist items) (rightPart : right.Sublist items) (perm : left.Perm right) :
    left = right := by
  induction leftPart generalizing right with
  | slnil => exact perm.nil_eq
  | @cons left items item leftPart induction =>
    rw [List.nodup_cons] at nodup
    cases rightPart with
    | cons _ rightPart => exact induction nodup.2 rightPart perm
    | cons_cons =>
      exact absurd (leftPart.subset (perm.symm.subset (List.mem_cons_self ..))) nodup.1
  | @cons_cons left items item leftPart induction =>
    rw [List.nodup_cons] at nodup
    cases rightPart with
    | cons _ rightPart =>
      exact absurd (rightPart.subset (perm.subset (List.mem_cons_self ..))) nodup.1
    | cons_cons _ rightPart => rw [induction nodup.2 rightPart perm.cons_inv]

theorem eq_of_sublist_of_map_eq {Key : Type} {key : Item → Key} {left right items : List Item}
    (distinct : (items.map key).Nodup) (leftPart : left.Sublist items)
    (rightPart : right.Sublist items) (same : left.map key = right.map key) : left = right := by
  induction leftPart generalizing right with
  | slnil => exact (List.sublist_nil.mp rightPart).symm
  | @cons left items item leftPart induction =>
    rw [List.map_cons, List.nodup_cons] at distinct
    cases rightPart with
    | cons _ rightPart => exact induction distinct.2 rightPart same
    | cons_cons =>
      have member : key item ∈ left.map key := by
        rw [same]
        exact List.mem_cons_self ..
      exact absurd ((leftPart.map key).subset member) distinct.1
  | @cons_cons left items item leftPart induction =>
    rw [List.map_cons, List.nodup_cons] at distinct
    cases rightPart with
    | cons _ rightPart =>
      rename_i right
      have member : key item ∈ right.map key := by
        rw [← same]
        exact List.mem_cons_self ..
      exact absurd ((rightPart.map key).subset member) distinct.1
    | cons_cons _ rightPart =>
      rw [List.map_cons, List.map_cons, List.cons.injEq] at same
      rw [induction distinct.2 rightPart same.2]

/-- A part of a list and what is behind as many items make up the list exactly if
the part is in front. -/
theorem perm_append_drop_iff {part items : List Item} (nodup : items.Nodup)
    (sublist : part.Sublist items) :
    (part ++ items.drop part.length).Perm items ↔ part = items.take part.length := by
  constructor
  · intro perm
    apply eq_of_sublist_of_perm nodup sublist (List.take_sublist ..)
    apply (List.perm_append_right_iff (items.drop part.length)).mp
    rw [List.take_append_drop]
    exact perm
  · intro front
    have joined := List.take_append_drop part.length items
    rw [← front] at joined
    rw [joined]

end Selections

/-! ## First occurrences

The items of a list whose key no item in front of them has. -/

section FirstOccurrences

variable {Item Key : Type} [DecidableEq Key] {key : Item → Key}

/-- The items with a key that is not seen yet. -/
def firstsBy (key : Item → Key) : (seen : List Key) → List Item → List Item
  | _, [] => []
  | seen, item :: items =>
    if key item ∈ seen then firstsBy key seen items
    else item :: firstsBy key (key item :: seen) items

def IsFirst (key : Item → Key) (items : List Item) (item : Item) : Prop :=
  items.find? (fun other => key other = key item) = some item

instance [DecidableEq Item] (items : List Item) (item : Item) :
    Decidable (IsFirst key items item) :=
  inferInstanceAs (Decidable (_ = _))

theorem IsFirst.mem {items : List Item} {item : Item} (first : IsFirst key items item) :
    item ∈ items :=
  List.mem_of_find?_eq_some first

theorem isFirst_cons_of_ne {items : List Item} {first item : Item}
    (different : key first ≠ key item) :
    IsFirst key (first :: items) item ↔ IsFirst key items item := by
  rw [IsFirst, IsFirst, List.find?_cons_of_neg]
  rwa [decide_eq_true_iff]

theorem isFirst_cons_of_eq {items : List Item} {first item : Item}
    (same : key first = key item) : IsFirst key (first :: items) item ↔ first = item := by
  rw [IsFirst, List.find?_cons_of_pos, Option.some.injEq]
  rwa [decide_eq_true_iff]

theorem mem_firstsBy {seen : List Key} {items : List Item} {item : Item} :
    item ∈ firstsBy key seen items ↔ key item ∉ seen ∧ IsFirst key items item := by
  induction items generalizing seen with
  | nil =>
    constructor
    · intro member
      exact nomatch member
    · rintro ⟨_, first⟩
      exact nomatch first.mem
  | cons first items induction =>
    rw [firstsBy]
    by_cases known : key first ∈ seen
    · rw [if_pos known, induction]
      apply and_congr_right
      intro unseen
      have different : key first ≠ key item := fun same => unseen (same ▸ known)
      exact (isFirst_cons_of_ne different).symm
    · rw [if_neg known, List.mem_cons, induction, List.mem_cons]
      by_cases same : key first = key item
      · rw [isFirst_cons_of_eq same, ← same]
        constructor
        · rintro (here | ⟨unseen, _⟩)
          · exact ⟨known, here.symm⟩
          · exact absurd (Or.inl rfl) unseen
        · rintro ⟨_, here⟩
          exact .inl here.symm
      · rw [isFirst_cons_of_ne same]
        constructor
        · rintro (here | ⟨unseen, later⟩)
          · exact absurd (congrArg key here).symm same
          · exact ⟨fun seen => unseen (.inr seen), later⟩
        · rintro ⟨unseen, later⟩
          refine .inr ⟨?_, later⟩
          rintro (here | seen)
          · exact same here.symm
          · exact unseen seen

theorem firstsBy_append {seen : List Key} {front rest : List Item} :
    firstsBy key seen (front ++ rest) = firstsBy key seen front ++
        firstsBy key (((firstsBy key seen front).map key).reverse ++ seen) rest := by
  induction front generalizing seen with
  | nil => simp [firstsBy]
  | cons first front induction =>
    by_cases known : key first ∈ seen
    · simp [firstsBy, known, induction]
    · simp [firstsBy, known, induction]

end FirstOccurrences

end AgentC
