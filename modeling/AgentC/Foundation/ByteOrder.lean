import AgentC.Foundation.Bytes
import Mathlib.Data.List.Sort

/-! # Orders of byte strings

The order of `memcmp` followed by the lengths, which is also the order of the
keys of a `std::set` or `std::map` of strings, and the order that compares the
lengths first. -/

namespace AgentC

def lexLE (left right : Bytes) : Prop :=
  (compare left right).isLE = true

instance : DecidableRel lexLE :=
  fun left right => inferInstanceAs (Decidable ((compare left right).isLE = true))

instance : IsTrans Bytes lexLE :=
  ⟨fun _ _ _ first second => Std.TransCmp.isLE_trans first second⟩

instance : Std.Antisymm lexLE :=
  ⟨fun _ _ first second => Std.LawfulEqCmp.eq_of_compare
    (Std.OrientedCmp.isLE_antisymm first second)⟩

instance : Std.Total lexLE :=
  ⟨fun left right => by
    have swapped := @Std.OrientedCmp.eq_swap Bytes compare _ left right
    rw [lexLE, lexLE, swapped]
    cases compare right left <;> simp [Ordering.swap]⟩

/-- Shorter strings first, strings of one length by their bytes. -/
def lengthFirstLE (left right : Bytes) : Prop :=
  left.length < right.length ∨ left.length = right.length ∧ lexLE left right

instance : DecidableRel lengthFirstLE :=
  fun left right => inferInstanceAs (Decidable
    (left.length < right.length ∨ left.length = right.length ∧ lexLE left right))

instance : IsTrans Bytes lengthFirstLE where
  trans left middle right first second := by
    rcases first with shorter | ⟨sameLength, le⟩
    · rcases second with shorterAgain | ⟨sameAgain, _⟩
      · exact .inl (shorter.trans shorterAgain)
      · exact .inl (sameAgain ▸ shorter)
    · rcases second with shorter | ⟨sameAgain, leAgain⟩
      · exact .inl (sameLength ▸ shorter)
      · exact .inr ⟨sameLength.trans sameAgain, IsTrans.trans left middle right le leAgain⟩

instance : Std.Antisymm lengthFirstLE where
  antisymm left right first second := by
    rcases first with shorter | ⟨_, le⟩
    · rcases second with longer | ⟨same, _⟩ <;> omega
    · rcases second with longer | ⟨_, ge⟩
      · omega
      · exact Std.Antisymm.antisymm left right le ge

instance : Std.Total lengthFirstLE where
  total left right := by
    rcases Nat.lt_trichotomy left.length right.length with shorter | same | longer
    · exact .inl (.inl shorter)
    · rcases Std.Total.total (r := lexLE) left right with le | ge
      · exact .inl (.inr ⟨same, le⟩)
      · exact .inr (.inr ⟨same.symm, ge⟩)
    · exact .inr (.inl longer)

def keyLE {α : Type} (le : Bytes → Bytes → Prop) (left right : Bytes × α) : Prop :=
  le left.1 right.1

section Keys

variable {α : Type} {le : Bytes → Bytes → Prop}

instance [DecidableRel le] : DecidableRel (keyLE (α := α) le) :=
  fun left right => inferInstanceAs (Decidable (le left.1 right.1))

instance [Std.Total le] : Std.Total (keyLE (α := α) le) :=
  ⟨fun left right => Std.Total.total left.1 right.1⟩

instance [IsTrans Bytes le] : IsTrans (Bytes × α) (keyLE le) :=
  ⟨fun first second third => IsTrans.trans first.1 second.1 third.1⟩

theorem eq_of_perm_of_sorted [Std.Antisymm le] {left right : List (Bytes × α)}
    (permutation : left.Perm right) (distinct : (left.map Prod.fst).Nodup)
    (leftSorted : left.Pairwise (keyLE le)) (rightSorted : right.Pairwise (keyLE le)) :
    left = right := by
  apply permutation.eq_of_pairwise _ leftSorted rightSorted
  intro first second inLeft inRight le ge
  exact List.inj_on_of_nodup_map distinct inLeft (permutation.mem_iff.mpr inRight)
    (Std.Antisymm.antisymm _ _ le ge)

variable [DecidableRel le]

/-- Members in the order of their keys; equal keys keep their order. -/
def sortByKey (le : Bytes → Bytes → Prop) [DecidableRel le] (members : List (Bytes × α)) :
    List (Bytes × α) :=
  members.insertionSort (keyLE le)

theorem perm_sortByKey (members : List (Bytes × α)) : (sortByKey le members).Perm members :=
  List.perm_insertionSort (keyLE le) members

variable {members : List (Bytes × α)}

theorem mem_sortByKey {member : Bytes × α} : member ∈ sortByKey le members ↔ member ∈ members :=
  (perm_sortByKey members).mem_iff

theorem sortByKey_map {β : Type} (change : α → β) (members : List (Bytes × α)) :
    sortByKey le (members.map fun member => (member.1, change member.2)) =
      (sortByKey le members).map fun member => (member.1, change member.2) :=
  (List.map_insertionSort (keyLE le) (keyLE le) (fun member => (member.1, change member.2)) members
    fun _ _ _ _ => Iff.rfl).symm

theorem sorted_sortByKey [Std.Total le] [IsTrans Bytes le] (members : List (Bytes × α)) :
    (sortByKey le members).Pairwise (keyLE le) :=
  List.pairwise_insertionSort (keyLE le) members

theorem sortByKey_of_sorted (sorted : members.Pairwise (keyLE le)) :
    sortByKey le members = members :=
  sorted.insertionSort_eq

theorem nodup_sortByKey (distinct : (members.map Prod.fst).Nodup) :
    ((sortByKey le members).map Prod.fst).Nodup :=
  ((perm_sortByKey members).map Prod.fst).nodup_iff.mpr distinct

/-- With distinct keys the sorted list does not depend on the order of the
members, nor on how the sort treats equal keys. -/
theorem sortByKey_unique [Std.Antisymm le] [Std.Total le] [IsTrans Bytes le]
    {left right : List (Bytes × α)} (leftDistinct : (left.map Prod.fst).Nodup)
    (rightDistinct : (right.map Prod.fst).Nodup)
    (same : ∀ member, member ∈ left ↔ member ∈ right) : sortByKey le left = sortByKey le right := by
  have unsorted : left.Perm right :=
    (List.perm_ext_iff_of_nodup leftDistinct.of_map rightDistinct.of_map).mpr same
  have permutation : (sortByKey le left).Perm (sortByKey le right) :=
    (perm_sortByKey left).trans (unsorted.trans (perm_sortByKey right).symm)
  exact eq_of_perm_of_sorted permutation (nodup_sortByKey leftDistinct) (sorted_sortByKey left)
    (sorted_sortByKey right)

end Keys

def sortedElements (elements : Finset Bytes) : List Bytes :=
  Quot.liftOn elements.val (List.insertionSort lexLE) fun left right same =>
    ((List.perm_insertionSort lexLE left).trans
      (List.Perm.trans same (List.perm_insertionSort lexLE right).symm)).eq_of_pairwise'
      (List.pairwise_insertionSort lexLE left) (List.pairwise_insertionSort lexLE right)

theorem perm_sortedElements (elements : List Bytes) (distinct : elements.Nodup) :
    (sortedElements ⟨elements, distinct⟩).Perm elements :=
  List.perm_insertionSort lexLE elements

@[simp] theorem length_sortedElements (elements : Finset Bytes) :
    (sortedElements elements).length = elements.card := by
  rcases elements with ⟨⟨elements⟩, distinct⟩
  exact (perm_sortedElements elements distinct).length_eq

theorem mem_sortedElements {elements : Finset Bytes} {element : Bytes} :
    element ∈ sortedElements elements ↔ element ∈ elements := by
  rcases elements with ⟨⟨elements⟩, distinct⟩
  exact (perm_sortedElements elements distinct).mem_iff

end AgentC
