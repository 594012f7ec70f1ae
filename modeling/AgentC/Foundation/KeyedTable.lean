import Mathlib.Algebra.Order.BigOperators.Group.List
import Mathlib.Algebra.Order.Ring.Int
import Mathlib.Data.List.Nodup

/-! # Tables of rows with a key

Rows of a table as a list in which no key occurs twice, what updates of single
rows do to counts and sums over it, and inserting a row where a stored row with
its key is merged with it. -/

namespace AgentC

section KeyedTable

variable {Row Key : Type} {key : Row → Key} {rows : List Row}

theorem map_key_map {update : Row → Row} (keeps : ∀ row, key (update row) = key row)
    (rows : List Row) : (rows.map update).map key = rows.map key := by
  rw [List.map_map]
  exact List.map_congr_left fun row _ => keeps row

theorem countP_map_le {counted : Row → Bool} {update : Row → Row}
    (shrinks : ∀ row ∈ rows, counted (update row) = true → counted row = true) :
    (rows.map update).countP counted ≤ rows.countP counted := by
  rw [List.countP_map]
  exact List.countP_mono_left shrinks

theorem countP_or_le (left right : Row → Bool) :
    rows.countP (fun row => left row || right row) ≤ rows.countP left + rows.countP right := by
  induction rows with
  | nil => exact Nat.le_refl 0
  | cons row rows induction =>
    simp only [List.countP_cons]
    cases left row <;> cases right row <;> simp <;> omega

theorem countP_key_le_one [DecidableEq Key] (unique : (rows.map key).Nodup) (sought : Key) :
    rows.countP (fun row => key row = sought) ≤ 1 := by
  have counted : rows.countP (fun row => key row = sought) = (rows.map key).count sought := by
    rw [List.count, List.countP_map]
    congr 1
  rw [counted]
  exact List.nodup_iff_count_le_one.mp unique sought

theorem countP_map_le_succ [DecidableEq Key] {counted : Row → Bool} {update : Row → Row}
    (unique : (rows.map key).Nodup) (sought : Key)
    (single : ∀ row ∈ rows, counted (update row) = true → counted row = true ∨ key row = sought) :
    (rows.map update).countP counted ≤ rows.countP counted + 1 := by
  calc (rows.map update).countP counted
      = rows.countP (counted ∘ update) := List.countP_map
    _ ≤ rows.countP (fun row => counted row || key row = sought) := by
        apply List.countP_mono_left
        intro row member grows
        rcases single row member grows with before | here
        · rw [before, Bool.true_or]
        · rw [decide_eq_true here, Bool.or_true]
    _ ≤ rows.countP counted + rows.countP (fun row => key row = sought) := countP_or_le _ _
    _ ≤ rows.countP counted + 1 := Nat.add_le_add_left (countP_key_le_one unique sought) _

theorem sum_map_add_le {before after : Row → Int} {row : Row} {growth : Int}
    (grows : ∀ row ∈ rows, before row ≤ after row) (member : row ∈ rows)
    (here : before row + growth ≤ after row) :
    (rows.map before).sum + growth ≤ (rows.map after).sum := by
  induction rows with
  | nil => exact nomatch member
  | cons first rows induction =>
    have others := fun row there => grows row (List.mem_cons_of_mem first there)
    have firstGrows := grows first (List.mem_cons_self ..)
    rw [List.map_cons, List.map_cons, List.sum_cons, List.sum_cons]
    rcases List.mem_cons.mp member with same | later
    · subst same
      have rest := List.sum_le_sum others
      omega
    · have rest := induction others later
      omega

end KeyedTable

section Upsert

variable {Row Key : Type} [DecidableEq Key] (key : Row → Key)

def lookupBy (sought : Key) (rows : List Row) : Option Row :=
  rows.find? fun row => key row = sought

def upsertBy (merge : Row → Row → Row) (row : Row) (rows : List Row) : List Row :=
  if rows.any fun stored => key stored = key row then
    rows.map fun stored => if key stored = key row then merge stored row else stored
  else rows ++ [row]

variable {key} {merge : Row → Row → Row} {row stored : Row} {rows : List Row} {sought : Key}

theorem key_of_lookupBy (found : lookupBy key sought rows = some row) : key row = sought := by
  have holds := List.find?_some found
  exact of_decide_eq_true holds

theorem mem_of_lookupBy (found : lookupBy key sought rows = some row) : row ∈ rows :=
  List.mem_of_find?_eq_some found

theorem lookupBy_eq_none : lookupBy key sought rows = none ↔ ∀ row ∈ rows, key row ≠ sought := by
  rw [lookupBy, List.find?_eq_none]
  exact forall₂_congr fun row _ => not_congr decide_eq_true_iff

theorem lookupBy_isSome_of_mem (member : row ∈ rows) :
    ∃ stored, lookupBy key (key row) rows = some stored := by
  cases found : lookupBy key (key row) rows with
  | none => exact absurd rfl (lookupBy_eq_none.mp found row member)
  | some stored => exact ⟨stored, rfl⟩

theorem lookupBy_of_mem (unique : (rows.map key).Nodup) (member : row ∈ rows) :
    lookupBy key (key row) rows = some row := by
  have present : ∃ stored, lookupBy key (key row) rows = some stored :=
    lookupBy_isSome_of_mem member
  rcases present with ⟨stored, found⟩
  have same := List.inj_on_of_nodup_map unique (mem_of_lookupBy found) member
    (key_of_lookupBy found)
  rw [found, same]

theorem lookupBy_cons (first : Row) :
    lookupBy key sought (first :: rows) =
      if key first = sought then some first else lookupBy key sought rows := by
  rw [lookupBy, List.find?_cons]
  by_cases here : key first = sought
  · rw [if_pos here, decide_eq_true here]
  · rw [if_neg here, decide_eq_false here]
    rfl

theorem lookupBy_append (front rest : List Row) :
    lookupBy key sought (front ++ rest) = (lookupBy key sought front).or (lookupBy key sought rest) :=
  List.find?_append

theorem lookupBy_filter (keep : Key → Bool) :
    lookupBy key sought (rows.filter fun row => keep (key row)) =
      if keep sought then lookupBy key sought rows else none := by
  induction rows with
  | nil => cases keep sought <;> rfl
  | cons first rows induction =>
    rw [List.filter_cons, lookupBy_cons]
    by_cases here : key first = sought
    · rw [if_pos here, here]
      cases kept : keep sought with
      | true => rw [if_pos rfl, lookupBy_cons, if_pos here, if_pos rfl]
      | false =>
        rw [kept] at induction
        exact induction
    · rw [if_neg here, ← induction]
      split
      · rw [lookupBy_cons, if_neg here]
      · rfl

theorem lookupBy_map_of_ne {update : Row → Row} (keeps : ∀ row, key (update row) = key row)
    (untouched : ∀ row, key row = sought → update row = row) :
    lookupBy key sought (rows.map update) = lookupBy key sought rows := by
  induction rows with
  | nil => rfl
  | cons first rows induction =>
    rw [List.map_cons, lookupBy_cons, lookupBy_cons, keeps, induction]
    by_cases here : key first = sought
    · rw [if_pos here, if_pos here, untouched first here]
    · rw [if_neg here, if_neg here]

theorem lookupBy_map {update : Row → Row} (keeps : ∀ row, key (update row) = key row) :
    lookupBy key sought (rows.map update) = (lookupBy key sought rows).map update := by
  induction rows with
  | nil => rfl
  | cons first rows induction =>
    rw [List.map_cons, lookupBy_cons, lookupBy_cons, keeps, induction]
    by_cases here : key first = sought
    · rw [if_pos here, if_pos here]
      rfl
    · rw [if_neg here, if_neg here]

section Merging

variable (keeps : ∀ stored row, key stored = key row → key (merge stored row) = key stored)

include keeps

theorem key_merged (stored row : Row) :
    key (if key stored = key row then merge stored row else stored) = key stored := by
  split
  · next same => exact keeps stored row same
  · rfl

theorem lookupBy_upsertBy_of_ne (other : sought ≠ key row) :
    lookupBy key sought (upsertBy key merge row rows) = lookupBy key sought rows := by
  rw [upsertBy]
  split
  · apply lookupBy_map_of_ne fun stored => key_merged keeps stored row
    intro stored here
    exact if_neg fun same => other (here.symm.trans same)
  · rw [lookupBy_append, lookupBy_cons, if_neg other.symm]
    cases lookupBy key sought rows <;> rfl

theorem lookupBy_upsertBy_self :
    lookupBy key (key row) (upsertBy key merge row rows) =
      some (((lookupBy key (key row) rows).map fun stored => merge stored row).getD row) := by
  rw [upsertBy]
  split
  · next present =>
    rcases List.any_eq_true.mp present with ⟨stored, member, same⟩
    have present : ∃ first, lookupBy key (key stored) rows = some first :=
      lookupBy_isSome_of_mem member
    rcases present with ⟨first, found⟩
    rw [of_decide_eq_true same] at found
    rw [lookupBy_map fun stored => key_merged keeps stored row, found]
    exact congrArg some (if_pos (key_of_lookupBy found))
  · next absent =>
    have missing : lookupBy key (key row) rows = none := by
      apply lookupBy_eq_none.mpr
      intro stored member same
      exact absent (List.any_eq_true.mpr ⟨stored, member, decide_eq_true same⟩)
    rw [lookupBy_append, missing, lookupBy_cons, if_pos rfl]
    rfl

theorem nodup_upsertBy (unique : (rows.map key).Nodup) :
    ((upsertBy key merge row rows).map key).Nodup := by
  rw [upsertBy]
  split
  · rw [map_key_map fun stored => key_merged keeps stored row]
    exact unique
  · next absent =>
    rw [List.map_append, List.map_singleton, List.nodup_append]
    refine ⟨unique, List.nodup_singleton _, ?_⟩
    intro left before right new same
    rcases List.mem_map.mp before with ⟨stored, there, isLeft⟩
    rw [List.mem_singleton.mp new, ← isLeft] at same
    exact absent (List.any_eq_true.mpr ⟨stored, there, decide_eq_true same⟩)

end Merging

end Upsert

end AgentC
