import AgentC.Cbor.Agreement
import Mathlib.Data.List.GetD

/-! # Maps with sorted keys

`agent_cbor_write_map_sorted` with the array of indices that it sorts, and what it
does for any order of the pairs. `writeMapSorted` is the same call with the indices
replaced by the pairs. -/

namespace AgentC.Cbor

/-- Which check of `agent_cbor_write_map_sorted` fails, or what a call behind the
checks returns. -/
inductive MapFailure
  | tooManyPairs
  | emptyKey
  | duplicateKey
  | write (status : Status)
deriving DecidableEq

def MapFailure.status : MapFailure → Status
  | .tooManyPairs => .limit
  | .emptyKey => .invalidArgument
  | .duplicateKey => .invalidArgument
  | .write status => status

/-- `pairs[i]`; the indices are below the number of pairs. -/
def pairAt (pairs : List (Bytes × Write)) (i : UInt8) : Bytes × Write :=
  pairs.getD i.toNat ([], writeNull)

/-- The inner loop from `j` on, and the store of `cur` behind it. -/
def shiftDown (pairs : List (Bytes × Write)) (cur : UInt8) : Nat → List UInt8 → List UInt8
  | 0, idx => idx.set 0 cur
  | j + 1, idx =>
    if keyLess (pairAt pairs cur).1 (pairAt pairs (idx.getD j 0)).1 then
      shiftDown pairs cur j (idx.set (j + 1) (idx.getD j 0))
    else idx.set (j + 1) cur

/-- `idx` before the sort. -/
def initialIndices (n : Nat) : List UInt8 :=
  (List.range n).map UInt8.ofNat

/-- `idx` behind the rounds `1` to `rounds` of the insertion sort. -/
def sortRounds (pairs : List (Bytes × Write)) (rounds : Nat) : List UInt8 :=
  (List.range' 1 rounds).foldl (fun idx i => shiftDown pairs (idx.getD i 0) i idx)
    (initialIndices pairs.length)

def sortIndices (pairs : List (Bytes × Write)) : List UInt8 :=
  sortRounds pairs (pairs.length - 1)

/-- `agent_cbor_write_map_sorted` -/
def writeMapSortedByIndex (pairs : List (Bytes × Write)) (writer : Writer) :
    Except MapFailure Writer :=
  if maxMapPairs < pairs.length then .error .tooManyPairs
  else if pairs.any (fun pair => pair.1.length == 0) then .error .emptyKey
  else
    let sorted := (sortIndices pairs).map (pairAt pairs)
    if hasEqualNeighbours sorted then .error .duplicateKey
    else (writeMapStart pairs.length writer >>= writePairs sorted).mapError MapFailure.write

variable {pairs : List (Bytes × Write)}

theorem map_shiftDown (cur : UInt8) (front : List UInt8) :
    ∀ (free : UInt8) (back : List UInt8), ∃ inserted,
      shiftDown pairs cur front.length (front ++ free :: back) = inserted ++ back ∧
        inserted.length = front.length + 1 ∧ inserted.map (pairAt pairs) =
          (insertDown (pairAt pairs cur) (front.map (pairAt pairs)).reverse).reverse := by
  induction front using List.reverseRecOn with
  | nil =>
    intro free back
    exact ⟨[cur], rfl, rfl, rfl⟩
  | append_singleton front last induction =>
    intro free back
    have atLast : (front ++ [last] ++ free :: back).getD front.length 0 = last := by
      simp
    have moved : ∀ index : UInt8, (front ++ [last] ++ free :: back).set (front.length + 1) index =
        front ++ last :: index :: back := by
      intro index
      simp
    rw [List.length_append, List.length_singleton, shiftDown, atLast, moved, moved,
      List.map_append, List.reverse_append]
    change ∃ inserted, _ = inserted ++ back ∧ _ ∧ _ =
      (insertDown (pairAt pairs cur) (pairAt pairs last :: (front.map (pairAt pairs)).reverse)
        ).reverse
    rw [insertDown]
    split
    · rcases induction last (last :: back) with ⟨inserted, shifted, length, sorted⟩
      refine ⟨inserted ++ [last], ?_, ?_, ?_⟩
      · rw [shifted, List.append_assoc, List.singleton_append]
      · rw [List.length_append, length, List.length_singleton]
      · rw [List.map_append, sorted, List.reverse_cons]
        rfl
    · refine ⟨front ++ [last, cur], ?_, ?_, ?_⟩
      · simp
      · simp
      · simp

theorem pairAt_ofNat {i : Nat} (bound : i < pairs.length) (few : pairs.length ≤ maxMapPairs) :
    pairAt pairs (UInt8.ofNat i) = pairs[i] := by
  have small : pairs.length ≤ 64 := few
  rw [pairAt, UInt8.toNat_ofNat', Nat.mod_eq_of_lt (by omega), List.getD_eq_getElem _ _ bound]

theorem sortPairs_concat (front : List (Bytes × Write)) (pair : Bytes × Write) :
    sortPairs (front ++ [pair]) = (insertDown pair (sortPairs front).reverse).reverse := by
  rw [sortPairs, List.foldl_append, sortPairs, List.reverse_reverse]
  rfl

theorem sortRounds_succ (rounds : Nat) :
    sortRounds pairs (rounds + 1) = shiftDown pairs ((sortRounds pairs rounds).getD (rounds + 1) 0)
      (rounds + 1) (sortRounds pairs rounds) := by
  rw [sortRounds, List.range'_1_concat, List.foldl_append, Nat.add_comm 1 rounds]
  rfl

variable {value : Bytes × Write → Bytes} (writer : Writer)

theorem map_sortRounds (few : pairs.length ≤ maxMapPairs) :
    ∀ rounds : Nat, rounds + 1 ≤ pairs.length → ∃ sorted, sortRounds pairs rounds =
          sorted ++ (List.range' (rounds + 1) (pairs.length - (rounds + 1))).map UInt8.ofNat ∧
        sorted.length = rounds + 1 ∧
        sorted.map (pairAt pairs) = sortPairs (pairs.take (rounds + 1)) := by
  intro rounds
  induction rounds with
  | zero =>
    intro some
    refine ⟨[UInt8.ofNat 0], ?_, rfl, ?_⟩
    · have split : pairs.length = pairs.length - 1 + 1 := by omega
      rw [sortRounds, initialIndices, List.range_eq_range', split, List.range'_succ]
      rfl
    · rw [List.map_singleton, pairAt_ofNat some few, List.take_succ_eq_append_getElem some]
      rfl
  | succ rounds induction =>
    intro some
    rcases induction (by omega) with ⟨sorted, indices, length, isSorted⟩
    have split : pairs.length - (rounds + 1) = pairs.length - (rounds + 1 + 1) + 1 := by omega
    rw [split, List.range'_succ, List.map_cons] at indices
    have atRound : (sortRounds pairs rounds).getD (rounds + 1) 0 = UInt8.ofNat (rounds + 1) := by
      rw [indices, List.getD_append_right _ _ _ _ (by omega), length, Nat.sub_self]
      rfl
    rcases @map_shiftDown pairs (UInt8.ofNat (rounds + 1)) sorted (UInt8.ofNat (rounds + 1))
      ((List.range' (rounds + 1 + 1) (pairs.length - (rounds + 1 + 1))).map UInt8.ofNat) with
      ⟨inserted, shifted, insertedLength, insertedSorted⟩
    rw [length] at shifted
    refine ⟨inserted, ?_, by omega, ?_⟩
    · rw [sortRounds_succ, atRound, indices, shifted]
    · rw [insertedSorted, isSorted, pairAt_ofNat some few,
        List.take_succ_eq_append_getElem some, sortPairs_concat]

theorem map_sortIndices (few : pairs.length ≤ maxMapPairs) :
    (sortIndices pairs).map (pairAt pairs) = sortPairs pairs := by
  by_cases none : pairs.length = 0
  · rw [List.length_eq_zero_iff.mp none]
    rfl
  · rcases map_sortRounds few (pairs.length - 1) (by omega) with ⟨sorted, indices, _, isSorted⟩
    have all : pairs.length - 1 + 1 = pairs.length := by omega
    rw [all, Nat.sub_self] at indices
    rw [all, List.take_length] at isSorted
    rw [sortIndices, indices, ← isSorted]
    simp

theorem writeMapSortedByIndex_eq : (writeMapSortedByIndex pairs writer).mapError MapFailure.status =
      writeMapSorted pairs writer := by
  rw [writeMapSortedByIndex, writeMapSorted]
  split
  · rfl
  · next few =>
    rw [map_sortIndices (Nat.le_of_not_lt few)]
    split
    · rfl
    · split
      · next duplicate =>
        rw [if_pos duplicate]
        rfl
      · next distinct =>
        rw [if_neg distinct]
        cases (writeMapStart pairs.length writer >>= writePairs (sortPairs pairs)) with
        | error status => rfl
        | ok after => rfl

/-- Shorter keys first, keys of one length by their bytes. -/
def KeyBefore (left right : Bytes) : Prop :=
  left.length < right.length ∨ left.length = right.length ∧ compare left right = .lt

theorem keyBefore_of_le {left right : Bytes} (le : lengthFirstLE left right)
    (different : left ≠ right) : KeyBefore left right := by
  rcases le with shorter | ⟨same, le⟩
  · exact .inl shorter
  · refine .inr ⟨same, ?_⟩
    rw [lexLE] at le
    cases order : compare left right with
    | lt => rfl
    | eq => exact absurd (Std.LawfulEqCmp.eq_of_compare order) different
    | gt =>
      rw [order] at le
      exact nomatch le

theorem KeyBefore.ne {left right : Bytes} (before : KeyBefore left right) : left ≠ right := by
  intro same
  rw [same] at before
  rcases before with shorter | ⟨_, less⟩
  · exact Nat.lt_irrefl _ shorter
  · have equal : compare right right = .eq := Std.ReflCmp.compare_self
    rw [equal] at less
    exact nomatch less

section Neighbours

variable {α : Type}

theorem strict_of_different_neighbours {sorted : List (Bytes × α)}
    (isSorted : sorted.Pairwise (keyLE lengthFirstLE))
    (different : hasEqualNeighbours sorted = false) :
    sorted.Pairwise fun left right => KeyBefore left.1 right.1 := by
  induction sorted with
  | nil => exact .nil
  | cons first rest induction =>
    rw [List.pairwise_cons] at isSorted
    cases rest with
    | nil => exact List.pairwise_singleton _ _
    | cons second rest =>
      rw [hasEqualNeighbours, Bool.or_eq_false_iff] at different
      refine List.pairwise_cons.mpr ⟨?_, induction isSorted.2 different.2⟩
      intro later member
      apply keyBefore_of_le (isSorted.1 later member)
      intro same
      have unequal : first.1 ≠ second.1 := fun equal => by
        rw [keyEqual_iff.mpr equal] at different
        cases different.1
      have firstLe : lengthFirstLE first.1 second.1 := isSorted.1 second (List.mem_cons_self ..)
      have secondLe : lengthFirstLE second.1 first.1 := by
        rw [same]
        rcases List.mem_cons.mp member with equal | behind
        · rw [equal]
          exact Std.Refl.refl _
        · exact (List.pairwise_cons.mp isSorted.2).1 later behind
      exact unequal (Std.Antisymm.antisymm _ _ firstLe secondLe)

theorem distinct_of_strict {sorted : List (Bytes × α)}
    (strict : sorted.Pairwise fun left right => KeyBefore left.1 right.1) :
    (sorted.map Prod.fst).Nodup :=
  List.pairwise_map.mpr (strict.imp KeyBefore.ne)

theorem hasEqualNeighbours_sortPairs (pairs : List (Bytes × α)) :
    hasEqualNeighbours (sortPairs pairs) = true ↔ ¬(pairs.map Prod.fst).Nodup := by
  have keys := ((perm_sortPairs pairs).map Prod.fst).nodup_iff
  constructor
  · intro found distinct
    rw [hasEqualNeighbours_of_distinct (keys.mpr distinct)] at found
    exact nomatch found
  · intro duplicate
    by_contra none
    have strict := strict_of_different_neighbours (sorted_sortPairs pairs)
      (Bool.eq_false_of_not_eq_true none)
    exact duplicate (keys.mp (distinct_of_strict strict))

end Neighbours

def pairsEncoding (value : Bytes × Write → Bytes) (pairs : List (Bytes × Write)) : Bytes :=
  appendAi majorMap pairs.length ++ pairs.flatMap fun pair => encodeText pair.1 ++ value pair

theorem writes_eachPair {sorted : List (Bytes × Write)}
    (each : ∀ pair ∈ sorted, Writes pair.2 (value pair)) :
    Writes (writePairs sorted) (sorted.flatMap fun pair => encodeText pair.1 ++ value pair) := by
  induction sorted with
  | nil => exact writes_nothing
  | cons pair rest induction =>
    rw [List.flatMap_cons, List.append_assoc]
    exact (writes_writeText pair.1).andThen ((each pair (List.mem_cons_self ..)).andThen
      (induction fun other member => each other (List.mem_cons_of_mem _ member)))

/-- Behind the checks the call writes the head and the sorted pairs. -/
theorem writeMapSortedByIndex_checked (few : pairs.length ≤ maxMapPairs)
    (named : ∀ pair ∈ pairs, pair.1 ≠ []) (writer : Writer) :
    writeMapSortedByIndex pairs writer =
      if hasEqualNeighbours (sortPairs pairs) then .error .duplicateKey
      else (writeMapStart pairs.length writer >>= writePairs (sortPairs pairs)).mapError
        MapFailure.write := by
  have nonempty : pairs.any (fun pair => pair.1.length == 0) = false := by
    rw [List.any_eq_false]
    intro pair member empty
    exact named pair member (List.length_eq_zero_iff.mp (beq_iff_eq.mp empty))
  rw [writeMapSortedByIndex, if_neg (Nat.not_lt.mpr few), nonempty, if_neg Bool.false_ne_true,
    map_sortIndices few]

theorem duplicateKey_iff (few : pairs.length ≤ maxMapPairs)
    (named : ∀ pair ∈ pairs, pair.1 ≠ []) (writer : Writer) :
    writeMapSortedByIndex pairs writer = .error .duplicateKey ↔ ¬(pairs.map Prod.fst).Nodup := by
  rw [writeMapSortedByIndex_checked few named, ← hasEqualNeighbours_sortPairs]
  split
  · next duplicate => exact ⟨fun _ => duplicate, fun _ => rfl⟩
  · next distinct =>
    constructor
    · intro failed
      cases written : (writeMapStart pairs.length writer >>= writePairs (sortPairs pairs)) with
      | error status =>
        rw [written] at failed
        exact nomatch failed
      | ok after =>
        rw [written] at failed
        exact nomatch failed
    · intro duplicate
      exact absurd duplicate distinct

theorem writeMapSortedByIndex_of_distinct (few : pairs.length ≤ maxMapPairs)
    (named : ∀ pair ∈ pairs, pair.1 ≠ []) (distinct : (pairs.map Prod.fst).Nodup)
    (each : ∀ pair ∈ pairs, Writes pair.2 (value pair)) {writer : Writer}
    (room : writer.bytes.length + (pairsEncoding value (sortPairs pairs)).length ≤ writer.cap) :
    ∃ after, writeMapSortedByIndex pairs writer = .ok after ∧
      after.bytes = writer.bytes ++ pairsEncoding value (sortPairs pairs) := by
  have different : ¬hasEqualNeighbours (sortPairs pairs) = true := fun found =>
    (hasEqualNeighbours_sortPairs pairs).mp found distinct
  have writes := (writes_putAi majorMap pairs.length).andThen (writes_eachPair fun pair member =>
    each pair ((perm_sortPairs pairs).mem_iff.mp member))
  rw [pairsEncoding, (perm_sortPairs pairs).length_eq] at room ⊢
  rcases writes writer room with ⟨after, written, _, bytes⟩
  refine ⟨after, ?_, bytes⟩
  change (writeMapStart pairs.length writer >>= writePairs (sortPairs pairs)) = _ at written
  rw [writeMapSortedByIndex_checked few named, if_neg different, written]
  rfl

/-- The call finds exactly the duplicate keys; without them it writes every pair once,
in the order of the keys, whatever the order of the pairs. -/
theorem write_map_sorted_correct (few : pairs.length ≤ maxMapPairs)
    (named : ∀ pair ∈ pairs, pair.1 ≠ []) :
    (∀ writer, writeMapSortedByIndex pairs writer = .error .duplicateKey ↔
      ¬(pairs.map Prod.fst).Nodup) ∧
    ((pairs.map Prod.fst).Nodup → ∀ value : Bytes × Write → Bytes,
      (∀ pair ∈ pairs, Writes pair.2 (value pair)) →
        ∃ sorted : List (Bytes × Write), sorted.Perm pairs ∧
          (sorted.Pairwise fun left right => KeyBefore left.1 right.1) ∧
          ∀ other : List (Bytes × Write), other.Perm pairs → ∀ writer : Writer,
            writer.bytes.length + (pairsEncoding value sorted).length ≤ writer.cap →
            ∃ after, writeMapSortedByIndex other writer = .ok after ∧
              after.bytes = writer.bytes ++ pairsEncoding value sorted) := by
  refine ⟨duplicateKey_iff few named, fun distinct value each => ?_⟩
  have strict := strict_of_different_neighbours (sorted_sortPairs pairs)
    (hasEqualNeighbours_of_distinct (((perm_sortPairs pairs).map Prod.fst).nodup_iff.mpr distinct))
  refine ⟨sortPairs pairs, perm_sortPairs pairs, strict, ?_⟩
  intro other permutation writer room
  have otherDistinct := (permutation.map Prod.fst).nodup_iff.mpr distinct
  have same : sortPairs other = sortPairs pairs :=
    eq_of_perm_of_sorted ((perm_sortPairs other).trans (permutation.trans
      (perm_sortPairs pairs).symm)) (((perm_sortPairs other).map Prod.fst).nodup_iff.mpr
        otherDistinct) (sorted_sortPairs other) (sorted_sortPairs pairs)
  rw [← same] at room ⊢
  exact writeMapSortedByIndex_of_distinct (permutation.length_eq ▸ few)
    (fun pair member => named pair (permutation.mem_iff.mp member)) otherDistinct
    (fun pair member => each pair (permutation.mem_iff.mp member)) room

/-- Two pairs that are not in order. -/
theorem write_map_sorted_correct_sample :
    writeMapSortedByIndex [(ascii "ts", writeUint 7), (ascii "a", writeNull)] (.init 16) ≠
      .error .duplicateKey := by
  intro found
  have duplicate := ((write_map_sorted_correct (by decide) (by simp [ascii])).1 (.init 16)).mp found
  exact duplicate (by decide)

end AgentC.Cbor
