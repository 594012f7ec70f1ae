import Mathlib.Algebra.Order.Ring.Abs
import Mathlib.Data.Int.CardIntervalMod
import Mathlib.Data.Nat.Periodic
import Mathlib.Tactic.Ring

/-! # Turns taken in a cycle

A cursor goes round the numbers below `range`; in each turn it points at the
place that is its remainder by the number of places. How often a place has its
turn, and when shares that grow with the turns stay proportional. -/

namespace AgentC.RoundRobin

section Periods

variable {holds : Nat → Prop} [DecidablePred holds] {period : Nat}

theorem count_congr {other : Nat → Prop} [DecidablePred other] {turns : Nat}
    (same : ∀ turn < turns, holds turn ↔ other turn) :
    Nat.count holds turns = Nat.count other turns := by
  rw [Nat.count_eq_card_filter_range, Nat.count_eq_card_filter_range]
  congr 1
  apply Finset.filter_congr
  intro turn member
  exact same turn (Finset.mem_range.mp member)

theorem count_shifted_period (periodic : Function.Periodic holds period) (offset : Nat) :
    Nat.count (fun turn => holds (offset + turn)) period = Nat.count holds period := by
  have window := Nat.filter_Ico_card_eq_of_periodic offset period holds periodic
  have split : Nat.count holds (offset + period) =
      Nat.count holds offset +
        (Finset.filter holds (Finset.Ico offset (offset + period))).card := by
    rw [Nat.count_eq_card_filter_range, Nat.count_eq_card_filter_range, Finset.range_eq_Ico,
      Finset.range_eq_Ico, ← Finset.card_union_of_disjoint, ← Finset.filter_union,
      Finset.Ico_union_Ico_eq_Ico (Nat.zero_le _) (Nat.le_add_right _ _)]
    exact Finset.disjoint_filter_filter (Finset.Ico_disjoint_Ico_consecutive 0 offset _)
  have shifted := Nat.count_add holds offset period
  omega

theorem count_periods (periodic : Function.Periodic holds period) (rounds : Nat) :
    Nat.count holds (rounds * period) = rounds * Nat.count holds period := by
  induction rounds with
  | zero => rw [Nat.zero_mul, Nat.zero_mul, Nat.count_zero]
  | succ rounds induction =>
    rw [Nat.succ_mul, Nat.count_add, induction, count_shifted_period periodic, Nat.succ_mul]

end Periods

section Turns

variable {range places place : Nat}

def OnTurn (range places place cursor : Nat) : Prop :=
  cursor % range % places = place

instance : DecidablePred (OnTurn range places place) := fun _ =>
  inferInstanceAs (Decidable (_ = _))

theorem onTurn_periodic : Function.Periodic (OnTurn range places place) range := by
  intro cursor
  rw [OnTurn, OnTurn, Nat.add_mod_right]

/-- In a full round of the cursor, the places before the remainder have one
turn more than the others. -/
theorem count_round (inside : place < places) :
    Nat.count (OnTurn range places place) range =
      range / places + if place < range % places then 1 else 0 := by
  have turns : ∀ cursor < range,
      OnTurn range places place cursor ↔ cursor ≡ place [MOD places] := by
    intro cursor below
    rw [OnTurn, Nat.mod_eq_of_lt below, Nat.ModEq, Nat.mod_eq_of_lt inside]
  rw [count_congr turns, Nat.count_modEq_card range (Nat.zero_lt_of_lt inside),
    Nat.mod_eq_of_lt inside]

theorem count_rounds (inside : place < places) (offset rounds : Nat) :
    Nat.count (fun turn => OnTurn range places place (offset + turn)) (rounds * range) =
      rounds * (range / places + if place < range % places then 1 else 0) := by
  have shifted :
      Function.Periodic (fun turn => OnTurn range places place (offset + turn)) range := by
    intro turn
    change OnTurn range places place (offset + (turn + range)) = _
    rw [← Nat.add_assoc]
    exact onTurn_periodic (offset + turn)
  rw [count_periods shifted, count_shifted_period onTurn_periodic, count_round inside]

theorem modEq_firstTurn (positive : 0 < places) (offset : Nat) :
    offset + (place + (places - offset % places)) ≡ place [MOD places] := by
  have below := Nat.mod_lt offset positive
  have divided := Nat.div_add_mod offset places
  have multiple : offset + (place + (places - offset % places)) =
      place + places * (offset / places + 1) := by
    rw [Nat.mul_add]
    omega
  rw [multiple]
  exact Nat.ModEq.symm (Nat.modEq_of_dvd ⟨(offset / places + 1 : Nat), by push_cast; ring⟩)

theorem onTurn_iff_of_dvd (divides : places ∣ range) (inside : place < places) (offset turn : Nat) :
    OnTurn range places place (offset + turn) ↔
      turn ≡ place + (places - offset % places) [MOD places] := by
  have first : offset + (place + (places - offset % places)) ≡ place [MOD places] :=
    modEq_firstTurn (Nat.zero_lt_of_lt inside) offset
  have moved : OnTurn range places place (offset + turn) ↔ offset + turn ≡ place [MOD places] := by
    rw [OnTurn, Nat.mod_mod_of_dvd _ divides, Nat.ModEq, Nat.mod_eq_of_lt inside]
  rw [moved]
  constructor
  · intro here
    exact Nat.ModEq.add_left_cancel' offset (here.trans first.symm)
  · intro here
    exact (here.add_left offset).trans first

/-- When the places fill a round of the cursor, no place gets ahead of another
by more than one turn. -/
theorem count_of_dvd (divides : places ∣ range) (inside : place < places) (offset turns : Nat) :
    turns / places ≤ Nat.count (fun turn => OnTurn range places place (offset + turn)) turns ∧
      Nat.count (fun turn => OnTurn range places place (offset + turn)) turns ≤
        turns / places + 1 := by
  rw [count_congr fun turn _ => onTurn_iff_of_dvd divides inside offset turn,
    Nat.count_modEq_card turns (Nat.zero_lt_of_lt inside)]
  split <;> omega

end Turns

theorem growth_eq_zero {start growth bound : Int}
    (bounded : ∀ rounds : Nat, |start + rounds * growth| < bound) : growth = 0 := by
  by_contra grows
  have positive : 1 ≤ |growth| := Int.one_le_abs grows
  have first := bounded 0
  rw [Nat.cast_zero, Int.zero_mul, Int.add_zero] at first
  have late := bounded (2 * bound.toNat)
  have triangle : |((2 * bound.toNat : Nat) : Int) * growth| ≤
      |start + ((2 * bound.toNat : Nat) : Int) * growth| + |start| := by
    have difference : ((2 * bound.toNat : Nat) : Int) * growth =
        (start + ((2 * bound.toNat : Nat) : Int) * growth) - start := by ring
    calc |((2 * bound.toNat : Nat) : Int) * growth|
        = |(start + ((2 * bound.toNat : Nat) : Int) * growth) - start| := by rw [← difference]
      _ ≤ _ := abs_sub _ _
  have large : ((2 * bound.toNat : Nat) : Int) ≤ |((2 * bound.toNat : Nat) : Int) * growth| := by
    rw [abs_mul, Nat.abs_cast]
    exact le_mul_of_one_le_right (Int.natCast_nonneg _) positive
  have nonnegative := abs_nonneg start
  omega

theorem succ_mul_ne {number : Nat} {left right : Int} (positive : 0 < right)
    (small : right < number) : ((number + 1 : Nat) : Int) * right ≠ number * left := by
  intro same
  have divides : (number : Int) ∣ right := by
    have difference : right = (number : Int) * (left - right) := by
      rw [Int.mul_sub, ← same]
      push_cast
      ring
    exact ⟨left - right, difference⟩
  have large := Int.le_of_dvd positive divides
  omega

end AgentC.RoundRobin
