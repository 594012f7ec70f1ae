import AgentC.Foundation.Bytes

/-! # Leading bits of byte strings

When the first bits of two byte strings agree, and how that is seen from whole
bytes and one byte under a mask. -/

namespace AgentC

def bitAt (bytes : Bytes) (index : Nat) : Bool :=
  (bytes.getD (index / 8) 0).toNat.testBit (7 - index % 8)

/-- The first `count` bits are the same. -/
def AgreeOnBits (count : Nat) (left right : Bytes) : Prop :=
  ∀ index < count, bitAt left index = bitAt right index

/-- The highest `count` bits of a byte. -/
def highBits (count : Nat) : UInt8 :=
  255 <<< UInt8.ofNat (8 - count)

theorem testBit_highBits : ∀ count < 8, 0 < count → ∀ index < 8,
    (highBits count).toNat.testBit index = decide (8 - count ≤ index) := by
  decide

theorem byte_eq_iff (left right : UInt8) :
    left = right ↔ ∀ index < 8, left.toNat.testBit index = right.toNat.testBit index := by
  constructor
  · intro same index _
    rw [same]
  · intro bits
    apply UInt8.toNat_inj.mp
    apply Nat.eq_of_testBit_eq
    intro index
    by_cases inByte : index < 8
    · exact bits index inByte
    · have outside : ∀ byte : UInt8, byte.toNat.testBit index = false := by
        intro byte
        apply Nat.testBit_lt_two_pow
        exact Nat.lt_of_lt_of_le byte.toNat_lt
          (Nat.pow_le_pow_right (by decide) (Nat.le_of_not_lt inByte))
      rw [outside, outside]

theorem testBit_masked {count index : Nat} (few : count < 8) (positive : 0 < count)
    (inByte : index < 8) (byte : UInt8) : (byte &&& highBits count).toNat.testBit index =
      (byte.toNat.testBit index && decide (8 - count ≤ index)) := by
  rw [UInt8.toNat_and, Nat.testBit_and, testBit_highBits count few positive index inByte]

theorem masked_eq_iff {count : Nat} (few : count < 8) (positive : 0 < count) (left right : UInt8) :
    left &&& highBits count = right &&& highBits count ↔
      ∀ index < count, left.toNat.testBit (7 - index) = right.toNat.testBit (7 - index) := by
  rw [byte_eq_iff]
  constructor
  · intro same index inside
    have here := same (7 - index) (by omega)
    rw [testBit_masked few positive (by omega), testBit_masked few positive (by omega),
      decide_eq_true (by omega), Bool.and_true, Bool.and_true] at here
    exact here
  · intro same index inByte
    rw [testBit_masked few positive inByte, testBit_masked few positive inByte]
    by_cases high : 8 - count ≤ index
    · have here := same (7 - index) (by omega)
      have mirrored : 7 - (7 - index) = index := by omega
      rw [mirrored] at here
      rw [here]
    · rw [decide_eq_false high, Bool.and_false, Bool.and_false]

theorem bitAt_add (bytes : Bytes) (whole : Nat) {index : Nat} (inByte : index < 8) :
    bitAt bytes (8 * whole + index) = (bytes.getD whole 0).toNat.testBit (7 - index) := by
  have quotient : (8 * whole + index) / 8 = whole := by omega
  have remainder : (8 * whole + index) % 8 = index := by omega
  rw [bitAt, quotient, remainder]

theorem take_eq_take_iff {left right : Bytes} (sameLength : left.length = right.length)
    (count : Nat) :
    left.take count = right.take count ↔ ∀ index < count, left.getD index 0 = right.getD index 0 := by
  constructor
  · intro same index inside
    have here := congrArg (fun bytes => bytes[index]?) same
    simp only [List.getElem?_take, if_pos inside] at here
    rw [List.getD_eq_getElem?_getD, List.getD_eq_getElem?_getD, here]
  · intro same
    apply List.ext_getElem?
    intro index
    rw [List.getElem?_take, List.getElem?_take]
    split
    · next inside =>
      by_cases within : index < left.length
      · have here := same index inside
        rw [List.getD_eq_getElem?_getD, List.getD_eq_getElem?_getD,
          List.getElem?_eq_getElem within, List.getElem?_eq_getElem (sameLength ▸ within),
          Option.getD_some, Option.getD_some] at here
        rw [List.getElem?_eq_getElem within, List.getElem?_eq_getElem (sameLength ▸ within), here]
      · rw [List.getElem?_eq_none (Nat.le_of_not_lt within),
          List.getElem?_eq_none (sameLength ▸ Nat.le_of_not_lt within)]
    · rfl

theorem agreeOnBits_iff {left right : Bytes} (sameLength : left.length = right.length)
    (count : Nat) : AgreeOnBits count left right ↔ left.take (count / 8) = right.take (count / 8) ∧
        (count % 8 = 0 ∨ left.getD (count / 8) 0 &&& highBits (count % 8) =
            right.getD (count / 8) 0 &&& highBits (count % 8)) := by
  have few : count % 8 < 8 := Nat.mod_lt count (by decide)
  have rest : (∀ index < count % 8, bitAt left (8 * (count / 8) + index) =
        bitAt right (8 * (count / 8) + index)) ↔
      (count % 8 = 0 ∨ left.getD (count / 8) 0 &&& highBits (count % 8) =
        right.getD (count / 8) 0 &&& highBits (count % 8)) := by
    rcases Nat.eq_zero_or_pos (count % 8) with none | positive
    · exact ⟨fun _ => .inl none, fun _ index inside => by omega⟩
    · rw [masked_eq_iff few positive, or_iff_right (Nat.ne_of_gt positive)]
      apply forall₂_congr
      intro index inside
      rw [bitAt_add left _ (by omega), bitAt_add right _ (by omega)]
  rw [take_eq_take_iff sameLength, ← rest]
  constructor
  · intro agree
    constructor
    · intro whole inside
      rw [byte_eq_iff]
      intro index inByte
      have here := agree (8 * whole + (7 - index)) (by omega)
      rw [bitAt_add left _ (by omega), bitAt_add right _ (by omega)] at here
      have mirrored : 7 - (7 - index) = index := by omega
      rw [mirrored] at here
      exact here
    · intro index inside
      exact agree _ (by omega)
  · rintro ⟨whole, partly⟩ index inside
    by_cases inWhole : index / 8 < count / 8
    · rw [bitAt, bitAt, whole _ inWhole]
    · have split : index = 8 * (count / 8) + (index - 8 * (count / 8)) := by omega
      rw [split]
      exact partly _ (by omega)

end AgentC
