import AgentC.Foundation.Bytes
import Mathlib.Algebra.Order.Ring.Nat
import Mathlib.Data.Nat.Bits
import Mathlib.Tactic.Ring

/-! # Big-endian numbers and bit fields of words -/

namespace AgentC

/-- The low `width` bytes of a number, most significant first. -/
def beBytes : Nat → Nat → Bytes
  | 0, _ => []
  | width + 1, value => UInt8.ofNat (value / 256 ^ width % 256) :: beBytes width value

def beValue (bytes : Bytes) : Nat :=
  bytes.foldl (fun value byte => value * 256 + byte.toNat) 0

example : beBytes 4 1000000 = [0, 15, 66, 64] := rfl

variable (width : Nat) (bytes : Bytes)

theorem length_beBytes (value : Nat) : (beBytes width value).length = width := by
  induction width with
  | zero => rfl
  | succ width induction => rw [beBytes, List.length_cons, induction]

theorem foldl_beBytes (value start : Nat) :
    (beBytes width value).foldl (fun value byte => value * 256 + byte.toNat) start =
      start * 256 ^ width + value % 256 ^ width := by
  induction width generalizing start with
  | zero => simp [beBytes, Nat.mod_one]
  | succ width induction =>
    have byte : (UInt8.ofNat (value / 256 ^ width % 256)).toNat = value / 256 ^ width % 256 := by
      rw [UInt8.toNat_ofNat', Nat.mod_mod]
    rw [beBytes, List.foldl_cons, induction, byte, Nat.mod_pow_succ, pow_succ]
    ring

theorem beValue_beBytes {width value : Nat} (bounded : value < 256 ^ width) :
    beValue (beBytes width value) = value := by
  rw [beValue, foldl_beBytes, Nat.zero_mul, Nat.zero_add, Nat.mod_eq_of_lt bounded]

theorem foldl_bytes (start : Nat) :
    bytes.foldl (fun value byte => value * 256 + byte.toNat) start =
      start * 256 ^ bytes.length + beValue bytes := by
  rw [beValue]
  induction bytes generalizing start with
  | nil => simp
  | cons byte rest induction =>
    rw [List.foldl_cons, induction, List.foldl_cons, induction (0 * 256 + byte.toNat),
      List.length_cons, pow_succ]
    ring

theorem beValue_cons (byte : UInt8) (rest : Bytes) :
    beValue (byte :: rest) = byte.toNat * 256 ^ rest.length + beValue rest := by
  rw [beValue, List.foldl_cons, foldl_bytes]
  simp

theorem beValue_lt : beValue bytes < 256 ^ bytes.length := by
  induction bytes with
  | nil => exact Nat.one_pos
  | cons byte rest induction =>
    have small := byte.toNat_lt
    rw [beValue_cons, List.length_cons, pow_succ]
    calc byte.toNat * 256 ^ rest.length + beValue rest
        < byte.toNat * 256 ^ rest.length + 256 ^ rest.length := Nat.add_lt_add_left induction _
      _ = (byte.toNat + 1) * 256 ^ rest.length := by ring
      _ ≤ 256 * 256 ^ rest.length := Nat.mul_le_mul_right _ small
      _ = 256 ^ rest.length * 256 := Nat.mul_comm ..

theorem beBytes_add_mul (extra value : Nat) :
    beBytes width (extra * 256 ^ width + value) = beBytes width value := by
  induction width generalizing extra with
  | zero => rfl
  | succ width induction =>
    have split : extra * 256 ^ (width + 1) + value = extra * 256 * 256 ^ width + value := by
      rw [pow_succ]
      ring
    have byte : (extra * 256 * 256 ^ width + value) / 256 ^ width % 256 =
        value / 256 ^ width % 256 := by
      rw [Nat.add_comm, Nat.add_mul_div_right _ _ (Nat.pow_pos (by decide)), Nat.add_mul_mod_self_right]
    rw [split, beBytes, beBytes, byte, induction]

theorem beBytes_beValue : beBytes bytes.length (beValue bytes) = bytes := by
  induction bytes with
  | nil => rfl
  | cons byte rest induction =>
    have small := beValue_lt rest
    have first : (byte.toNat * 256 ^ rest.length + beValue rest) / 256 ^ rest.length % 256 =
        byte.toNat := by
      rw [Nat.add_comm, Nat.add_mul_div_right _ _ (Nat.pow_pos (by decide)),
        Nat.div_eq_of_lt small, Nat.zero_add, Nat.mod_eq_of_lt byte.toNat_lt]
    rw [List.length_cons, beBytes, beValue_cons, first, beBytes_add_mul, induction,
      UInt8.ofNat_toNat]

/-! ## Bit fields of machine words

Words put together with shifts and ors from parts that do not overlap, and taken apart
with shifts and masks, as numbers. -/

theorem or_eq_add {high low : Nat} (aligned : 2 ^ width ∣ high) (small : low < 2 ^ width) :
    high ||| low = high + low := by
  rcases aligned with ⟨multiple, rfl⟩
  rw [Nat.two_pow_add_eq_or_of_lt small]

theorem toNat_field (v shift mask : UInt32) (width : Nat) (masks : mask.toNat = 2 ^ width - 1)
    (inside : shift.toNat < 32) :
    ((v >>> shift) &&& mask).toNat = v.toNat / 2 ^ shift.toNat % 2 ^ width := by
  rw [UInt32.toNat_and, UInt32.toNat_shiftRight, Nat.mod_eq_of_lt inside, masks,
    Nat.and_two_pow_sub_one_eq_mod, Nat.shiftRight_eq_div_pow]

theorem toNat_shiftedUp {v shift : UInt32} {bound : Nat} (small : v.toNat < 2 ^ bound)
    (inside : bound + shift.toNat ≤ 32) (short : shift.toNat < 32):
    (v <<< shift).toNat = v.toNat * 2 ^ shift.toNat := by
  have fits : v.toNat * 2 ^ shift.toNat < 2 ^ 32 :=
    calc v.toNat * 2 ^ shift.toNat < 2 ^ bound * 2 ^ shift.toNat :=
          Nat.mul_lt_mul_of_pos_right small (Nat.two_pow_pos _)
      _ = 2 ^ (bound + shift.toNat) := (Nat.pow_add ..).symm
      _ ≤ 2 ^ 32 := Nat.pow_le_pow_right (by decide) inside
  rw [UInt32.toNat_shiftLeft, Nat.mod_eq_of_lt short, Nat.shiftLeft_eq, Nat.mod_eq_of_lt fits]

end AgentC
