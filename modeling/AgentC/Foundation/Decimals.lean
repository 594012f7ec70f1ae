import AgentC.Foundation.Bytes
import Mathlib.Data.Nat.Digits.Lemmas
import Mathlib.Data.Rat.Defs
import Mathlib.Algebra.Order.Field.Rat
import Mathlib.Tactic.FieldSimp
import Mathlib.Tactic.Ring

/-! # Decimal digit strings

Digit strings, decimals with a fraction and their values. A decimal without
superfluous zeros is determined by its value. -/

namespace AgentC

def isDigit (byte : UInt8) : Bool :=
  48 ≤ byte && byte ≤ 57

def digitValue (byte : UInt8) : Nat :=
  byte.toNat - 48

def zeroDigit : UInt8 := 48

def digitsValue (digits : Bytes) : Nat :=
  digits.foldl (fun value digit => value * 10 + digitValue digit) 0

variable {byte : UInt8}

theorem digit_bounds (digit : isDigit byte = true) : 48 ≤ byte.toNat ∧ byte.toNat ≤ 57 := by
  simp only [isDigit, Bool.and_eq_true, decide_eq_true_eq, UInt8.le_iff_toNat_le] at digit
  exact digit

theorem digitValue_lt (digit : isDigit byte = true) : digitValue byte < 10 := by
  have bounds := digit_bounds digit
  rw [digitValue]
  omega

theorem ofNat_digitValue (digit : isDigit byte = true) :
    UInt8.ofNat (digitValue byte + 48) = byte := by
  have bounds := digit_bounds digit
  rw [digitValue, Nat.sub_add_cancel bounds.1, UInt8.ofNat_toNat]

theorem digitValue_eq_zero (digit : isDigit byte = true) :
    digitValue byte = 0 ↔ byte = zeroDigit := by
  constructor
  · intro none
    rw [← ofNat_digitValue digit, none]
    rfl
  · intro equal
    rw [equal]
    rfl

variable {left right : Bytes}

theorem map_digitValue_injective (leftDigits : AllIn isDigit left)
    (rightDigits : AllIn isDigit right) (same : left.map digitValue = right.map digitValue) :
    left = right := by
  have restore : ∀ {digits : Bytes}, AllIn isDigit digits →
      (digits.map digitValue).map (fun value => UInt8.ofNat (value + 48)) = digits := by
    intro digits all
    rw [List.map_map]
    exact (List.map_congr_left fun byte member => ofNat_digitValue (all byte member)).trans
      (List.map_id digits)
  rw [← restore leftDigits, same, restore rightDigits]

variable (digits : Bytes)

theorem digitsValue_concat (digit : UInt8) :
    digitsValue (digits ++ [digit]) = digitsValue digits * 10 + digitValue digit := by
  rw [digitsValue, List.foldl_append]
  rfl

theorem digitsValue_eq_ofDigits :
    digitsValue digits = Nat.ofDigits 10 (digits.map digitValue).reverse := by
  induction digits using List.reverseRecOn with
  | nil => rfl
  | append_singleton digits digit induction =>
    rw [digitsValue_concat, List.map_append, List.reverse_append, induction]
    simp only [List.map_cons, List.map_nil, List.reverse_singleton, List.singleton_append,
      Nat.ofDigits_cons]
    ring

theorem digitsValue_append (left right : Bytes) :
    digitsValue (left ++ right) = digitsValue left * 10 ^ right.length + digitsValue right := by
  simp only [digitsValue_eq_ofDigits, List.map_append, List.reverse_append, Nat.ofDigits_append,
    List.length_reverse, List.length_map]
  ring

theorem digitsValue_replicate (count : Nat) : digitsValue (List.replicate count zeroDigit) = 0 := by
  rw [digitsValue_eq_ofDigits, List.map_replicate, List.reverse_replicate]
  exact Nat.ofDigits_replicate_zero

theorem digitsValue_zero_cons : digitsValue (zeroDigit :: digits) = digitsValue digits := by
  rw [← List.singleton_append, digitsValue_append]
  simp [digitsValue, digitValue, zeroDigit]

theorem digitValue_ofNat {digit : Char} (isDigit : digit.isDigit = true) :
    digitValue (UInt8.ofNat digit.toNat) = digit.toNat - '0'.toNat := by
  have bounds := Char.isDigit_iff_toNat.mp isDigit
  have nine : '9'.toNat = 57 := rfl
  rw [digitValue, UInt8.toNat_ofNat', Nat.mod_eq_of_lt (by omega)]
  rfl

theorem allIn_decimal (value : Nat) : AllIn isDigit (decimal value) := by
  intro byte member
  rcases List.mem_map.mp member with ⟨digit, listed, rfl⟩
  have bounds := Char.isDigit_iff_toNat.mp
    (Nat.isDigit_of_mem_toDigits (by decide) (by decide) listed)
  have nine : '9'.toNat = 57 := rfl
  simp only [AgentC.isDigit, Bool.and_eq_true, decide_eq_true_eq, UInt8.le_iff_toNat_le,
    UInt8.toNat_ofNat']
  rw [Nat.mod_eq_of_lt (by omega)]
  exact bounds

theorem digitsValue_decimal (value : Nat) : digitsValue (decimal value) = value := by
  have digits : ∀ digit ∈ Nat.toDigits 10 value, digit.isDigit = true := by
    intro digit member
    exact Nat.isDigit_of_mem_toDigits (by decide) (by decide) member
  have read : digitsValue (decimal value) = Nat.ofDigitChars 10 (Nat.toDigits 10 value) 0 := by
    rw [digitsValue, decimal, List.foldl_map, Nat.ofDigitChars_eq_foldl]
    apply List.foldl_ext
    intro total digit member
    rw [digitValue_ofNat (digits digit member), Nat.mul_comm]
  rw [read, Nat.ofDigitChars_ten_toDigits]

theorem decimal_injective {left right : Nat} (same : decimal left = decimal right) :
    left = right := by
  rw [← digitsValue_decimal left, same, digitsValue_decimal]

theorem digits_lt_ten {digits : Bytes} (all : AllIn isDigit digits) :
    ∀ digit ∈ (digits.map digitValue).reverse, digit < 10 := by
  intro digit member
  rw [List.mem_reverse, List.mem_map] at member
  rcases member with ⟨byte, member, equal⟩
  exact equal ▸ digitValue_lt (all byte member)

theorem digitsValue_lt {digits : Bytes} (all : AllIn isDigit digits) :
    digitsValue digits < 10 ^ digits.length := by
  have bound := Nat.ofDigits_lt_base_pow_length (b := 10) (by decide) (digits_lt_ten all)
  rwa [List.length_reverse, List.length_map, ← digitsValue_eq_ofDigits] at bound

theorem eq_of_digitsValue (leftDigits : AllIn isDigit left) (rightDigits : AllIn isDigit right)
    (length : left.length = right.length) (value : digitsValue left = digitsValue right) :
    left = right := by
  rw [digitsValue_eq_ofDigits, digitsValue_eq_ofDigits] at value
  apply map_digitValue_injective leftDigits rightDigits
  exact List.reverse_injective (Nat.ofDigits_inj_of_len_eq (by decide) (by simp [length])
    (digits_lt_ten leftDigits) (digits_lt_ten rightDigits) value)

theorem digitsValue_eq_zero {digits : Bytes} (all : AllIn isDigit digits) :
    digitsValue digits = 0 ↔ ∀ digit ∈ digits, digit = zeroDigit := by
  constructor
  · intro value
    have equal : digits = List.replicate digits.length zeroDigit := by
      apply eq_of_digitsValue all _ (by simp) (by rw [value, digitsValue_replicate])
      intro byte member
      rw [List.eq_of_mem_replicate member]
      rfl
    intro digit member
    rw [equal] at member
    exact List.eq_of_mem_replicate member
  · intro zeros
    rw [List.eq_replicate_of_mem zeros]
    exact digitsValue_replicate _

/-- A single zero, or no zero in front. -/
def NoLeadingZero (digits : Bytes) : Prop :=
  digits = [zeroDigit] ∨ ∃ first rest, digits = first :: rest ∧ first ≠ zeroDigit

theorem NoLeadingZero.ne_nil {digits : Bytes} (stripped : NoLeadingZero digits) : digits ≠ [] := by
  rcases stripped with equal | ⟨first, rest, equal, _⟩ <;> rw [equal] <;> exact nofun

theorem digitsValue_pos {first : UInt8} {rest : Bytes} (all : AllIn isDigit (first :: rest))
    (nonzero : first ≠ zeroDigit) : 0 < digitsValue (first :: rest) := by
  rw [Nat.pos_iff_ne_zero, Ne, digitsValue_eq_zero all]
  intro zeros
  exact nonzero (zeros first (List.mem_cons_self ..))

theorem NoLeadingZero.eq_of_value (leftStripped : NoLeadingZero left)
    (rightStripped : NoLeadingZero right) (leftDigits : AllIn isDigit left)
    (rightDigits : AllIn isDigit right) (value : digitsValue left = digitsValue right) :
    left = right := by
  have digits : ∀ {first rest}, AllIn isDigit (first :: rest) → first ≠ zeroDigit →
      Nat.digits 10 (digitsValue (first :: rest)) = ((first :: rest).map digitValue).reverse := by
    intro first rest all nonzero
    rw [digitsValue_eq_ofDigits]
    apply Nat.digits_ofDigits 10 (by decide) _ (digits_lt_ten all)
    intro nonempty
    simp only [List.map_cons, List.reverse_cons, List.getLast_concat]
    exact fun none => nonzero ((digitValue_eq_zero (allIn_cons.mp all).1).mp none)
  rcases leftStripped with leftZero | ⟨first, rest, leftEq, leftNonzero⟩
  · rcases rightStripped with rightZero | ⟨first, rest, rightEq, rightNonzero⟩
    · rw [leftZero, rightZero]
    · subst leftZero rightEq
      have positive := digitsValue_pos rightDigits rightNonzero
      rw [← value] at positive
      exact nomatch positive
  · rcases rightStripped with rightZero | ⟨other, others, rightEq, rightNonzero⟩
    · subst rightZero leftEq
      have positive := digitsValue_pos leftDigits leftNonzero
      rw [value] at positive
      exact nomatch positive
    · subst leftEq rightEq
      apply map_digitValue_injective leftDigits rightDigits
      apply List.reverse_injective
      rw [← digits leftDigits leftNonzero, ← digits rightDigits rightNonzero, value]

def trimLeading : Bytes → Bytes
  | [] => []
  | [digit] => [digit]
  | first :: second :: rest =>
    if first = zeroDigit then trimLeading (second :: rest) else first :: second :: rest

theorem digitsValue_trimLeading (rest : Bytes) :
    digitsValue (trimLeading digits ++ rest) = digitsValue (digits ++ rest) := by
  fun_induction trimLeading digits with
  | case1 => rfl
  | case2 digit => rfl
  | case3 second others induction =>
    rw [induction]
    exact (digitsValue_zero_cons _).symm
  | case4 first second others nonzero => rfl

theorem noLeadingZero_trimLeading {digits : Bytes} (nonempty : digits ≠ []) :
    NoLeadingZero (trimLeading digits) := by
  fun_induction trimLeading digits with
  | case1 => exact absurd rfl nonempty
  | case2 digit =>
    by_cases equal : digit = zeroDigit
    · exact .inl (by rw [equal])
    · exact .inr ⟨digit, [], rfl, equal⟩
  | case3 second others induction => exact induction nofun
  | case4 first second others nonzero => exact .inr ⟨first, second :: others, rfl, nonzero⟩

theorem trimLeading_sublist : (trimLeading digits).Sublist digits := by
  fun_induction trimLeading digits with
  | case1 => exact .slnil
  | case2 digit => exact List.Sublist.refl _
  | case3 second others induction => exact induction.cons _
  | case4 first second others nonzero => exact List.Sublist.refl _

theorem trimLeading_of_stripped {digits : Bytes} (stripped : NoLeadingZero digits) :
    trimLeading digits = digits := by
  rcases stripped with equal | ⟨first, rest, equal, nonzero⟩
  · rw [equal]
    rfl
  · subst equal
    rcases rest with _ | ⟨second, rest⟩
    · rfl
    · rw [trimLeading, if_neg nonzero]

def NoTrailingZero (digits : Bytes) : Prop :=
  ∀ nonempty : digits ≠ [], digits.getLast nonempty ≠ zeroDigit

def trimTrailing (digits : Bytes) : Bytes :=
  digits.rdropWhile fun digit => digit == zeroDigit

theorem trimTrailing_append :
    ∃ count, digits = trimTrailing digits ++ List.replicate count zeroDigit := by
  refine ⟨(digits.rtakeWhile fun digit => digit == zeroDigit).length, ?_⟩
  have zeros : ∀ digit ∈ digits.rtakeWhile fun digit => digit == zeroDigit, digit = zeroDigit := by
    intro digit member
    simpa using List.mem_rtakeWhile_imp member
  rw [← List.eq_replicate_of_mem zeros]
  exact (List.rdropWhile_append_rtakeWhile ..).symm

theorem noTrailingZero_trimTrailing : NoTrailingZero (trimTrailing digits) := by
  intro nonempty last
  exact List.rdropWhile_last_not _ digits nonempty (beq_iff_eq.mpr last)

theorem trimTrailing_of_stripped {digits : Bytes} (stripped : NoTrailingZero digits) :
    trimTrailing digits = digits := by
  rw [trimTrailing, List.rdropWhile_eq_self_iff]
  intro nonempty
  simpa using stripped nonempty

theorem trimTrailing_sublist : (trimTrailing digits).Sublist digits :=
  (List.rdropWhile_prefix _ digits).sublist

/-- The value of a decimal with these digits before and behind its point. -/
def decimalValue (integer fraction : Bytes) : ℚ :=
  digitsValue (integer ++ fraction) / 10 ^ fraction.length

variable (integer fraction : Bytes)

theorem decimalValue_nonneg : 0 ≤ decimalValue integer fraction :=
  div_nonneg (Nat.cast_nonneg _) (pow_nonneg (by norm_num) _)

structure CanonicalDecimal (integer fraction : Bytes) : Prop where
  integerDigits : AllIn isDigit integer
  fractionDigits : AllIn isDigit fraction
  noLeadingZero : NoLeadingZero integer
  noTrailingZero : NoTrailingZero fraction

theorem decimalValue_trimLeading :
    decimalValue (trimLeading integer) fraction = decimalValue integer fraction := by
  rw [decimalValue, digitsValue_trimLeading, decimalValue]

theorem decimalValue_trimTrailing :
    decimalValue integer (trimTrailing fraction) = decimalValue integer fraction := by
  rcases trimTrailing_append fraction with ⟨count, equal⟩
  have value : digitsValue (integer ++ fraction) =
      digitsValue (integer ++ trimTrailing fraction) * 10 ^ count := by
    nth_rewrite 1 [equal]
    rw [← List.append_assoc, digitsValue_append, digitsValue_replicate, List.length_replicate,
      Nat.add_zero]
  have length : fraction.length = (trimTrailing fraction).length + count := by
    nth_rewrite 1 [equal]
    rw [List.length_append, List.length_replicate]
  rw [decimalValue, decimalValue, value, length, pow_add]
  push_cast
  field_simp

theorem AllIn.of_sublist {inClass : UInt8 → Bool} {text whole : Bytes} (all : AllIn inClass whole)
    (sublist : text.Sublist whole) : AllIn inClass text :=
  fun byte member => all byte (sublist.subset member)

theorem canonicalDecimal_trim {integer fraction : Bytes} (integerDigits : AllIn isDigit integer)
    (fractionDigits : AllIn isDigit fraction) (nonempty : integer ≠ []) :
    CanonicalDecimal (trimLeading integer) (trimTrailing fraction) where
  integerDigits := integerDigits.of_sublist (trimLeading_sublist integer)
  fractionDigits := fractionDigits.of_sublist (trimTrailing_sublist fraction)
  noLeadingZero := noLeadingZero_trimLeading nonempty
  noTrailingZero := noTrailingZero_trimTrailing fraction

namespace CanonicalDecimal

variable {integer fraction otherInteger otherFraction : Bytes}

theorem not_dvd (canonical : CanonicalDecimal integer fraction) (nonempty : fraction ≠ []) :
    ¬10 ∣ digitsValue (integer ++ fraction) := by
  have last := canonical.noTrailingZero nonempty
  have digit := canonical.fractionDigits _ (List.getLast_mem nonempty)
  rw [← List.dropLast_append_getLast nonempty, ← List.append_assoc, digitsValue_concat]
  intro divides
  have bound := digitValue_lt digit
  have none : digitValue (fraction.getLast nonempty) = 0 := by omega
  exact last ((digitValue_eq_zero digit).mp none)

theorem cross_multiply
    (value : decimalValue integer fraction = decimalValue otherInteger otherFraction) :
    digitsValue (integer ++ fraction) * 10 ^ otherFraction.length =
      digitsValue (otherInteger ++ otherFraction) * 10 ^ fraction.length := by
  rw [decimalValue, decimalValue, div_eq_div_iff (by positivity) (by positivity)] at value
  exact_mod_cast value

theorem fraction_length_le (canonical : CanonicalDecimal integer fraction)
    (value : decimalValue integer fraction = decimalValue otherInteger otherFraction) :
    fraction.length ≤ otherFraction.length := by
  by_contra longer
  rw [Nat.not_le] at longer
  have nonempty : fraction ≠ [] := by
    intro equal
    rw [equal] at longer
    exact nomatch longer
  apply canonical.not_dvd nonempty
  have cross := cross_multiply value
  rcases Nat.exists_eq_add_of_lt longer with ⟨extra, length⟩
  rw [length, show otherFraction.length + extra + 1 = otherFraction.length + (extra + 1) by omega,
    pow_add, Nat.mul_comm (10 ^ otherFraction.length), ← Nat.mul_assoc] at cross
  rw [Nat.eq_of_mul_eq_mul_right (by positivity) cross, pow_succ]
  exact Dvd.dvd.mul_left (Dvd.intro_left _ rfl) _

theorem eq_of_value (canonical : CanonicalDecimal integer fraction)
    (other : CanonicalDecimal otherInteger otherFraction)
    (value : decimalValue integer fraction = decimalValue otherInteger otherFraction) :
    integer = otherInteger ∧ fraction = otherFraction := by
  have length : fraction.length = otherFraction.length :=
    Nat.le_antisymm (canonical.fraction_length_le value) (other.fraction_length_le value.symm)
  have whole := cross_multiply value
  rw [length] at whole
  have whole := Nat.eq_of_mul_eq_mul_right (by positivity) whole
  rw [digitsValue_append, digitsValue_append, length] at whole
  have bound := digitsValue_lt canonical.fractionDigits
  have otherBound := digitsValue_lt other.fractionDigits
  rw [length] at bound
  have positive : 0 < 10 ^ otherFraction.length := by positivity
  constructor
  · apply canonical.noLeadingZero.eq_of_value other.noLeadingZero canonical.integerDigits
      other.integerDigits
    have quotients := congrArg (· / 10 ^ otherFraction.length) whole
    simpa only [Nat.mul_comm _ (10 ^ _), Nat.mul_add_div positive, Nat.div_eq_of_lt bound,
      Nat.div_eq_of_lt otherBound, Nat.add_zero] using quotients
  · apply eq_of_digitsValue canonical.fractionDigits other.fractionDigits length
    have remainders := congrArg (· % 10 ^ otherFraction.length) whole
    simpa only [Nat.mul_add_mod_self_right, Nat.mod_eq_of_lt bound, Nat.mod_eq_of_lt otherBound]
      using remainders

theorem length_le (canonical : CanonicalDecimal integer fraction)
    (otherIntegerDigits : AllIn isDigit otherInteger)
    (otherFractionDigits : AllIn isDigit otherFraction) (nonempty : otherInteger ≠ [])
    (value : decimalValue otherInteger otherFraction = decimalValue integer fraction) :
    integer.length + fraction.length ≤ otherInteger.length + otherFraction.length := by
  have trimmed := canonicalDecimal_trim otherIntegerDigits otherFractionDigits nonempty
  rw [← decimalValue_trimLeading, ← decimalValue_trimTrailing] at value
  rcases canonical.eq_of_value trimmed value.symm with ⟨integerEq, fractionEq⟩
  rw [integerEq, fractionEq]
  exact Nat.add_le_add (trimLeading_sublist _).length_le (trimTrailing_sublist _).length_le

end CanonicalDecimal

end AgentC
