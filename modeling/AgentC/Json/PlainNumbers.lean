import AgentC.Json.Emit
import AgentC.Json.TokenParsing

/-! # Plain numbers

`emit_number_c14n` writes a number as a decimal without superfluous zeros and
without an exponent. Such a text is determined by the number's value. -/

namespace AgentC.Json

theorem isExponentMark_of_isDigit {byte : UInt8} (digit : isDigit byte = true) :
    isExponentMark byte = false := by
  by_contra mark
  rw [Bool.not_eq_false] at mark
  rcases eq_of_isExponentMark mark with equal | equal <;> rw [equal] at digit <;> exact nomatch digit

namespace NumberParts

variable {parts : NumberParts}

def exponentNumber (parts : NumberParts) : Int :=
  if parts.exponent = [] then 0 else exponentValue (parts.exponentSign ++ parts.exponent)

theorem Valid.head_text (valid : parts.Valid) :
    parts.text.head? = some 45 ↔ parts.negative = true := by
  rw [text, signText, List.append_assoc, List.append_assoc]
  split
  · next negative => exact ⟨fun _ => negative, fun _ => rfl⟩
  · next positive => exact ⟨fun equal => absurd equal (valid.integer_unsigned _),
      fun negative => absurd negative positive⟩

theorem Valid.magnitude_text (valid : parts.Valid) :
    (if parts.text.head? = some 45 then parts.text.tail else parts.text) =
      parts.integer ++ parts.fractionText ++ parts.exponentText := by
  by_cases negative : parts.negative = true
  · rw [if_pos (valid.head_text.mpr negative), text, signText, if_pos negative]
    rfl
  · rw [if_neg (fun signed => negative (valid.head_text.mp signed)), text, signText,
      if_neg negative]
    rfl

theorem Valid.mantissa_unmarked (valid : parts.Valid) :
    AllIn (fun byte => !isExponentMark byte) (parts.integer ++ parts.fractionText) := by
  have digits : ∀ {text : Bytes}, AllIn isDigit text →
      AllIn (fun byte => !isExponentMark byte) text := by
    intro text all byte member
    show (!isExponentMark byte) = true
    rw [isExponentMark_of_isDigit (all byte member)]
    rfl
  rw [allIn_append]
  refine ⟨digits valid.integerDigits, ?_⟩
  rw [fractionText]
  split
  · exact allIn_nil _
  · exact allIn_cons.mpr ⟨rfl, digits valid.fractionDigits⟩

theorem Valid.exponentText_marked (valid : parts.Valid) :
    StopsAt (fun byte => !isExponentMark byte) parts.exponentText := by
  rw [exponentText]
  split
  · rintro _ ⟨⟩
  · rw [stopsAt_cons, valid.mark]
    rfl

theorem tail_fractionText (parts : NumberParts) : parts.fractionText.tail = parts.fraction := by
  rw [fractionText]
  split
  · next absent => rw [absent]; rfl
  · rfl

theorem exponentValue_tail (parts : NumberParts) :
    exponentValue parts.exponentText.tail = parts.exponentNumber := by
  rw [exponentText, exponentNumber]
  split
  · rfl
  · rfl

theorem Valid.tokenValue_text (valid : parts.Valid) :
    tokenValue parts.text = (if parts.negative = true then -1 else 1) *
      (digitsValue (parts.integer ++ parts.fraction) *
        10 ^ (parts.exponentNumber - parts.fraction.length)) := by
  have fractionStops : StopsAt isDigit parts.fractionText := by
    rw [fractionText]
    split
    · rintro _ ⟨⟩
    · exact stopsAt_cons.mpr rfl
  rw [tokenValue, valid.magnitude_text]
  simp only [valid.head_text,
    takeWhile_append_of_stop valid.mantissa_unmarked valid.exponentText_marked,
    dropWhile_append_of_stop valid.mantissa_unmarked valid.exponentText_marked,
    takeWhile_append_of_stop valid.integerDigits fractionStops,
    dropWhile_append_of_stop valid.integerDigits fractionStops, tail_fractionText,
    exponentValue_tail]

end NumberParts

theorem digitsValue_cons (digit : UInt8) (rest : Bytes) :
    digitsValue (digit :: rest) = digitValue digit * 10 ^ rest.length + digitsValue rest := by
  rw [← List.singleton_append, digitsValue_append]
  simp [digitsValue]

variable {digits : Bytes}

theorem parseI64Digits_eq_some {value result : Int}
    (parsed : parseI64Digits value digits = some result) :
    result = value * 10 ^ digits.length + digitsValue digits := by
  induction digits generalizing value with
  | nil =>
    rw [parseI64Digits, Option.some.injEq] at parsed
    simp [parsed, digitsValue]
  | cons digit rest induction =>
    rw [parseI64Digits] at parsed
    split at parsed
    · split at parsed
      · cases parsed
      · rw [induction parsed, digitsValue_cons, List.length_cons]
        push_cast
        ring
    · cases parsed

theorem parseI64Clamped_eq_some {result : Int} (all : AllIn isDigit digits)
    (parsed : parseI64Clamped digits = some result) : result = digitsValue digits := by
  rw [parseI64Clamped.eq_def] at parsed
  split at parsed
  · exact nomatch parsed
  · next first rest =>
    have digit := (allIn_cons.mp all).1
    have notPlus : first ≠ plus := by
      intro equal
      rw [equal] at digit
      exact nomatch digit
    rw [if_neg (ne_minus_of_isDigit digit), if_neg notPlus] at parsed
    rw [parseI64Digits_eq_some parsed, Int.zero_mul, Int.zero_add]

namespace NumberParts

variable {parts : NumberParts}

def scannedExponent (parts : NumberParts) : Option Int :=
  if parts.exponent = [] then some 0
  else (parseI64Clamped parts.exponent).map fun value =>
    if parts.exponentSign = [minus] then -value else value

theorem Valid.exponentValue_append (valid : parts.Valid) (present : parts.exponent ≠ []) :
    exponentValue (parts.exponentSign ++ parts.exponent) =
      if parts.exponentSign = [minus] then -(digitsValue parts.exponent : Int)
      else digitsValue parts.exponent := by
  rcases valid.exponentSign with none | positive | negative
  · rw [none, List.nil_append, if_neg nofun]
    rcases list : parts.exponent with _ | ⟨first, rest⟩
    · exact absurd list present
    · have digit := valid.exponentDigits first (list ▸ List.mem_cons_self ..)
      have notMinus : first ≠ 45 := ne_minus_of_isDigit digit
      have notPlus : first ≠ 43 := by
        intro equal
        rw [equal] at digit
        exact nomatch digit
      rw [exponentValue, if_neg notMinus, if_neg notPlus]
  · rw [positive]
    rfl
  · rw [negative]
    rfl

theorem Valid.scannedExponent_eq_some (valid : parts.Valid) {value : Int}
    (scanned : parts.scannedExponent = some value) : value = parts.exponentNumber := by
  rw [scannedExponent] at scanned
  rw [exponentNumber]
  split at scanned
  · next absent => rw [if_pos absent, Option.some.inj scanned]
  · next present =>
    rw [Option.map_eq_some_iff] at scanned
    rcases scanned with ⟨magnitude, parsed, equal⟩
    rw [if_neg present, valid.exponentValue_append present, ← equal,
      parseI64Clamped_eq_some valid.exponentDigits parsed]

theorem Valid.scanExponent_text (valid : parts.Valid) :
    scanExponent parts.exponentText =
      match parts.scannedExponent with
      | none => .error (.invalid "invalid exponent")
      | some value => .ok (value, []) := by
  rw [scanExponent, exponentText, scannedExponent]
  by_cases absent : parts.exponent = []
  · simp only [if_pos absent]
    rfl
  · have signed := @Valid.takeExponentSign_append parts [] valid absent
    have digits := @takeDigits_append parts.exponent [] valid.exponentDigits
      (by rintro _ ⟨⟩)
    rw [List.append_nil] at signed digits
    have nonempty : parts.exponentSign ++ parts.exponent ≠ [] := by simp [absent]
    simp only [if_neg absent, List.head?_cons, Option.any_some, valid.mark, if_true,
      List.tail_cons, if_neg nonempty, signed, digits]
    cases parseI64Clamped parts.exponent with
    | none => rfl
    | some value => rfl

theorem Valid.scanInteger (valid : parts.Valid) {rest : Bytes} (stops : StopsAt isDigit rest) :
    (if (parts.integer ++ rest).head? = some zeroDigit
      then ([zeroDigit], (parts.integer ++ rest).tail)
      else takeDigits (parts.integer ++ rest)) = (parts.integer, rest) := by
  rcases valid.integer with equal | ⟨first, others, equal, nonzero⟩
  · rw [equal]
    rfl
  · rw [if_neg, takeDigits_append valid.integerDigits stops]
    rw [equal]
    simpa using nonzero

theorem Valid.scanFraction (valid : parts.Valid) {rest : Bytes}
    (stops : ∀ byte, rest.head? = some byte → isDigit byte = false ∧ byte ≠ dot) :
    (if (parts.fractionText ++ rest).head? = some dot
      then takeDigits (parts.fractionText ++ rest).tail
      else ([], parts.fractionText ++ rest)) = (parts.fraction, rest) := by
  rw [fractionText]
  split
  · next absent => rw [List.nil_append, if_neg fun equal => (stops dot equal).2 rfl, absent]
  · exact takeDigits_append valid.fractionDigits fun byte first => (stops byte first).1

theorem Valid.scanNumber_text (valid : parts.Valid) :
    scanNumber parts.text =
      match parts.scannedExponent with
      | none => .error (.invalid "invalid exponent")
      | some value => .ok ⟨parts.negative, parts.integer, parts.fraction, value⟩ := by
  have ended : StopsAt isNumberByte [] := fun _ absent => nomatch absent
  have integerStops := valid.fractionText_stops ended
  have fractionStops := valid.exponentText_stops ended
  rw [List.append_nil] at integerStops fractionStops
  have nonempty : parts.integer ++ (parts.fractionText ++ parts.exponentText) ≠ [] := by
    simp [valid.integer.ne_nil]
  have sign : decide (parts.signText = [minus]) = parts.negative := by
    rw [signText]
    cases parts.negative <;> rfl
  simp only [scanNumber, text, List.append_assoc, takeMinus_append (valid.integer_unsigned _),
    if_neg nonempty, valid.scanInteger integerStops, valid.scanFraction fractionStops,
    valid.scanExponent_text]
  cases parts.scannedExponent with
  | none => rfl
  | some value => simp only [if_true, sign]

end NumberParts

namespace ScannedNumber

variable {number : ScannedNumber}

theorem decimalValue_of_nonpos (nonpositive : number.dotPos ≤ 0) :
    decimalValue number.plainInteger number.plainFraction =
      digitsValue number.digits * 10 ^ (number.dotPos - number.digits.length) := by
  have exponent : number.dotPos - number.digits.length =
      -(((-number.dotPos).toNat + number.digits.length : Nat) : Int) := by omega
  rw [plainInteger, plainFraction, if_pos nonpositive, if_pos nonpositive,
    decimalValue_trimTrailing, decimalValue, List.singleton_append, digitsValue_zero_cons,
    digitsValue_append, digitsValue_replicate, exponent, zpow_neg, zpow_natCast,
    List.length_append, List.length_replicate]
  simp [div_eq_mul_inv]

theorem decimalValue_of_digits_le (positive : ¬number.dotPos ≤ 0)
    (beyond : number.digits.length ≤ number.dotPos) :
    decimalValue number.plainInteger number.plainFraction =
      digitsValue number.digits * 10 ^ (number.dotPos - number.digits.length) := by
  have exponent : number.dotPos - number.digits.length =
      ((number.dotPos - number.digits.length).toNat : Int) := by omega
  rw [plainInteger, plainFraction, if_neg positive, if_neg positive, if_pos beyond, if_pos beyond,
    decimalValue, List.append_nil, digitsValue_trimLeading, digitsValue_append,
    digitsValue_replicate, List.length_replicate]
  rw [exponent, zpow_natCast]
  simp

theorem decimalValue_of_inside (positive : ¬number.dotPos ≤ 0)
    (inside : ¬number.digits.length ≤ number.dotPos) :
    decimalValue number.plainInteger number.plainFraction =
      digitsValue number.digits * 10 ^ (number.dotPos - number.digits.length) := by
  have exponent : number.dotPos - number.digits.length =
      -((number.digits.length - number.dotPos.toNat : Nat) : Int) := by omega
  rw [plainInteger, plainFraction, if_neg positive, if_neg positive, if_neg inside, if_neg inside,
    decimalValue_trimTrailing, decimalValue_trimLeading, decimalValue, List.take_append_drop,
    List.length_drop, exponent, zpow_neg, zpow_natCast, div_eq_mul_inv]

theorem decimalValue_plain (number : ScannedNumber) :
    decimalValue number.plainInteger number.plainFraction =
      digitsValue number.digits * 10 ^ (number.exponent - number.fraction.length) := by
  have exponent : number.exponent - number.fraction.length =
      number.dotPos - number.digits.length := by
    simp only [dotPos, digits, List.length_append]
    omega
  rw [exponent]
  by_cases nonpositive : number.dotPos ≤ 0
  · exact decimalValue_of_nonpos nonpositive
  · by_cases beyond : number.digits.length ≤ number.dotPos
    · exact decimalValue_of_digits_le nonpositive beyond
    · exact decimalValue_of_inside nonpositive beyond

theorem allIn_replicate_zero (count : Nat) : AllIn isDigit (List.replicate count zeroDigit) := by
  intro byte member
  rw [List.eq_of_mem_replicate member]
  rfl

theorem noLeadingZero_append (nonzero : digitsValue digits ≠ 0) (rest : Bytes) :
    NoLeadingZero (trimLeading digits ++ rest) := by
  have nonempty : digits ≠ [] := by
    intro equal
    rw [equal] at nonzero
    exact nonzero rfl
  rcases noLeadingZero_trimLeading nonempty with single | ⟨first, others, equal, isNonzero⟩
  · have value := digitsValue_trimLeading digits []
    rw [List.append_nil, List.append_nil, single] at value
    exact absurd value.symm nonzero
  · exact .inr ⟨first, others ++ rest, by rw [equal]; rfl, isNonzero⟩

theorem canonical_plain (all : AllIn isDigit number.digits)
    (nonzero : digitsValue number.digits ≠ 0) :
    CanonicalDecimal number.plainInteger number.plainFraction := by
  rw [plainInteger, plainFraction]
  by_cases nonpositive : number.dotPos ≤ 0
  · rw [if_pos nonpositive, if_pos nonpositive]
    have single : AllIn isDigit [zeroDigit] := allIn_replicate_zero 1
    exact canonicalDecimal_trim single (allIn_append.mpr ⟨allIn_replicate_zero _, all⟩) nofun
  · rw [if_neg nonpositive, if_neg nonpositive]
    by_cases beyond : number.digits.length ≤ number.dotPos
    · rw [if_pos beyond, if_pos beyond]
      exact ⟨allIn_append.mpr ⟨all.of_sublist (trimLeading_sublist _), allIn_replicate_zero _⟩,
        allIn_nil _, noLeadingZero_append nonzero _, fun nonempty => absurd rfl nonempty⟩
    · rw [if_neg beyond, if_neg beyond]
      have nonempty : number.digits.take number.dotPos.toNat ≠ [] := by
        intro equal
        have length := congrArg List.length equal
        rw [List.length_take, List.length_nil] at length
        omega
      exact canonicalDecimal_trim (all.of_sublist (List.take_sublist ..))
        (all.of_sublist (List.drop_sublist ..)) nonempty

end ScannedNumber

/-- A signed decimal without superfluous zeros and without a sign on zero. -/
structure PlainForm (negative : Bool) (integer fraction : Bytes) : Prop where
  decimal : CanonicalDecimal integer fraction
  signed : negative = true → decimalValue integer fraction ≠ 0

def plainParts (negative : Bool) (integer fraction : Bytes) : NumberParts :=
  ⟨negative, integer, fraction, 101, [], []⟩

def plainValue (negative : Bool) (integer fraction : Bytes) : ℚ :=
  (if negative = true then -1 else 1) * decimalValue integer fraction

theorem abs_plainValue (negative : Bool) (integer fraction : Bytes) :
    |plainValue negative integer fraction| = decimalValue integer fraction := by
  rw [plainValue]
  cases negative
  · rw [if_neg Bool.false_ne_true, one_mul, abs_of_nonneg (decimalValue_nonneg ..)]
  · rw [if_pos rfl, neg_one_mul, abs_neg, abs_of_nonneg (decimalValue_nonneg ..)]

theorem plainForm_zero : PlainForm false [zeroDigit] [] where
  decimal := ⟨ScannedNumber.allIn_replicate_zero 1, allIn_nil _, .inl rfl,
    fun nonempty => absurd rfl nonempty⟩
  signed := nofun

namespace PlainForm

variable {negative otherNegative : Bool} {integer fraction otherInteger otherFraction : Bytes}

theorem valid (plain : PlainForm negative integer fraction) :
    (plainParts negative integer fraction).Valid where
  integer := plain.decimal.noLeadingZero
  integerDigits := plain.decimal.integerDigits
  fractionDigits := plain.decimal.fractionDigits
  mark := rfl
  exponentSign := .inl rfl
  exponentDigits := allIn_nil _

theorem tokenValue_text (plain : PlainForm negative integer fraction) :
    tokenValue (plainParts negative integer fraction).text =
      plainValue negative integer fraction := by
  have exponent : (plainParts negative integer fraction).exponentNumber = 0 := rfl
  rw [plain.valid.tokenValue_text, exponent, plainValue, decimalValue, zero_sub, zpow_neg,
    zpow_natCast, div_eq_mul_inv]
  rfl

theorem eq_of_value (plain : PlainForm negative integer fraction)
    (other : PlainForm otherNegative otherInteger otherFraction)
    (value : plainValue negative integer fraction =
      plainValue otherNegative otherInteger otherFraction) :
    negative = otherNegative ∧ integer = otherInteger ∧ fraction = otherFraction := by
  have magnitude := congrArg abs value
  rw [abs_plainValue, abs_plainValue] at magnitude
  refine ⟨?_, plain.decimal.eq_of_value other.decimal magnitude⟩
  have negation : ∀ {integer fraction : Bytes}, decimalValue integer fraction ≠ 0 →
      plainValue true integer fraction ≠ plainValue false integer fraction := by
    intro integer fraction nonzero equal
    simp only [plainValue, if_true, if_neg Bool.false_ne_true] at equal
    apply nonzero
    linarith
  rcases plain.decimal.eq_of_value other.decimal magnitude with ⟨sameInteger, sameFraction⟩
  subst sameInteger sameFraction
  cases negative with
  | false =>
    cases otherNegative with
    | false => rfl
    | true => exact absurd value.symm (negation (other.signed rfl))
  | true =>
    cases otherNegative with
    | false => exact absurd value (negation (plain.signed rfl))
    | true => rfl

end PlainForm

theorem plainForm_of_numberText {token text : Bytes} (number : IsNumber token)
    (written : numberText token = .ok text) :
    ∃ negative integer fraction, PlainForm negative integer fraction ∧
      text = (plainParts negative integer fraction).text ∧
      plainValue negative integer fraction = tokenValue token := by
  rcases number with ⟨parts, valid, equal⟩
  subst equal
  rw [numberText] at written
  split at written
  · cases written
  · rw [valid.scanNumber_text] at written
    cases scanned : parts.scannedExponent with
    | none =>
      rw [scanned] at written
      cases written
    | some exponent =>
      rw [scanned] at written
      have exponentEq := valid.scannedExponent_eq_some scanned
      have all : AllIn isDigit (parts.integer ++ parts.fraction) :=
        allIn_append.mpr ⟨valid.integerDigits, valid.fractionDigits⟩
      simp only at written
      split at written
      · cases written
      · split at written
        · next zeros =>
          cases written
          refine ⟨false, [zeroDigit], [], plainForm_zero, rfl, ?_⟩
          have none := (digitsValue_eq_zero all).mpr zeros
          rw [valid.tokenValue_text, none]
          simp [plainValue, decimalValue, digitsValue, digitValue, zeroDigit]
        · next nonzero =>
          have nonzeroValue : digitsValue (parts.integer ++ parts.fraction) ≠ 0 :=
            fun none => nonzero ((digitsValue_eq_zero all).mp none)
          split at written
          · cases written
          · cases written
            let number : ScannedNumber :=
              ⟨parts.negative, parts.integer, parts.fraction, exponent⟩
            have value := number.decimalValue_plain
            have positive : decimalValue number.plainInteger number.plainFraction ≠ 0 := by
              rw [value]
              exact mul_ne_zero (Nat.cast_ne_zero.mpr nonzeroValue) (zpow_ne_zero _ (by norm_num))
            refine ⟨parts.negative, number.plainInteger, number.plainFraction,
              ⟨ScannedNumber.canonical_plain all nonzeroValue, fun _ => positive⟩,
              (List.append_nil _).symm, ?_⟩
            rw [plainValue, value, valid.tokenValue_text, ← exponentEq]
            rfl

namespace PlainForm

variable {negative : Bool} {integer fraction : Bytes}

def scanned (negative : Bool) (integer fraction : Bytes) : ScannedNumber :=
  ⟨negative, integer, fraction, 0⟩

theorem scanNumber_text (plain : PlainForm negative integer fraction) :
    scanNumber (plainParts negative integer fraction).text =
      .ok (scanned negative integer fraction) := by
  rw [plain.valid.scanNumber_text]
  rfl

theorem dotPos_pos (plain : PlainForm negative integer fraction) :
    ¬(scanned negative integer fraction).dotPos ≤ 0 := by
  have positive := List.length_pos_iff.mpr plain.decimal.noLeadingZero.ne_nil
  simp only [ScannedNumber.dotPos, scanned]
  omega

theorem digits_le_dotPos_iff : (scanned negative integer fraction).digits.length ≤
      (scanned negative integer fraction).dotPos ↔ fraction = [] := by
  rw [← List.length_eq_zero_iff]
  simp only [ScannedNumber.dotPos, ScannedNumber.digits, scanned, List.length_append]
  omega

theorem plainInteger_scanned (plain : PlainForm negative integer fraction) :
    (scanned negative integer fraction).plainInteger = integer := by
  have stripped := trimLeading_of_stripped plain.decimal.noLeadingZero
  rw [ScannedNumber.plainInteger, if_neg plain.dotPos_pos]
  split
  · next beyond =>
    have empty := digits_le_dotPos_iff.mp beyond
    subst empty
    simp [ScannedNumber.digits, ScannedNumber.dotPos, scanned, stripped]
  · simp [ScannedNumber.digits, ScannedNumber.dotPos, scanned, stripped]

theorem plainFraction_scanned (plain : PlainForm negative integer fraction) :
    (scanned negative integer fraction).plainFraction = fraction := by
  have stripped := trimTrailing_of_stripped plain.decimal.noTrailingZero
  rw [ScannedNumber.plainFraction, if_neg plain.dotPos_pos]
  split
  · next beyond => exact (digits_le_dotPos_iff.mp beyond).symm
  · simp [ScannedNumber.digits, ScannedNumber.dotPos, scanned, stripped]

theorem plainText_scanned (plain : PlainForm negative integer fraction) :
    (scanned negative integer fraction).plainText =
      (plainParts negative integer fraction).text := by
  rw [ScannedNumber.plainText, plain.plainInteger_scanned, plain.plainFraction_scanned]
  exact (List.append_nil _).symm

theorem text_of_zeros (plain : PlainForm negative integer fraction)
    (zeros : ∀ digit ∈ integer ++ fraction, digit = zeroDigit) :
    (plainParts negative integer fraction).text = [zeroDigit] := by
  have all : AllIn isDigit (integer ++ fraction) :=
    allIn_append.mpr ⟨plain.decimal.integerDigits, plain.decimal.fractionDigits⟩
  have value : plainValue negative integer fraction = plainValue false [zeroDigit] [] := by
    rw [plainValue, decimalValue, (digitsValue_eq_zero all).mpr zeros]
    simp [plainValue, decimalValue, digitsValue, digitValue, zeroDigit]
  rcases plain.eq_of_value plainForm_zero value with ⟨sign, integerEq, fractionEq⟩
  rw [sign, integerEq, fractionEq]
  rfl

theorem outLength_bounds (plain : PlainForm negative integer fraction)
    (short : integer.length + fraction.length ≤ ScannedNumber.maxDigits) :
    ¬((scanned negative integer fraction).outLength < 0 ∨
      ScannedNumber.maxOut < (scanned negative integer fraction).outLength) := by
  have positive := plain.dotPos_pos
  rw [ScannedNumber.outLength, if_neg positive]
  simp only [ScannedNumber.maxDigits] at short
  split <;>
    · simp only [ScannedNumber.dotPos, ScannedNumber.digits, scanned, List.length_append,
        ScannedNumber.maxOut] at *
      omega

theorem numberText_text (plain : PlainForm negative integer fraction) :
    numberText (plainParts negative integer fraction).text =
      if integer.length + fraction.length ≤ ScannedNumber.maxDigits
      then .ok (plainParts negative integer fraction).text
      else .error ⟨.bounds, "number too large"⟩ := by
  have nonemptyInteger := List.length_pos_iff.mpr plain.decimal.noLeadingZero.ne_nil
  have nonempty : (plainParts negative integer fraction).text ≠ [] := by
    simp [NumberParts.text, plainParts, plain.decimal.noLeadingZero.ne_nil]
  have length : (scanned negative integer fraction).digits.length =
      integer.length + fraction.length := List.length_append
  rw [numberText, if_neg nonempty, plain.scanNumber_text]
  simp only [length]
  by_cases short : integer.length + fraction.length ≤ ScannedNumber.maxDigits
  · rw [if_neg (by omega), if_pos short]
    split
    · next zeros => rw [plain.text_of_zeros zeros]
    · rw [if_neg (plain.outLength_bounds short), plain.plainText_scanned]
  · rw [if_pos (by omega), if_neg short]

end PlainForm

end AgentC.Json
