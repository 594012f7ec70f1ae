import AgentC.Foundation.SignedArithmetic
import AgentC.Json.PlainNumbers

/-! # The arithmetic of numbers

`parse_i64_clamped` and `emit_number_c14n` with the 64-bit operations that they perform. An
exponent that fits in 64 bits may be too close to the limits for the position of the point
or for the length of the output. -/

namespace AgentC.Json

/-- The loop of `parse_i64_clamped`. -/
def parseDigitsI64 : Int → Bytes → Defined (Option Int)
  | value, [] => pure (some value)
  | value, byte :: rest =>
    if isDigit byte then do
      let room ← signed 64 (int64Max - digitValue byte)
      if room / 10 < value then return none
      let shifted ← signed 64 (value * 10)
      let value ← signed 64 (shifted + digitValue byte)
      parseDigitsI64 value rest
    else pure none

def negateI64 (negative : Bool) : Option Int → Defined (Option Int)
  | none => pure none
  | some value => if negative then return some (← signed 64 (-value)) else pure (some value)

/-- `parse_i64_clamped` -/
def parseClampedI64 (text : Bytes) : Defined (Option Int) :=
  match text with
  | [] => pure none
  | first :: rest =>
    if first = minus then
      if rest = [] then pure none
      else do
        let value ← parseDigitsI64 0 rest
        negateI64 true value
    else if first = plus then pure none
    else parseDigitsI64 0 text

def scanExponentI64 (input : Bytes) : Defined (Except Failure (Int × Bytes)) :=
  if input.head?.any isExponentMark then
    if input.tail = [] then pure (.error (.invalid "invalid exponent"))
    else do
      let (sign, rest) := takeExponentSign input.tail
      let value ← parseClampedI64 (takeDigits rest).1
      let value ← negateI64 (sign = [minus]) value
      match value with
      | none => return .error (.invalid "invalid exponent")
      | some value => return .ok (value, (takeDigits rest).2)
  else pure (.ok (0, input))

def scanNumberI64 (token : Bytes) : Defined (Except Failure ScannedNumber) :=
  let (sign, rest) := takeMinus token
  if rest = [] then pure (.error (.invalid "invalid number"))
  else do
    let (integer, rest) :=
      if rest.head? = some zeroDigit then ([zeroDigit], rest.tail) else takeDigits rest
    let (fraction, rest) := if rest.head? = some dot then takeDigits rest.tail else ([], rest)
    match ← scanExponentI64 rest with
    | .error failure => return .error failure
    | .ok (exponent, rest) =>
      if rest = [] then return .ok ⟨sign = [minus], integer, fraction, exponent⟩
      else return .error (.invalid "invalid number")

namespace ScannedNumber

/-- `out_len_est` -/
def outLengthI64 (number : ScannedNumber) (dotPos : Int) : Defined Int :=
  if dotPos ≤ 0 then do
    let zeros ← signed 64 (-dotPos)
    let front ← signed 64 (2 + zeros)
    signed 64 (front + number.digits.length)
  else if number.digits.length ≤ dotPos then pure dotPos
  else signed 64 (number.digits.length + 1)

def zerosI64 (number : ScannedNumber) (dotPos : Int) : Defined Int :=
  if dotPos ≤ 0 then signed 64 (-dotPos)
  else if number.digits.length < dotPos then signed 64 (dotPos - number.digits.length)
  else pure 0

def guardedI64 (number : ScannedNumber) (dotPos outLength : Int) : Defined (Except Failure Bytes) :=
  if outLength < 0 ∨ maxOut < outLength then
    return .error ⟨.bounds, "number expansion too large"⟩
  else do
    let _ ← number.zerosI64 dotPos
    return .ok number.plainText

def plainTextI64 (number : ScannedNumber) : Defined (Except Failure Bytes) := do
  let dotPos ← signed 64 (number.integer.length + number.exponent)
  let outLength ← number.outLengthI64 dotPos
  number.guardedI64 dotPos outLength

end ScannedNumber

/-- `emit_number_c14n`: the text that is appended. -/
def numberTextI64 (token : Bytes) : Defined (Except Failure Bytes) :=
  if token = [] then pure (.error (.invalid ""))
  else do
    match ← scanNumberI64 token with
    | .error failure => return .error failure
    | .ok number =>
      if number.digits.length = 0 ∨ ScannedNumber.maxDigits < number.digits.length then
        return .error ⟨.bounds, "number too large"⟩
      else if ∀ digit ∈ number.digits, digit = zeroDigit then return .ok [zeroDigit]
      else number.plainTextI64

variable {value : Int}

theorem parseDigitsI64_computes (text : Bytes) (positive : 0 ≤ value) (fits : value ≤ int64Max) :
    Computes (parseDigitsI64 value text) True (parseI64Digits value text) := by
  induction text generalizing value with
  | nil => exact .pure _
  | cons byte rest induction =>
    rw [parseDigitsI64, parseI64Digits]
    split
    · next digit =>
      have small := digitValue_lt digit
      rw [int64Max] at fits ⊢
      apply (Computes.fits (by constructor <;> omega)).then_safe
      split
      · exact .pure _
      · next inRange =>
        apply (Computes.fits (by constructor <;> omega)).then_safe
        apply (Computes.fits (by constructor <;> omega)).then_safe
        exact induction (by omega) (by rw [int64Max]; omega)
    · exact .pure _

theorem parseI64Digits_bounds {text : Bytes} {result : Int} (positive : 0 ≤ value)
    (fits : value ≤ int64Max) (parsed : parseI64Digits value text = some result) :
    0 ≤ result ∧ result ≤ int64Max := by
  induction text generalizing value with
  | nil =>
    cases parsed
    exact ⟨positive, fits⟩
  | cons byte rest induction =>
    rw [parseI64Digits] at parsed
    split at parsed
    · split at parsed
      · cases parsed
      · next inRange =>
        apply induction (by omega) _ parsed
        rw [int64Max] at inRange ⊢
        omega
    · cases parsed

theorem negateI64_computes (negative : Bool) {read : Option Int}
    (fits : ∀ value ∈ read, InSigned 64 (-value)) :
    Computes (negateI64 negative read) True
      (read.map fun value => if negative then -value else value) := by
  cases read with
  | none => exact .pure none
  | some value =>
    rw [negateI64, Option.map_some]
    split
    · exact (Computes.fits (fits value rfl)).then_safe (.pure _)
    · exact .pure _

theorem parseClampedI64_computes (text : Bytes) :
    Computes (parseClampedI64 text) True (parseI64Clamped text) := by
  rw [parseClampedI64.eq_def, parseI64Clamped.eq_def]
  cases text with
  | nil => exact .pure none
  | cons first rest =>
    dsimp only
    split
    · split
      · exact .pure none
      · apply (parseDigitsI64_computes rest (Int.le_refl 0) (by decide)).then_safe
        apply negateI64_computes true
        intro value read
        have bounds := parseI64Digits_bounds (Int.le_refl 0) (by decide) read
        rw [int64Max] at bounds
        constructor <;> omega
    · split
      · exact .pure none
      · exact parseDigitsI64_computes _ (Int.le_refl 0) (by decide)

theorem parseI64Clamped_bounds {text : Bytes} (parsed : parseI64Clamped text = some value) :
    InSigned 64 (-value) := by
  have whole : ∀ {text result}, parseI64Digits 0 text = some result →
      0 ≤ result ∧ result ≤ int64Max := fun read =>
    parseI64Digits_bounds (Int.le_refl 0) (by decide) read
  rw [int64Max] at whole
  rw [parseI64Clamped.eq_def] at parsed
  split at parsed
  · cases parsed
  · split at parsed
    · split at parsed
      · cases parsed
      · rcases Option.map_eq_some_iff.mp parsed with ⟨magnitude, read, same⟩
        have bounds := whole read
        constructor <;> omega
    · split at parsed
      · cases parsed
      · have bounds := whole parsed
        constructor <;> omega

theorem scanExponentI64_computes (input : Bytes) :
    Computes (scanExponentI64 input) True (scanExponent input) := by
  rw [scanExponentI64, scanExponent]
  generalize takeExponentSign input.tail = taken
  rcases taken with ⟨sign, rest⟩
  split
  · split
    · exact .pure _
    · apply (parseClampedI64_computes _).then_safe
      apply (negateI64_computes _ fun value read => parseI64Clamped_bounds read).then_safe
      dsimp only
      cases parseI64Clamped (takeDigits rest).1 with
      | none => exact .pure _
      | some value =>
        simp only [Option.map_some, decide_eq_true_eq]
        exact .pure _
  · exact .pure _

theorem scanNumberI64_computes (token : Bytes) :
    Computes (scanNumberI64 token) True (scanNumber token) := by
  rw [scanNumberI64, scanNumber]
  generalize takeMinus token = signed
  rcases signed with ⟨sign, rest⟩
  dsimp only
  split
  · exact .pure _
  · generalize (if rest.head? = some zeroDigit then _ else takeDigits rest) = integer
    generalize (if integer.2.head? = some dot then _ else _) = fraction
    apply (scanExponentI64_computes fraction.2).then_safe
    cases scanExponent fraction.2 with
    | error failure => exact .pure _
    | ok read =>
      dsimp only
      split <;> exact .pure _

/-- A number whose digits are counted fits, and so does its exponent with either sign. -/
structure ScannedNumber.Bounded (number : ScannedNumber) : Prop where
  digits : number.digits.length ≤ maxDigits
  low : -int64Max ≤ number.exponent
  high : number.exponent ≤ int64Max

namespace ScannedNumber

variable {number : ScannedNumber}

theorem integer_le_digits (number : ScannedNumber) :
    number.integer.length ≤ number.digits.length := by
  rw [digits, List.length_append]
  exact Nat.le_add_right _ _

theorem Bounded.outLengthI64 (bounded : number.Bounded) (inRange : number.dotPos ≤ int64Max) :
    Computes (number.outLengthI64 number.dotPos) (number.outLength ≤ int64Max)
      number.outLength := by
  have few := bounded.digits
  have low := bounded.low
  have front := number.integer_le_digits
  rw [maxDigits] at few
  rw [ScannedNumber.outLengthI64, outLength]
  rw [int64Max] at low inRange ⊢
  split
  · next zeros =>
    have sum : Computes
        (signed 64 (2 + -number.dotPos) >>= fun front =>
          signed 64 (front + number.digits.length))
        (InSigned 64 (2 + -number.dotPos) ∧
          InSigned 64 (2 + -number.dotPos + number.digits.length))
        (2 + -number.dotPos + number.digits.length) :=
      (Computes.signed 64 _).bind fun _ => .signed 64 _
    apply ((Computes.signed 64 _).bind fun _ => sum).congr
    simp only [InSigned]
    rw [dotPos] at zeros ⊢
    omega
  · split
    · exact (Computes.pure _).congr ⟨fun _ => inRange, fun _ => trivial⟩
    · apply (Computes.signed 64 _).congr
      simp only [InSigned]
      omega

theorem zerosI64_computes (few : number.digits.length ≤ maxDigits)
    (short : number.outLength ≤ maxOut) :
    ∃ zeros, Computes (number.zerosI64 number.dotPos) True zeros := by
  rw [maxDigits] at few
  rw [outLength, maxOut] at short
  rw [zerosI64]
  split at short
  · next inFront =>
    rw [if_pos inFront]
    exact ⟨_, .fits (by constructor <;> omega)⟩
  · next positive =>
    rw [if_neg positive]
    split
    · next behind =>
      rw [if_pos behind.le] at short
      exact ⟨_, .fits (by constructor <;> omega)⟩
    · exact ⟨_, .pure 0⟩

theorem guardedI64_computes (few : number.digits.length ≤ maxDigits) :
    Computes (number.guardedI64 number.dotPos number.outLength) True
      (if number.outLength < 0 ∨ maxOut < number.outLength then
        .error ⟨.bounds, "number expansion too large"⟩
      else .ok number.plainText) := by
  rw [guardedI64]
  split
  · exact .pure _
  · next short =>
    rcases zerosI64_computes few (by omega) with ⟨zeros, computed⟩
    exact computed.then_safe (.pure _)

theorem Bounded.plainTextI64 (bounded : number.Bounded) :
    Computes number.plainTextI64 (number.dotPos ≤ int64Max ∧ number.outLength ≤ int64Max)
      (if number.outLength < 0 ∨ maxOut < number.outLength then
        .error ⟨.bounds, "number expansion too large"⟩
      else .ok number.plainText) := by
  have low := bounded.low
  have position : InSigned 64 number.dotPos ↔ number.dotPos ≤ int64Max := by
    rw [InSigned, dotPos]
    rw [int64Max] at low ⊢
    omega
  refine (((Computes.signed 64 number.dotPos).congr position).bind fun inRange =>
    (bounded.outLengthI64 inRange).bind fun _ => guardedI64_computes bounded.digits).congr ?_
  rw [and_true]

end ScannedNumber

theorem parseI64Digits_of_le {digits : Bytes} (all : AllIn isDigit digits) (positive : 0 ≤ value)
    (fits : value * 10 ^ digits.length + digitsValue digits ≤ int64Max) :
    parseI64Digits value digits = some (value * 10 ^ digits.length + digitsValue digits) := by
  induction digits generalizing value with
  | nil => simp [parseI64Digits, digitsValue]
  | cons digit rest induction =>
    rw [allIn_cons] at all
    have shifted : (value * 10 + digitValue digit) * 10 ^ rest.length + digitsValue rest =
        value * 10 ^ (digit :: rest).length + digitsValue (digit :: rest) := by
      rw [digitsValue_cons, List.length_cons]
      push_cast
      ring
    have next : 0 ≤ value * 10 + digitValue digit := by omega
    have front : value * 10 + digitValue digit ≤
        (value * 10 + digitValue digit) * 10 ^ rest.length :=
      le_mul_of_one_le_right next (one_le_pow₀ (by decide))
    have inRange : ¬(int64Max - digitValue digit) / 10 < value := by omega
    rw [parseI64Digits, if_pos all.1, if_neg inRange, ← shifted]
    exact induction all.2 next (by omega)

theorem parseI64Clamped_digits {digits : Bytes} (all : AllIn isDigit digits)
    (nonempty : digits ≠ []) :
    parseI64Clamped digits =
      if (digitsValue digits : Int) ≤ int64Max then some (digitsValue digits : Int) else none := by
  have read : parseI64Clamped digits = parseI64Digits 0 digits := by
    rw [parseI64Clamped.eq_def]
    cases digits with
    | nil => exact absurd rfl nonempty
    | cons first rest =>
      have digit := (allIn_cons.mp all).1
      have notPlus : first ≠ plus := by
        intro equal
        rw [equal] at digit
        cases digit
      dsimp only
      rw [if_neg (ne_minus_of_isDigit digit), if_neg notPlus]
  have value : (0 : Int) * 10 ^ digits.length + digitsValue digits = digitsValue digits := by
    rw [Int.zero_mul, Int.zero_add]
  rw [read]
  split
  · next fits =>
    rw [← value] at fits
    rw [parseI64Digits_of_le all (Int.le_refl 0) fits, value]
  · next beyond =>
    cases parsed : parseI64Digits 0 digits with
    | none => rfl
    | some result =>
      have same := parseI64Digits_eq_some parsed
      have bounds := parseI64Digits_bounds (Int.le_refl 0) (by decide) parsed
      rw [value] at same
      exact absurd (same ▸ bounds.2) beyond

namespace NumberParts

variable {parts : NumberParts}

theorem Valid.scannedExponent_eq (valid : parts.Valid) :
    parts.scannedExponent =
      if -int64Max ≤ parts.exponentNumber ∧ parts.exponentNumber ≤ int64Max then
        some parts.exponentNumber
      else none := by
  rw [scannedExponent, exponentNumber]
  by_cases absent : parts.exponent = []
  · simp only [if_pos absent]
    rfl
  · simp only [if_neg absent, valid.exponentValue_append absent,
      parseI64Clamped_digits valid.exponentDigits absent]
    have limit : 0 ≤ int64Max := by decide
    split <;> split <;> first | (rw [if_pos (by omega)]; rfl) | (rw [if_neg (by omega)]; rfl)

/-- If the digits are counted, are not all zero and the exponent fits in 64 bits with either
sign, then the exponent is not so close to the limits that the position of the point or the
length of the output leaves the range. -/
def ExponentFits (parts : NumberParts) : Prop :=
  (parts.integer ++ parts.fraction).length ≤ ScannedNumber.maxDigits →
  (∃ digit ∈ parts.integer ++ parts.fraction, digit ≠ zeroDigit) →
  -int64Max ≤ parts.exponentNumber → parts.exponentNumber ≤ int64Max →
    parts.integer.length + parts.exponentNumber ≤ int64Max ∧
      parts.fraction.length + 2 - int64Max ≤ parts.exponentNumber

def scanned (parts : NumberParts) : ScannedNumber :=
  ⟨parts.negative, parts.integer, parts.fraction, parts.exponentNumber⟩

theorem scanned_safe_iff
    (few : (parts.integer ++ parts.fraction).length ≤ ScannedNumber.maxDigits) :
    parts.scanned.dotPos ≤ int64Max ∧ parts.scanned.outLength ≤ int64Max ↔
      parts.integer.length + parts.exponentNumber ≤ int64Max ∧
        parts.fraction.length + 2 - int64Max ≤ parts.exponentNumber := by
  rw [List.length_append, ScannedNumber.maxDigits] at few
  rw [ScannedNumber.outLength, ScannedNumber.dotPos, ScannedNumber.digits, List.length_append,
    int64Max]
  dsimp only [scanned]
  push_cast
  split
  · omega
  · split <;> omega

theorem Valid.numberTextI64_text (valid : parts.Valid) :
    Computes (numberTextI64 parts.text) parts.ExponentFits (numberText parts.text) := by
  rw [numberTextI64, numberText]
  split
  · next empty =>
    have nonempty : parts.text ≠ [] := by
      rw [text]
      simp [valid.integer.ne_nil]
    exact absurd empty nonempty
  · refine ((scanNumberI64_computes parts.text).bind fun _ => ?_).congr (true_and _).to_iff
    rw [valid.scanNumber_text, valid.scannedExponent_eq]
    by_cases inRange : -int64Max ≤ parts.exponentNumber ∧ parts.exponentNumber ≤ int64Max
    · rw [if_pos inRange]
      change Computes
        (if parts.scanned.digits.length = 0 ∨ _ < parts.scanned.digits.length then _ else
          if ∀ digit ∈ parts.scanned.digits, digit = zeroDigit then _ else
            parts.scanned.plainTextI64) _
        (if parts.scanned.digits.length = 0 ∨ _ < parts.scanned.digits.length then _ else
          if ∀ digit ∈ parts.scanned.digits, digit = zeroDigit then _ else _)
      have present : parts.scanned.digits.length ≠ 0 := by
        intro empty
        exact valid.integer.ne_nil (List.append_eq_nil_iff.mp (List.length_eq_zero_iff.mp empty)).1
      split
      · next outside =>
        refine (Computes.pure _).congr ⟨fun _ few => ?_, fun _ => trivial⟩
        exact absurd few (Nat.not_le.mpr (outside.resolve_left present))
      · next counted =>
        have few : parts.scanned.digits.length ≤ ScannedNumber.maxDigits := by omega
        split
        · next zeros =>
          refine (Computes.pure _).congr ⟨fun _ _ nonzero => ?_, fun _ => trivial⟩
          rcases nonzero with ⟨digit, member, nonzero⟩
          exact absurd (zeros digit member) nonzero
        · next nonzero =>
          rw [not_forall] at nonzero
          rcases nonzero with ⟨digit, nonzero⟩
          rw [Classical.not_imp] at nonzero
          have bounded : parts.scanned.Bounded := ⟨few, inRange.1, inRange.2⟩
          apply bounded.plainTextI64.congr
          rw [scanned_safe_iff few]
          exact ⟨fun safe _ _ _ _ => safe,
            fun fits => fits few ⟨digit, nonzero⟩ inRange.1 inRange.2⟩
    · rw [if_neg inRange]
      apply (Computes.pure _).congr
      exact ⟨fun _ _ _ low high => absurd ⟨low, high⟩ inRange, fun _ => trivial⟩

/-- No 64-bit operation on an accepted number overflows, and the guard sees the exact length,
exactly when the exponent fits. -/
theorem number_arithmetic_exact_iff (valid : parts.Valid) :
    numberTextI64 parts.text = .ok (numberText parts.text) ↔ parts.ExponentFits := by
  have computes := valid.numberTextI64_text
  exact ⟨fun exactly => computes.meaning.mp ⟨_, exactly⟩, computes.eq_ok⟩

end NumberParts

/-- `1.5e3` -/
def plainSample : NumberParts where
  negative := false
  integer := ascii "1"
  fraction := ascii "5"
  exponent := ascii "3"

theorem number_arithmetic_exact_iff_sample :
    plainSample.Valid ∧ numberTextI64 plainSample.text = .ok (.ok (ascii "1500")) :=
  have valid : plainSample.Valid :=
    { integer := .inr ⟨49, [], rfl, by decide⟩
      integerDigits := allIn_cons.mpr ⟨rfl, allIn_nil _⟩
      fractionDigits := allIn_cons.mpr ⟨rfl, allIn_nil _⟩
      mark := rfl
      exponentSign := .inl rfl
      exponentDigits := allIn_cons.mpr ⟨rfl, allIn_nil _⟩ }
  ⟨valid, (NumberParts.number_arithmetic_exact_iff valid).mpr
    (fun _ _ _ _ => by decide +kernel)⟩

/-- The largest exponent is read, and one digit in front of the point is added to it. -/
theorem largest_exponent_overflows :
    IsNumber (ascii "1e9223372036854775807") ∧
      numberTextI64 (ascii "1e9223372036854775807") = .error .overflow := by
  have digits : AllIn isDigit (ascii "9223372036854775807") := by
    rw [AllIn]
    decide +kernel
  refine ⟨⟨⟨false, ascii "1", [], 101, [], ascii "9223372036854775807"⟩, ?_, by decide⟩,
    by decide +kernel⟩
  exact ⟨.inr ⟨49, [], rfl, by decide⟩, allIn_cons.mpr ⟨rfl, allIn_nil _⟩, allIn_nil _, rfl,
    .inl rfl, digits⟩

end AgentC.Json
