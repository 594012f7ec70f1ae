import AgentC.Cron.Reading
import AgentC.Foundation.SignedArithmetic

/-! # The arithmetic of cron expressions

`parse_int`, `cron_field_mark_range` and `cron_parse_field` with the operations on `int` that
they perform. The digits of an expression are added up without a limit, and a range is left
with one more step. -/

namespace AgentC.Cron

/-! ## In 32-bit arithmetic -/

/-- A computation with operations on `int` that may refuse its input. -/
abbrev Checked (α : Type) := ExceptT Bytes Defined α

/-- The loop of `parse_int` over the digits. -/
def parseDigitsI32 : Int → Bytes → Defined (Option Int)
  | value, [] => return some value
  | value, byte :: rest =>
    if byte < 48 || byte > 57 then return none
    else do
      let tens ← signed 32 (value * 10)
      let digit ← signed 32 (byte.toNat - 48)
      let value ← signed 32 (tens + digit)
      parseDigitsI32 value rest

def withSign (sign : Int) : Option Int → Defined (Option Int)
  | none => return none
  | some value => return some (← signed 32 (value * sign))

/-- `parse_int` -/
def parseIntI32 (text : Bytes) : Defined (Option Int) :=
  match text with
  | [] => return none
  | byte :: rest =>
    if byte = dash then
      if rest.isEmpty then return none else parseDigitsI32 0 rest >>= withSign (-1)
    else parseDigitsI32 0 text >>= withSign 1

/-- The loop of `cron_field_mark_range`, for so many checks of its condition at most. -/
def markLoopI32 (min finish step : Int) : (checks : Nat) → Int → List Bool → Defined (List Bool)
  | 0, _, _ => .error .endless
  | checks + 1, value, allowed =>
    if value ≤ finish then do
      let index ← signed 32 (value - min)
      let allowed ← writeAt allowed index true
      let value ← signed 32 (value + step)
      markLoopI32 min finish step checks value allowed
    else return allowed

/-- The condition of the loop is checked once for every value of the range, and once more. -/
def cronFieldMarkRangeI32 (field : CronField) (start finish step : Int) : Checked CronField :=
  if step ≤ 0 then throw (ascii "invalid cron step")
  else if start < field.min || finish > field.max || start > finish then
    throw (ascii "cron value out of range")
  else do
    let allowed ← markLoopI32 field.min finish step ((finish - start + 1).toNat + 1) start
      field.allowed
    return { field with allowed }

def tokenStepI32 (token : Bytes) : Checked (Bytes × Int) :=
  match splitFirst slash token with
  | none => return (token, 1)
  | some (base, step) => do
    match ← parseIntI32 (trimCopy step) with
    | none => throw (ascii "invalid cron step")
    | some step =>
      if step ≤ 0 then throw (ascii "invalid cron step") else return (trimCopy base, step)

/-- The last value is read only behind a first one. -/
def tokenRangeI32 (base : Bytes) : Checked (Int × Int) :=
  match splitFirst dash base with
  | some (first, last) => do
    match ← parseIntI32 (trimCopy first) with
    | none => throw (ascii "invalid cron range")
    | some start =>
      match ← parseIntI32 (trimCopy last) with
      | none => throw (ascii "invalid cron range")
      | some finish => return (start, finish)
  | none => do
    match ← parseIntI32 base with
    | none => throw (ascii "invalid cron value")
    | some start => return (start, start)

/-- One turn of the loop of `cron_parse_field`. -/
def parseTokenI32 (allow7ForSunday : Bool) (field : CronField) (text : Bytes) :
    Checked CronField := do
  let token := trimCopy text
  if token.isEmpty then return field
  else
    let (base, step) ← tokenStepI32 token
    if base = [star] then
      cronFieldMarkRangeI32 { field with any := true } field.min field.max step
    else
      let (start, finish) ← tokenRangeI32 base
      let start := if allow7ForSunday && start = 7 then 0 else start
      let finish := if allow7ForSunday && finish = 7 then 0 else finish
      cronFieldMarkRangeI32 field start finish step

/-- `cron_parse_field` -/
def cronParseFieldI32 (text : Bytes) (min max : Int) (allow7ForSunday : Bool) :
    Checked CronField := do
  let span ← signed 32 (max - min)
  let size ← signed 32 (span + 1)
  let raw := trimCopy text
  if raw.isEmpty then throw (ascii "empty cron field")
  else
    (raw.splitOn comma).foldlM (parseTokenI32 allow7ForSunday)
      { min, max, any := false, allowed := List.replicate size.toNat false }

/-- `cron_parse_5` -/
def cronParse5I32 (expr : Bytes) : Checked CronSchedule :=
  let trimmed := trimCopy expr
  if trimmed.isEmpty then throw (ascii "cron expression empty")
  else
    match words trimmed with
    | [minute, hour, dayOfMonth, month, dayOfWeek] => do
      let minute ← cronParseFieldI32 minute 0 59 false
      let hour ← cronParseFieldI32 hour 0 23 false
      let dayOfMonth ← cronParseFieldI32 dayOfMonth 1 31 false
      let month ← cronParseFieldI32 month 1 12 false
      let dayOfWeek ← cronParseFieldI32 dayOfWeek 0 6 true
      return { minute, hour, dayOfMonth, month, dayOfWeek
               dayOfMonthAny := dayOfMonth.any
               dayOfWeekAny := dayOfWeek.any }
    | _ => throw (ascii "cron must have 5 fields")

/-! ## What an expression has to keep to -/

def unsigned : Bytes → Bytes
  | [] => []
  | byte :: rest => if byte = dash then rest else byte :: rest

def IsNumber (text : Bytes) : Prop :=
  unsigned text ≠ [] ∧ AllIn isDigit (unsigned text)

def numberValue (text : Bytes) : Int :=
  if text.head? = some dash then -digitsValue (unsigned text) else digitsValue (unsigned text)

/-- The digits that a text begins with stay below the limit of `int`. There may be something
else behind them. -/
def NumberFits (text : Bytes) : Prop :=
  digitsValue ((unsigned text).takeWhile isDigit) < 2 ^ 31

/-- The bounds that `cron_parse_5` has for a field. -/
structure FieldBounds where
  min : Int
  max : Int
  allow7ForSunday : Bool
  fromZero : 0 ≤ min
  ordered : min ≤ max
  small : max < 60

structure Range where
  start : Int
  finish : Int
  step : Int

structure Range.Within (range : Range) (bounds : FieldBounds) : Prop where
  step : 0 < range.step
  start : bounds.min ≤ range.start
  finish : range.finish ≤ bounds.max
  ordered : range.start ≤ range.finish

/-- A step from the first value stays below the limit of `int`. -/
def Range.Fits (range : Range) : Prop :=
  range.start + range.step < 2 ^ 31

def stepText (token : Bytes) : Option Bytes :=
  (splitFirst slash token).map fun parts => trimCopy parts.2

def baseText (token : Bytes) : Bytes :=
  (splitFirst slash token).elim token fun parts => trimCopy parts.1

/-- The texts before and behind the dash. A value without a dash is both. -/
def endTexts (base : Bytes) : Bytes × Bytes :=
  (splitFirst dash base).elim (base, base) fun parts => (trimCopy parts.1, trimCopy parts.2)

def stepNumber (token : Bytes) : Int :=
  (stepText token).elim 1 numberValue

def StepRead (token : Bytes) : Prop :=
  ∀ text ∈ stepText token, IsNumber text ∧ 0 < numberValue text

def EndsRead (base : Bytes) : Prop :=
  IsNumber (endTexts base).1 ∧ IsNumber (endTexts base).2

namespace FieldBounds

variable (bounds : FieldBounds)

def day (value : Int) : Int :=
  if bounds.allow7ForSunday && value = 7 then 0 else value

def range (token : Bytes) : Range where
  start := bounds.day (numberValue (endTexts (baseText token)).1)
  finish := bounds.day (numberValue (endTexts (baseText token)).2)
  step := stepNumber token

def starRange (token : Bytes) : Range where
  start := bounds.min
  finish := bounds.max
  step := stepNumber token

end FieldBounds

inductive TokenAccepted (bounds : FieldBounds) : Bytes → Prop
  | blank : TokenAccepted bounds []
  | star {token : Bytes} (step : StepRead token) (star : baseText token = [star]) :
      TokenAccepted bounds token
  | range {token : Bytes} (step : StepRead token) (ends : EndsRead (baseText token))
      (within : (bounds.range token).Within bounds) : TokenAccepted bounds token

/-- What is read and marked behind the step of a token fits. -/
structure BaseFits (bounds : FieldBounds) (token : Bytes) : Prop where
  star : baseText token = [Cron.star] → (bounds.starRange token).Fits
  first : baseText token ≠ [Cron.star] → NumberFits (endTexts (baseText token)).1
  last : baseText token ≠ [Cron.star] → IsNumber (endTexts (baseText token)).1 →
    NumberFits (endTexts (baseText token)).2
  range : EndsRead (baseText token) → (bounds.range token).Within bounds →
    (bounds.range token).Fits

structure TokenFits (bounds : FieldBounds) (token : Bytes) : Prop where
  step : ∀ text ∈ stepText token, NumberFits text
  base : StepRead token → BaseFits bounds token

/-! ## Numbers -/

theorem le_foldl_digits (digits : Bytes) (value : Nat) :
    value ≤ digits.foldl (fun value digit => value * 10 + digitValue digit) value := by
  induction digits generalizing value with
  | nil => exact Nat.le_refl value
  | cons digit digits induction =>
    rw [List.foldl_cons]
    have more := induction (value * 10 + digitValue digit)
    omega

theorem isDigit_eq_false {byte : UInt8} :
    isDigit byte = false ↔ (byte < 48 || byte > 57) = true := by
  revert byte
  apply forall_byte
  decide +kernel

theorem parseDigitsI32_computes {value : Nat} (fits : value < 2 ^ 31) (text : Bytes) :
    Computes (parseDigitsI32 value text)
      ((text.takeWhile isDigit).foldl (fun value digit => value * 10 + digitValue digit) value <
        2 ^ 31)
      (parseDigits value text) := by
  induction text generalizing value with
  | nil => exact (Computes.pure _).congr ⟨fun _ => fits, fun _ => trivial⟩
  | cons byte rest induction =>
    rw [parseDigitsI32, parseDigits]
    split
    · next other =>
      rw [List.takeWhile_cons, if_neg (by simp [isDigit_eq_false.mpr other])]
      exact (Computes.pure _).congr ⟨fun _ => fits, fun _ => trivial⟩
    · next digit =>
      have digit : isDigit byte = true := by
        rw [← Bool.not_eq_false, isDigit_eq_false]
        exact digit
      have bounds := digit_bounds digit
      have next : (value : Int) * 10 + (byte.toNat - 48) =
          ((value * 10 + digitValue byte : Nat) : Int) := by
        rw [digitValue]
        omega
      have more := le_foldl_digits (rest.takeWhile isDigit) (value * 10 + digitValue byte)
      rw [List.takeWhile_cons, if_pos digit, List.foldl_cons]
      have later (small : InSigned 32 ((value : Int) * 10 + (byte.toNat - 48))) :
          Computes (parseDigitsI32 ((value : Int) * 10 + (byte.toNat - 48)) rest)
            ((rest.takeWhile isDigit).foldl
              (fun value digit => value * 10 + digitValue digit)
              (value * 10 + digitValue byte) < 2 ^ 31)
            (parseDigits ((value : Int) * 10 + (byte.toNat - 48)) rest) := by
        rw [next] at small ⊢
        have below := small.2
        exact induction (by omega)
      apply ((Computes.signed 32 _).bind fun _ => (Computes.signed 32 _).bind fun _ =>
        (Computes.signed 32 _).bind later).congr
      constructor
      · rintro ⟨_, _, _, within⟩
        exact within
      · intro within
        refine ⟨?_, ?_, ?_, within⟩ <;> constructor <;> omega

variable {text : Bytes} {bounds : FieldBounds} {field : CronField} {token base : Bytes}

theorem parseDigits_eq_none (other : ¬AllIn isDigit text) (value : Int) :
    parseDigits value text = none := by
  induction text generalizing value with
  | nil => exact absurd (allIn_nil _) other
  | cons byte rest induction =>
    rw [parseDigits]
    split
    · rfl
    · next digit =>
      apply induction
      intro digits
      rw [← isDigit_eq_false, Bool.not_eq_false] at digit
      exact other (allIn_cons.mpr ⟨digit, digits⟩)

theorem parseDigits_zero (digits : AllIn isDigit text) :
    parseDigits 0 text = some (digitsValue text : Int) :=
  parseDigits_eq digits 0

theorem withSign_computes {sign : Int} (unit : sign = 1 ∨ sign = -1)
    (fits : digitsValue (text.takeWhile isDigit) < 2 ^ 31) :
    Computes (withSign sign (parseDigits 0 text)) True
      ((parseDigits 0 text).map fun value => value * sign) := by
  by_cases digits : AllIn isDigit text
  · rw [parseDigits_zero digits]
    rw [List.takeWhile_eq_self_iff.mpr digits] at fits
    have inside : InSigned 32 (digitsValue text * sign) := by
      rcases unit with rfl | rfl <;> constructor <;> omega
    exact (Computes.fits inside).then_safe (Computes.pure _)
  · rw [parseDigits_eq_none digits 0]
    exact .pure none

theorem parseIntI32_computes (text : Bytes) :
    Computes (parseIntI32 text) (NumberFits text) (parseInt text) := by
  rw [NumberFits]
  cases text with
  | nil => exact (Computes.pure none).congr ⟨fun _ => by decide, fun _ => trivial⟩
  | cons byte rest =>
    rw [parseIntI32, parseInt, unsigned]
    by_cases negative : byte = dash
    · rw [if_pos negative, if_pos negative, if_pos negative]
      by_cases empty : rest.isEmpty = true
      · rw [if_pos empty, if_pos empty, List.isEmpty_iff.mp empty]
        exact (Computes.pure none).congr ⟨fun _ => by decide, fun _ => trivial⟩
      · rw [if_neg empty, if_neg empty]
        have negated : (fun value : Int => -value) = fun value => value * -1 := by
          funext value
          omega
        rw [negated]
        apply ((parseDigitsI32_computes (by decide) rest).bind
          fun fits => withSign_computes (.inr rfl) fits).congr
        rw [digitsValue, and_true]
    · rw [if_neg negative, if_neg negative, if_neg negative]
      have same : parseDigits 0 (byte :: rest) =
          (parseDigits 0 (byte :: rest)).map fun value => value * 1 := by
        simp
      rw [same]
      apply ((parseDigitsI32_computes (by decide) (byte :: rest)).bind
        fun fits => withSign_computes (.inl rfl) fits).congr
      rw [digitsValue, and_true]

theorem parseDigits_eq_some {value : Int} :
    parseDigits 0 text = some value ↔ AllIn isDigit text ∧ value = digitsValue text := by
  by_cases digits : AllIn isDigit text
  · rw [parseDigits_zero digits, Option.some_inj, eq_comm]
    exact (and_iff_right digits).symm
  · rw [parseDigits_eq_none digits]
    exact ⟨nofun, fun both => absurd both.1 digits⟩

theorem parseInt_eq_some {value : Int} :
    parseInt text = some value ↔ IsNumber text ∧ value = numberValue text := by
  cases text with
  | nil => exact ⟨by rintro ⟨⟩, fun both => absurd rfl both.1.1⟩
  | cons byte rest =>
    rw [parseInt]
    simp only [IsNumber, numberValue, unsigned, List.head?_cons, Option.some_inj]
    by_cases negative : byte = dash
    · rw [if_pos negative, if_pos negative, if_pos negative]
      by_cases empty : rest = []
      · rw [empty]
        exact ⟨by rintro ⟨⟩, fun both => absurd rfl both.1.1⟩
      · rw [if_neg (by simpa using empty), Option.map_eq_some_iff, and_iff_right empty]
        simp only [parseDigits_eq_some]
        constructor
        · rintro ⟨_, ⟨digits, rfl⟩, rfl⟩
          exact ⟨digits, rfl⟩
        · rintro ⟨digits, rfl⟩
          exact ⟨_, ⟨digits, rfl⟩, rfl⟩
    · rw [if_neg negative, if_neg negative, if_neg negative, parseDigits_eq_some,
        and_iff_right (List.cons_ne_nil _ _)]

theorem parseInt_of_number (number : IsNumber text) : parseInt text = some (numberValue text) :=
  parseInt_eq_some.mpr ⟨number, rfl⟩

theorem parseInt_of_other (other : ¬IsNumber text) : parseInt text = none := by
  rw [Option.eq_none_iff_forall_ne_some]
  intro value read
  exact other (parseInt_eq_some.mp read).1

/-! ## Marking -/

/-- The field has a place for every value. -/
structure FieldBounds.Holds (bounds : FieldBounds) (field : CronField) : Prop where
  min : field.min = bounds.min
  max : field.max = bounds.max
  length : (field.allowed.length : Int) = bounds.max - bounds.min + 1

theorem markLoopI32_computes {min finish step : Int} (fromZero : 0 ≤ min) (small : finish < 60)
    (positive : 0 < step) {checks : Nat} {value : Int} (fromMin : min ≤ value)
    (enough : finish - value < checks) {allowed : List Bool}
    (whole : finish - min < allowed.length) :
    Computes (markLoopI32 min finish step (checks + 1) value allowed)
      (value ≤ finish → value + step < 2 ^ 31) (markLoop min finish step checks value allowed) := by
  induction checks generalizing value allowed with
  | zero =>
    have ended : ¬value ≤ finish := by
      intro more
      push_cast at enough
      omega
    rw [markLoopI32, markLoop, if_neg ended]
    exact (Computes.pure allowed).congr ⟨fun _ more => absurd more ended, fun _ => trivial⟩
  | succ checks induction =>
    rw [markLoopI32, markLoop]
    split
    · next more =>
      have later := @induction (value + step) (by omega) (by push_cast at enough; omega)
        (allowed.set (value - min).toNat true) (by rw [List.length_set]; exact whole)
      apply ((Computes.fits (by constructor <;> omega)).bind fun _ =>
        (Computes.writeAt allowed (value - min) true).bind fun _ =>
          (Computes.signed 32 (value + step)).bind fun _ => later).congr
      constructor
      · rintro ⟨_, _, within, _⟩ _
        exact within.2
      · intro below
        have below := below more
        exact ⟨trivial, ⟨by omega, by omega⟩, ⟨by omega, below⟩, by omega⟩
    · next ended =>
      exact (Computes.pure allowed).congr ⟨fun _ more => absurd more ended, fun _ => trivial⟩

theorem not_within (holds : bounds.Holds field) {range : Range} (positive : 0 < range.step) :
    (range.start < field.min || range.finish > field.max || range.start > range.finish) = true ↔
      ¬range.Within bounds := by
  rw [holds.min, holds.max]
  simp only [gt_iff_lt, Bool.or_eq_true, decide_eq_true_eq]
  constructor
  · rintro outside ⟨_, start, finish, ordered⟩
    omega
  · intro outside
    by_contra inside
    exact outside ⟨positive, by omega, by omega, by omega⟩

theorem cronFieldMarkRangeI32_computes (holds : bounds.Holds field) (range : Range) :
    Computes (cronFieldMarkRangeI32 field range.start range.finish range.step).run
      (range.Within bounds → range.Fits)
      (cronFieldMarkRange field range.start range.finish range.step) := by
  rw [cronFieldMarkRangeI32, cronFieldMarkRange]
  by_cases positive : range.step ≤ 0
  · rw [if_pos positive, if_pos positive]
    exact (Computes.pure _).congr
      ⟨fun _ within => absurd within.step (by omega), fun _ => trivial⟩
  · rw [if_neg positive, if_neg positive]
    have outside := not_within holds (show 0 < range.step by omega)
    by_cases within : range.Within bounds
    · rw [if_neg (outside.not_left.mpr within), if_neg (outside.not_left.mpr within)]
      have marks := @markLoopI32_computes field.min range.finish range.step
        (holds.min ▸ bounds.fromZero) (Int.lt_of_le_of_lt within.finish bounds.small) within.step
        (range.finish - range.start + 1).toNat range.start (holds.min ▸ within.start) (by omega)
        field.allowed (by
          rw [holds.min, holds.length]
          have toMax := within.finish
          omega)
      apply (marks.lift fun _ => .pure _).congr
      rw [and_true]
      exact ⟨fun fits _ => fits within.ordered, fun fits _ => fits within⟩
    · rw [if_pos (outside.mpr within), if_pos (outside.mpr within)]
      exact (Computes.pure _).congr ⟨fun _ inside => absurd inside within, fun _ => trivial⟩

theorem cronFieldMarkRange_eq_ok {next : CronField} (holds : bounds.Holds field) (range : Range)
    (marked : cronFieldMarkRange field range.start range.finish range.step = .ok next) :
    range.Within bounds ∧ bounds.Holds next := by
  rw [cronFieldMarkRange] at marked
  by_cases positive : range.step ≤ 0
  · rw [if_pos positive] at marked
    cases marked
  · rw [if_neg positive] at marked
    have outside := not_within holds (show 0 < range.step by omega)
    by_cases within : range.Within bounds
    · rw [if_neg (outside.not_left.mpr within)] at marked
      cases marked
      refine ⟨within, holds.min, holds.max, ?_⟩
      rw [markLoop_length]
      exact holds.length
    · rw [if_pos (outside.mpr within)] at marked
      cases marked

theorem exists_cronFieldMarkRange (holds : bounds.Holds field) {range : Range}
    (within : range.Within bounds) :
    ∃ next, cronFieldMarkRange field range.start range.finish range.step = .ok next := by
  have positive := within.step
  have outside := not_within holds positive
  rw [cronFieldMarkRange, if_neg (by omega), if_neg (outside.not_left.mpr within)]
  exact ⟨_, rfl⟩

/-! ## Tokens -/

theorem tokenStepI32_computes (token : Bytes) :
    Computes (tokenStepI32 token).run (∀ text ∈ stepText token, NumberFits text)
      (tokenStep token) := by
  rw [tokenStepI32, tokenStep, stepText]
  cases splitFirst slash token with
  | none => exact (Computes.pure _).congr ⟨fun _ => by rintro _ ⟨⟩, fun _ => trivial⟩
  | some parts =>
    rcases parts with ⟨base, step⟩
    have outcome : Computes (ExceptT.run (match parseInt (trimCopy step) with
        | none => throw (ascii "invalid cron step")
        | some step =>
          if step ≤ 0 then throw (ascii "invalid cron step")
          else return (trimCopy base, step) : Checked (Bytes × Int))) True
        (match parseInt (trimCopy step) with
        | none => throw (ascii "invalid cron step")
        | some step =>
          if step ≤ 0 then throw (ascii "invalid cron step")
          else return (trimCopy base, step)) := by
      split
      · exact .pure _
      · split <;> exact .pure _
    apply ((parseIntI32_computes (trimCopy step)).lift fun _ => outcome).congr
    simp

theorem tokenStep_eq_ok {step : Int} : tokenStep token = .ok (base, step) ↔
      StepRead token ∧ base = baseText token ∧ step = stepNumber token := by
  rw [tokenStep, StepRead, baseText, stepNumber, stepText]
  cases splitFirst slash token with
  | none =>
    constructor
    · rintro ⟨⟩
      exact ⟨by rintro _ ⟨⟩, rfl, rfl⟩
    · rintro ⟨_, rfl, rfl⟩
      rfl
  | some parts =>
    rcases parts with ⟨front, back⟩
    simp only [Option.map_some, Option.elim_some, Option.mem_some_iff, forall_eq']
    by_cases number : IsNumber (trimCopy back)
    · rw [parseInt_of_number number]
      by_cases positive : numberValue (trimCopy back) ≤ 0
      · simp only [if_pos positive]
        exact ⟨by rintro ⟨⟩, fun all => absurd all.1.2 (by omega)⟩
      · simp only [if_neg positive]
        constructor
        · rintro ⟨⟩
          exact ⟨⟨number, by omega⟩, rfl, rfl⟩
        · rintro ⟨_, rfl, rfl⟩
          rfl
    · rw [parseInt_of_other number]
      exact ⟨by rintro ⟨⟩, fun all => absurd all.1.1 number⟩

theorem exists_tokenStep : (∃ value, tokenStep token = .ok value) ↔ StepRead token := by
  constructor
  · rintro ⟨⟨base, step⟩, read⟩
    exact (tokenStep_eq_ok.mp read).1
  · intro read
    exact ⟨_, tokenStep_eq_ok.mpr ⟨read, rfl, rfl⟩⟩

theorem tokenRangeI32_computes (base : Bytes) : Computes (tokenRangeI32 base).run
      (NumberFits (endTexts base).1 ∧ (IsNumber (endTexts base).1 → NumberFits (endTexts base).2))
      (tokenRange base) := by
  rw [tokenRangeI32, tokenRange, endTexts]
  cases splitFirst dash base with
  | none =>
    refine ((parseIntI32_computes base).lift fun _ => ?_).congr
      (and_congr_right fun fits => ⟨fun _ _ => fits, fun _ => trivial⟩)
    cases parseInt base <;> exact .pure _
  | some parts =>
    rcases parts with ⟨front, back⟩
    simp only [Option.elim_some]
    have first := parseIntI32_computes (trimCopy front)
    by_cases number : IsNumber (trimCopy front)
    · rw [parseInt_of_number number] at first ⊢
      refine (first.lift fun _ => ((parseIntI32_computes (trimCopy back)).lift fun _ =>
        ?_).congr (iff_of_eq (and_true _))).congr
          (and_congr_right fun _ => (forall_prop_of_true number).symm)
      cases parseInt (trimCopy back) <;> exact .pure _
    · rw [parseInt_of_other number] at first ⊢
      exact (first.lift fun _ => .pure _).congr
        (and_congr_right fun _ => ⟨fun _ is => absurd is number, fun _ => trivial⟩)

theorem tokenRange_eq_ok {start finish : Int} : tokenRange base = .ok (start, finish) ↔
      EndsRead base ∧ start = numberValue (endTexts base).1 ∧
        finish = numberValue (endTexts base).2 := by
  rw [tokenRange, EndsRead, endTexts]
  cases splitFirst dash base with
  | none =>
    simp only [Option.elim_none]
    by_cases number : IsNumber base
    · rw [parseInt_of_number number]
      constructor
      · rintro ⟨⟩
        exact ⟨⟨number, number⟩, rfl, rfl⟩
      · rintro ⟨_, rfl, rfl⟩
        rfl
    · rw [parseInt_of_other number]
      exact ⟨by rintro ⟨⟩, fun all => absurd all.1.1 number⟩
  | some parts =>
    rcases parts with ⟨front, back⟩
    simp only [Option.elim_some]
    by_cases first : IsNumber (trimCopy front)
    · by_cases last : IsNumber (trimCopy back)
      · rw [parseInt_of_number first, parseInt_of_number last]
        constructor
        · rintro ⟨⟩
          exact ⟨⟨first, last⟩, rfl, rfl⟩
        · rintro ⟨_, rfl, rfl⟩
          rfl
      · rw [parseInt_of_number first, parseInt_of_other last]
        exact ⟨by rintro ⟨⟩, fun all => absurd all.1.2 last⟩
    · rw [parseInt_of_other first]
      exact ⟨by rintro ⟨⟩, fun all => absurd all.1.1 first⟩

theorem exists_tokenRange : (∃ value, tokenRange base = .ok value) ↔ EndsRead base := by
  constructor
  · rintro ⟨⟨start, finish⟩, read⟩
    exact (tokenRange_eq_ok.mp read).1
  · intro read
    exact ⟨_, tokenRange_eq_ok.mpr ⟨read, rfl, rfl⟩⟩

theorem tokenFits_blank (bounds : FieldBounds) : TokenFits bounds [] where
  step := nofun
  base _ :=
    { star := nofun
      first := fun _ => (by decide : digitsValue [] < 2 ^ 31)
      last := fun _ number => absurd rfl number.1
      range := fun read => absurd rfl read.1.1 }

theorem not_endsRead_star : ¬EndsRead [star] := by
  intro read
  have digit := read.1.2 star (List.mem_singleton.mpr rfl)
  exact absurd digit (by decide)

theorem StepRead.positive (read : StepRead token) : 0 < stepNumber token := by
  rw [StepRead] at read
  rw [stepNumber]
  cases step : stepText token with
  | none => exact Int.one_pos
  | some text => exact (read text step).2

theorem StepRead.star_within (read : StepRead token) (bounds : FieldBounds) :
    (bounds.starRange token).Within bounds :=
  ⟨read.positive, Int.le_refl _, Int.le_refl _, bounds.ordered⟩

theorem baseFits_of_star (star : baseText token = [star]) :
    (bounds.starRange token).Fits ↔ BaseFits bounds token where
  mp fits :=
    { star := fun _ => fits
      first := absurd star
      last := absurd star
      range := fun read => absurd (star ▸ read) not_endsRead_star }
  mpr fits := fits.star star

theorem baseFits_of_range (other : baseText token ≠ [star]) :
    ((NumberFits (endTexts (baseText token)).1 ∧
        (IsNumber (endTexts (baseText token)).1 → NumberFits (endTexts (baseText token)).2)) ∧
      (EndsRead (baseText token) → (bounds.range token).Within bounds →
        (bounds.range token).Fits)) ↔ BaseFits bounds token where
  mp fits :=
    { star := fun star => absurd star other
      first := fun _ => fits.1.1
      last := fun _ => fits.1.2
      range := fits.2 }
  mpr fits := ⟨⟨fits.first other, fits.last other⟩, fits.range⟩

theorem parseBaseI32_computes (holds : bounds.Holds field) (read : StepRead token) :
    Computes
      (ExceptT.run (if baseText token = [star] then
          cronFieldMarkRangeI32 { field with any := true } field.min field.max (stepNumber token)
        else do
          let (start, finish) ← tokenRangeI32 (baseText token)
          cronFieldMarkRangeI32 field (bounds.day start) (bounds.day finish) (stepNumber token)))
      (BaseFits bounds token)
      (if baseText token = [star] then
          cronFieldMarkRange { field with any := true } field.min field.max (stepNumber token)
        else do
          let (start, finish) ← tokenRange (baseText token)
          cronFieldMarkRange field (bounds.day start) (bounds.day finish) (stepNumber token)) := by
  by_cases star : baseText token = [Cron.star]
  · rw [if_pos star, if_pos star, holds.min, holds.max]
    have starred : bounds.Holds ⟨bounds.min, bounds.max, true, field.allowed⟩ :=
      ⟨rfl, rfl, holds.length⟩
    apply (cronFieldMarkRangeI32_computes starred (bounds.starRange token)).congr
    rw [← baseFits_of_star star]
    exact forall_prop_of_true (read.star_within bounds)
  · rw [if_neg star, if_neg star]
    refine ((tokenRangeI32_computes (baseText token)).andThen exists_tokenRange
      fun value ranged => ?_).congr (baseFits_of_range star)
    rcases value with ⟨start, finish⟩
    rcases tokenRange_eq_ok.mp ranged with ⟨ends, rfl, rfl⟩
    exact cronFieldMarkRangeI32_computes holds (bounds.range token)

theorem parseTokenI32_computes (holds : bounds.Holds field) (text : Bytes) :
    Computes (parseTokenI32 bounds.allow7ForSunday field text).run
      (TokenFits bounds (trimCopy text)) (parseToken bounds.allow7ForSunday field text) := by
  rw [parseTokenI32, parseToken]
  generalize trimCopy text = token
  by_cases blank : token.isEmpty = true
  · rw [if_pos blank, if_pos blank, List.isEmpty_iff.mp blank]
    exact (Computes.pure _).congr ⟨fun _ => tokenFits_blank bounds, fun _ => trivial⟩
  · rw [if_neg blank, if_neg blank]
    refine ((tokenStepI32_computes token).andThen exists_tokenStep fun value stepped => ?_).congr
      ⟨fun fits => ⟨fits.1, fits.2⟩, fun fits => ⟨fits.step, fits.base⟩⟩
    rcases value with ⟨base, step⟩
    rcases tokenStep_eq_ok.mp stepped with ⟨read, rfl, rfl⟩
    exact parseBaseI32_computes holds read

theorem parseToken_eq_ok {next : CronField} (holds : bounds.Holds field)
    (parsed : parseToken bounds.allow7ForSunday field text = .ok next) :
    TokenAccepted bounds (trimCopy text) ∧ bounds.Holds next := by
  rw [parseToken] at parsed
  generalize trimCopy text = token at parsed ⊢
  by_cases blank : token.isEmpty = true
  · rw [if_pos blank] at parsed
    cases parsed
    rw [List.isEmpty_iff.mp blank]
    exact ⟨.blank, holds⟩
  · rw [if_neg blank] at parsed
    rcases bind_eq_ok.mp parsed with ⟨⟨base, step⟩, stepped, marked⟩
    rcases tokenStep_eq_ok.mp stepped with ⟨read, rfl, rfl⟩
    dsimp only at marked
    by_cases star : baseText token = [Cron.star]
    · rw [if_pos star, holds.min, holds.max] at marked
      have starred : bounds.Holds ⟨bounds.min, bounds.max, true, field.allowed⟩ :=
        ⟨rfl, rfl, holds.length⟩
      have result := cronFieldMarkRange_eq_ok starred (bounds.starRange token) marked
      exact ⟨.star read star, result.2⟩
    · rw [if_neg star] at marked
      rcases bind_eq_ok.mp marked with ⟨⟨start, finish⟩, ranged, marked⟩
      rcases tokenRange_eq_ok.mp ranged with ⟨ends, rfl, rfl⟩
      have result := cronFieldMarkRange_eq_ok holds (bounds.range token) marked
      exact ⟨.range read ends result.1, result.2⟩

theorem exists_parseToken (holds : bounds.Holds field) (text : Bytes) :
    (∃ next, parseToken bounds.allow7ForSunday field text = .ok next) ↔
      TokenAccepted bounds (trimCopy text) := by
  constructor
  · rintro ⟨next, parsed⟩
    exact (parseToken_eq_ok holds parsed).1
  · rw [parseToken]
    generalize trimCopy text = token
    intro accepted
    by_cases blank : token.isEmpty = true
    · rw [if_pos blank]
      exact ⟨field, rfl⟩
    · rw [if_neg blank]
      cases accepted with
      | blank => exact absurd rfl blank
      | star read star =>
        have starred : bounds.Holds ⟨bounds.min, bounds.max, true, field.allowed⟩ :=
          ⟨rfl, rfl, holds.length⟩
        rcases exists_cronFieldMarkRange starred (read.star_within bounds) with ⟨next, marked⟩
        refine ⟨next, bind_eq_ok.mpr ⟨_, tokenStep_eq_ok.mpr ⟨read, rfl, rfl⟩, ?_⟩⟩
        dsimp only
        rw [if_pos star, holds.min, holds.max]
        exact marked
      | range read ends within =>
        rcases exists_cronFieldMarkRange holds within with ⟨next, marked⟩
        refine ⟨next, bind_eq_ok.mpr ⟨_, tokenStep_eq_ok.mpr ⟨read, rfl, rfl⟩, ?_⟩⟩
        dsimp only
        rw [if_neg fun star : baseText token = [Cron.star] => not_endsRead_star (star ▸ ends)]
        exact bind_eq_ok.mpr ⟨_, tokenRange_eq_ok.mpr ⟨ends, rfl, rfl⟩, marked⟩

/-! ## Fields -/

def FieldFits (bounds : FieldBounds) (text : Bytes) : Prop :=
  Computes.UpToRefused (fun token => TokenFits bounds (trimCopy token))
    (fun token => TokenAccepted bounds (trimCopy token)) ((trimCopy text).splitOn comma)

def FieldAccepted (bounds : FieldBounds) (text : Bytes) : Prop :=
  trimCopy text ≠ [] ∧
    ∀ token ∈ (trimCopy text).splitOn comma, TokenAccepted bounds (trimCopy token)

namespace FieldBounds

variable (bounds : FieldBounds)

def initial : CronField where
  min := bounds.min
  max := bounds.max
  any := false
  allowed := List.replicate (bounds.max - bounds.min + 1).toNat false

theorem holds_initial : bounds.Holds bounds.initial where
  min := rfl
  max := rfl
  length := by
    have ordered := bounds.ordered
    rw [initial, List.length_replicate]
    omega

theorem fieldFits_blank (blank : trimCopy text = []) : FieldFits bounds text := by
  rw [FieldFits, blank]
  exact ⟨tokenFits_blank bounds, fun _ => trivial⟩

theorem cronParseFieldI32_computes (text : Bytes) :
    Computes (cronParseFieldI32 text bounds.min bounds.max bounds.allow7ForSunday).run
      (FieldFits bounds text)
      (cronParseField text bounds.min bounds.max bounds.allow7ForSunday) := by
  have fromZero := bounds.fromZero
  have ordered := bounds.ordered
  have small := bounds.small
  have span : InSigned 32 (bounds.max - bounds.min) := by constructor <;> omega
  have size : InSigned 32 (bounds.max - bounds.min + 1) := by constructor <;> omega
  have loop := Computes.foldlM (fun _ text holds => parseTokenI32_computes holds text)
    (fun _ text holds => exists_parseToken holds text)
    (fun _ _ _ holds parsed => (parseToken_eq_ok holds parsed).2)
    ((trimCopy text).splitOn comma) bounds.holds_initial
  rw [cronParseFieldI32, cronParseField]
  refine ((Computes.fits span).lift fun _ => (Computes.fits size).lift fun _ =>
    (?_ : Computes _ (FieldFits bounds text) _)).congr (by rw [true_and, true_and])
  dsimp only
  by_cases blank : trimCopy text = []
  · rw [if_pos (List.isEmpty_iff.mpr blank), if_pos (List.isEmpty_iff.mpr blank)]
    exact (Computes.pure _).congr ⟨fun _ => bounds.fieldFits_blank blank, fun _ => trivial⟩
  · rw [if_neg (by simpa using blank), if_neg (by simpa using blank)]
    exact loop

theorem exists_cronParseField (text : Bytes) :
    (∃ field, cronParseField text bounds.min bounds.max bounds.allow7ForSunday = .ok field) ↔
      FieldAccepted bounds text := by
  have loop := exists_foldlM_eq_ok (fun _ text holds => exists_parseToken holds text)
    (fun _ _ _ holds parsed => (parseToken_eq_ok holds parsed).2)
    ((trimCopy text).splitOn comma) bounds.holds_initial
  rw [cronParseField, FieldAccepted]
  by_cases blank : trimCopy text = []
  · rw [if_pos (List.isEmpty_iff.mpr blank)]
    refine ⟨?_, fun accepted => absurd blank accepted.1⟩
    rintro ⟨_, ⟨⟩⟩
  · rw [if_neg (by simpa using blank), and_iff_right blank]
    exact loop

end FieldBounds

/-! ## Expressions -/

/-- A field of an expression, with its bounds. -/
structure FieldText where
  bounds : FieldBounds
  text : Bytes

def FieldText.Fits (field : FieldText) : Prop :=
  FieldFits field.bounds field.text

def FieldText.Accepted (field : FieldText) : Prop :=
  FieldAccepted field.bounds field.text

def minuteText (text : Bytes) : FieldText :=
  ⟨⟨0, 59, false, by decide, by decide, by decide⟩, text⟩

def hourText (text : Bytes) : FieldText :=
  ⟨⟨0, 23, false, by decide, by decide, by decide⟩, text⟩

def dayOfMonthText (text : Bytes) : FieldText :=
  ⟨⟨1, 31, false, by decide, by decide, by decide⟩, text⟩

def monthText (text : Bytes) : FieldText :=
  ⟨⟨1, 12, false, by decide, by decide, by decide⟩, text⟩

def dayOfWeekText (text : Bytes) : FieldText :=
  ⟨⟨0, 6, true, by decide, by decide, by decide⟩, text⟩

/-- The fields of an expression. There are none to read unless there are five words. -/
def fieldTexts (expr : Bytes) : List FieldText :=
  match words (trimCopy expr) with
  | [minute, hour, dayOfMonth, month, dayOfWeek] =>
    [minuteText minute, hourText hour, dayOfMonthText dayOfMonth, monthText month,
      dayOfWeekText dayOfWeek]
  | _ => []

def ExpressionFits (expr : Bytes) : Prop :=
  Computes.UpToRefused FieldText.Fits FieldText.Accepted (fieldTexts expr)

theorem cronParse5I32_computes (expr : Bytes) :
    Computes (cronParse5I32 expr).run (ExpressionFits expr) (cronParse5 expr) := by
  have field (text : FieldText) := text.bounds.cronParseFieldI32_computes text.text
  have accepted (text : FieldText) := text.bounds.exists_cronParseField text.text
  rw [cronParse5I32, cronParse5, ExpressionFits, fieldTexts]
  by_cases blank : trimCopy expr = []
  · rw [if_pos (List.isEmpty_iff.mpr blank), if_pos (List.isEmpty_iff.mpr blank), blank]
    exact .pure _
  · rw [if_neg (by simpa using blank), if_neg (by simpa using blank)]
    rcases words (trimCopy expr) with
      _ | ⟨minute, _ | ⟨hour, _ | ⟨dayOfMonth, _ | ⟨month, _ | ⟨dayOfWeek, _ | _⟩⟩⟩⟩⟩
    · exact .pure _
    · exact .pure _
    · exact .pure _
    · exact .pure _
    · exact .pure _
    · exact (field (minuteText minute)).andThen (accepted (minuteText minute)) fun _ _ =>
        (field (hourText hour)).andThen (accepted (hourText hour)) fun _ _ =>
        (field (dayOfMonthText dayOfMonth)).andThen (accepted (dayOfMonthText dayOfMonth))
          fun _ _ =>
        (field (monthText month)).andThen (accepted (monthText month)) fun _ _ =>
        (field (dayOfWeekText dayOfWeek)).andThen (accepted (dayOfWeekText dayOfWeek))
          fun _ _ => .pure _
    · exact .pure _

/-- The parser has a meaning: no operation overflows, every loop ends, and every mark is in
the vector of its field. -/
def ArithmeticSafe (expr : Bytes) : Prop :=
  ∃ parsed, (cronParse5I32 expr).run = .ok parsed

/-- The arithmetic of the parser is safe exactly when everything it reads fits. -/
theorem cron_arithmetic_safe_iff (expr : Bytes) : ArithmeticSafe expr ↔ ExpressionFits expr :=
  (cronParse5I32_computes expr).meaning

/-- The largest step leads too far from minute 1, and a number may itself be too large. -/
theorem cron_overflows : ¬ArithmeticSafe (ascii "1/2147483647 * * * *") ∧
    ¬ArithmeticSafe (ascii "4294967301 * * * *") := by
  have step : (cronParse5I32 (ascii "1/2147483647 * * * *")).run = .error .overflow := by decide
  have number : (cronParse5I32 (ascii "4294967301 * * * *")).run = .error .overflow := by decide
  constructor
  · rintro ⟨parsed, computed⟩
    rw [step] at computed
    cases computed
  · rintro ⟨parsed, computed⟩
    rw [number] at computed
    cases computed

end AgentC.Cron
