import AgentC.Cron.Schedule

/-! # Cron expressions

What the five fields of an expression mean, independently of the program: numbers,
stars and ranges, the last two with a step or without, in lists. -/

namespace AgentC.Cron

structure Numeral where
  digits : Bytes
  nonempty : digits ≠ []
  decimal : AllIn isDigit digits

def Numeral.value (numeral : Numeral) : Nat :=
  digitsValue numeral.digits

inductive Element
  | number (value : Numeral)
  | star (step : Option Numeral)
  | range (first last : Numeral) (step : Option Numeral)

namespace Element

def base : Element → Bytes
  | number value => value.digits
  | star _ => [Cron.star]
  | range first last _ => first.digits ++ dash :: last.digits

def step : Element → Option Numeral
  | number _ => none
  | star step => step
  | range _ _ step => step

def stepValue (element : Element) : Nat :=
  match element.step with
  | none => 1
  | some step => step.value

def text (element : Element) : Bytes :=
  match element.step with
  | none => element.base
  | some step => element.base ++ slash :: step.digits

def isStar : Element → Bool
  | star _ => true
  | _ => false

/-- The values are in the range of the field, and the step is not zero. -/
def InRange (low high : Nat) : Element → Prop
  | number value => low ≤ value.value ∧ value.value ≤ high
  | star step => 0 < (star step).stepValue
  | range first last step =>
    low ≤ first.value ∧ first.value ≤ last.value ∧ last.value ≤ high ∧
      0 < (range first last step).stepValue

def Denotes (low high : Nat) : Element → Nat → Prop
  | number value, other => other = value.value
  | star step, other => low ≤ other ∧ other ≤ high ∧ (star step).stepValue ∣ other - low
  | range first last step, other =>
    first.value ≤ other ∧ other ≤ last.value ∧
      (range first last step).stepValue ∣ other - first.value

end Element

structure Field (low high : Nat) where
  elements : List Element
  nonempty : elements ≠ []
  inRange : ∀ element ∈ elements, element.InRange low high

namespace Field

variable {low high : Nat}

def text (field : Field low high) : Bytes :=
  [comma].intercalate (field.elements.map Element.text)

def Denotes (field : Field low high) (value : Nat) : Prop :=
  ∃ element ∈ field.elements, element.Denotes low high value

def IsStar (field : Field low high) : Prop :=
  ∃ step, field.elements = [.star step]

def HasStar (field : Field low high) : Prop :=
  ∃ element ∈ field.elements, element.isStar = true

end Field

/-- Day 7 of the week is day 0, Sunday. -/
structure Expression where
  minute : Field 0 59
  hour : Field 0 23
  dayOfMonth : Field 1 31
  month : Field 1 12
  dayOfWeek : Field 0 7

namespace Expression

def DenotesWeekday (expression : Expression) (weekday : Nat) : Prop :=
  ∃ value, expression.dayOfWeek.Denotes value ∧ value % 7 = weekday

/-- The day matches both fields if one of them is a star, and one of them
otherwise. -/
def MatchesDay (expression : Expression) (day weekday : Nat) : Prop :=
  (expression.dayOfMonth.IsStar ∨ expression.dayOfWeek.IsStar →
    expression.dayOfMonth.Denotes day ∧ expression.DenotesWeekday weekday) ∧
  (¬(expression.dayOfMonth.IsStar ∨ expression.dayOfWeek.IsStar) →
    expression.dayOfMonth.Denotes day ∨ expression.DenotesWeekday weekday)

def Matches (expression : Expression) (tm : Tm) : Prop :=
  expression.minute.Denotes tm.tmMin ∧ expression.hour.Denotes tm.tmHour ∧
    expression.month.Denotes (tm.tmMon + 1) ∧ expression.MatchesDay tm.tmMday tm.tmWday

def SpelledBy (expression : Expression) (text : Bytes) : Prop :=
  words text = [expression.minute.text, expression.hour.text, expression.dayOfMonth.text,
    expression.month.text, expression.dayOfWeek.text]

/-- The parser accepts the text, and a minute matches what it parses if and only if
it matches the expression. -/
def ReadFrom (expression : Expression) (text : Bytes) : Prop :=
  ∃ schedule, cronParse5 text = .ok schedule ∧
    ∀ minutes : Nat, schedule.matchesTm (gmtime (minutes * 60)) = true ↔
      expression.Matches (gmtime (minutes * 60))

end Expression

theorem parseDigits_eq {digits : Bytes} (decimal : AllIn isDigit digits) (value : Nat) :
    parseDigits value digits =
      some (digits.foldl (fun value digit => value * 10 + digitValue digit) value : Nat) := by
  induction digits generalizing value with
  | nil => rfl
  | cons digit digits induction =>
    rw [allIn_cons] at decimal
    have bounds := digit_bounds decimal.1
    have inside : ¬((digit < 48 || digit > 57) = true) := by
      simp only [gt_iff_lt, Bool.or_eq_true, decide_eq_true_eq, UInt8.lt_iff_toNat_lt]
      change ¬(digit.toNat < 48 ∨ 57 < digit.toNat)
      omega
    have next : (value : Int) * 10 + (digit.toNat - 48) =
        ((value * 10 + digitValue digit : Nat) : Int) := by
      rw [digitValue]
      omega
    rw [parseDigits, if_neg inside, next, induction decimal.2, List.foldl_cons]

variable (numeral : Numeral) (element : Element)

theorem parseInt_digits : parseInt numeral.digits = some (numeral.value : Int) := by
  rcases numeral with ⟨digits, nonempty, decimal⟩
  cases digits with
  | nil => exact absurd rfl nonempty
  | cons digit digits =>
    have noDash : digit ≠ dash := by
      intro same
      have isDash := (allIn_cons.mp decimal).1
      rw [same] at isDash
      exact absurd isDash (by decide)
    rw [parseInt, if_neg noDash]
    exact parseDigits_eq decimal 0

def isBaseByte (byte : UInt8) : Bool :=
  isDigit byte || byte == star || byte == dash

theorem isBaseByte_separators (byte : UInt8) : isBaseByte byte = true →
    isSpace byte = false ∧ byte ≠ comma ∧ byte ≠ slash := by
  revert byte
  apply forall_byte
  decide +kernel

theorem isDigit_separators (byte : UInt8) : isDigit byte = true →
    isBaseByte byte = true ∧ byte ≠ star ∧ byte ≠ dash := by
  revert byte
  apply forall_byte
  decide +kernel

theorem Numeral.base : AllIn isBaseByte numeral.digits := fun byte member =>
  (isDigit_separators byte (numeral.decimal byte member)).1

theorem Element.base_bytes : AllIn isBaseByte element.base := by
  cases element with
  | number value => exact value.base
  | star step =>
    intro byte member
    rw [List.mem_singleton.mp member]
    rfl
  | range first last step =>
    exact allIn_append.mpr ⟨first.base, allIn_cons.mpr ⟨rfl, last.base⟩⟩

theorem Element.text_bytes : ∀ byte ∈ element.text, isSpace byte = false ∧ byte ≠ comma := by
  have inBase : ∀ text, AllIn isBaseByte text → ∀ byte ∈ text,
      isSpace byte = false ∧ byte ≠ comma := fun text all byte member =>
    ⟨(isBaseByte_separators byte (all byte member)).1,
      (isBaseByte_separators byte (all byte member)).2.1⟩
  rw [Element.text]
  split
  · exact inBase _ element.base_bytes
  · next step _ =>
    intro byte member
    rcases List.mem_append.mp member with front | back
    · exact inBase _ element.base_bytes byte front
    · rcases List.mem_cons.mp back with same | digit
      · rw [same]
        decide
      · exact inBase _ step.base byte digit

theorem trimCopy_eq_self {text : Bytes} (solid : ∀ byte ∈ text, isSpace byte = false) :
    trimCopy text = text :=
  trimBoth_eq_self solid

theorem Element.trim_text : trimCopy element.text = element.text :=
  trimCopy_eq_self fun byte member => (element.text_bytes byte member).1

theorem Element.trim_base : trimCopy element.base = element.base :=
  trimCopy_eq_self fun byte member =>
    (isBaseByte_separators byte (element.base_bytes byte member)).1

theorem Numeral.trim_digits : trimCopy numeral.digits = numeral.digits :=
  trimCopy_eq_self fun byte member => (isBaseByte_separators byte (numeral.base byte member)).1

theorem Element.base_ne_nil : element.base ≠ [] := by
  cases element with
  | number value => exact value.nonempty
  | star step => exact List.cons_ne_nil _ _
  | range first last step => exact List.append_ne_nil_of_left_ne_nil first.nonempty _

theorem Element.text_ne_nil : element.text ≠ [] := by
  rw [Element.text]
  split
  · exact element.base_ne_nil
  · exact List.append_ne_nil_of_left_ne_nil element.base_ne_nil _

theorem splitFirst_none {separator : UInt8} {text : Bytes} (absent : separator ∉ text) :
    splitFirst separator text = none :=
  if_neg absent

theorem splitFirst_some {separator : UInt8} {front back : Bytes} (absent : separator ∉ front) :
    splitFirst separator (front ++ separator :: back) = some (front, back) := by
  have inside : AllIn (fun byte => byte != separator) front := fun byte member =>
    bne_iff_ne.mpr fun same => absent (same ▸ member)
  have stops : StopsAt (fun byte => byte != separator) (separator :: back) :=
    stopsAt_cons.mpr (by simp)
  rw [splitFirst, if_pos (by simp), takeWhile_append_of_stop inside stops,
    dropWhile_append_of_stop inside stops]
  rfl

theorem Element.noSlash : slash ∉ element.base := fun member =>
  (isBaseByte_separators slash (element.base_bytes slash member)).2.2 rfl

theorem Numeral.noDash : dash ∉ numeral.digits := fun member =>
  (isDigit_separators dash (numeral.decimal dash member)).2.2 rfl

theorem tokenStep_text {element : Element} (steps : 0 < element.stepValue) :
    tokenStep element.text = .ok (element.base, (element.stepValue : Int)) := by
  rw [Element.stepValue] at steps ⊢
  rw [Element.text]
  cases stepped : element.step with
  | none =>
    rw [tokenStep, splitFirst_none element.noSlash]
    rfl
  | some step =>
    rw [stepped] at steps
    have positive : ¬(step.value : Int) ≤ 0 := by
      simp only at steps
      omega
    rw [tokenStep, splitFirst_some element.noSlash]
    simp only [step.trim_digits, parseInt_digits, if_neg positive, element.trim_base]
    rfl

theorem number_base_ne_star (value : Numeral) : (Element.number value).base ≠ [star] := by
  intro same
  rw [Element.base] at same
  have member : star ∈ value.digits := same ▸ List.mem_singleton.mpr rfl
  exact (isDigit_separators star (value.decimal star member)).2.1 rfl

theorem range_base_ne_star (first last : Numeral) (step : Option Numeral) :
    (Element.range first last step).base ≠ [star] := by
  intro same
  rw [Element.base] at same
  have member : dash ∈ [star] := same ▸ List.mem_append_right _ List.mem_cons_self
  exact absurd (List.mem_singleton.mp member) (by decide)

theorem tokenRange_number (value : Numeral) :
    tokenRange (Element.number value).base = .ok ((value.value : Int), (value.value : Int)) := by
  rw [Element.base, tokenRange, splitFirst_none value.noDash]
  simp only [parseInt_digits]
  rfl

theorem tokenRange_range (first last : Numeral) (step : Option Numeral) :
    tokenRange (Element.range first last step).base =
      .ok ((first.value : Int), (last.value : Int)) := by
  rw [Element.base, tokenRange, splitFirst_some first.noDash]
  simp only [first.trim_digits, last.trim_digits, parseInt_digits]
  rfl

end AgentC.Cron
