import AgentC.Cron.Reading

/-! # What a cron expression means to the parser

The parser gives an expression its meaning except for three kinds of day fields: a
range of days of the week that ends on day 7 is refused or reduced to Sunday, the
steps of a star are lost where the other day field decides alone, and a star in a
list counts as a star for the whole field. -/

namespace AgentC.Cron

theorem words_append_space (front back : Bytes) {space : UInt8} (isSpace : isSpace space = true) :
    words (front ++ space :: back) = words front ++ words back := by
  rw [words, List.splitOnP_append_cons front back isSpace, List.filter_append]
  rfl

theorem words_cons_space {space : UInt8} (isSpace : isSpace space = true) (text : Bytes) :
    words (space :: text) = words text :=
  words_append_space [] text isSpace

theorem words_spaces {spaces : Bytes} (all : AllIn isSpace spaces) : words spaces = [] := by
  induction spaces with
  | nil => rfl
  | cons space spaces induction =>
    rw [allIn_cons] at all
    rw [words_cons_space all.1, induction all.2]

variable (text : Bytes) {element : Element}

theorem words_append_spaces {spaces : Bytes} (all : AllIn isSpace spaces) :
    words (text ++ spaces) = words text := by
  cases spaces with
  | nil => rw [List.append_nil]
  | cons space spaces =>
    rw [allIn_cons] at all
    rw [words_append_space text spaces all.1, words_spaces all.2, List.append_nil]

theorem words_dropWhile : words (text.dropWhile isSpace) = words text := by
  induction text with
  | nil => rfl
  | cons byte text induction =>
    rw [List.dropWhile_cons]
    split
    · next space => rw [induction, words_cons_space space]
    · rfl

theorem words_trimCopy : words (trimCopy text) = words text := by
  have spaces : AllIn isSpace ((text.dropWhile isSpace).rtakeWhile isSpace) :=
    fun byte member => List.mem_rtakeWhile_imp member
  have back := words_append_spaces ((text.dropWhile isSpace).rdropWhile isSpace) spaces
  rw [List.rdropWhile_append_rtakeWhile, words_dropWhile] at back
  exact back.symm

/-! ## Days of the week -/

def Element.IsWholeWeek : Element → Prop
  | range first last _ => first.value = 0 ∧ last.value = 7
  | _ => False

/-- A range that ends on day 7, from a day between Monday and Saturday on. -/
def Element.EndsOnSunday : Element → Prop
  | range first last _ => 0 < first.value ∧ first.value < 7 ∧ last.value = 7
  | _ => False

theorem sunday_of_lt {value : Nat} (day : value < 7) : sunday true value = value := by
  have other : ¬(true && decide (value = 7)) = true := by
    simp only [Bool.true_and, decide_eq_true_eq]
    omega
  exact if_neg other

theorem sunday_seven : sunday true 7 = 0 :=
  rfl

theorem accepted_iff (inRange : element.InRange 0 7) :
    element.Accepted true ↔ ¬element.EndsOnSunday := by
  cases element with
  | number value => exact ⟨fun _ => id, fun _ => trivial⟩
  | star step => exact ⟨fun _ => id, fun _ => trivial⟩
  | range first last step =>
    rcases inRange with ⟨_, ordered, toSeven, _⟩
    rw [Element.Accepted, Element.EndsOnSunday]
    by_cases toSunday : last.value = 7
    · rw [toSunday, sunday_seven]
      by_cases fromSunday : first.value = 7
      · rw [fromSunday, sunday_seven]
        omega
      · rw [sunday_of_lt (by omega)]
        omega
    · rw [sunday_of_lt (by omega), sunday_of_lt (by omega)]
      omega

/-- An accepted element marks the days that it denotes, or Sunday if it is a range
from 0 to 7. -/
theorem reads_weekday (inRange : element.InRange 0 7) (accepted : ¬element.EndsOnSunday)
    (weekday : Nat) : element.Reads true 0 6 weekday ↔ element.IsWholeWeek ∧ weekday = 0 ∨
        ¬element.IsWholeWeek ∧ ∃ value, element.Denotes 0 7 value ∧ value % 7 = weekday := by
  cases element with
  | number value =>
    change weekday = sunday true value.value ↔
      False ∧ weekday = 0 ∨ ¬False ∧ ∃ other, other = value.value ∧ other % 7 = weekday
    have single : sunday true value.value = value.value % 7 := by
      by_cases isSunday : value.value = 7
      · rw [isSunday, sunday_seven]
      · have day : value.value < 7 := by
          have := inRange.2
          omega
        rw [sunday_of_lt day, Nat.mod_eq_of_lt day]
    rw [single]
    constructor
    · exact fun same => .inr ⟨id, _, rfl, same.symm⟩
    · rintro (⟨impossible, _⟩ | ⟨_, other, same, denoted⟩)
      · exact impossible.elim
      · rw [← denoted, same]
  | star step =>
    change 0 ≤ weekday ∧ weekday ≤ 6 ∧ (Element.star step).stepValue ∣ weekday - 0 ↔
      False ∧ weekday = 0 ∨ ¬False ∧ ∃ value,
        (0 ≤ value ∧ value ≤ 7 ∧ (Element.star step).stepValue ∣ value - 0) ∧
          value % 7 = weekday
    simp only [Nat.sub_zero]
    constructor
    · rintro ⟨_, toSaturday, divides⟩
      exact .inr ⟨id, weekday, ⟨Nat.zero_le _, by omega, divides⟩,
        Nat.mod_eq_of_lt (by omega)⟩
    · rintro (⟨impossible, _⟩ | ⟨_, value, ⟨_, toSunday, divides⟩, denoted⟩)
      · exact impossible.elim
      · by_cases isSunday : value = 7
        · rw [isSunday, Nat.mod_self] at denoted
          rw [← denoted]
          exact ⟨Nat.le_refl 0, by decide, Nat.dvd_zero _⟩
        · rw [Nat.mod_eq_of_lt (by omega)] at denoted
          rw [← denoted]
          exact ⟨Nat.zero_le _, by omega, divides⟩
  | range first last step =>
    rcases inRange with ⟨_, ordered, toSeven, _⟩
    rw [Element.Reads, Element.IsWholeWeek]
    simp only [Element.Denotes]
    rw [Element.EndsOnSunday] at accepted
    by_cases toSunday : last.value = 7
    · rw [toSunday, sunday_seven]
      by_cases fromSunday : first.value = 0
      · rw [fromSunday, sunday_of_lt (by decide)]
        constructor
        · rintro ⟨_, below, _⟩
          exact .inl ⟨⟨rfl, rfl⟩, by omega⟩
        · rintro (⟨_, same⟩ | ⟨other, _⟩)
          · rw [same]
            exact ⟨Nat.le_refl 0, Nat.le_refl 0, Nat.dvd_zero _⟩
          · exact absurd ⟨rfl, rfl⟩ other
      · have lastDay : first.value = 7 := by omega
        rw [lastDay, sunday_seven]
        constructor
        · rintro ⟨_, below, _⟩
          refine .inr ⟨by omega, 7, ⟨Nat.le_refl 7, Nat.le_refl 7, ?_⟩, by omega⟩
          rw [Nat.sub_self]
          exact Nat.dvd_zero _
        · rintro (⟨impossible, _⟩ | ⟨_, value, ⟨above, below, _⟩, denoted⟩)
          · exact absurd impossible.1 (by decide)
          · have same : weekday = 0 := by omega
            rw [same]
            exact ⟨Nat.le_refl 0, Nat.le_refl 0, Nat.dvd_zero _⟩
    · rw [sunday_of_lt (by omega), sunday_of_lt (by omega)]
      constructor
      · rintro ⟨above, below, divides⟩
        exact .inr ⟨fun both => toSunday both.2, weekday, ⟨above, below, divides⟩,
          Nat.mod_eq_of_lt (by omega)⟩
      · rintro (⟨both, _⟩ | ⟨_, value, ⟨above, below, divides⟩, denoted⟩)
        · exact absurd both.2 toSunday
        · rw [Nat.mod_eq_of_lt (by omega)] at denoted
          rw [← denoted]
          exact ⟨above, below, divides⟩

namespace Expression

variable (expression : Expression)

def ReadsWeekday (weekday : Nat) : Prop :=
  expression.dayOfWeek.Reads true 6 weekday

/-- No range of days of the week ends on day 7, unless it is day 7 alone or starts
on day 0. -/
def NoRangeToSunday : Prop :=
  ∀ element ∈ expression.dayOfWeek.elements, ¬element.EndsOnSunday

/-- The days between Monday and Saturday are denoted without the ranges from 0 to 7. -/
def KeepsWeekdays : Prop :=
  ∀ weekday, 0 < weekday → expression.DenotesWeekday weekday →
    ∃ element ∈ expression.dayOfWeek.elements, ¬element.IsWholeWeek ∧
      ∃ value, element.Denotes 0 7 value ∧ value % 7 = weekday

variable {expression}

theorem readsWeekday_iff (accepted : expression.NoRangeToSunday) (weekday : Nat) :
    expression.ReadsWeekday weekday ↔ ∃ element ∈ expression.dayOfWeek.elements,
      element.IsWholeWeek ∧ weekday = 0 ∨
        ¬element.IsWholeWeek ∧ ∃ value, element.Denotes 0 7 value ∧ value % 7 = weekday := by
  rw [ReadsWeekday, Field.Reads]
  constructor
  · rintro ⟨element, member, reads⟩
    exact ⟨element, member, (reads_weekday (expression.dayOfWeek.inRange element member)
      (accepted element member) weekday).mp reads⟩
  · rintro ⟨element, member, denotes⟩
    exact ⟨element, member, (reads_weekday (expression.dayOfWeek.inRange element member)
      (accepted element member) weekday).mpr denotes⟩

theorem denotes_wholeWeek (inRange : element.InRange 0 7) (whole : element.IsWholeWeek) :
    element.Denotes 0 7 0 := by
  cases element with
  | number value => exact whole.elim
  | star step => exact whole.elim
  | range =>
    refine ⟨whole.1.le, Nat.zero_le _, ?_⟩
    rw [Nat.zero_sub]
    exact Nat.dvd_zero _

theorem denotesWeekday_of_reads (accepted : expression.NoRangeToSunday) {weekday : Nat}
    (reads : expression.ReadsWeekday weekday) : expression.DenotesWeekday weekday := by
  rcases (readsWeekday_iff accepted weekday).mp reads with
    ⟨element, member, ⟨whole, same⟩ | ⟨_, value, denotes, denoted⟩⟩
  · have denotes := denotes_wholeWeek (expression.dayOfWeek.inRange element member) whole
    exact ⟨0, ⟨element, member, denotes⟩, same.symm⟩
  · exact ⟨value, ⟨element, member, denotes⟩, denoted⟩

theorem keepsWeekdays_iff (accepted : expression.NoRangeToSunday) : expression.KeepsWeekdays ↔
      ∀ weekday, expression.DenotesWeekday weekday → expression.ReadsWeekday weekday := by
  constructor
  · intro keeps weekday denotes
    rw [readsWeekday_iff accepted]
    by_cases isSunday : weekday = 0
    · rcases denotes with ⟨value, ⟨element, member, denotes⟩, denoted⟩
      refine ⟨element, member, ?_⟩
      by_cases whole : element.IsWholeWeek
      · exact .inl ⟨whole, isSunday⟩
      · exact .inr ⟨whole, value, denotes, denoted⟩
    · rcases keeps weekday (Nat.pos_of_ne_zero isSunday) denotes with ⟨element, member, kept⟩
      exact ⟨element, member, .inr kept⟩
  · intro reads weekday positive denotes
    rcases (readsWeekday_iff accepted weekday).mp (reads weekday denotes) with
      ⟨element, member, ⟨_, isSunday⟩ | kept⟩
    · exact absurd isSunday (Nat.ne_of_gt positive)
    · exact ⟨element, member, kept⟩

/-! ## The parsed schedule -/

variable (expression) in
def ReadsDay (day weekday : Nat) : Prop :=
  (expression.dayOfMonth.HasStar ∧ expression.dayOfWeek.HasStar) ∨
    (expression.dayOfMonth.HasStar ∧ ¬expression.dayOfWeek.HasStar ∧
      expression.ReadsWeekday weekday) ∨
    (¬expression.dayOfMonth.HasStar ∧ expression.dayOfWeek.HasStar ∧
      expression.dayOfMonth.Denotes day) ∨
    (¬expression.dayOfMonth.HasStar ∧ ¬expression.dayOfWeek.HasStar ∧
      (expression.dayOfMonth.Denotes day ∨ expression.ReadsWeekday weekday))

theorem any_isStar {low high : Nat} (field : Field low high) :
    field.elements.any Element.isStar = true ↔ field.HasStar := by
  rw [List.any_eq_true, Field.HasStar]

theorem cronParse5_spelled {text : Bytes} (spelled : expression.SpelledBy text) :
    cronParse5 text = (do
      let minute ← cronParseField expression.minute.text 0 59 false
      let hour ← cronParseField expression.hour.text 0 23 false
      let dayOfMonth ← cronParseField expression.dayOfMonth.text 1 31 false
      let month ← cronParseField expression.month.text 1 12 false
      let dayOfWeek ← cronParseField expression.dayOfWeek.text 0 6 true
      return { minute, hour, dayOfMonth, month, dayOfWeek
               dayOfMonthAny := dayOfMonth.any
               dayOfWeekAny := dayOfWeek.any }) := by
  have fields : words (trimCopy text) = _ := (words_trimCopy text).trans spelled
  have present : ¬(trimCopy text).isEmpty = true := by
    intro empty
    rw [List.isEmpty_iff] at empty
    rw [empty] at fields
    cases fields
  rw [cronParse5]
  simp only [if_neg present, fields]

/-- The first four fields are always parsed; the days of the week decide. -/
theorem cronParse5_weekday {text : Bytes} (spelled : expression.SpelledBy text) :
    ∃ minute hour dayOfMonth month : CronField,
      (∀ value : Nat, minute.allows value = true ↔ expression.minute.Denotes value) ∧
      (∀ value : Nat, hour.allows value = true ↔ expression.hour.Denotes value) ∧
      (∀ value : Nat, dayOfMonth.allows value = true ↔ expression.dayOfMonth.Denotes value) ∧
      (∀ value : Nat, month.allows value = true ↔ expression.month.Denotes value) ∧
      (dayOfMonth.any = true ↔ expression.dayOfMonth.HasStar) ∧
      cronParse5 text = (do
        let dayOfWeek ← cronParseField expression.dayOfWeek.text 0 6 true
        return { minute, hour, dayOfMonth, month, dayOfWeek
                 dayOfMonthAny := dayOfMonth.any
                 dayOfWeekAny := dayOfWeek.any }) := by
  rcases cronParseField_plain (by decide) expression.minute with
    ⟨minute, parsedMinute, _, minutes⟩
  rcases cronParseField_plain (by decide) expression.hour with ⟨hour, parsedHour, _, hours⟩
  rcases cronParseField_plain (by decide) expression.dayOfMonth with ⟨day, parsedDay, any, days⟩
  rcases cronParseField_plain (by decide) expression.month with ⟨month, parsedMonth, _, months⟩
  refine ⟨minute, hour, day, month, minutes, hours, days, months, ?_, ?_⟩
  · rw [any]
    exact any_isStar expression.dayOfMonth
  · rw [cronParse5_spelled spelled]
    simp only [Nat.cast_ofNat, Nat.cast_zero] at parsedMinute parsedHour
    simp only [Nat.cast_ofNat, Nat.cast_one] at parsedDay parsedMonth
    rw [parsedMinute, parsedHour, parsedDay, parsedMonth]
    rfl

theorem cronParse5_refused {text : Bytes} (spelled : expression.SpelledBy text)
    (refused : ¬expression.NoRangeToSunday) : ∃ error, cronParse5 text = .error error := by
  rcases cronParse5_weekday spelled with ⟨minute, hour, day, month, _, _, _, _, _, parsed⟩
  have range : ∃ element ∈ expression.dayOfWeek.elements, ¬element.Accepted true := by
    simp only [NoRangeToSunday, not_forall, not_not] at refused
    rcases refused with ⟨element, member, ends⟩
    refine ⟨element, member, fun accepted => ?_⟩
    exact (accepted_iff (expression.dayOfWeek.inRange element member)).mp accepted ends
  rcases cronParseField_refused bounded_weekday expression.dayOfWeek range with ⟨error, failed⟩
  refine ⟨error, ?_⟩
  rw [Nat.cast_zero, Nat.cast_ofNat] at failed
  rw [parsed, failed]
  rfl

theorem cronParse5_accepted {text : Bytes} (spelled : expression.SpelledBy text)
    (accepted : expression.NoRangeToSunday) : ∃ schedule, cronParse5 text = .ok schedule ∧
      ∀ tm, schedule.matchesTm tm = true ↔
        expression.minute.Denotes tm.tmMin ∧ expression.hour.Denotes tm.tmHour ∧
          expression.month.Denotes (tm.tmMon + 1) ∧ expression.ReadsDay tm.tmMday tm.tmWday := by
  rcases cronParse5_weekday spelled with
    ⟨minute, hour, day, month, minutes, hours, days, months, starDay, parsed⟩
  rcases cronParseField_accepted bounded_weekday expression.dayOfWeek
    (fun element member => (accepted_iff (expression.dayOfWeek.inRange element member)).mpr
      (accepted element member)) with ⟨weekday, parsedWeekday, anyWeekday, weekdays⟩
  rw [Nat.cast_zero, Nat.cast_ofNat] at parsedWeekday
  refine ⟨⟨minute, hour, day, month, weekday, day.any, weekday.any⟩, ?_, fun tm => ?_⟩
  · rw [parsed, parsedWeekday]
    rfl
  · have monthCast : ((tm.tmMon : Int) + 1) = ((tm.tmMon + 1 : Nat) : Int) := by push_cast; rfl
    have starWeekday := any_isStar expression.dayOfWeek
    rw [← anyWeekday] at starWeekday
    have rule : cronMatchDomDow ⟨minute, hour, day, month, weekday, day.any, weekday.any⟩
        tm.tmMday tm.tmWday = true ↔ expression.ReadsDay tm.tmMday tm.tmWday := by
      rw [ReadsDay, ← starDay, ← starWeekday, ReadsWeekday, ← weekdays, ← days]
      simp only [cronMatchDomDow]
      cases day.any <;> cases weekday.any <;> simp
    rw [← rule]
    simp only [CronSchedule.matchesTm, Bool.and_eq_true, monthCast, minutes, hours, months,
      and_assoc]

/-! ## Days -/

variable (expression)

def HasDay (day : Nat) : Prop :=
  ∃ month, expression.month.Denotes month ∧ 1 ≤ day ∧ day ≤ longestMonth month

/-- The day of the month excludes no day of the months. -/
def CoversMonths : Prop :=
  ∀ day, expression.HasDay day → expression.dayOfMonth.Denotes day

def MissesMonths : Prop :=
  ∀ day, expression.HasDay day → ¬expression.dayOfMonth.Denotes day

def CoversWeek : Prop :=
  ∀ weekday < 7, expression.DenotesWeekday weekday

/-- The day fields for which the rule of the parser is that of the expression, by
where there are stars. -/
inductive DaysAgree : Prop
  | noStar (day : ¬expression.dayOfMonth.HasStar) (weekday : ¬expression.dayOfWeek.HasStar)
      (kept : expression.KeepsWeekdays ∨ expression.CoversMonths)
  | starDay (day : expression.dayOfMonth.IsStar) (weekday : ¬expression.dayOfWeek.HasStar)
      (covers : expression.CoversMonths) (kept : expression.KeepsWeekdays)
  | listedDay (day : expression.dayOfMonth.HasStar) (list : ¬expression.dayOfMonth.IsStar)
      (weekday : ¬expression.dayOfWeek.HasStar) (covers : expression.CoversWeek)
      (kept : expression.KeepsWeekdays)
  | starWeekday (day : ¬expression.dayOfMonth.HasStar) (weekday : expression.dayOfWeek.IsStar)
      (covers : expression.CoversWeek ∨ expression.MissesMonths)
  | listedWeekday (day : ¬expression.dayOfMonth.HasStar)
      (weekday : expression.dayOfWeek.HasStar) (list : ¬expression.dayOfWeek.IsStar)
      (covers : expression.CoversMonths)
  | starBoth (day : expression.dayOfMonth.HasStar) (weekday : expression.dayOfWeek.HasStar)
      (star : expression.dayOfMonth.IsStar ∨ expression.dayOfWeek.IsStar)
      (covers : expression.CoversMonths) (coversWeek : expression.CoversWeek)
  | listedBoth (day : expression.dayOfMonth.HasStar) (weekday : expression.dayOfWeek.HasStar)
      (lists : ¬(expression.dayOfMonth.IsStar ∨ expression.dayOfWeek.IsStar))
      (covers : expression.CoversMonths ∨ expression.CoversWeek)

/-- The rules agree on every day that occurs. -/
def SameDays : Prop :=
  ∀ day weekday, expression.HasDay day → weekday < 7 →
    (expression.ReadsDay day weekday ↔ expression.MatchesDay day weekday)

variable {expression}

end Expression

section Fields

variable {low high : Nat} {field : Field low high}

theorem Field.IsStar.hasStar (isStar : field.IsStar) : field.HasStar := by
  rcases isStar with ⟨step, single⟩
  exact ⟨.star step, single ▸ List.mem_singleton.mpr rfl, rfl⟩

theorem Field.Denotes.bounds {value : Nat} (denotes : field.Denotes value) :
    low ≤ value ∧ value ≤ high := by
  rcases denotes with ⟨element, member, denotes⟩
  have inRange := field.inRange element member
  cases element with
  | number number =>
    rw [denotes]
    exact inRange
  | star step => exact ⟨denotes.1, denotes.2.1⟩
  | range =>
    exact ⟨Nat.le_trans inRange.1 denotes.1, Nat.le_trans denotes.2.1 inRange.2.2.1⟩

theorem Field.HasStar.denotes_low (ordered : low ≤ high) (hasStar : field.HasStar) :
    field.Denotes low := by
  rcases hasStar with ⟨element, member, isStar⟩
  refine ⟨element, member, ?_⟩
  cases element with
  | number number => cases isStar
  | star step =>
    refine ⟨Nat.le_refl low, ordered, ?_⟩
    rw [Nat.sub_self]
    exact Nat.dvd_zero _
  | range => cases isStar

theorem Field.exists_denoted (ordered : low ≤ high) (field : Field low high) :
    ∃ value, field.Denotes value := by
  rcases List.exists_mem_of_ne_nil _ field.nonempty with ⟨element, member⟩
  have inRange := field.inRange element member
  cases element with
  | number number => exact ⟨number.value, _, member, rfl⟩
  | star step => exact ⟨low, Field.HasStar.denotes_low ordered ⟨_, member, rfl⟩⟩
  | range first last step =>
    refine ⟨first.value, _, member, Nat.le_refl _, inRange.2.1, ?_⟩
    rw [Nat.sub_self]
    exact Nat.dvd_zero _

end Fields

namespace Expression

variable {expression : Expression}

theorem hasDay_one : expression.HasDay 1 := by
  rcases expression.month.exists_denoted (by decide) with ⟨month, denotes⟩
  exact ⟨month, denotes, Nat.le_refl 1, one_le_daysInMonth 1972 month⟩

theorem readsWeekday_lt {weekday : Nat} (reads : expression.ReadsWeekday weekday)
    (accepted : expression.NoRangeToSunday) : weekday < 7 := by
  rcases denotesWeekday_of_reads accepted reads with ⟨value, _, denoted⟩
  omega

theorem exists_readsWeekday (accepted : expression.NoRangeToSunday) :
    ∃ weekday, expression.ReadsWeekday weekday := by
  by_cases whole : ∃ element ∈ expression.dayOfWeek.elements, element.IsWholeWeek
  · rcases whole with ⟨element, member, whole⟩
    exact ⟨0, (readsWeekday_iff accepted 0).mpr ⟨element, member, .inl ⟨whole, rfl⟩⟩⟩
  · rcases expression.dayOfWeek.exists_denoted (by decide) with ⟨value, element, member, denotes⟩
    exact ⟨value % 7, (readsWeekday_iff accepted _).mpr ⟨element, member,
      .inr ⟨fun isWhole => whole ⟨element, member, isWhole⟩, value, denotes, rfl⟩⟩⟩

theorem matchesDay_star (star : expression.dayOfMonth.IsStar ∨ expression.dayOfWeek.IsStar)
    (day weekday : Nat) : expression.MatchesDay day weekday ↔
      expression.dayOfMonth.Denotes day ∧ expression.DenotesWeekday weekday :=
  ⟨fun both => both.1 star, fun both => ⟨fun _ => both, fun none => absurd star none⟩⟩

theorem matchesDay_list (list : ¬(expression.dayOfMonth.IsStar ∨ expression.dayOfWeek.IsStar))
    (day weekday : Nat) : expression.MatchesDay day weekday ↔
      expression.dayOfMonth.Denotes day ∨ expression.DenotesWeekday weekday :=
  ⟨fun both => both.2 list, fun either => ⟨fun star => absurd star list, fun _ => either⟩⟩

section SameDays

variable (accepted : expression.NoRangeToSunday)
include accepted

theorem sameDays_noStar (day : ¬expression.dayOfMonth.HasStar)
    (weekday : ¬expression.dayOfWeek.HasStar) :
    expression.SameDays ↔ expression.KeepsWeekdays ∨ expression.CoversMonths := by
  have list : ¬(expression.dayOfMonth.IsStar ∨ expression.dayOfWeek.IsStar) := fun star =>
    star.elim (fun isStar => day isStar.hasStar) fun isStar => weekday isStar.hasStar
  simp only [SameDays, matchesDay_list list, ReadsDay, day, weekday, false_and, not_false_eq_true,
    true_and, false_or]
  rw [keepsWeekdays_iff accepted]
  constructor
  · intro same
    by_cases covers : expression.CoversMonths
    · exact .inr covers
    · simp only [CoversMonths, not_forall] at covers
      rcases covers with ⟨missed, hasDay, excluded⟩
      refine .inl fun weekday denotes => ?_
      have inWeek : weekday < 7 := by
        rcases denotes with ⟨value, _, denoted⟩
        omega
      exact ((same missed weekday hasDay inWeek).mpr (.inr denotes)).resolve_left excluded
  · rintro (keeps | covers) day weekday hasDay _
    · exact or_congr_right ⟨denotesWeekday_of_reads accepted, keeps weekday⟩
    · exact ⟨fun _ => .inl (covers day hasDay), fun _ => .inl (covers day hasDay)⟩

theorem sameDays_starDay (day : expression.dayOfMonth.IsStar)
    (weekday : ¬expression.dayOfWeek.HasStar) :
    expression.SameDays ↔ expression.CoversMonths ∧ expression.KeepsWeekdays := by
  simp only [SameDays, matchesDay_star (.inl day), ReadsDay, day.hasStar, weekday, and_false,
    not_false_eq_true, not_true_eq_false, true_and, false_and, or_false, false_or]
  rw [keepsWeekdays_iff accepted]
  constructor
  · intro same
    rcases exists_readsWeekday accepted with ⟨some, reads⟩
    have inWeek := readsWeekday_lt reads accepted
    have covers : expression.CoversMonths := fun day hasDay =>
      ((same day some hasDay inWeek).mp reads).1
    refine ⟨covers, fun weekday denotes => ?_⟩
    have inWeek : weekday < 7 := by
      rcases denotes with ⟨value, _, denoted⟩
      omega
    exact (same 1 weekday hasDay_one inWeek).mpr ⟨covers 1 hasDay_one, denotes⟩
  · rintro ⟨covers, keeps⟩ day weekday hasDay _
    exact ⟨fun reads => ⟨covers day hasDay, denotesWeekday_of_reads accepted reads⟩,
      fun both => keeps weekday both.2⟩

theorem sameDays_listedDay (day : expression.dayOfMonth.HasStar)
    (list : ¬expression.dayOfMonth.IsStar) (weekday : ¬expression.dayOfWeek.HasStar) :
    expression.SameDays ↔ expression.CoversWeek ∧ expression.KeepsWeekdays := by
  have list : ¬(expression.dayOfMonth.IsStar ∨ expression.dayOfWeek.IsStar) := fun star =>
    star.elim list fun isStar => weekday isStar.hasStar
  simp only [SameDays, matchesDay_list list, ReadsDay, day, weekday, and_false,
    not_false_eq_true, not_true_eq_false, true_and, false_and, or_false, false_or]
  rw [keepsWeekdays_iff accepted]
  constructor
  · intro same
    have reads : ∀ weekday < 7, expression.ReadsWeekday weekday := fun weekday inWeek =>
      (same 1 weekday hasDay_one inWeek).mpr (.inl (day.denotes_low (by decide)))
    refine ⟨fun weekday inWeek => denotesWeekday_of_reads accepted (reads weekday inWeek), ?_⟩
    intro weekday denotes
    apply reads
    rcases denotes with ⟨value, _, denoted⟩
    omega
  · rintro ⟨covers, keeps⟩ day weekday _ inWeek
    exact ⟨fun reads => .inr (denotesWeekday_of_reads accepted reads),
      fun _ => keeps weekday (covers weekday inWeek)⟩

omit accepted

theorem denotesWeekday_zero (weekday : expression.dayOfWeek.HasStar) :
    expression.DenotesWeekday 0 :=
  ⟨0, weekday.denotes_low (by decide), rfl⟩

theorem sameDays_starWeekday (day : ¬expression.dayOfMonth.HasStar)
    (weekday : expression.dayOfWeek.IsStar) :
    expression.SameDays ↔ expression.CoversWeek ∨ expression.MissesMonths := by
  simp only [SameDays, matchesDay_star (.inr weekday), ReadsDay, day, weekday.hasStar, false_and,
    not_false_eq_true, not_true_eq_false, true_and, and_false, or_false, false_or]
  constructor
  · intro same
    by_cases misses : expression.MissesMonths
    · exact .inr misses
    · simp only [MissesMonths, not_forall, not_not] at misses
      rcases misses with ⟨some, hasDay, denotes⟩
      exact .inl fun weekday inWeek => ((same some weekday hasDay inWeek).mp denotes).2
  · rintro (covers | misses) day weekday hasDay inWeek
    · exact ⟨fun denotes => ⟨denotes, covers weekday inWeek⟩, And.left⟩
    · exact ⟨fun denotes => absurd denotes (misses day hasDay), And.left⟩

theorem sameDays_listedWeekday (day : ¬expression.dayOfMonth.HasStar)
    (weekday : expression.dayOfWeek.HasStar) (list : ¬expression.dayOfWeek.IsStar) :
    expression.SameDays ↔ expression.CoversMonths := by
  have list : ¬(expression.dayOfMonth.IsStar ∨ expression.dayOfWeek.IsStar) := fun star =>
    star.elim (fun isStar => day isStar.hasStar) list
  simp only [SameDays, matchesDay_list list, ReadsDay, day, weekday, false_and,
    not_false_eq_true, not_true_eq_false, true_and, and_false, or_false, false_or]
  constructor
  · intro same day hasDay
    exact (same day 0 hasDay (by decide)).mpr (.inr (denotesWeekday_zero weekday))
  · intro covers day weekday hasDay _
    exact ⟨.inl, fun _ => covers day hasDay⟩

theorem sameDays_starBoth (day : expression.dayOfMonth.HasStar)
    (weekday : expression.dayOfWeek.HasStar)
    (star : expression.dayOfMonth.IsStar ∨ expression.dayOfWeek.IsStar) :
    expression.SameDays ↔ expression.CoversMonths ∧ expression.CoversWeek := by
  simp only [SameDays, matchesDay_star star, ReadsDay, day, weekday, and_self, true_or, true_iff]
  constructor
  · intro same
    exact ⟨fun day hasDay => (same day 0 hasDay (by decide)).1,
      fun weekday inWeek => (same 1 weekday hasDay_one inWeek).2⟩
  · rintro ⟨covers, coversWeek⟩ day weekday hasDay inWeek
    exact ⟨covers day hasDay, coversWeek weekday inWeek⟩

theorem sameDays_listedBoth (day : expression.dayOfMonth.HasStar)
    (weekday : expression.dayOfWeek.HasStar)
    (lists : ¬(expression.dayOfMonth.IsStar ∨ expression.dayOfWeek.IsStar)) :
    expression.SameDays ↔ expression.CoversMonths ∨ expression.CoversWeek := by
  simp only [SameDays, matchesDay_list lists, ReadsDay, day, weekday, and_self, true_or, true_iff]
  constructor
  · intro same
    by_cases covers : expression.CoversMonths
    · exact .inl covers
    · simp only [CoversMonths, not_forall] at covers
      rcases covers with ⟨missed, hasDay, excluded⟩
      exact .inr fun weekday inWeek =>
        (same missed weekday hasDay inWeek).resolve_left excluded
  · rintro (covers | coversWeek) day weekday hasDay inWeek
    · exact .inl (covers day hasDay)
    · exact .inr (coversWeek weekday inWeek)

end SameDays

theorem sameDays_iff (accepted : expression.NoRangeToSunday) :
    expression.SameDays ↔ expression.DaysAgree := by
  constructor
  · intro same
    by_cases day : expression.dayOfMonth.HasStar
    · by_cases weekday : expression.dayOfWeek.HasStar
      · by_cases star : expression.dayOfMonth.IsStar ∨ expression.dayOfWeek.IsStar
        · rcases (sameDays_starBoth day weekday star).mp same with ⟨covers, coversWeek⟩
          exact .starBoth day weekday star covers coversWeek
        · exact .listedBoth day weekday star ((sameDays_listedBoth day weekday star).mp same)
      · by_cases star : expression.dayOfMonth.IsStar
        · rcases (sameDays_starDay accepted star weekday).mp same with ⟨covers, kept⟩
          exact .starDay star weekday covers kept
        · rcases (sameDays_listedDay accepted day star weekday).mp same with ⟨covers, kept⟩
          exact .listedDay day star weekday covers kept
    · by_cases weekday : expression.dayOfWeek.HasStar
      · by_cases star : expression.dayOfWeek.IsStar
        · exact .starWeekday day star ((sameDays_starWeekday day star).mp same)
        · exact .listedWeekday day weekday star ((sameDays_listedWeekday day weekday star).mp same)
      · exact .noStar day weekday ((sameDays_noStar accepted day weekday).mp same)
  · intro agree
    cases agree with
    | noStar day weekday kept => exact (sameDays_noStar accepted day weekday).mpr kept
    | starDay day weekday covers kept =>
      exact (sameDays_starDay accepted day weekday).mpr ⟨covers, kept⟩
    | listedDay day list weekday covers kept =>
      exact (sameDays_listedDay accepted day list weekday).mpr ⟨covers, kept⟩
    | starWeekday day weekday covers => exact (sameDays_starWeekday day weekday).mpr covers
    | listedWeekday day weekday list covers =>
      exact (sameDays_listedWeekday day weekday list).mpr covers
    | starBoth day weekday star covers coversWeek =>
      exact (sameDays_starBoth day weekday star).mpr ⟨covers, coversWeek⟩
    | listedBoth day weekday lists covers =>
      exact (sameDays_listedBoth day weekday lists).mpr covers

/-- The rule of the parsed schedule and that of the expression agree on every minute
if they agree on every day: every day of its months occurs at its times. -/
theorem matches_iff_sameDays : (∀ minutes : Nat,
      (expression.minute.Denotes (gmtime (minutes * 60)).tmMin ∧
        expression.hour.Denotes (gmtime (minutes * 60)).tmHour ∧
        expression.month.Denotes ((gmtime (minutes * 60)).tmMon + 1) ∧
        expression.ReadsDay (gmtime (minutes * 60)).tmMday (gmtime (minutes * 60)).tmWday) ↔
      expression.Matches (gmtime (minutes * 60))) ↔ expression.SameDays := by
  constructor
  · intro same day weekday hasDay inWeek
    rcases hasDay with ⟨month, inMonth, fromFirst, toLast⟩
    rcases expression.minute.exists_denoted (by decide) with ⟨minute, atMinute⟩
    rcases expression.hour.exists_denoted (by decide) with ⟨hour, atHour⟩
    have minuteBound := atMinute.bounds.2
    have hourBound := atHour.bounds.2
    have monthBounds := inMonth.bounds
    have restored : month - 1 + 1 = month := Nat.sub_add_cancel monthBounds.1
    rcases @exists_minute ⟨minute, hour, day, month - 1, weekday⟩ (Nat.lt_succ_of_le minuteBound)
      (Nat.lt_succ_of_le hourBound) (by simp only; omega)
      ⟨fromFirst, by rw [restored]; exact toLast⟩ inWeek with ⟨minutes, here⟩
    have agree := same minutes
    rw [here, Matches] at agree
    simp only [restored] at agree
    exact ⟨fun reads => (agree.mp ⟨atMinute, atHour, inMonth, reads⟩).2.2.2,
      fun denotes => (agree.mpr ⟨atMinute, atHour, inMonth, denotes⟩).2.2.2⟩
  · intro same minutes
    rcases gmtime_valid (minutes * 60) with ⟨_, _, _, inMonth, inWeek⟩
    rw [Matches]
    refine and_congr_right fun _ => and_congr_right fun _ => and_congr_right fun month => ?_
    exact same _ _ ⟨_, month, inMonth⟩ inWeek

end Expression

def Numeral.single (digit : UInt8) (isDigit : isDigit digit = true) : Numeral where
  digits := [digit]
  nonempty := List.cons_ne_nil _ _
  decimal := allIn_cons.mpr ⟨isDigit, allIn_nil _⟩

def Field.single {low high : Nat} (element : Element) (inRange : element.InRange low high) :
    Field low high where
  elements := [element]
  nonempty := List.cons_ne_nil _ _
  inRange := by
    intro other member
    rw [List.mem_singleton.mp member]
    exact inRange

def weekExpression (first last : Numeral)
    (inRange : (Element.range first last none).InRange 0 7) : Expression where
  minute := .single (.number (.single 48 rfl)) ⟨Nat.le_refl 0, by decide⟩
  hour := .single (.number (.single 48 rfl)) ⟨Nat.le_refl 0, by decide⟩
  dayOfMonth := .single (.star none) Nat.one_pos
  month := .single (.star none) Nat.one_pos
  dayOfWeek := .single (.range first last none) inRange

def workdays : Expression :=
  weekExpression (.single 49 rfl) (.single 53 rfl) ⟨by decide, by decide, by decide, by decide⟩

def wholeWeek : Expression :=
  weekExpression (.single 49 rfl) (.single 55 rfl) ⟨by decide, by decide, by decide, by decide⟩

end AgentC.Cron
