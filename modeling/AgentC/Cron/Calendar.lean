import Mathlib.Data.Nat.Bitwise

/-! # The calendar

The Gregorian calendar in UTC, without leap seconds: dates follow one another from
the first of January 1970 on, a Thursday. -/

namespace AgentC.Cron

structure Date where
  year : Nat
  month : Nat
  day : Nat
deriving DecidableEq, Repr

def isLeapYear (year : Nat) : Bool :=
  year % 4 == 0 && (year % 100 != 0 || year % 400 == 0)

def daysInMonth (year month : Nat) : Nat :=
  if month = 2 then if isLeapYear year then 29 else 28
  else if month = 4 || month = 6 || month = 9 || month = 11 then 30
  else 31

def Date.next (date : Date) : Date :=
  if date.day < daysInMonth date.year date.month then { date with day := date.day + 1 }
  else if date.month < 12 then ⟨date.year, date.month + 1, 1⟩
  else ⟨date.year + 1, 1, 1⟩

def dateOfDay : Nat → Date
  | 0 => ⟨1970, 1, 1⟩
  | days + 1 => (dateOfDay days).next

def weekdayOfDay (days : Nat) : Nat :=
  (days + 4) % 7

/-- The fields of `struct tm` that a schedule looks at. Months are counted from
zero. -/
structure Tm where
  tmMin : Nat
  tmHour : Nat
  tmMday : Nat
  tmMon : Nat
  tmWday : Nat
deriving DecidableEq, Repr

/-- `gmtime_r` -/
def gmtime (seconds : Nat) : Tm where
  tmMin := seconds / 60 % 60
  tmHour := seconds / 3600 % 24
  tmMday := (dateOfDay (seconds / 86400)).day
  tmMon := (dateOfDay (seconds / 86400)).month - 1
  tmWday := weekdayOfDay (seconds / 86400)

/-- The last of February 1972, a Tuesday. -/
example : gmtime 68169600 = ⟨0, 0, 29, 1, 2⟩ := by decide +kernel

def Date.Valid (date : Date) : Prop :=
  1 ≤ date.month ∧ date.month ≤ 12 ∧ 1 ≤ date.day ∧ date.day ≤ daysInMonth date.year date.month

theorem one_le_daysInMonth (year month : Nat) : 1 ≤ daysInMonth year month := by
  rw [daysInMonth]
  split_ifs <;> decide

theorem Date.Valid.next {date : Date} (valid : date.Valid) : date.next.Valid := by
  rcases valid with ⟨fromJanuary, toDecember, _, _⟩
  rw [Date.next]
  split
  · exact ⟨fromJanuary, toDecember, Nat.le_add_left 1 _, by assumption⟩
  · split
    · exact ⟨Nat.le_add_left 1 _, by assumption, Nat.le_refl 1, one_le_daysInMonth _ _⟩
    · exact ⟨Nat.le_refl 1, Nat.le_add_left 1 11, Nat.le_refl 1, one_le_daysInMonth _ _⟩

theorem dateOfDay_valid (days : Nat) : (dateOfDay days).Valid := by
  induction days with
  | zero => exact ⟨by decide, by decide, by decide, by decide⟩
  | succ days induction => exact induction.next

def longestMonth (month : Nat) : Nat :=
  daysInMonth 1972 month

theorem daysInMonth_le_longest (year month : Nat) : daysInMonth year month ≤ longestMonth month := by
  have leap : isLeapYear 1972 = true := by decide
  rw [longestMonth, daysInMonth, daysInMonth, if_pos leap]
  split_ifs <;> decide

theorem longestMonth_le (month : Nat) : longestMonth month ≤ 31 := by
  rw [longestMonth, daysInMonth]
  split_ifs <;> decide

/-- A number for a month, a day and a day of the week. -/
def dateKey (month day weekday : Nat) : Nat :=
  (month * 32 + day) * 7 + weekday

def dateKeys : Nat → Nat → Date → List Nat
  | 0, _, _ => []
  | count + 1, weekday, date =>
    dateKey date.month date.day weekday :: dateKeys count ((weekday + 1) % 7) date.next

def maskOf : List Nat → Nat → Nat
  | [], mask => mask
  | key :: keys, mask => maskOf keys (mask ||| 2 ^ key)

theorem testBit_maskOf (keys : List Nat) (mask bit : Nat) :
    (maskOf keys mask).testBit bit = true ↔ bit ∈ keys ∨ mask.testBit bit = true := by
  induction keys generalizing mask with
  | nil => simp [maskOf]
  | cons key keys induction =>
    rw [maskOf, induction, Nat.testBit_or, Nat.testBit_two_pow, List.mem_cons, Bool.or_eq_true,
      decide_eq_true_eq]
    constructor
    · rintro (later | earlier | same)
      · exact .inl (.inr later)
      · exact .inr earlier
      · exact .inl (.inl same.symm)
    · rintro ((same | later) | earlier)
      · exact .inr (.inr same.symm)
      · exact .inl later
      · exact .inr (.inl earlier)

def wantedKeys : List Nat :=
  (List.range 12).flatMap fun month =>
    (List.range (longestMonth (month + 1))).flatMap fun day =>
      (List.range 7).map fun weekday => dateKey (month + 1) (day + 1) weekday

theorem wantedKeys_covered :
    maskOf wantedKeys 0 &&& maskOf (dateKeys 10957 4 ⟨1970, 1, 1⟩) 0 = maskOf wantedKeys 0 := by
  decide +kernel

theorem mem_dateKeys {key count : Nat} (days : Nat)
    (listed : key ∈ dateKeys count (weekdayOfDay days) (dateOfDay days)) :
    ∃ day, key = dateKey (dateOfDay day).month (dateOfDay day).day (weekdayOfDay day) := by
  induction count generalizing days with
  | zero => exact nomatch listed
  | succ count induction =>
    rcases List.mem_cons.mp listed with first | later
    · exact ⟨days, first⟩
    · have tomorrow : weekdayOfDay (days + 1) = (weekdayOfDay days + 1) % 7 := by
        rw [weekdayOfDay, weekdayOfDay]
        omega
      rw [← tomorrow] at later
      exact induction (days + 1) later

theorem exists_day {month day weekday : Nat} (inYear : 1 ≤ month ∧ month ≤ 12)
    (inMonth : 1 ≤ day ∧ day ≤ longestMonth month) (inWeek : weekday < 7) :
    ∃ days, (dateOfDay days).month = month ∧ (dateOfDay days).day = day ∧
      weekdayOfDay days = weekday := by
  have wanted : dateKey month day weekday ∈ wantedKeys := by
    refine List.mem_flatMap.mpr ⟨month - 1, List.mem_range.mpr (by omega), ?_⟩
    rw [Nat.sub_add_cancel inYear.1]
    refine List.mem_flatMap.mpr ⟨day - 1, List.mem_range.mpr (by omega), ?_⟩
    rw [Nat.sub_add_cancel inMonth.1]
    exact List.mem_map.mpr ⟨weekday, List.mem_range.mpr inWeek, rfl⟩
  have covered : dateKey month day weekday ∈ dateKeys 10957 4 ⟨1970, 1, 1⟩ := by
    have bit := (testBit_maskOf wantedKeys 0 _).mpr (.inl wanted)
    rw [← wantedKeys_covered, Nat.testBit_and, Bool.and_eq_true] at bit
    rcases (testBit_maskOf _ 0 _).mp bit.2 with listed | zero
    · exact listed
    · rw [Nat.zero_testBit] at zero
      cases zero
  rcases mem_dateKeys 0 covered with ⟨days, same⟩
  have valid := dateOfDay_valid days
  have short := daysInMonth_le_longest (dateOfDay days).year (dateOfDay days).month
  have inWeek' : weekdayOfDay days < 7 := Nat.mod_lt _ (by decide)
  have longest := longestMonth_le month
  have longest' := longestMonth_le (dateOfDay days).month
  have inMonth' := valid.2.2.2
  rw [dateKey, dateKey] at same
  refine ⟨days, ?_, ?_, ?_⟩ <;> omega

theorem exists_minute {tm : Tm} (inHour : tm.tmMin < 60) (inDay : tm.tmHour < 24)
    (inYear : tm.tmMon < 12)
    (inMonth : 1 ≤ tm.tmMday ∧ tm.tmMday ≤ longestMonth (tm.tmMon + 1)) (inWeek : tm.tmWday < 7) :
    ∃ minutes, gmtime (minutes * 60) = tm := by
  rcases exists_day ⟨Nat.le_add_left 1 tm.tmMon, inYear⟩ inMonth inWeek with
    ⟨days, month, day, weekday⟩
  refine ⟨days * 1440 + tm.tmHour * 60 + tm.tmMin, ?_⟩
  have sameDay : (days * 1440 + tm.tmHour * 60 + tm.tmMin) * 60 / 86400 = days := by omega
  have sameHour : (days * 1440 + tm.tmHour * 60 + tm.tmMin) * 60 / 3600 % 24 = tm.tmHour := by
    omega
  have sameMinute : (days * 1440 + tm.tmHour * 60 + tm.tmMin) * 60 / 60 % 60 = tm.tmMin := by
    omega
  rw [gmtime, sameDay, sameHour, sameMinute, month, day, weekday, Nat.add_sub_cancel]

theorem gmtime_valid (seconds : Nat) :
    (gmtime seconds).tmMin < 60 ∧ (gmtime seconds).tmHour < 24 ∧ (gmtime seconds).tmMon < 12 ∧
      (1 ≤ (gmtime seconds).tmMday ∧
        (gmtime seconds).tmMday ≤ longestMonth ((gmtime seconds).tmMon + 1)) ∧
      (gmtime seconds).tmWday < 7 := by
  have valid := dateOfDay_valid (seconds / 86400)
  have short := daysInMonth_le_longest (dateOfDay (seconds / 86400)).year
    (dateOfDay (seconds / 86400)).month
  rcases valid with ⟨fromJanuary, toDecember, fromFirst, toLast⟩
  refine ⟨Nat.mod_lt _ (by decide), Nat.mod_lt _ (by decide), ?_, ⟨fromFirst, ?_⟩,
    Nat.mod_lt _ (by decide)⟩
  · simp only [gmtime]
    omega
  · simp only [gmtime, Nat.sub_add_cancel fromJanuary]
    exact Nat.le_trans toLast short

end AgentC.Cron
