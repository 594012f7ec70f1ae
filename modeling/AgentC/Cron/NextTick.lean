import AgentC.Cron.Schedule

/-! # The next tick

The search for a minute that matches a schedule goes through the minutes of the
next 366 days, one after the other. -/

namespace AgentC.Cron

def MinuteAfter (after tick : Int) : Prop :=
  60000 ∣ tick ∧ after < tick

def CronSchedule.MatchesAt (schedule : CronSchedule) (tick : Int) : Prop :=
  schedule.matchesTm (gmtime (tick / 1000).toNat) = true

/-- The earliest minute that matches. -/
structure IsNextTick (schedule : CronSchedule) (after tick : Int) : Prop where
  minute : MinuteAfter after tick
  matching : schedule.MatchesAt tick
  earliest : ∀ other, MinuteAfter after other → schedule.MatchesAt other → tick ≤ other

def searchSpan : Int := 366 * 24 * 60 * 60000

section Search

variable {schedule : CronSchedule}

theorem searchTick_some {steps : Nat} {start tick : Int}
    (found : searchTick schedule steps start = some tick) :
    ∃ index : Nat, index < steps ∧ tick = start + index * 60000 ∧ schedule.MatchesAt tick ∧
      ∀ earlier : Nat, earlier < index → ¬schedule.MatchesAt (start + earlier * 60000) := by
  induction steps generalizing start with
  | zero => cases found
  | succ steps induction =>
    rw [searchTick] at found
    split at found
    · next matching =>
      cases found
      exact ⟨0, Nat.succ_pos steps, by simp, matching, nofun⟩
    · next other =>
      rcases induction found with ⟨index, within, place, matching, first⟩
      refine ⟨index + 1, Nat.succ_lt_succ within, ?_, matching, ?_⟩
      · rw [place]
        push_cast
        omega
      · intro earlier before
        cases earlier with
        | zero => simpa [CronSchedule.MatchesAt] using other
        | succ earlier =>
          have next := first earlier (Nat.lt_of_succ_lt_succ before)
          have same : start + 60000 + earlier * 60000 = start + (earlier + 1 : Nat) * 60000 := by
            push_cast
            omega
          rwa [same] at next

theorem searchTick_none {steps : Nat} {start : Int}
    (missing : searchTick schedule steps start = none) (index : Nat) (within : index < steps) :
    ¬schedule.MatchesAt (start + index * 60000) := by
  induction steps generalizing start index with
  | zero => exact absurd within (Nat.not_lt_zero index)
  | succ steps induction =>
    rw [searchTick] at missing
    split at missing
    · cases missing
    · next other =>
      cases index with
      | zero => simpa [CronSchedule.MatchesAt] using other
      | succ index =>
        have next := induction missing index (Nat.lt_of_succ_lt_succ within)
        have same : start + 60000 + index * 60000 = start + (index + 1 : Nat) * 60000 := by
          push_cast
          omega
        rwa [same] at next

end Search

def firstMinute (after : Int) : Int :=
  after / 60000 * 60000 + 60000

variable {after : Int}

theorem cronNextTickUtc_eq (schedule : CronSchedule) (nonnegative : 0 ≤ after) :
    cronNextTickUtc schedule after =
      match searchTick schedule maxSteps (firstMinute after) with
      | some tick => .ok tick
      | none => .error (ascii "no matching cron tick within 366 days") := by
  have present : ¬after < 0 := Int.not_lt.mpr nonnegative
  have whole : after / 60000 * 60000 ≤ after := Int.ediv_mul_le after (by decide)
  simp only [cronNextTickUtc, if_neg present, if_pos whole, firstMinute]
  rfl

theorem minuteAfter_iff {tick : Int} :
    MinuteAfter after tick ↔ ∃ index : Nat, tick = firstMinute after + index * 60000 := by
  rw [MinuteAfter, firstMinute]
  constructor
  · rintro ⟨⟨minute, whole⟩, later⟩
    refine ⟨(minute - after / 60000 - 1).toNat, ?_⟩
    omega
  · rintro ⟨index, place⟩
    refine ⟨⟨after / 60000 + 1 + index, by omega⟩, by omega⟩

theorem within_span_iff {index : Nat} :
    firstMinute after + index * 60000 ≤ after + searchSpan ↔ index < maxSteps := by
  rw [firstMinute, searchSpan, maxSteps]
  omega

/-- The search gives the earliest minute later than a time that matches, if one does
within 366 days, and fails if none does. -/
theorem next_tick_within_year (schedule : CronSchedule) (after : Int) (nonnegative : 0 ≤ after) :
    (∀ tick, cronNextTickUtc schedule after = .ok tick ↔
        IsNextTick schedule after tick ∧ tick ≤ after + searchSpan) ∧
      ((∃ error, cronNextTickUtc schedule after = .error error) ↔
        ∀ tick, MinuteAfter after tick → tick ≤ after + searchSpan →
          ¬schedule.MatchesAt tick) := by
  rw [cronNextTickUtc_eq schedule nonnegative]
  cases found : searchTick schedule maxSteps (firstMinute after) with
  | none =>
    have none : ∀ tick, MinuteAfter after tick → tick ≤ after + searchSpan →
        ¬schedule.MatchesAt tick := by
      intro tick later within
      rcases minuteAfter_iff.mp later with ⟨index, place⟩
      rw [place] at within ⊢
      exact searchTick_none found index (within_span_iff.mp within)
    refine ⟨fun tick => ⟨nofun, ?_⟩, fun _ => none, fun _ => ⟨_, rfl⟩⟩
    rintro ⟨next, within⟩
    exact absurd next.matching (none tick next.minute within)
  | some tick =>
    rcases searchTick_some found with ⟨index, within, place, matching, first⟩
    have minute : MinuteAfter after tick := minuteAfter_iff.mpr ⟨index, place⟩
    have near : tick ≤ after + searchSpan := place ▸ within_span_iff.mpr within
    have earliest : ∀ other, MinuteAfter after other → schedule.MatchesAt other →
        tick ≤ other := by
      intro other later matches'
      rcases minuteAfter_iff.mp later with ⟨otherIndex, otherPlace⟩
      by_contra before
      apply first otherIndex (by omega)
      rwa [← otherPlace]
    have next : IsNextTick schedule after tick := ⟨minute, matching, earliest⟩
    constructor
    · intro other
      constructor
      · intro same
        cases same
        exact ⟨next, near⟩
      · rintro ⟨otherNext, _⟩
        have same : tick = other := Int.le_antisymm
          (earliest other otherNext.minute otherNext.matching)
          (otherNext.earliest tick minute matching)
        rw [same]
    · constructor
      · rintro ⟨error, failed⟩
        cases failed
      · intro none
        exact absurd matching (none tick minute near)

theorem next_tick_within_year_sample :
    ∃ schedule, cronParse5 (ascii "30 9 * * *") = .ok schedule ∧
      IsNextTick schedule 0 34200000 ∧ (34200000 : Int) ≤ 0 + searchSpan :=
  ⟨_, rfl, ((next_tick_within_year _ 0 (Int.le_refl 0)).1 34200000).mp (by decide +kernel)⟩

def leapDaySchedule : CronSchedule where
  minute := ⟨0, 59, false, true :: List.replicate 59 false⟩
  hour := ⟨0, 23, false, true :: List.replicate 23 false⟩
  dayOfMonth := ⟨1, 31, false, List.replicate 28 false ++ [true, false, false]⟩
  month := ⟨1, 12, false, false :: true :: List.replicate 10 false⟩
  dayOfWeek := ⟨0, 6, true, List.replicate 7 true⟩
  dayOfMonthAny := false
  dayOfWeekAny := true

theorem leapDaySchedule_matches {tm : Tm} (inYear : tm.tmMon < 12) (inMonth : tm.tmMday < 32)
    (matching : leapDaySchedule.matchesTm tm = true) : tm.tmMon = 1 ∧ tm.tmMday = 29 := by
  have months : ∀ month < 12, leapDaySchedule.month.allows ((month : Nat) + 1) = true →
      month = 1 := by decide
  have days : ∀ day < 32, leapDaySchedule.dayOfMonth.allows (day : Nat) = true →
      day = 29 := by decide
  simp only [CronSchedule.matchesTm, Bool.and_eq_true] at matching
  exact ⟨months _ inYear matching.1.2, days _ inMonth matching.2⟩

theorem no_leap_day_in_1970 :
    ∀ day < 367, ¬((dateOfDay day).month = 2 ∧ (dateOfDay day).day = 29) := by
  decide +kernel

/-- In 1970 the next leap day is not found. -/
theorem leap_day_not_found :
    ¬∀ (expr : Bytes) (schedule : CronSchedule) (after : Int),
      cronParse5 expr = .ok schedule → 0 ≤ after → after ≤ 2 ^ 52 →
        (∃ tick, MinuteAfter after tick ∧ schedule.MatchesAt tick) →
          ∃ tick, cronNextTickUtc schedule after = .ok tick ∧
            IsNextTick schedule after tick := by
  intro always
  have parsed : cronParse5 (ascii "0 0 29 2 *") = .ok leapDaySchedule := by decide
  rcases always (ascii "0 0 29 2 *") leapDaySchedule 0 parsed (by decide) (by decide)
    ⟨68169600000, ⟨⟨1136160, by decide⟩, by decide⟩, by
      rw [CronSchedule.MatchesAt]
      decide +kernel⟩ with ⟨tick, found, _⟩
  rw [cronNextTickUtc_eq leapDaySchedule (Int.le_refl 0)] at found
  split at found
  · next tick searched =>
    rcases searchTick_some searched with ⟨index, within, place, matching, _⟩
    have seconds : (tick / 1000).toNat = (index + 1) * 60 := by
      rw [place, firstMinute]
      omega
    rw [CronSchedule.MatchesAt, seconds] at matching
    rcases gmtime_valid ((index + 1) * 60) with ⟨_, _, inYear, inMonth, _⟩
    have short := longestMonth_le ((gmtime ((index + 1) * 60)).tmMon + 1)
    rcases leapDaySchedule_matches inYear (by omega) matching with ⟨february, last⟩
    have thisYear : (index + 1) * 60 / 86400 < 367 := by
      rw [maxSteps] at within
      omega
    have fromJanuary := (dateOfDay_valid ((index + 1) * 60 / 86400)).1
    apply no_leap_day_in_1970 _ thisYear
    simp only [gmtime] at february last
    exact ⟨by omega, last⟩
  · cases found

end AgentC.Cron
