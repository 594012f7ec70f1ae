import AgentC.Cron.Calendar
import AgentC.Foundation.Decimals

/-! # Cron schedules

`daemon/src/cron_util.cpp`: the parser of expressions with five fields, and the
search for the next minute that matches. -/

namespace AgentC.Cron

def trimCopy (text : Bytes) : Bytes :=
  trimBoth isSpace text

/-- What `ss >> tok` reads from a text, one after the other. -/
def words (text : Bytes) : List Bytes :=
  (text.splitOnP isSpace).filter fun word => !word.isEmpty

def comma : UInt8 := 44
def slash : UInt8 := 47
def dash : UInt8 := 45
def star : UInt8 := 42

structure CronField where
  min : Int
  max : Int
  any : Bool
  allowed : List Bool
deriving DecidableEq, Repr

structure CronSchedule where
  minute : CronField
  hour : CronField
  dayOfMonth : CronField
  month : CronField
  dayOfWeek : CronField
  dayOfMonthAny : Bool
  dayOfWeekAny : Bool
deriving DecidableEq, Repr

/-- The loop of `parse_int` over the digits. -/
def parseDigits : Int → Bytes → Option Int
  | value, [] => some value
  | value, byte :: rest =>
    if byte < 48 || byte > 57 then none
    else parseDigits (value * 10 + (byte.toNat - 48)) rest

/-- `parse_int`, for numbers that fit in an `int`. -/
def parseInt (text : Bytes) : Option Int :=
  match text with
  | [] => none
  | byte :: rest =>
    if byte = dash then
      if rest.isEmpty then none else (parseDigits 0 rest).map fun value => -value
    else parseDigits 0 text

/-- The loop of `cron_field_mark_range`, with fuel for every value of the range. -/
def markLoop (min finish step : Int) : Nat → Int → List Bool → List Bool
  | 0, _, allowed => allowed
  | fuel + 1, value, allowed =>
    if value ≤ finish then
      markLoop min finish step fuel (value + step) (allowed.set (value - min).toNat true)
    else allowed

def cronFieldMarkRange (field : CronField) (start finish step : Int) : Except Bytes CronField :=
  if step ≤ 0 then throw (ascii "invalid cron step")
  else if start < field.min || finish > field.max || start > finish then
    throw (ascii "cron value out of range")
  else
    return { field with
      allowed := markLoop field.min finish step (finish - start + 1).toNat start field.allowed }

def splitFirst (separator : UInt8) (text : Bytes) : Option (Bytes × Bytes) :=
  if separator ∈ text then
    some (text.takeWhile fun byte => byte != separator,
      (text.dropWhile fun byte => byte != separator).drop 1)
  else none

def tokenStep (token : Bytes) : Except Bytes (Bytes × Int) :=
  match splitFirst slash token with
  | none => return (token, 1)
  | some (base, step) =>
    match parseInt (trimCopy step) with
    | none => throw (ascii "invalid cron step")
    | some step =>
      if step ≤ 0 then throw (ascii "invalid cron step") else return (trimCopy base, step)

def tokenRange (base : Bytes) : Except Bytes (Int × Int) :=
  match splitFirst dash base with
  | some (first, last) =>
    match parseInt (trimCopy first), parseInt (trimCopy last) with
    | some start, some finish => return (start, finish)
    | _, _ => throw (ascii "invalid cron range")
  | none =>
    match parseInt base with
    | none => throw (ascii "invalid cron value")
    | some start => return (start, start)

/-- One turn of the loop of `cron_parse_field`. -/
def parseToken (allow7ForSunday : Bool) (field : CronField) (text : Bytes) :
    Except Bytes CronField := do
  let token := trimCopy text
  if token.isEmpty then return field
  else
    let (base, step) ← tokenStep token
    if base = [star] then
      cronFieldMarkRange { field with any := true } field.min field.max step
    else
      let (start, finish) ← tokenRange base
      let start := if allow7ForSunday && start = 7 then 0 else start
      let finish := if allow7ForSunday && finish = 7 then 0 else finish
      cronFieldMarkRange field start finish step

def cronParseField (text : Bytes) (min max : Int) (allow7ForSunday : Bool) :
    Except Bytes CronField :=
  let raw := trimCopy text
  if raw.isEmpty then throw (ascii "empty cron field")
  else
    (raw.splitOn comma).foldlM (parseToken allow7ForSunday)
      { min, max, any := false, allowed := List.replicate (max - min + 1).toNat false }

def cronParse5 (expr : Bytes) : Except Bytes CronSchedule :=
  let trimmed := trimCopy expr
  if trimmed.isEmpty then throw (ascii "cron expression empty")
  else
    match words trimmed with
    | [minute, hour, dayOfMonth, month, dayOfWeek] => do
      let minute ← cronParseField minute 0 59 false
      let hour ← cronParseField hour 0 23 false
      let dayOfMonth ← cronParseField dayOfMonth 1 31 false
      let month ← cronParseField month 1 12 false
      let dayOfWeek ← cronParseField dayOfWeek 0 6 true
      return { minute, hour, dayOfMonth, month, dayOfWeek
               dayOfMonthAny := dayOfMonth.any
               dayOfWeekAny := dayOfWeek.any }
    | _ => throw (ascii "cron must have 5 fields")

def CronField.allows (field : CronField) (value : Int) : Bool :=
  field.min ≤ value && value ≤ field.max && field.allowed.getD (value - field.min).toNat false

def cronMatchDomDow (schedule : CronSchedule) (dom dow : Int) : Bool :=
  let domMatch := schedule.dayOfMonth.allows dom
  let dowMatch := schedule.dayOfWeek.allows dow
  if schedule.dayOfMonthAny && schedule.dayOfWeekAny then true
  else if schedule.dayOfMonthAny then dowMatch
  else if schedule.dayOfWeekAny then domMatch
  else domMatch || dowMatch

/-- The checks of `cron_next_tick_utc` on one minute. -/
def CronSchedule.matchesTm (schedule : CronSchedule) (tm : Tm) : Bool :=
  schedule.minute.allows tm.tmMin && schedule.hour.allows tm.tmHour &&
    schedule.month.allows (tm.tmMon + 1) && cronMatchDomDow schedule tm.tmMday tm.tmWday

/-- The loop of `cron_next_tick_utc`, with the number of minutes that are left. -/
def searchTick (schedule : CronSchedule) : Nat → Int → Option Int
  | 0, _ => none
  | steps + 1, tick =>
    if schedule.matchesTm (gmtime (tick / 1000).toNat) then some tick
    else searchTick schedule steps (tick + 60000)

def maxSteps : Nat := 60 * 24 * 366

def cronNextTickUtc (schedule : CronSchedule) (afterUnixMs : Int) : Except Bytes Int :=
  let after := if afterUnixMs < 0 then 0 else afterUnixMs
  let base := after / 60000 * 60000
  let base := if base ≤ after then base + 60000 else base
  match searchTick schedule maxSteps base with
  | some tick => return tick
  | none => throw (ascii "no matching cron tick within 366 days")

end AgentC.Cron
