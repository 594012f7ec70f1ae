import AgentC.Cron.NextTick
import AgentC.Foundation.GoStrings
import AgentC.Foundation.Machine
import Mathlib.Data.List.Chain

/-! # Scheduled workflows

`daemon/src/workflow_schedule_engine.cpp` over the tables of
`daemon/src/agent_db_workflow_schedules.cpp`, with what the endpoints write. Every
call of the database may fail. -/

namespace AgentC.Workflow

open Cron

structure ScheduleRow where
  scheduleId : Bytes
  status : Bytes
  cron : Bytes
  timezone : Bytes
  lastTick : Int
  nextTick : Int
  lastError : Bytes

structure ScheduleRun where
  scheduleId : Bytes
  tick : Int
deriving DecidableEq, Repr

/-- The tables, and the rows of the running pass that still await their turn. -/
structure ScheduleTables where
  schedules : List ScheduleRow
  runs : List ScheduleRun
  due : List ScheduleRow

def normalizeTimezoneOrEmpty (timezone : Bytes) : Bytes :=
  let lower := (Cron.trimCopy timezone).map lowerByte
  if lower = ascii "utc" ∨ lower = ascii "etc/utc" ∨ lower = ascii "gmt" then ascii "UTC" else []

/-- The checks of a turn and of the endpoints, and the tick that they compute. -/
def ScheduleRow.tickAfter (row : ScheduleRow) (time : Int) : Except Bytes Int :=
  if normalizeTimezoneOrEmpty row.timezone = [] then throw (ascii "unsupported timezone")
  else cronParse5 row.cron >>= fun schedule => cronNextTickUtc schedule time

/-- Which calls of a turn fail, and what `last_error` is behind the submission. -/
structure TurnOutcome where
  insertFails : Bool
  statusFails : Bool
  ticksFail : Bool
  lastError : Bytes

namespace ScheduleTables

variable (tables : ScheduleTables)

def update (scheduleId : Bytes) (fails : Bool) (change : ScheduleRow → ScheduleRow) :
    ScheduleTables :=
  if fails then tables
  else { tables with schedules := tables.schedules.map fun row =>
    if row.scheduleId = scheduleId then change row else row }

/-- `update_workflow_schedule_status` -/
def updateStatus (scheduleId status : Bytes) (fails : Bool) : ScheduleTables :=
  tables.update scheduleId fails fun row => { row with status }

/-- `update_workflow_schedule_ticks` -/
def updateTicks (scheduleId : Bytes) (lastTick nextTick : Int) (lastError : Bytes)
    (fails : Bool) : ScheduleTables :=
  tables.update scheduleId fails fun row => { row with lastTick, nextTick, lastError }

/-- `list_workflow_schedules_due`; rows of one tick keep the order of the table. -/
def listDue (now : Int) (limit : Nat) : List ScheduleRow :=
  ((tables.schedules.filter fun row => row.status = ascii "active" ∧ 0 < row.nextTick ∧
    row.nextTick ≤ now).mergeSort fun left right => left.nextTick ≤ right.nextTick).take
      (max 1 (min 1024 limit))

/-- The loop of `worker_main` on one row that it has listed, with the run that it
enqueues. -/
def turn (row : ScheduleRow) (outcome : TurnOutcome) : ScheduleTables × List ScheduleRun :=
  if row.status ≠ ascii "active" ∨ row.nextTick ≤ 0 then (tables, [])
  else
    match row.tickAfter row.nextTick with
    | .error error =>
      ((tables.updateStatus row.scheduleId (ascii "error") outcome.statusFails).updateTicks
        row.scheduleId row.lastTick 0 error outcome.ticksFail, [])
    | .ok nextTick =>
      let run := { scheduleId := row.scheduleId, tick := row.nextTick }
      -- a run refers to its schedule, which may be deleted by now
      if outcome.insertFails ∨ row.scheduleId ∉ tables.schedules.map ScheduleRow.scheduleId then
        (tables, [])
      else if run ∈ tables.runs then
        (tables.updateTicks row.scheduleId row.nextTick nextTick [] outcome.ticksFail, [])
      else
        (({ tables with runs := run :: tables.runs }.updateStatus row.scheduleId (ascii "error")
          (outcome.lastError = [] ∨ outcome.statusFails)).updateTicks row.scheduleId row.nextTick
            nextTick outcome.lastError outcome.ticksFail, [run])

end ScheduleTables

/-- What the thread of the engine and the endpoints do. -/
inductive ScheduleStep
  | scan (now : Int)
  | turn (outcome : TurnOutcome)
  | create (row : ScheduleRow) (now : Int)
  | pause (scheduleId : Bytes)
  | resume (scheduleId : Bytes) (now : Int) (ticksFail : Bool)
  | delete (scheduleId : Bytes)

def scheduleStep (maxScan : Nat) (tables : ScheduleTables) :
    ScheduleStep → ScheduleTables × List ScheduleRun
  | .scan now => ({ tables with due := tables.listDue now maxScan }, [])
  | .turn outcome =>
    match tables.due with
    | [] => (tables, [])
    | row :: due => { tables with due }.turn row outcome
  | .create row now =>
    match row.tickAfter now with
    | .error _ => (tables, [])
    | .ok nextTick =>
      if row.scheduleId ∈ tables.schedules.map ScheduleRow.scheduleId then (tables, [])
      else
        let row := { row with status := ascii "active", lastTick := 0, nextTick, lastError := [] }
        ({ tables with schedules := tables.schedules ++ [row] }, [])
  | .pause scheduleId => (tables.updateStatus scheduleId (ascii "paused") false, [])
  | .resume scheduleId now ticksFail =>
    match tables.schedules.find? fun row => row.scheduleId = scheduleId with
    | none => (tables, [])
    | some row =>
      match row.tickAfter now with
      | .error _ => (tables, [])
      | .ok nextTick =>
        ((tables.updateStatus scheduleId (ascii "active") false).updateTicks scheduleId
          row.lastTick nextTick [] ticksFail, [])
  | .delete scheduleId =>
    ({ tables with
      schedules := tables.schedules.filter fun row => row.scheduleId ≠ scheduleId
      runs := tables.runs.filter fun run => run.scheduleId ≠ scheduleId }, [])

def scheduleEngine (maxScan : Nat) : Machine ScheduleTables ScheduleStep ScheduleRun where
  step := scheduleStep maxScan

/-- The steps that set the next tick of a schedule beside the engine. -/
def ScheduleStep.Resets (scheduleId : Bytes) : ScheduleStep → Prop
  | .create row _ => row.scheduleId = scheduleId
  | .resume other _ _ => other = scheduleId
  | .delete other => other = scheduleId
  | _ => False

def ticksOf (scheduleId : Bytes) (runs : List ScheduleRun) : List Int :=
  (runs.filter fun run => run.scheduleId = scheduleId).map ScheduleRun.tick

/-- A schedule from one of its ticks on. -/
structure ScheduleTicks where
  scheduleId : Bytes
  cron : Bytes
  schedule : CronSchedule
  parsed : cronParse5 cron = .ok schedule
  first : Int

/-- Some consecutive ticks have runs, and the row awaits one of them or the next one. -/
structure ScheduleTicks.Kept (target : ScheduleTicks) (ticks : List Int) (upcoming : Int)
    (tables : ScheduleTables) : Prop where
  starts : (ticks ++ [upcoming]).head? = some target.first
  consecutive : (ticks ++ [upcoming]).IsChain (IsNextTick target.schedule)
  rows : ∀ row ∈ tables.schedules ++ tables.due, row.scheduleId = target.scheduleId →
    row.cron = target.cron ∧ (0 < row.nextTick → row.nextTick ∈ ticks ++ [upcoming])
  enqueued : ∀ tick ∈ ticks, { scheduleId := target.scheduleId, tick } ∈ tables.runs
  ahead : ∀ run ∈ tables.runs, run.scheduleId = target.scheduleId → run.tick < upcoming

variable {target : ScheduleTicks} {ticks : List Int} {upcoming next : Int} {row : ScheduleRow}
  {tables after : ScheduleTables}

theorem isNextTick_of_tickAfter (same : row.cron = target.cron) (positive : 0 < row.nextTick)
    (computed : row.tickAfter row.nextTick = .ok next) :
    IsNextTick target.schedule row.nextTick next := by
  rw [ScheduleRow.tickAfter] at computed
  split at computed
  · cases computed
  · rw [same, target.parsed] at computed
    replace computed : cronNextTickUtc target.schedule row.nextTick = .ok next := computed
    rw [cronNextTickUtc_eq target.schedule positive.le] at computed
    split at computed
    · next searched =>
      cases computed
      rcases searchTick_some searched with ⟨index, _, place, matching, first⟩
      refine ⟨minuteAfter_iff.mpr ⟨index, place⟩, matching, ?_⟩
      intro other later matching
      rcases minuteAfter_iff.mp later with ⟨otherIndex, rfl⟩
      by_contra before
      exact first otherIndex (by omega) matching
    · cases computed

namespace ScheduleTicks.Kept

theorem mem_of_isNextTick (kept : target.Kept ticks upcoming tables) {tick : Int}
    (member : tick ∈ ticks) (isNext : IsNextTick target.schedule tick next) :
    next ∈ ticks ++ [upcoming] := by
  have consecutive := kept.consecutive
  rcases List.append_of_mem member with ⟨front, back, rfl⟩
  rcases split : back ++ [upcoming] with _ | ⟨follower, rest⟩
  · simp at split
  · rw [List.append_assoc, List.cons_append, split] at consecutive ⊢
    have follows := (List.isChain_append_cons_cons.mp consecutive).2.1
    have same : next = follower := Int.le_antisymm
      (isNext.earliest follower follows.minute follows.matching)
      (follows.earliest next isNext.minute isNext.matching)
    simp [same]

theorem frame (kept : target.Kept ticks upcoming tables)
    (rows : ∀ row ∈ after.schedules ++ after.due, row.scheduleId = target.scheduleId →
      row ∈ tables.schedules ++ tables.due)
    (runs : ∀ run, run.scheduleId = target.scheduleId → (run ∈ after.runs ↔ run ∈ tables.runs)) :
    target.Kept ticks upcoming after :=
  { kept with
    rows := fun row member own => kept.rows row (rows row member own) own
    enqueued := fun tick member => (runs _ rfl).mpr (kept.enqueued tick member)
    ahead := fun run member own => kept.ahead run ((runs run own).mp member) own }

theorem update {scheduleId : Bytes} {fails : Bool} {change : ScheduleRow → ScheduleRow}
    (kept : target.Kept ticks upcoming tables)
    (same : ∀ row, (change row).scheduleId = row.scheduleId ∧ (change row).cron = row.cron)
    (awaits : scheduleId = target.scheduleId → ∀ row, 0 < (change row).nextTick →
      (change row).nextTick = row.nextTick ∨ (change row).nextTick ∈ ticks ++ [upcoming]) :
    target.Kept ticks upcoming (tables.update scheduleId fails change) := by
  rw [ScheduleTables.update]
  split
  · exact kept
  · refine { kept with rows := fun row member own => ?_ }
    rcases List.mem_append.mp member with stored | listed
    · rcases List.mem_map.mp stored with ⟨before, there, rfl⟩
      grind [kept.rows before (List.mem_append_left _ there)]
    · exact kept.rows row (List.mem_append_right _ listed) own

theorem updateTicks {scheduleId lastError : Bytes} {lastTick : Int} {fails : Bool}
    (kept : target.Kept ticks upcoming tables)
    (awaits : scheduleId = target.scheduleId → 0 < next → next ∈ ticks ++ [upcoming]) :
    target.Kept ticks upcoming (tables.updateTicks scheduleId lastTick next lastError fails) :=
  kept.update (fun _ => ⟨rfl, rfl⟩) fun own _ positive => .inr (awaits own positive)

theorem updateStatus (kept : target.Kept ticks upcoming tables) (scheduleId status : Bytes)
    (fails : Bool) :
    target.Kept ticks upcoming (tables.updateStatus scheduleId status fails) :=
  kept.update (fun _ => ⟨rfl, rfl⟩) fun _ _ _ => .inl rfl

/-- The next tick gets its run. -/
theorem enqueue (kept : target.Kept ticks upcoming tables)
    (follows : IsNextTick target.schedule upcoming next) :
    target.Kept (ticks ++ [upcoming]) next
      { tables with runs := ⟨target.scheduleId, upcoming⟩ :: tables.runs } where
  starts := by rw [List.head?_append, kept.starts, Option.some_or]
  consecutive := by
    rw [List.append_assoc]
    exact List.isChain_append_cons_cons.mpr ⟨kept.consecutive, follows, .singleton _⟩
  rows := fun row member own => (kept.rows row member own).imp_right fun awaits positive =>
    List.mem_append_left _ (awaits positive)
  enqueued := by grind [kept.enqueued]
  ahead := by
    intro run member own
    rcases List.mem_cons.mp member with rfl | old
    · exact follows.minute.2
    · exact (kept.ahead run old own).trans follows.minute.2

theorem turn (kept : target.Kept ticks upcoming tables)
    (known : row.scheduleId = target.scheduleId →
      row.cron = target.cron ∧ (0 < row.nextTick → row.nextTick ∈ ticks ++ [upcoming]))
    (outcome : TurnOutcome) : ∃ next, target.Kept
      (ticks ++ ticksOf target.scheduleId (tables.turn row outcome).2) next
      (tables.turn row outcome).1 := by
  have same : target.Kept (ticks ++ ticksOf target.scheduleId []) upcoming tables := by
    simpa [ticksOf] using kept
  rw [ScheduleTables.turn]
  split
  · exact ⟨upcoming, same⟩
  next active =>
  have positive : 0 < row.nextTick := Int.not_le.mp (not_or.mp active).2
  cases computed : row.tickAfter row.nextTick with
  | error => exact ⟨upcoming, (same.updateStatus _ _ _).updateTicks fun _ later =>
      absurd later (Int.lt_irrefl 0)⟩
  | ok next =>
    dsimp only
    split
    · exact ⟨upcoming, same⟩
    split
    · next recorded =>
      refine ⟨upcoming, same.updateTicks fun own _ => ?_⟩
      rcases List.mem_append.mp ((known own).2 positive) with old | last
      · exact same.mem_of_isNextTick (by simpa [ticksOf] using old)
          (isNextTick_of_tickAfter (known own).1 positive computed)
      · exact absurd (List.mem_singleton.mp last) (kept.ahead _ recorded own).ne
    · next fresh =>
      by_cases own : row.scheduleId = target.scheduleId
      · have last : row.nextTick = upcoming := by
          rcases List.mem_append.mp ((known own).2 positive) with old | last
          · exact absurd (own ▸ kept.enqueued _ old) fresh
          · exact List.mem_singleton.mp last
        have follows := last ▸ isNextTick_of_tickAfter (known own).1 positive computed
        have tick : ticksOf target.scheduleId [⟨target.scheduleId, upcoming⟩] = [upcoming] := by
          simp [ticksOf]
        rw [own, last, tick]
        exact ⟨next, ((kept.enqueue follows).updateStatus _ _ _).updateTicks fun _ _ => by simp⟩
      · have none : ticksOf target.scheduleId [⟨row.scheduleId, row.nextTick⟩] = [] := by
          simp [ticksOf, own]
        have other : target.Kept ticks upcoming { tables with
            runs := ⟨row.scheduleId, row.nextTick⟩ :: tables.runs } :=
          kept.frame (fun _ member _ => member) (by grind)
        rw [none, List.append_nil]
        exact ⟨upcoming, (other.updateStatus _ _ _).updateTicks fun is => absurd is own⟩

theorem step {step : ScheduleStep} (kept : target.Kept ticks upcoming tables)
    (stays : ¬step.Resets target.scheduleId) (maxScan : Nat) : ∃ next, target.Kept
      (ticks ++ ticksOf target.scheduleId (scheduleStep maxScan tables step).2) next
      (scheduleStep maxScan tables step).1 := by
  have same : target.Kept (ticks ++ ticksOf target.scheduleId []) upcoming tables := by
    simpa [ticksOf] using kept
  cases step with
  | scan now =>
    refine ⟨upcoming, same.frame ?_ fun _ _ => Iff.rfl⟩
    intro row member _
    rcases List.mem_append.mp member with stored | listed
    · exact List.mem_append_left _ stored
    · exact List.mem_append_left _ (List.mem_of_mem_filter
        (List.mem_mergeSort.mp (List.mem_of_mem_take listed)))
  | turn outcome =>
    rw [scheduleStep]
    split
    · exact ⟨upcoming, same⟩
    · next row due listed =>
      have rest : target.Kept ticks upcoming { tables with due } :=
        kept.frame (by grind) fun _ _ => Iff.rfl
      exact rest.turn (kept.rows row (by simp [listed])) outcome
  | create row now =>
    rw [scheduleStep]
    split
    · exact ⟨upcoming, same⟩
    · split
      · exact ⟨upcoming, same⟩
      · exact ⟨upcoming, same.frame (by grind [ScheduleStep.Resets]) fun _ _ => Iff.rfl⟩
  | pause scheduleId =>
    exact ⟨upcoming, same.updateStatus scheduleId (ascii "paused") false⟩
  | resume scheduleId now ticksFail =>
    rw [scheduleStep]
    split
    · exact ⟨upcoming, same⟩
    · split
      · exact ⟨upcoming, same⟩
      · exact ⟨upcoming, (same.updateStatus _ _ _).updateTicks fun own => absurd own stays⟩
  | delete scheduleId =>
    rw [scheduleStep]
    exact ⟨upcoming, same.frame (by grind) (by grind [ScheduleStep.Resets])⟩

/-- A new schedule awaits the tick that its creation computes. -/
theorem create {now : Int} {schedule : CronSchedule}
    (unlisted : ∀ other ∈ tables.schedules ++ tables.due, other.scheduleId ≠ row.scheduleId)
    (unused : ∀ run ∈ tables.runs, run.scheduleId ≠ row.scheduleId)
    (parsed : cronParse5 row.cron = .ok schedule) (computed : row.tickAfter now = .ok next)
    (maxScan : Nat) : ScheduleTicks.Kept ⟨row.scheduleId, row.cron, schedule, parsed, next⟩ [] next
      (scheduleStep maxScan tables (.create row now)).1 := by
  have fresh : row.scheduleId ∉ tables.schedules.map ScheduleRow.scheduleId := by grind
  rw [scheduleStep, computed]
  dsimp only
  rw [if_neg fresh]
  refine ⟨rfl, .singleton next, ?_, by simp, fun run member own => absurd own (unused run member)⟩
  intro other member own
  by_cases old : other ∈ tables.schedules ++ tables.due
  · exact absurd own (unlisted other old)
  · grind

theorem run (maxScan : Nat) (kept : target.Kept ticks upcoming tables)
    {steps : List ScheduleStep} (stays : ∀ step ∈ steps, ¬step.Resets target.scheduleId) :
    ∃ next, target.Kept
      (ticks ++ ticksOf target.scheduleId ((scheduleEngine maxScan).run tables steps).2) next
      ((scheduleEngine maxScan).run tables steps).1 := by
  induction steps generalizing tables ticks upcoming with
  | nil => exact ⟨upcoming, by simpa [ticksOf] using kept⟩
  | cons step steps induction =>
    rw [List.forall_mem_cons] at stays
    rcases kept.step stays.1 maxScan with ⟨next, after⟩
    rw [Machine.run_cons, ticksOf, List.filter_append, List.map_append, ← List.append_assoc]
    exact induction after stays.2

end ScheduleTicks.Kept

/-- As long as the endpoints do not reset a new schedule, the runs that the engine
enqueues for it are for consecutive ticks, from the first one on. -/
theorem enqueues_consecutive_ticks {now : Int} {schedule : CronSchedule}
    (unlisted : ∀ other ∈ tables.schedules ++ tables.due, other.scheduleId ≠ row.scheduleId)
    (unused : ∀ run ∈ tables.runs, run.scheduleId ≠ row.scheduleId)
    (parsed : cronParse5 row.cron = .ok schedule) (computed : row.tickAfter now = .ok next)
    (maxScan : Nat) {steps : List ScheduleStep}
    (stays : ∀ step ∈ steps, ¬step.Resets row.scheduleId) :
    let created := (scheduleStep maxScan tables (.create row now)).1
    let after := (scheduleEngine maxScan).run created steps
    ∃ upcoming, ScheduleTicks.Kept ⟨row.scheduleId, row.cron, schedule, parsed, next⟩
      (ticksOf row.scheduleId after.2) upcoming after.1 :=
  (ScheduleTicks.Kept.create unlisted unused parsed computed maxScan).run maxScan stays

def sampleSchedule : ScheduleRow :=
  ⟨ascii "s", [], ascii "* * * * *", ascii "UTC", 0, 0, []⟩

theorem enqueues_consecutive_ticks_sample : ∃ target : ScheduleTicks,
    let created := (scheduleStep 64 ⟨[], [], []⟩ (.create sampleSchedule 0)).1
    let after := (scheduleEngine 64).run created [.scan 60000, .turn ⟨false, false, false, []⟩]
    ∃ upcoming, target.Kept (ticksOf sampleSchedule.scheduleId after.2) upcoming after.1 := by
  refine ⟨_, @enqueues_consecutive_ticks _ sampleSchedule _ 0 _ ?_ ?_ rfl rfl 64 _ ?_⟩ <;>
    simp [ScheduleStep.Resets]

end AgentC.Workflow
