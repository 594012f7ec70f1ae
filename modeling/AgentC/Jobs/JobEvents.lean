import AgentC.Foundation.Machine
import AgentC.Json.Values
import Mathlib.Logic.Function.Basic

/-! # Events of jobs

`job_append_event` and `job_get_snapshot` of `daemon/src/job_manager.cpp`. Each
call holds the lock of the jobs. The array of a job keeps the last events, and
cursors count the events from its first one on. -/

namespace AgentC.Jobs

open Json (Tree)

structure JobState where
  id : Bytes
  status : Bytes := []
  traceId : Bytes := []
  cancelRequested : Bool := false
  result : Tree := .null
  error : Bytes := []
  events : List Tree := []
  /-- How many events were dropped from the front. -/
  eventsOffset : UInt64 := 0
  createdUnixMs : Int := 0
  updatedUnixMs : Int := 0

structure JobSnapshot where
  id : Bytes
  status : Bytes
  traceId : Bytes
  cancelRequested : Bool
  result : Tree
  error : Bytes
  createdUnixMs : Int
  updatedUnixMs : Int
  eventsCursorBase : UInt64
  eventsCursorEnd : UInt64
  eventsIncluded : Bool := false
  eventsReset : Bool := false
  eventsCursorStart : UInt64 := 0
  eventsCursorNext : UInt64 := 0
  events : List Tree := []

abbrev JobsInMemory := Bytes → Option JobState

/-! ## Appending -/

/-- The types whose data has a schema. -/
def schemaTypes : List Bytes :=
  [ascii "assistant_delta", ascii "assistant_message", ascii "user_message", ascii "tool_call",
    ascii "tool_result", ascii "llm_usage", ascii "artifact", ascii "ui_action",
    ascii "heartbeat", ascii "error", ascii "policy_decision", ascii "team_handoff",
    ascii "team_quorum_request", ascii "team_quorum_result", ascii "team_member_result"]

def jobEventSchemaForType (type : Bytes) : Option Bytes :=
  if type ∈ schemaTypes then some (ascii "run_event_payload_" ++ type ++ ascii "_v1") else none

def maxJobEventDataBytes : Nat := 256 * 1024

def hardMax : Nat := 4096

def softMax : Nat := 4608

section Appending

variable (parseAny : Bytes → Option Tree)

/-- The data of an event: parsed, or as text where that fails or the data is too long. -/
def eventData (dataJson : Bytes) : Tree :=
  if dataJson.length > maxJobEventDataBytes then .string (dataJson.take maxJobEventDataBytes)
  else if dataJson = [] then .string []
  else (parseAny dataJson).getD (.string dataJson)

def numberTree (value : Nat) : Tree :=
  .number (decimal value)

def jobEvent (traceId type dataJson : Bytes) : Tree :=
  let truncated := dataJson.length > maxJobEventDataBytes
  .ofOptionalMembers [
    (ascii "type", some (.string type)),
    (ascii "schema", (jobEventSchemaForType type).map .string),
    (ascii "trace_id", if traceId = [] then none else some (.string traceId)),
    (ascii "data_truncated", if truncated then some (.bool true) else none),
    (ascii "data_bytes", if truncated then some (numberTree dataJson.length) else none),
    (ascii "data_bytes_kept", if truncated then some (numberTree maxJobEventDataBytes) else none),
    (ascii "data", some (eventData parseAny dataJson))]

def JobState.append (job : JobState) (event : Tree) (now : Int) : JobState :=
  let events := job.events ++ [event]
  let start := events.length - hardMax
  if softMax < events.length then
    { job with
      events := events.drop start
      eventsOffset := job.eventsOffset + UInt64.ofNat start
      updatedUnixMs := now }
  else { job with events, updatedUnixMs := now }

def jobAppendEvent (id type dataJson : Bytes) (now : Int) (jobs : JobsInMemory) :
    JobsInMemory :=
  match jobs id with
  | none => jobs
  | some job =>
    Function.update jobs id
      (some (job.append (jobEvent parseAny job.traceId type dataJson) now))

end Appending

def eventLimit (maxEvents : Nat) : Nat :=
  let maxEvents := if maxEvents = 0 then 256 else maxEvents
  if 2048 < maxEvents then 2048 else maxEvents

def JobState.snapshot (job : JobState) (cursor : UInt64) (maxEvents : Nat) (includeEvents : Bool) :
    JobSnapshot :=
  let base := job.eventsOffset
  let limit := base + UInt64.ofNat job.events.length
  let snapshot : JobSnapshot := {
    id := job.id
    status := job.status
    traceId := job.traceId
    cancelRequested := job.cancelRequested
    result := job.result
    error := job.error
    createdUnixMs := job.createdUnixMs
    updatedUnixMs := job.updatedUnixMs
    eventsCursorBase := base
    eventsCursorEnd := limit }
  if !includeEvents then snapshot
  else
    let reset := cursor < base
    let cur := if cursor < base then base else cursor
    let cur := if limit < cur then limit else cur
    let startIdx := cur - base
    let take := min (UInt64.ofNat (eventLimit maxEvents)) (limit - cur)
    { snapshot with
      eventsIncluded := true
      eventsReset := reset
      eventsCursorStart := cur
      eventsCursorNext := cur + take
      events := (List.range take.toNat).map fun index =>
        (job.events[(startIdx + UInt64.ofNat index).toUInt32.toNat]?).getD .null }

def jobGetSnapshot (jobs : JobsInMemory) (id : Bytes) (cursor : UInt64) (maxEvents : Nat)
    (includeEvents : Bool) : Option JobSnapshot :=
  (jobs id).map fun job => job.snapshot cursor maxEvents includeEvents

/-! ## A reader -/

/-- The calls of a run. The reader polls with its cursor; other snapshots, with
events or without, are no concern of it. -/
inductive EventCall
  | append (id type dataJson : Bytes) (now : Int)
  | look (id : Bytes) (cursor : UInt64) (maxEvents : Nat) (includeEvents : Bool)
  | poll (maxEvents : Nat)

structure Reading where
  cursor : UInt64
  snapshot : JobSnapshot

/-- A reader of a job that goes on from where its last snapshot ended. -/
def eventReader (parseAny : Bytes → Option Tree) (id : Bytes) :
    Machine (JobsInMemory × UInt64) EventCall Reading where
  step := fun (jobs, cursor) call =>
    match call with
    | .append other type dataJson now =>
      ((jobAppendEvent parseAny other type dataJson now jobs, cursor), [])
    | .look _ _ _ _ => ((jobs, cursor), [])
    | .poll maxEvents =>
      match jobGetSnapshot jobs id cursor maxEvents true with
      | none => ((jobs, cursor), [])
      | some snapshot =>
        ((jobs, snapshot.eventsCursorNext), [{ cursor := cursor, snapshot := snapshot }])

def appendedEvents (parseAny : Bytes → Option Tree) (id traceId : Bytes)
    (calls : List EventCall) : List Tree :=
  calls.filterMap fun call =>
    match call with
    | .append other type dataJson _ =>
      if other = id then some (jobEvent parseAny traceId type dataJson) else none
    | _ => none

/-! ## Cursors of job events

A reader that passes on the cursor of its last snapshot gets the events in order
and learns of every gap, as long as the cursors have not wrapped around. -/

def dropped (count : Nat) : Nat :=
  513 * ((count - 4096) / 513)

/-- The job keeps the end of the log, and its offset counts the rest. -/
structure Holds (job : JobState) (log : List Tree) : Prop where
  events : job.events = log.drop (dropped log.length)
  eventsOffset : job.eventsOffset = UInt64.ofNat (dropped log.length)

theorem dropped_le (count : Nat) : dropped count ≤ count := by
  rw [dropped]
  omega

theorem dropped_le_sub {count : Nat} : dropped count ≤ count - 4096 := by
  rw [dropped]
  omega

theorem kept_le (count : Nat) : count - dropped count ≤ 4608 := by
  rw [dropped]
  omega

variable {count : Nat}

section Window

variable {job : JobState} {log : List Tree} {event : Tree} {now : Int}

theorem Holds.length (holds : Holds job log) :
    job.events.length = log.length - dropped log.length := by
  rw [holds.events, List.length_drop]

theorem Holds.append (holds : Holds job log) (event : Tree) (now : Int) :
    Holds (job.append event now) (log ++ [event]) := by
  have events : job.events ++ [event] = (log ++ [event]).drop (dropped log.length) := by
    rw [List.drop_append_of_le_length (dropped_le _), holds.events]
  have size : (job.events ++ [event]).length = log.length + 1 - dropped log.length := by
    rw [events, List.length_drop, List.length_append, List.length_singleton]
  have growth : (log ++ [event]).length = log.length + 1 := by
    rw [List.length_append, List.length_singleton]
  rw [JobState.append]
  split
  · next full =>
    rw [size, softMax] at full
    have next : dropped (log.length + 1) = dropped log.length + 513 := by
      rw [dropped, dropped] at *
      omega
    have start : (job.events ++ [event]).length - hardMax = 513 := by
      rw [size, hardMax]
      rw [dropped] at *
      omega
    constructor
    · rw [growth, next, ← List.drop_drop, ← events, start]
    · rw [growth, next, UInt64.ofNat_add, holds.eventsOffset, start]
  · next within =>
    rw [size, softMax] at within
    have same : dropped (log.length + 1) = dropped log.length := by
      rw [dropped, dropped] at *
      omega
    exact ⟨by rw [growth, same, ← events], by rw [growth, same, holds.eventsOffset]⟩

/-- The snapshot is a slice of the log from the cursor on, or from where the
window starts, and then it says so. -/
structure IsSlice (log : List Tree) (cursor : UInt64) (snapshot : JobSnapshot) : Prop where
  onward : cursor.toNat ≤ snapshot.eventsCursorStart.toNat
  noReset : snapshot.eventsReset = false → snapshot.eventsCursorStart = cursor
  near : log.length ≤ cursor.toNat + 4096 → snapshot.eventsReset = false
  ordered : snapshot.eventsCursorStart.toNat ≤ snapshot.eventsCursorNext.toNat
  within : snapshot.eventsCursorNext.toNat ≤ log.length
  events : snapshot.events = (log.drop snapshot.eventsCursorStart.toNat).take
    (snapshot.eventsCursorNext.toNat - snapshot.eventsCursorStart.toNat)

theorem toNat_ofNat_of_few (few : count < 2 ^ 64) : (UInt64.ofNat count).toNat = count :=
  UInt64.toNat_ofNat_of_lt' few

theorem toNat_min_le (left right : UInt64) : (min left right).toNat ≤ right.toNat := by
  have cases : min left right = if left ≤ right then left else right := rfl
  rw [cases]
  split
  · next less => exact less
  · exact Nat.le_refl _

theorem copied_eq {events : List Tree} {start : UInt64}
    (inside : start.toNat + count ≤ events.length) (small : events.length < 2 ^ 32) :
    (List.range count).map (fun index =>
        (events[(start + UInt64.ofNat index).toUInt32.toNat]?).getD .null) =
      (events.drop start.toNat).take count := by
  apply List.ext_getElem?
  intro index
  rw [List.getElem?_map, List.getElem?_take, List.getElem?_drop]
  by_cases below : index < count
  · have position : (start + UInt64.ofNat index).toUInt32.toNat = start.toNat + index := by
      rw [UInt64.toNat_toUInt32, UInt64.toNat_add, toNat_ofNat_of_few (by omega)]
      omega
    have present : start.toNat + index < events.length := by omega
    rw [List.getElem?_range below, if_pos below, Option.map_some, position,
      List.getElem?_eq_getElem present]
    rfl
  · rw [List.getElem?_eq_none (by rw [List.length_range]; omega), if_neg below]
    rfl

theorem Holds.isSlice (holds : Holds job log) (few : log.length < 2 ^ 64) {cursor : UInt64}
    (within : cursor.toNat ≤ log.length) (maxEvents : Nat) :
    IsSlice log cursor (job.snapshot cursor maxEvents true) := by
  have below := dropped_le log.length
  have base : job.eventsOffset.toNat = dropped log.length := by
    rw [holds.eventsOffset, toNat_ofNat_of_few (Nat.lt_of_le_of_lt below few)]
  have limit : (job.eventsOffset + UInt64.ofNat job.events.length).toNat = log.length := by
    rw [UInt64.toNat_add, base, holds.length, toNat_ofNat_of_few (by omega)]
    omega
  generalize limitOf : job.eventsOffset + UInt64.ofNat job.events.length = last at limit
  generalize curOf : (if cursor < job.eventsOffset then job.eventsOffset else cursor) = cur
  have start : cur.toNat = max cursor.toNat (dropped log.length) := by
    rw [← curOf]
    split
    · next less =>
      rw [UInt64.lt_iff_toNat_lt] at less
      omega
    · next more =>
      rw [UInt64.lt_iff_toNat_lt] at more
      omega
  have inside : (if last < cur then last else cur) = cur := by
    apply if_neg
    rw [UInt64.lt_iff_toNat_lt]
    omega
  generalize takeOf : min (UInt64.ofNat (eventLimit maxEvents)) (last - cur) = take
  have available : take.toNat ≤ log.length - cur.toNat := by
    rw [← takeOf]
    apply Nat.le_trans (toNat_min_le _ _)
    rw [UInt64.toNat_sub_of_le _ _ (UInt64.le_iff_toNat_le.mpr (by omega)), limit]
  have next : (cur + take).toNat = cur.toNat + take.toNat := by
    rw [UInt64.toNat_add]
    omega
  have position : (cur - job.eventsOffset).toNat = cur.toNat - dropped log.length := by
    rw [UInt64.toNat_sub_of_le _ _ (UInt64.le_iff_toNat_le.mpr (by omega)), base]
  simp only [JobState.snapshot, limitOf, curOf, inside, takeOf, Bool.not_true,
    Bool.false_eq_true, if_false]
  refine ⟨?_, ?_, ?_, ?_, ?_, ?_⟩
  · dsimp only
    omega
  · intro noReset
    dsimp only at noReset ⊢
    rw [← curOf, if_neg (of_decide_eq_false noReset)]
  · intro near
    dsimp only
    apply decide_eq_false
    rw [UInt64.lt_iff_toNat_lt]
    have most := @dropped_le_sub log.length
    omega
  · dsimp only
    omega
  · dsimp only
    omega
  · dsimp only
    have size := holds.length
    have small := kept_le log.length
    rw [copied_eq (by omega) (by omega), holds.events, List.drop_drop, next, position]
    congr 2 <;> omega

end Window

/-! ## Runs -/

/-- What a reader gets: events of the log in order, and it learns of every gap. -/
structure LosesNothing (log : List Tree) (start : Nat) (readings : List Reading) (cursor : Nat) :
    Prop where
  onward : start ≤ cursor
  received : ∃ positions : List Nat, positions.Pairwise (· < ·) ∧
    (∀ position ∈ positions, start ≤ position ∧ position < cursor) ∧
    (readings.flatMap fun reading => reading.snapshot.events).map some =
      positions.map (log[·]?) ∧
    ∀ position, start ≤ position → position < cursor → position ∉ positions →
      ∃ reading ∈ readings, reading.snapshot.eventsReset = true ∧
        reading.cursor.toNat ≤ position ∧
        position < reading.snapshot.eventsCursorStart.toNat

section Runs

variable {log : List Tree} {start cursor : Nat} {readings : List Reading}

theorem losesNothing_nil : LosesNothing log start [] start where
  onward := Nat.le_refl start
  received :=
    ⟨[], .nil, nofun, rfl, fun _ after before => absurd before (Nat.not_lt.mpr after)⟩

theorem slice_eq {front : List Tree} (within : start + count ≤ front.length)
    (grown : front <+: log) :
    ((front.drop start).take count).map some = (List.range' start count).map (log[·]?) := by
  apply List.ext_getElem?
  intro index
  rw [List.getElem?_map, List.getElem?_map, List.getElem?_take, List.getElem?_drop]
  by_cases below : index < count
  · have present : start + index < front.length := by omega
    have same : log[start + index]? = some front[start + index] := by
      rw [← List.getElem?_eq_getElem present]
      rcases grown with ⟨rest, parts⟩
      rw [← parts, List.getElem?_append_left present]
    rw [if_pos below, List.getElem?_eq_getElem present, List.getElem?_range' below, Nat.one_mul,
      Option.map_some, Option.map_some, same]
  · rw [if_neg below, List.getElem?_eq_none (by rw [List.length_range']; omega)]
    rfl

theorem LosesNothing.cons {first : UInt64} {snapshot : JobSnapshot} {front : List Tree}
    (slice : IsSlice front first snapshot) (grown : front <+: log)
    (rest : LosesNothing log snapshot.eventsCursorNext.toNat readings cursor) :
    LosesNothing log first.toNat ({ cursor := first, snapshot := snapshot } :: readings)
      cursor where
  onward := Nat.le_trans slice.onward (Nat.le_trans slice.ordered rest.onward)
  received := by
    rcases rest.received with ⟨positions, sorted, inside, received, gaps⟩
    have onward := slice.onward
    have ordered := slice.ordered
    have behind := rest.onward
    refine ⟨List.range' snapshot.eventsCursorStart.toNat
      (snapshot.eventsCursorNext.toNat - snapshot.eventsCursorStart.toNat) ++ positions,
      ?_, ?_, ?_, ?_⟩
    · apply List.pairwise_append.mpr
      refine ⟨List.pairwise_lt_range', sorted, ?_⟩
      intro position member later laterMember
      have here := List.mem_range'_1.mp member
      have there := inside later laterMember
      omega
    · intro position member
      rcases List.mem_append.mp member with here | there
      · have bounds := List.mem_range'_1.mp here
        omega
      · have bounds := inside position there
        omega
    · have within := slice.within
      rw [List.flatMap_cons, List.map_append, List.map_append, received, slice.events,
        slice_eq (by omega) grown]
    · intro position after before absent
      rw [List.mem_append, not_or] at absent
      by_cases skipped : position < snapshot.eventsCursorStart.toNat
      · refine ⟨_, List.mem_cons_self .., ?_, after, skipped⟩
        cases reset : snapshot.eventsReset with
        | true => rfl
        | false =>
          rw [slice.noReset reset] at skipped
          omega
      · have behindSlice : snapshot.eventsCursorNext.toNat ≤ position := by
          by_contra within
          exact absent.1 (List.mem_range'_1.mpr (by omega))
        rcases gaps position behindSlice before absent.2 with ⟨reading, member, gap⟩
        exact ⟨reading, List.mem_cons_of_mem _ member, gap⟩

variable {parseAny : Bytes → Option Tree} {id : Bytes} {jobs : JobsInMemory}

def Keeps (jobs : JobsInMemory) (id traceId : Bytes) (log : List Tree) : Prop :=
  ∃ job, jobs id = some job ∧ job.traceId = traceId ∧ Holds job log

theorem traceId_append (job : JobState) (event : Tree) (now : Int) :
    (job.append event now).traceId = job.traceId := by
  rw [JobState.append]
  split <;> rfl

variable {traceId type dataJson : Bytes} {now : Int}

theorem Keeps.append_self (keeps : Keeps jobs id traceId log) :
    Keeps (jobAppendEvent parseAny id type dataJson now jobs) id traceId
      (log ++ [jobEvent parseAny traceId type dataJson]) := by
  rcases keeps with ⟨job, present, trace, holds⟩
  rw [jobAppendEvent, present]
  refine ⟨_, Function.update_self .., (traceId_append ..).trans trace, ?_⟩
  rw [← trace]
  exact holds.append _ now

theorem Keeps.append_other {other : Bytes} (keeps : Keeps jobs id traceId log)
    (different : other ≠ id) :
    Keeps (jobAppendEvent parseAny other type dataJson now jobs) id traceId log := by
  rcases keeps with ⟨job, present, trace, holds⟩
  rw [jobAppendEvent]
  cases jobs other with
  | none => exact ⟨job, present, trace, holds⟩
  | some otherJob =>
    exact ⟨job, (Function.update_of_ne different.symm ..).trans present, trace, holds⟩

theorem Keeps.snapshot {traceId : Bytes} (keeps : Keeps jobs id traceId log)
    (few : log.length < 2 ^ 64) {cursor : UInt64} (within : cursor.toNat ≤ log.length)
    (maxEvents : Nat) : ∃ snapshot, jobGetSnapshot jobs id cursor maxEvents true = some snapshot ∧
      IsSlice log cursor snapshot := by
  rcases keeps with ⟨job, present, _, holds⟩
  refine ⟨_, ?_, holds.isSlice few within maxEvents⟩
  rw [jobGetSnapshot, present, Option.map_some]

/-- What holds behind a run: the job keeps the log, which the reader has not
overtaken, and the readings are as promised. -/
structure Follows (log : List Tree) (id traceId : Bytes) (start : UInt64)
    (outcome : (JobsInMemory × UInt64) × List Reading) : Prop where
  losesNothing : LosesNothing log start.toNat outcome.2 outcome.1.2.toNat
  keeps : Keeps outcome.1.1 id traceId log
  within : outcome.1.2.toNat ≤ log.length

theorem appendedEvents_cons_self (calls : List EventCall) :
    appendedEvents parseAny id traceId (.append id type dataJson now :: calls) =
      jobEvent parseAny traceId type dataJson :: appendedEvents parseAny id traceId calls := by
  simp [appendedEvents]

theorem appendedEvents_replicate (count : Nat) (calls : List EventCall) :
    appendedEvents parseAny id traceId
        (List.replicate count (.append id type dataJson now) ++ calls) =
      List.replicate count (jobEvent parseAny traceId type dataJson) ++
        appendedEvents parseAny id traceId calls := by
  induction count with
  | zero => rfl
  | succ count induction =>
    rw [List.replicate_succ, List.cons_append, appendedEvents_cons_self, induction]
    rfl

theorem step_append {other : Bytes} {cursor : UInt64} :
    (eventReader parseAny id).step (jobs, cursor) (.append other type dataJson now) =
      ((jobAppendEvent parseAny other type dataJson now jobs, cursor), []) :=
  rfl

theorem step_poll {cursor : UInt64} {maxEvents : Nat} {snapshot : JobSnapshot}
    (found : jobGetSnapshot jobs id cursor maxEvents true = some snapshot) :
    (eventReader parseAny id).step (jobs, cursor) (.poll maxEvents) =
      ((jobs, snapshot.eventsCursorNext), [{ cursor := cursor, snapshot := snapshot }]) := by
  rw [eventReader]
  dsimp only
  rw [found]

theorem run_follows {cursor : UInt64} {calls : List EventCall} (keeps : Keeps jobs id traceId log)
    (within : cursor.toNat ≤ log.length)
    (few : (log ++ appendedEvents parseAny id traceId calls).length < 2 ^ 64) :
    Follows (log ++ appendedEvents parseAny id traceId calls) id traceId cursor
      ((eventReader parseAny id).run (jobs, cursor) calls) := by
  induction calls generalizing jobs cursor log with
  | nil =>
    rw [appendedEvents, List.filterMap_nil, List.append_nil]
    exact ⟨losesNothing_nil, keeps, within⟩
  | cons call calls induction =>
    cases call with
    | append other type dataJson now =>
      rw [Machine.run_cons, step_append]
      by_cases same : other = id
      · subst same
        rw [appendedEvents_cons_self, List.append_cons] at few ⊢
        have longer : cursor.toNat ≤
            (log ++ [jobEvent parseAny traceId type dataJson]).length := by
          rw [List.length_append]
          omega
        exact induction keeps.append_self longer few
      · have more : appendedEvents parseAny id traceId
            (.append other type dataJson now :: calls) =
              appendedEvents parseAny id traceId calls := by
          simp [appendedEvents, same]
        rw [more] at few ⊢
        exact induction (keeps.append_other same) within few
    | look => exact induction keeps within few
    | poll maxEvents =>
      have fewNow : log.length < 2 ^ 64 := by
        rw [List.length_append] at few
        omega
      rcases keeps.snapshot fewNow within maxEvents with ⟨snapshot, found, slice⟩
      have later := induction keeps slice.within few
      rw [Machine.run_cons, step_poll found]
      exact ⟨later.losesNothing.cons slice (List.prefix_append ..), later.keeps,
        later.within⟩

structure JobState.Fresh (job : JobState) : Prop where
  events : job.events = []
  eventsOffset : job.eventsOffset = 0

theorem JobState.Fresh.keeps {job : JobState} (fresh : job.Fresh) (present : jobs id = some job) :
    Keeps jobs id job.traceId [] :=
  ⟨job, present, rfl, fresh.events, fresh.eventsOffset⟩

/-- While fewer than 2^64 events are appended, a reader from the start on loses
nothing silently, and nothing at all at a poll that is 4096 events behind at most. -/
theorem cursors_lose_nothing {job : JobState} (present : jobs id = some job) (fresh : job.Fresh)
    {calls : List EventCall}
    (few : (appendedEvents parseAny id job.traceId calls).length < 2 ^ 64) :
    LosesNothing (appendedEvents parseAny id job.traceId calls) 0
        ((eventReader parseAny id).run (jobs, 0) calls).2
        ((eventReader parseAny id).run (jobs, 0) calls).1.2.toNat ∧
      ∀ front maxEvents rest, calls = front ++ .poll maxEvents :: rest →
        ∀ reached cursor, ((eventReader parseAny id).run (jobs, 0) front).1 = (reached, cursor) →
          (appendedEvents parseAny id job.traceId front).length ≤ cursor.toNat + 4096 →
            ∃ snapshot, jobGetSnapshot reached id cursor maxEvents true = some snapshot ∧
              snapshot.eventsReset = false ∧ snapshot.eventsCursorStart = cursor := by
  have keeps := fresh.keeps present
  have start : (0 : UInt64).toNat ≤ ([] : List Tree).length := Nat.le_refl 0
  constructor
  · exact (run_follows keeps start few).losesNothing
  · intro front maxEvents rest parts reached cursor behind near
    have shorter : (appendedEvents parseAny id job.traceId front).length < 2 ^ 64 := by
      rw [parts, appendedEvents, List.filterMap_append, List.length_append] at few
      rw [appendedEvents]
      omega
    have follows := run_follows keeps start shorter
    have keepsBehind := follows.keeps
    have within := follows.within
    rw [behind] at keepsBehind within
    rcases keepsBehind.snapshot shorter within maxEvents with ⟨snapshot, found, slice⟩
    have noReset := slice.near near
    exact ⟨snapshot, found, noReset, slice.noReset noReset⟩

theorem run_replicate {traceId type dataJson : Bytes} {now : Int} (count : Nat)
    (keeps : Keeps jobs id traceId log) (cursor : UInt64) :
    ∃ reached, (eventReader parseAny id).run (jobs, cursor)
        (List.replicate count (.append id type dataJson now)) = ((reached, cursor), []) ∧
      Keeps reached id traceId
        (log ++ List.replicate count (jobEvent parseAny traceId type dataJson)) := by
  induction count generalizing jobs log with
  | zero => exact ⟨jobs, rfl, by rwa [List.replicate_zero, List.append_nil]⟩
  | succ count induction =>
    rcases induction keeps.append_self with ⟨reached, ran, behind⟩
    refine ⟨reached, ?_, ?_⟩
    · rw [List.replicate_succ, Machine.run_cons, step_append, ran]
      rfl
    · rwa [List.replicate_succ, List.append_cons]

end Runs

/-! ## Samples -/

def sampleJobs : JobsInMemory := fun _ => some { id := ascii "j" }

def sampleAppend (type : Bytes) : EventCall :=
  .append (ascii "j") type [] 0

def sampleEvent (type : Bytes) : Tree :=
  jobEvent (fun _ => none) [] type []

theorem cursors_lose_nothing_sample :
    LosesNothing (appendedEvents (fun _ => none) (ascii "j") [] [sampleAppend [97], .poll 0]) 0
      ((eventReader (fun _ => none) (ascii "j")).run (sampleJobs, 0)
        [sampleAppend [97], .poll 0]).2
      ((eventReader (fun _ => none) (ascii "j")).run (sampleJobs, 0)
        [sampleAppend [97], .poll 0]).1.2.toNat :=
  (@cursors_lose_nothing (fun _ => none) (ascii "j") sampleJobs { id := ascii "j" } rfl
    ⟨rfl, rfl⟩ [sampleAppend [97], .poll 0] (by decide)).1

theorem getD_mem {Item : Type} {items : List Item} {index : Nat} {other : Item} :
    (items[index]?).getD other ∈ items ∨ (items[index]?).getD other = other := by
  cases found : items[index]? with
  | none => exact .inr rfl
  | some item => exact .inl (List.mem_of_getElem? found)

theorem wrapped_snapshot {job : JobState} {first second : Tree}
    (holds : Holds job (first :: List.replicate count second))
    (wrapped : UInt64.ofNat (dropped (count + 1)) = 0) (behind : 0 < dropped (count + 1))
    (full : count + 1 - dropped (count + 1) = 4096) : (job.snapshot 0 0 true).eventsReset = false ∧
      (job.snapshot 0 0 true).eventsCursorNext = 256 ∧
      ∀ event ∈ (job.snapshot 0 0 true).events, event = second ∨ event = .null := by
  have size : (first :: List.replicate count second).length = count + 1 := by
    rw [List.length_cons, List.length_replicate]
  have offset : job.eventsOffset = 0 := by
    rw [holds.eventsOffset, size, wrapped]
  have length : job.events.length = 4096 := by
    rw [holds.length, size, full]
  have events : ∀ event ∈ job.events, event = second := by
    rw [holds.events, size, List.drop_cons behind]
    intro event member
    exact List.eq_of_mem_replicate (List.mem_of_mem_drop member)
  simp only [JobState.snapshot, offset, length]
  refine ⟨rfl, rfl, ?_⟩
  intro event member
  rcases List.mem_map.mp member with ⟨index, _, eventOf⟩
  subst eventOf
  exact getD_mem.imp_left (events _)

/-- So many events that the offset wraps around to zero: the first one is gone,
and a reader at zero is not told. -/
theorem cursors_wrap_around :
    ¬LosesNothing
      (appendedEvents (fun _ => none) (ascii "j") []
        (sampleAppend [97] ::
          (List.replicate (513 * 2 ^ 64 + 4095) (sampleAppend [98]) ++ [.poll 0]))) 0
      ((eventReader (fun _ => none) (ascii "j")).run (sampleJobs, 0)
        (sampleAppend [97] ::
          (List.replicate (513 * 2 ^ 64 + 4095) (sampleAppend [98]) ++ [.poll 0]))).2
      ((eventReader (fun _ => none) (ascii "j")).run (sampleJobs, 0)
        (sampleAppend [97] ::
          (List.replicate (513 * 2 ^ 64 + 4095) (sampleAppend [98]) ++ [.poll 0]))).1.2.toNat := by
  generalize countOf : 513 * 2 ^ 64 + 4095 = count
  have wrapped : UInt64.ofNat (dropped (count + 1)) = 0 := by
    subst countOf
    decide
  have behind : 0 < dropped (count + 1) := by
    subst countOf
    decide
  have full : count + 1 - dropped (count + 1) = 4096 := by
    subst countOf
    decide
  have log : appendedEvents (fun _ => none) (ascii "j") []
      (sampleAppend [97] :: (List.replicate count (sampleAppend [98]) ++ [.poll 0])) =
      sampleEvent [97] :: List.replicate count (sampleEvent [98]) := by
    rw [sampleAppend, appendedEvents_cons_self, sampleAppend, appendedEvents_replicate]
    exact congrArg _ (List.append_nil _)
  have fresh : Keeps sampleJobs (ascii "j") [] [] := ⟨_, rfl, rfl, rfl, rfl⟩
  have begun : Keeps (jobAppendEvent (fun _ => none) (ascii "j") [97] [] 0 sampleJobs) (ascii "j")
      [] [sampleEvent [97]] := fresh.append_self
  rcases @run_replicate _ (fun _ => none) _ _ _ [98] [] 0 count begun 0 with
    ⟨reached, ran, job, present, _, holds⟩
  rcases wrapped_snapshot holds wrapped behind full with ⟨noReset, next, events⟩
  have found : jobGetSnapshot reached (ascii "j") 0 0 true = some (job.snapshot 0 0 true) := by
    rw [jobGetSnapshot, present, Option.map_some]
  have run : (eventReader (fun _ => none) (ascii "j")).run (sampleJobs, 0)
      (sampleAppend [97] :: (List.replicate count (sampleAppend [98]) ++ [.poll 0])) =
      ((reached, (job.snapshot 0 0 true).eventsCursorNext),
        [{ cursor := 0, snapshot := job.snapshot 0 0 true }]) := by
    rw [Machine.run_cons, sampleAppend, step_append, Machine.run_append, sampleAppend, ran,
      Machine.run_cons, step_poll found]
    rfl
  rw [log, run]
  rintro ⟨_, positions, _, _, received, gaps⟩
  rw [List.flatMap_singleton] at received
  have read : 0 < (job.snapshot 0 0 true).eventsCursorNext.toNat := by
    rw [next]
    decide
  have gap := gaps 0 (Nat.le_refl 0) read
  by_cases there : 0 ∈ positions
  · have first : some (sampleEvent [97]) ∈
        (job.snapshot 0 0 true).events.map some := by
      rw [received]
      exact List.mem_map.mpr ⟨0, there, rfl⟩
    rcases List.mem_map.mp first with ⟨event, member, same⟩
    cases same
    rcases events _ member with same | same
    · exact absurd (congrArg (Tree.text · (ascii "type")) same) (by decide)
    · exact absurd (congrArg (Tree.text · (ascii "type")) same) (by decide)
  · rcases gap there with ⟨reading, member, reset, _⟩
    rw [List.mem_singleton.mp member, noReset] at reset
    exact nomatch reset

end AgentC.Jobs
