import AgentC.Broker.AcknowledgedEvents

/-! # Indices of the events of a team run

`appendGoalEvent` and `appendHandoffEvent` of
`broker/internal/broker/team_run_helpers.go` for any maximum of events, and the
`event_index` that successive events get. -/

namespace AgentC.Broker.TeamRuns

open Json

/-- How many events are kept: as many as may be by default, unless the maximum is
positive. -/
def EventKind.limit (kind : EventKind) (maxEvents : Int) : Nat :=
  if maxEvents ≤ 0 then kind.maxEvents else maxEvents.toNat

/-- `appendGoalEvent` -/
def appendGoalEventUpTo (maxEvents : Int) (teamMeta : Tree) (event : GoalEvent) (now : Int) :
    Except Bytes (Tree × Tree) := do
  if event.type = [] then .error (ascii "goal event type required")
  else
    let events ← storedEvents .goal teamMeta
    let entry := goalEntry event now events
    .ok (entry, teamMeta.setMember EventKind.goal.key
      (.array (keepLast (EventKind.goal.limit maxEvents) (events ++ [entry]))))

variable (letters : LowerCase)

/-- `appendHandoffEvent` -/
def appendHandoffEventUpTo (maxEvents : Int) (teamMeta : Tree) (event : HandoffEvent) (now : Int)
    (newId : Bytes) : Except Bytes (Tree × Tree) := do
  let events ← storedEvents .handoff teamMeta
  let event := withDefaults newId (fromPrevious letters events event)
  if event.fromRole = [] ∨ event.toRole = [] then
    .error (ascii "handoff event requires from_role and to_role")
  else if event.kind = ascii "cross_deployment" ∧
      (event.sourceDeploymentId = [] ∨ event.targetDeploymentId = [] ∨
        event.sourceSessionId = [] ∨ event.targetSessionId = []) then
    .error (ascii
      "cross_deployment handoff requires source/target deployment_id and session_id")
  else
    let entry := handoffEntry event now events
    .ok (entry, teamMeta.setMember EventKind.handoff.key
      (.array (keepLast (EventKind.handoff.limit maxEvents) (events ++ [entry]))))

/-- A call that appends an event, with the time and the identifier it may take. -/
inductive AppendCall
  | goal (event : GoalEvent) (now : Int)
  | handoff (event : HandoffEvent) (now : Int) (newId : Bytes)

def AppendCall.kind : AppendCall → EventKind
  | .goal .. => .goal
  | .handoff .. => .handoff

def AppendCall.perform (maxEvents : Int) (teamMeta : Tree) : AppendCall → Except Bytes (Tree × Tree)
  | .goal event now => appendGoalEventUpTo maxEvents teamMeta event now
  | .handoff event now newId => appendHandoffEventUpTo letters maxEvents teamMeta event now newId

def appendAll (maxEvents : Int) :
    Tree → List AppendCall → Except Bytes (List (EventKind × Tree) × Tree)
  | teamMeta, [] => .ok ([], teamMeta)
  | teamMeta, call :: calls => do
    let (entry, changed) ← call.perform letters maxEvents teamMeta
    let (entries, last) ← appendAll maxEvents changed calls
    .ok ((call.kind, entry) :: entries, last)

def eventsIn (kind : EventKind) (teamMeta : Tree) : List Tree :=
  objects (teamMeta.member kind.key)

def eventIndex (entry : Tree) : Nat :=
  match entry.member (ascii "event_index") with
  | some (.number token) => digitsValue token
  | _ => 0

theorem eventIndex_of_member {entry : Tree} {index : Nat}
    (there : entry.member (ascii "event_index") = some (number index)) :
    eventIndex entry = index := by
  rw [eventIndex, there, number, decimalInt, if_neg (by omega), Int.natAbs_natCast]
  exact digitsValue_decimal index

theorem optionalText_keys {key value other : Bytes} (different : other ≠ key) :
    other ∉ (optionalText key value).map Prod.fst := by
  rw [optionalText]
  split
  · exact nofun
  · exact fun member => different (List.mem_singleton.mp member)

theorem optionalMember_keys {key other : Bytes} (value : Option Tree) (different : other ≠ key) :
    other ∉ (optionalMember key value).map Prod.fst := by
  cases value with
  | none => exact nofun
  | some value => exact fun member => different (List.mem_singleton.mp member)

theorem eventIndex_goalEntry (event : GoalEvent) (now : Int) (events : List Tree) :
    eventIndex (goalEntry event now events) = events.length + 1 := by
  apply eventIndex_of_member
  exact Tree.member_ofMembers [(ascii "type", .string event.type),
    (ascii "ts_unix_ms", number (eventTime event.tsUnixMs now)),
    (ascii "message", .string event.message)] _
    (optionalMember_keys event.data (by decide))

theorem eventIndex_handoffEntry (event : HandoffEvent) (now : Int) (events : List Tree) :
    eventIndex (handoffEntry event now events) = events.length + 1 := by
  apply eventIndex_of_member
  rw [handoffEntry]
  simp only [List.append_assoc, List.cons_append, List.nil_append]
  apply Tree.member_ofMembers [(ascii "handoff_id", .string event.handoffId),
    (ascii "kind", .string event.kind), (ascii "state", .string event.state),
    (ascii "from_role", .string event.fromRole), (ascii "to_role", .string event.toRole),
    (ascii "ts_unix_ms", number (eventTime event.tsUnixMs now)),
    (ascii "reason", .string event.reason), (ascii "message", .string event.message)]
  simp only [List.map_append, List.mem_append, not_or]
  exact ⟨optionalText_keys (by decide), optionalText_keys (by decide),
    optionalText_keys (by decide), optionalText_keys (by decide),
    optionalMember_keys _ (by decide)⟩

/-- What a successful call does to the metadata. -/
structure Indexes (call : AppendCall) (limit : Nat) (teamMeta entry changed : Tree) : Prop where
  object : changed.isObject = true
  index : eventIndex entry = (eventsIn call.kind teamMeta).length + 1
  events : eventsIn call.kind changed = keepLast limit (eventsIn call.kind teamMeta ++ [entry])
  others : ∀ kind, kind ≠ call.kind → eventsIn kind changed = eventsIn kind teamMeta

theorem eventsIn_setMember_of_ne {kind other : EventKind} {teamMeta value : Tree}
    (different : kind ≠ other) :
    eventsIn kind (teamMeta.setMember other.key value) = eventsIn kind teamMeta := by
  rw [eventsIn, Tree.member_setMember_of_ne]
  · rfl
  · cases kind <;> cases other <;> first | exact absurd rfl different | decide

variable {letters} {maxEvents : Int} {teamMeta entry changed : Tree}

theorem indexes_of_perform {call : AppendCall} (object : teamMeta.isObject = true)
    (performed : call.perform letters maxEvents teamMeta = .ok (entry, changed)) :
    Indexes call (call.kind.limit maxEvents) teamMeta entry changed := by
  have indexes : ∀ entry, entry.isObject = true →
      eventIndex entry = (eventsIn call.kind teamMeta).length + 1 →
      Indexes call (call.kind.limit maxEvents) teamMeta entry (teamMeta.setMember call.kind.key
        (.array (keepLast (call.kind.limit maxEvents)
          (eventsIn call.kind teamMeta ++ [entry])))) := by
    intro entry entryObject index
    exact ⟨Tree.isObject_setMember.trans object, index,
      objects_appended call.kind.key _ entryObject object, fun _ different =>
        eventsIn_setMember_of_ne different⟩
  cases call with
  | goal event now =>
    rw [AppendCall.perform, appendGoalEventUpTo] at performed
    split at performed
    · cases performed
    · cases stored : storedEvents .goal teamMeta with
      | error message =>
        rw [stored] at performed
        cases performed
      | ok events =>
        rw [stored] at performed
        cases storedEvents_eq stored
        cases performed
        exact indexes _ (Tree.isObject_ofMembers _) (eventIndex_goalEntry event now _)
  | handoff event now newId =>
    rw [AppendCall.perform, appendHandoffEventUpTo] at performed
    cases stored : storedEvents .handoff teamMeta with
    | error message =>
      rw [stored] at performed
      cases performed
    | ok events =>
      cases storedEvents_eq stored
      simp only [stored, bind, Except.bind] at performed
      split at performed
      · cases performed
      · split at performed
        · cases performed
        · cases performed
          exact indexes _ (Tree.isObject_ofMembers _) (eventIndex_handoffEntry _ now _)

def appended (kind : EventKind) (entries : List (EventKind × Tree)) : List Tree :=
  (entries.filter fun entry => entry.1 = kind).map Prod.snd

/-- The indices identify the events of a kind: they increase from each event to
the next, and so do those of the events that are left in the end. -/
structure IndicesIdentify (kind : EventKind) (entries : List (EventKind × Tree)) (last : Tree) :
    Prop where
  increase : ((appended kind entries).map eventIndex).Pairwise (· < ·)
  sorted : ((eventsIn kind last).map eventIndex).Pairwise (· < ·)

section Runs

variable {calls : List AppendCall} {entries : List (EventKind × Tree)} {first last : Tree}

theorem appendAll_cons {call : AppendCall}
    (ran : appendAll letters maxEvents first (call :: calls) = .ok (entries, last)) :
    ∃ entry changed rest, call.perform letters maxEvents first = .ok (entry, changed) ∧
      appendAll letters maxEvents changed calls = .ok (rest, last) ∧
      entries = (call.kind, entry) :: rest := by
  rw [appendAll] at ran
  cases performed : call.perform letters maxEvents first with
  | error message =>
    rw [performed] at ran
    cases ran
  | ok step =>
    rcases step with ⟨entry, changed⟩
    simp only [performed, bind, Except.bind] at ran
    split at ran
    · cases ran
    · next behind further =>
      cases ran
      exact ⟨entry, changed, behind.1, rfl, further, rfl⟩

theorem length_appended (kind : EventKind)
    (ran : appendAll letters maxEvents first calls = .ok (entries, last)) :
    (appended kind entries).length = (calls.filter fun call => call.kind = kind).length := by
  induction calls generalizing first entries with
  | nil =>
    cases ran
    rfl
  | cons call calls induction =>
    rcases appendAll_cons ran with ⟨entry, changed, rest, -, further, rfl⟩
    have same := induction further
    rw [appended, List.length_map] at same ⊢
    by_cases here : call.kind = kind
    · rw [List.filter_cons_of_pos (by simpa using here), List.filter_cons_of_pos (by simpa using here),
        List.length_cons, List.length_cons, same]
    · rw [List.filter_cons_of_neg (by simpa using here), List.filter_cons_of_neg (by simpa using here),
        same]

theorem appended_cons_self (entry : Tree) (kind : EventKind) :
    appended kind ((kind, entry) :: entries) = entry :: appended kind entries := by
  rw [appended, List.filter_cons_of_pos (by simp), List.map_cons]
  rfl

theorem appended_cons_of_ne {entry : Tree} {kind other : EventKind} (different : kind ≠ other) :
    appended kind ((other, entry) :: entries) = appended kind entries := by
  rw [appended, List.filter_cons_of_neg (by simpa using different.symm)]
  rfl

theorem length_keepLast (limit : Nat) (events : List Tree) :
    (keepLast limit events).length = min events.length limit := by
  rw [keepLast, List.length_drop]
  omega

/-- While there is room each event gets the next index. A full list gives every
event the same one. -/
theorem indices_of_run {kind : EventKind} (object : first.isObject = true)
    (fits : (eventsIn kind first).length ≤ kind.limit maxEvents)
    (ran : appendAll letters maxEvents first calls = .ok (entries, last)) :
    (appended kind entries).map eventIndex =
      (List.range (appended kind entries).length).map fun position =>
        min ((eventsIn kind first).length + position) (kind.limit maxEvents) + 1 := by
  induction calls generalizing first entries with
  | nil =>
    cases ran
    rfl
  | cons call calls induction =>
    rcases appendAll_cons ran with ⟨entry, changed, rest, performed, further, rfl⟩
    have indexes := indexes_of_perform object performed
    by_cases here : kind = call.kind
    · subst here
      have length : (eventsIn call.kind changed).length =
          min ((eventsIn call.kind first).length + 1) (call.kind.limit maxEvents) := by
        rw [indexes.events, length_keepLast, List.length_append, List.length_singleton]
      have rest := induction indexes.object (by omega) further
      rw [appended_cons_self, List.map_cons, List.length_cons, List.range_succ_eq_map,
        List.map_cons, List.map_map, rest, indexes.index, length]
      congr 1
      · omega
      · apply List.map_congr_left
        intro position _
        simp only [Function.comp_apply]
        omega
    · have kept := indexes.others kind here
      have rest := induction indexes.object (by rw [kept]; exact fits) further
      rw [appended_cons_of_ne here, rest, kept]

theorem eventsIn_suffix {kind : EventKind} (object : first.isObject = true)
    (ran : appendAll letters maxEvents first calls = .ok (entries, last)) :
    eventsIn kind last <:+ eventsIn kind first ++ appended kind entries := by
  induction calls generalizing first entries with
  | nil =>
    cases ran
    change eventsIn kind last <:+ eventsIn kind last ++ []
    rw [List.append_nil]
  | cons call calls induction =>
    rcases appendAll_cons ran with ⟨entry, changed, rest, performed, further, rfl⟩
    have indexes := indexes_of_perform object performed
    have later := @induction rest changed indexes.object further
    by_cases here : kind = call.kind
    · subst here
      rw [appended_cons_self, List.append_cons]
      apply later.trans
      rcases List.drop_suffix ((eventsIn call.kind first ++ [entry]).length -
        call.kind.limit maxEvents) (eventsIn call.kind first ++ [entry]) with ⟨front, parts⟩
      refine ⟨front, ?_⟩
      rw [indexes.events, ← List.append_assoc]
      exact congrArg (· ++ _) parts
    · rw [appended_cons_of_ne here, ← indexes.others kind here]
      exact later

theorem pairwise_capped_iff {count limit : Nat} :
    ((List.range count).map fun position => min (0 + position) limit + 1).Pairwise (· < ·) ↔
      count ≤ limit + 1 := by
  constructor
  · intro increasing
    by_contra longer
    have two := List.pairwise_iff_getElem.mp increasing limit (limit + 1)
      (by simp; omega) (by simp; omega) (Nat.lt_succ_self limit)
    simp at two
  · intro short
    rw [List.pairwise_map]
    apply List.Pairwise.imp_of_mem _ List.pairwise_lt_range
    intro earlier later _ within ordered
    have bound := List.mem_range.mp within
    omega

/-- The indices of the events of a kind identify them exactly in runs with at most
one event more than are kept. -/
theorem indices_identify_iff (kind : EventKind) (object : first.isObject = true)
    (blank : storedEvents kind first = .ok [])
    (ran : appendAll letters maxEvents first calls = .ok (entries, last)) :
    IndicesIdentify kind entries last ↔
      (calls.filter fun call => call.kind = kind).length ≤ kind.limit maxEvents + 1 := by
  have none : eventsIn kind first = [] := (storedEvents_eq blank).symm
  have indices := @indices_of_run letters maxEvents calls entries first last kind object
    (by rw [none]; exact Nat.zero_le _) ran
  rw [none, List.length_nil] at indices
  rw [← length_appended kind ran, ← pairwise_capped_iff, ← indices]
  constructor
  · exact IndicesIdentify.increase
  · intro increase
    refine ⟨increase, ?_⟩
    have left := @eventsIn_suffix letters maxEvents calls entries first last kind object ran
    rw [none, List.nil_append] at left
    exact increase.sublist (left.sublist.map eventIndex)

end Runs

def sampleReports (count : Nat) : List AppendCall :=
  List.replicate count (.goal { type := ascii "progress" } 5)

theorem indices_identify_sample :
    ∃ entries last,
      appendAll LowerCase.asciiOnly 1 (.object []) (sampleReports 2) = .ok (entries, last) ∧
        entries.length = 2 ∧ IndicesIdentify .goal entries last := by
  refine ⟨_, _, rfl, rfl, ?_⟩
  exact (@indices_identify_iff LowerCase.asciiOnly 1 (sampleReports 2) _ (.object []) _ .goal
    rfl rfl rfl).mpr (by decide)

/-- Where one event is kept, the third report gets the index of the second one. -/
theorem third_index_repeats :
    ∃ entries last,
      appendAll LowerCase.asciiOnly 1 (.object []) (sampleReports 3) = .ok (entries, last) ∧
        (appended .goal entries).map eventIndex = [1, 2, 2] ∧
        ¬IndicesIdentify .goal entries last := by
  refine ⟨_, _, rfl, by decide, fun identify => ?_⟩
  exact absurd identify.increase (by decide)

end AgentC.Broker.TeamRuns
