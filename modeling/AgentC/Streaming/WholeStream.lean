import AgentC.Streaming.Chunking

/-! # The meaning of a whole stream

The events of a stream are read off its lines. A parser that is fed the stream in pieces
delivers them in order, and an event that did not fit comes with a later call. -/

namespace AgentC.Streaming

/-- What the field lines since the last empty line have set. -/
structure Fields where
  event : Bytes := []
  id : Bytes := []
  data : List Bytes := []
deriving DecidableEq, Repr

namespace Fields

/-- None of the three has accumulated anything. -/
def Nothing (fields : Fields) : Prop :=
  fields.event = [] ∧ fields.id = [] ∧ fields.data = []

instance (fields : Fields) : Decidable fields.Nothing :=
  inferInstanceAs (Decidable (_ ∧ _ ∧ _))

def toEvent (fields : Fields) : SseEvent where
  event := fields.event
  id := fields.id
  data := [lineFeed].intercalate fields.data

/-- The name and the value of a line are separated by its first colon, and one space behind
the colon is not part of the value. -/
def nameAndValue (line : Bytes) : Bytes × Bytes :=
  let value := (line.dropWhile (· != colon)).drop 1
  (line.takeWhile (· != colon), if [space] <+: value then value.drop 1 else value)

/-- A field line. The name of a comment is empty. -/
def addLine (fields : Fields) (line : Bytes) : Fields :=
  let (name, value) := nameAndValue line
  if name = ascii "event" then { fields with event := value }
  else if name = ascii "id" then { fields with id := value }
  else if name = ascii "data" then { fields with data := fields.data ++ [value] }
  else fields

end Fields

def withoutCr (line : Bytes) : Bytes :=
  if [carriageReturn] <:+ line then line.dropLast else line

def eventsOfLines (fields : Fields) : List Bytes → List SseEvent
  | [] => []
  | line :: rest =>
    if withoutCr line = [] then
      if fields.Nothing then eventsOfLines {} rest
      else fields.toEvent :: eventsOfLines {} rest
    else eventsOfLines (fields.addLine (withoutCr line)) rest

/-- The events of a stream. The bytes behind its last line feed are no line yet. -/
def referenceEvents (stream : Bytes) : List SseEvent :=
  eventsOfLines {} (stream.splitOn lineFeed).dropLast

namespace SseParser

/-- The parser holds what the lines have set. -/
structure Holds (parser : SseParser) (fields : Fields) : Prop where
  event : parser.curEvent = fields.event
  id : parser.curId = fields.id
  data : parser.curData = fields.data.flatMap fun value => value ++ [lineFeed]

theorem withoutCr_eq (line : Bytes) : withoutCr line = trimCr line := by
  have ends : [carriageReturn] <:+ line ↔ line.getLast? = some carriageReturn := by
    rcases List.eq_nil_or_concat line with empty | ⟨front, last, shape⟩
    · simp [empty]
    · rw [shape, List.concat_eq_append, List.getLast?_concat, Option.some.injEq]
      constructor
      · intro suffix
        rcases suffix with ⟨before, same⟩
        have ending := (List.append_inj' same rfl).2
        exact (List.cons.inj ending).1.symm
      · intro same
        rw [same]
        exact List.suffix_append ..
  simp only [withoutCr, trimCr, ends]

theorem nameAndValue_eq (line : Bytes) :
    Fields.nameAndValue line = (fieldName line, fieldValue line) := by
  rw [Fields.nameAndValue, fieldName, fieldValue]
  cases line.dropWhile fun byte => byte != colon with
  | nil => rfl
  | cons first value =>
    cases value with
    | nil => rfl
    | cons => simp [List.cons_prefix_cons, eq_comm]

theorem flatMap_lines {data : List Bytes} (filled : data ≠ []) :
    (data.flatMap fun value => value ++ [lineFeed]) =
      [lineFeed].intercalate data ++ [lineFeed] := by
  induction data with
  | nil => exact absurd rfl filled
  | cons first rest induction =>
    cases rest with
    | nil => simp
    | cons =>
      rw [List.flatMap_cons, induction (List.cons_ne_nil _ _), List.intercalate_cons_cons]
      simp

theorem joined (data : List Bytes) :
    stripTrailingNewline (data.flatMap fun value => value ++ [lineFeed]) =
      [lineFeed].intercalate data := by
  by_cases filled : data = []
  · rw [filled]
    rfl
  · rw [flatMap_lines filled, stripTrailingNewline, List.getLast?_concat, if_pos rfl,
      List.dropLast_concat]

section

variable {parser : SseParser} {fields : Fields} (holds : parser.Holds fields)

include holds

theorem hasNothing_iff : parser.hasNothing = true ↔ fields.Nothing := by
  have data : parser.curData = [] ↔ fields.data = [] := by
    rw [holds.data]
    cases fields.data <;> simp
  rw [hasNothing, Bool.and_eq_true, Bool.and_eq_true, List.isEmpty_iff, List.isEmpty_iff,
    List.isEmpty_iff, data, holds.event, holds.id, Fields.Nothing, and_assoc]

theorem currentEvent_eq : parser.currentEvent = fields.toEvent := by
  rw [currentEvent, Fields.toEvent, holds.event, holds.id, holds.data, joined]

theorem Holds.handleField (line : Bytes) :
    (parser.handleField line).Holds (fields.addLine line) := by
  rw [SseParser.handleField, Fields.addLine, nameAndValue_eq]
  by_cases comment : line.head? = some colon
  · have noName : fieldName line = [] := by
      rw [fieldName]
      cases line with
      | nil => rfl
      | cons =>
        cases comment
        rfl
    rw [if_pos comment, noName]
    exact holds
  · rw [if_neg comment]
    dsimp only
    split
    · exact ⟨rfl, holds.id, holds.data⟩
    split
    · exact ⟨holds.event, rfl, holds.data⟩
    split
    · refine ⟨holds.event, holds.id, ?_⟩
      rw [List.flatMap_append, ← holds.data]
      simp
    · exact holds

theorem lineEffect_events (line : Bytes) : ∃ next, (parser.lineEffect line).1.Holds next ∧
      ∀ rest, eventsOfLines fields (line :: rest) =
        (parser.lineEffect line).2 ++ eventsOfLines next rest := by
  by_cases blank : trimCr line = []
  · have closing : parser.lineEffect line = parser.closeEvent := by
      rw [lineEffect, blank]
      rfl
    by_cases nothing : fields.Nothing
    · refine ⟨{}, ?_, ?_⟩
      · rw [closing, closeEvent, if_pos ((hasNothing_iff holds).mpr nothing)]
        rw [Fields.Nothing] at nothing
        constructor
        · rw [holds.event, nothing.1]
        · rw [holds.id, nothing.2.1]
        · rw [holds.data, nothing.2.2]
      · intro rest
        rw [closing, closeEvent, if_pos ((hasNothing_iff holds).mpr nothing), eventsOfLines,
          withoutCr_eq, if_pos blank, if_pos nothing]
        rfl
    · have something : ¬parser.hasNothing = true := fun empty =>
        nothing ((hasNothing_iff holds).mp empty)
      refine ⟨{}, ?_, ?_⟩
      · rw [closing, closeEvent, if_neg something]
        exact ⟨rfl, rfl, rfl⟩
      · intro rest
        rw [closing, closeEvent, if_neg something, eventsOfLines, withoutCr_eq, if_pos blank,
          if_neg nothing, currentEvent_eq holds]
        rfl
  · have filled : (trimCr line).isEmpty = false := by
      rw [List.isEmpty_eq_false_iff]
      exact blank
    refine ⟨fields.addLine (trimCr line), ?_, ?_⟩
    · rw [lineEffect, filled]
      exact holds.handleField _
    · intro rest
      rw [lineEffect, filled, eventsOfLines, withoutCr_eq, if_neg blank]
      rfl

end

theorem run_events {parser : SseParser} {fields : Fields} (holds : parser.Holds fields)
    (fresh : parser.buf = []) (stream : Bytes) :
    (byteMachine.run parser stream).2 = eventsOfLines fields (stream.splitOn lineFeed).dropLast := by
  induction size : stream.length using Nat.strongRecOn generalizing parser fields stream with
  | _ length induction =>
    cases split : splitLine stream with
    | none =>
      have unbroken := splitLine_none split
      rw [run_of_unbroken _ unbroken, List.splitOn_eq_singleton]
      · rfl
      · intro member
        exact absurd (unbroken _ member) (by decide)
    | some parts =>
      rcases parts with ⟨line, rest⟩
      have parts := splitLine_some split
      have absent : lineFeed ∉ line := by
        intro member
        exact absurd (parts.2 _ member) (by decide)
      have shorter : rest.length < length := size ▸ splitLine_length split
      have same : parser = { parser with buf := [] } := by
        rw [← fresh]
      rcases lineEffect_events holds line with ⟨next, nextHolds, events⟩
      rw [parts.1, same, run_line parser parts.2 rest,
        List.splitOn_append_cons_self_of_not_mem absent,
        List.dropLast_cons_of_ne_nil (List.splitOn_ne_nil _ _), events]
      have cleared : ({ (parser.lineEffect line).1 with buf := [] } : SseParser).Holds next :=
        ⟨nextHolds.event, nextHolds.id, nextHolds.data⟩
      dsimp only
      rw [induction _ shorter cleared rfl rest rfl]

/-- What the machine does on the bytes that wait in the buffer. -/
def pending (parser : SseParser) : SseParser × List SseEvent :=
  byteMachine.run { parser with buf := [] } parser.buf

theorem feedLines_pending (eventsCap : Nat) (parser : SseParser)
    (positive : 0 < eventsCap) (events : List SseEvent) (fits : events.length ≤ eventsCap) :
    let result := feedLines eventsCap parser events
    (result.parser.pending.1 = parser.pending.1 ∧
      result.events ++ result.parser.pending.2 = events ++ parser.pending.2) ∧
        (result.status = .ok → Unbroken result.parser.buf) := by
  fun_induction feedLines eventsCap parser events with
  | case1 parser events split =>
    exact ⟨⟨rfl, rfl⟩, fun _ => splitLine_none split⟩
  | case2 parser events line rest split status failed =>
    refine ⟨⟨rfl, rfl⟩, ?_⟩
    intro succeeded
    rw [handleLine_eq parser line positive fits] at failed
    split at failed
    · cases failed
    · cases failed
      cases succeeded
  | case3 parser events line rest split next collected handled induction =>
    have parts := splitLine_some split
    rcases handleLine_eq_ok positive fits handled with ⟨rfl, rfl, room⟩
    have whole : parser.pending =
        ((pending { (parser.lineEffect line).1 with buf := rest }).1,
          (parser.lineEffect line).2 ++
            (pending { (parser.lineEffect line).1 with buf := rest }).2) := by
      rw [pending, parts.1, run_line parser parts.2 rest]
      rfl
    have remaining := induction room
    rw [whole]
    dsimp only at remaining ⊢
    rw [← List.append_assoc]
    exact remaining

theorem pending_of_unbroken {parser : SseParser} (unbroken : Unbroken parser.buf) :
    parser.pending = (parser, []) := by
  rw [pending, run_of_unbroken _ unbroken]
  rfl

theorem pending_append (parser : SseParser) (bytes : Bytes) :
    pending { parser with buf := parser.buf ++ bytes } =
      ((byteMachine.run parser.pending.1 bytes).1,
        parser.pending.2 ++ (byteMachine.run parser.pending.1 bytes).2) := by
  rw [pending, Machine.run_append]
  rfl

/-- A call of `agent_sse_parser_feed`. -/
structure FeedCall where
  bytes : Bytes
  eventsCap : Nat

def feedCalls (sofar : FeedResult) : List FeedCall → FeedResult
  | [] => sofar
  | call :: rest =>
    let result := sofar.parser.feed call.bytes call.eventsCap
    feedCalls { result with events := sofar.events ++ result.events } rest

/-- What was delivered and what waits is all that the machine reports. -/
structure Delivering (fed : Bytes) (sofar : FeedResult) : Prop where
  state : sofar.parser.pending.1 = (byteMachine.run {} fed).1
  events : sofar.events ++ sofar.parser.pending.2 = (byteMachine.run {} fed).2
  drained : sofar.status = .ok → Unbroken sofar.parser.buf

theorem Delivering.feed {fed : Bytes} {sofar : FeedResult} (delivering : Delivering fed sofar)
    {call : FeedCall} (filled : call.bytes ≠ []) (positive : 0 < call.eventsCap) :
    let result := sofar.parser.feed call.bytes call.eventsCap
    Delivering (fed ++ call.bytes) { result with events := sofar.events ++ result.events } := by
  have more : call.bytes.isEmpty = false := by
    rw [List.isEmpty_eq_false_iff]
    exact filled
  have waiting := feedLines_pending call.eventsCap
    { sofar.parser with buf := sofar.parser.buf ++ call.bytes } positive [] (Nat.zero_le _)
  dsimp only at waiting ⊢
  rw [pending_append, List.nil_append, delivering.state] at waiting
  rw [SseParser.feed, more]
  constructor
  · rw [Machine.run_append]
    exact waiting.1.1
  · rw [Machine.run_append, ← delivering.events, List.append_assoc, List.append_assoc]
    exact congrArg (sofar.events ++ ·) waiting.1.2
  · exact waiting.2

theorem Delivering.feedCalls {fed : Bytes} {sofar : FeedResult}
    (delivering : Delivering fed sofar) (calls : List FeedCall)
    (filled : ∀ call ∈ calls, call.bytes ≠ [] ∧ 1 ≤ call.eventsCap) :
    Delivering (fed ++ (calls.map FeedCall.bytes).flatten) (SseParser.feedCalls sofar calls) := by
  induction calls generalizing fed sofar with
  | nil =>
    rw [List.map_nil, List.flatten_nil, List.append_nil]
    exact delivering
  | cons call rest induction =>
    have first := filled call (List.mem_cons_self ..)
    have next := induction (delivering.feed first.1 first.2)
      fun other member => filled other (List.mem_cons_of_mem _ member)
    rw [List.map_cons, List.flatten_cons, ← List.append_assoc]
    exact next

/-- Whatever the calls, the parser delivers the events of the stream in order, and all of
them when the last call was successful. -/
theorem feedCalls_reference (calls : List FeedCall)
    (filled : ∀ call ∈ calls, call.bytes ≠ [] ∧ 1 ≤ call.eventsCap) :
    let delivered := feedCalls { status := .ok, parser := {}, events := [] } calls
    let reference := referenceEvents (calls.map FeedCall.bytes).flatten
    delivered.events <+: reference ∧ (delivered.status = .ok → delivered.events = reference) := by
  have start : Delivering [] { status := .ok, parser := {}, events := [] } :=
    ⟨rfl, rfl, fun _ => allIn_nil _⟩
  have delivering := start.feedCalls calls filled
  have holds : ({} : SseParser).Holds {} := ⟨rfl, rfl, rfl⟩
  have events := delivering.events
  rw [List.nil_append, run_events holds rfl] at events
  dsimp only
  constructor
  · exact ⟨_, events⟩
  · intro succeeded
    rw [pending_of_unbroken (delivering.drained succeeded), List.append_nil] at events
    exact events

/-- Two events wait when there is room for one, and come with the next calls. -/
theorem feedCalls_reference_sample :
    let calls : List FeedCall :=
      [⟨ascii "data: a\n\ndata: b\n\ndata: c\n\n", 1⟩, ⟨ascii ":", 2⟩]
    let delivered := feedCalls { status := .ok, parser := {}, events := [] } calls
    let reference := referenceEvents (calls.map FeedCall.bytes).flatten
    delivered.events <+: reference ∧ (delivered.status = .ok → delivered.events = reference) :=
  feedCalls_reference _ (by decide)

end SseParser

end AgentC.Streaming
