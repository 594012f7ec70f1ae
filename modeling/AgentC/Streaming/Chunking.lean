import AgentC.Streaming.Decoder

/-! # Independence of the pieces

The parser without a bound on events is a machine that reads single bytes. A
call that completes no more events than it may does what the machine does on
its bytes, so how a stream is cut into calls is not seen in what the decoder
reports. -/

namespace AgentC.Streaming

namespace SseParser

/-- The blank line: the current event, unless nothing was set. -/
def closeEvent (parser : SseParser) : SseParser × List SseEvent :=
  if parser.hasNothing then (parser, []) else (parser.clearCurrent, [parser.currentEvent])

/-- What one complete line does when there is room for its event. -/
def lineEffect (parser : SseParser) (line : Bytes) : SseParser × List SseEvent :=
  if (trimCr line).isEmpty then parser.closeEvent
  else (parser.handleField (trimCr line), [])

def byteMachine : Machine SseParser UInt8 SseEvent where
  step parser byte :=
    if byte = lineFeed then
      ({ (parser.lineEffect parser.buf).1 with buf := [] }, (parser.lineEffect parser.buf).2)
    else ({ parser with buf := parser.buf ++ [byte] }, [])

variable (parser : SseParser) {line : Bytes} (buf : Bytes) {eventsCap : Nat}

theorem byteMachine_step_lineFeed : byteMachine.step parser lineFeed =
      ({ (parser.lineEffect parser.buf).1 with buf := [] }, (parser.lineEffect parser.buf).2) := by
  simp only [byteMachine, if_true]

theorem byteMachine_step_other {byte : UInt8} (other : byte ≠ lineFeed) :
    byteMachine.step parser byte = ({ parser with buf := parser.buf ++ [byte] }, []) := by
  simp only [byteMachine, if_neg other]

abbrev Unbroken (text : Bytes) : Prop :=
  AllIn (fun byte => byte != lineFeed) text

theorem run_of_unbroken {text : Bytes} (unbroken : Unbroken text) :
    byteMachine.run parser text = ({ parser with buf := parser.buf ++ text }, []) := by
  induction text generalizing parser with
  | nil => simp
  | cons byte text induction =>
    have parts := allIn_cons.mp unbroken
    have other : byte ≠ lineFeed := by simpa using parts.1
    rw [Machine.run_cons, byteMachine_step_other parser other, induction _ parts.2]
    simp

theorem unbroken_step (byte : UInt8) (unbroken : Unbroken parser.buf) :
    Unbroken (byteMachine.step parser byte).1.buf := by
  by_cases broken : byte = lineFeed
  · subst broken
    rw [byteMachine_step_lineFeed]
    exact allIn_nil _
  · rw [byteMachine_step_other parser broken]
    apply allIn_append.mpr
    constructor
    · exact unbroken
    · apply allIn_cons.mpr
      exact ⟨by simpa using broken, allIn_nil _⟩

theorem unbroken_run {parser : SseParser} (unbroken : Unbroken parser.buf) (input : Bytes) :
    Unbroken (byteMachine.run parser input).1.buf :=
  byteMachine.run_invariant (fun parser => Unbroken parser.buf) unbroken_step unbroken input

theorem splitLine_none {buf : Bytes} (split : splitLine buf = none) : Unbroken buf := by
  rw [splitLine] at split
  split at split
  · next dropped =>
    have parts := List.takeWhile_append_dropWhile (p := fun byte => byte != lineFeed) (l := buf)
    rw [dropped, List.append_nil] at parts
    rw [← parts]
    exact allIn_takeWhile _ _
  · cases split

theorem splitLine_some {buf rest : Bytes} (split : splitLine buf = some (line, rest)) :
    buf = line ++ lineFeed :: rest ∧ Unbroken line := by
  rw [splitLine] at split
  split at split
  · cases split
  · next first behind dropped =>
    have parts := List.takeWhile_append_dropWhile (p := fun byte => byte != lineFeed) (l := buf)
    have stops := stopsAt_dropWhile (fun byte => byte != lineFeed) buf
    rw [dropped, stopsAt_cons] at stops
    have broken : first = lineFeed := by simpa using stops
    rw [dropped, broken] at parts
    cases split
    exact ⟨parts.symm, allIn_takeWhile _ _⟩

theorem closeEvent_buf : ({ parser with buf } : SseParser).closeEvent =
      ({ parser.closeEvent.1 with buf }, parser.closeEvent.2) := by
  have same : ({ parser with buf } : SseParser).hasNothing = parser.hasNothing := rfl
  rw [closeEvent, closeEvent, same]
  cases parser.hasNothing with
  | true => rfl
  | false => rfl

theorem handleField_buf (line : Bytes) : ({ parser with buf } : SseParser).handleField line =
      { parser.handleField line with buf } := by
  simp only [handleField]
  split_ifs
  all_goals rfl

theorem lineEffect_buf (line : Bytes) : ({ parser with buf } : SseParser).lineEffect line =
      ({ (parser.lineEffect line).1 with buf }, (parser.lineEffect line).2) := by
  rw [lineEffect, lineEffect, closeEvent_buf, handleField_buf]
  cases (trimCr line).isEmpty with
  | true => rfl
  | false => rfl

theorem run_line (unbroken : Unbroken line) (rest : Bytes) :
    byteMachine.run { parser with buf := [] } (line ++ lineFeed :: rest) =
      let after := parser.lineEffect line
      let remaining := byteMachine.run { after.1 with buf := [] } rest
      (remaining.1, after.2 ++ remaining.2) := by
  rw [Machine.run_append, run_of_unbroken _ unbroken, Machine.run_cons, byteMachine_step_lineFeed]
  simp only [List.nil_append, lineEffect_buf]

variable {events : List SseEvent}

theorem handleLine_eq (line : Bytes) (positive : 0 < eventsCap) (fits : events.length ≤ eventsCap) :
    parser.handleLine line eventsCap events =
      if events.length + (parser.lineEffect line).2.length ≤ eventsCap then
        .ok ((parser.lineEffect line).1, events ++ (parser.lineEffect line).2)
      else .error .limit := by
  rw [handleLine, lineEffect]
  cases (trimCr line).isEmpty with
  | false => simp [fits]
  | true =>
    simp only [if_true, emitEvent, closeEvent, if_pos positive]
    cases parser.hasNothing with
    | true => simp [fits]
    | false =>
      by_cases full : eventsCap ≤ events.length
      · have beyond : ¬events.length + 1 ≤ eventsCap := by omega
        simp [full, beyond]
      · have room : events.length + 1 ≤ eventsCap := by omega
        simp [full, room]

/-- The loop does what the machine does on the buffer, or stops because the
machine's events do not all fit. -/
theorem handleLine_eq_ok {parser next : SseParser} (positive : 0 < eventsCap)
    {collected : List SseEvent} (fits : events.length ≤ eventsCap)
    (handled : parser.handleLine line eventsCap events = .ok (next, collected)) :
    next = (parser.lineEffect line).1 ∧ collected = events ++ (parser.lineEffect line).2 ∧
      collected.length ≤ eventsCap := by
  rw [handleLine_eq parser line positive fits] at handled
  split at handled
  · next room =>
    cases handled
    rw [← List.length_append] at room
    exact ⟨rfl, rfl, room⟩
  · cases handled

theorem feedLines_spec (positive : 0 < eventsCap) (parser : SseParser) (events : List SseEvent)
    (fits : events.length ≤ eventsCap) :
    let reference := byteMachine.run { parser with buf := [] } parser.buf
    if events.length + reference.2.length ≤ eventsCap then
      feedLines eventsCap parser events =
        { status := .ok, parser := reference.1, events := events ++ reference.2 }
    else (feedLines eventsCap parser events).status = .limit := by
  fun_induction feedLines eventsCap parser events with
  | case1 parser events split =>
    rw [run_of_unbroken _ (splitLine_none split)]
    simp [fits]
  | case2 parser events line rest split status failed =>
    have parts := splitLine_some split
    rw [handleLine_eq parser line positive fits] at failed
    split at failed
    · exact nomatch failed
    · next beyond =>
      cases failed
      rw [parts.1, run_line parser parts.2 rest]
      dsimp only
      rw [List.length_append, if_neg]
      omega
  | case3 parser events line rest split next collected handled induction =>
    have parts := splitLine_some split
    rcases handleLine_eq_ok positive fits handled with ⟨rfl, rfl, room⟩
    have remaining := induction room
    rw [parts.1, run_line parser parts.2 rest]
    dsimp only at remaining ⊢
    rw [List.length_append, Nat.add_assoc, List.append_assoc] at remaining
    rw [List.length_append]
    exact remaining

/-- A call of the parser, from between two calls, is the machine on its bytes. -/
theorem feed_spec {eventsCap : Nat} (positive : 0 < eventsCap) {parser : SseParser}
    (unbroken : Unbroken parser.buf) (bytes : Bytes) :
    let reference := byteMachine.run parser bytes
    if reference.2.length ≤ eventsCap then
      parser.feed bytes eventsCap =
        { status := .ok, parser := reference.1, events := reference.2 }
    else (parser.feed bytes eventsCap).status = .limit := by
  cases bytes with
  | nil => rfl
  | cons byte bytes =>
    have spec := feedLines_spec positive { parser with buf := parser.buf ++ byte :: bytes } []
      (Nat.zero_le _)
    have held : byteMachine.run { parser with buf := [] } (parser.buf ++ byte :: bytes) =
        byteMachine.run parser (byte :: bytes) := by
      rw [Machine.run_append, run_of_unbroken _ unbroken]
      rfl
    dsimp only at spec
    rw [held, List.length_nil, Nat.zero_add, List.nil_append] at spec
    exact spec

/-- The status tells whether the call completes more events than it may. -/
theorem feed_status_ok_iff (positive : 0 < eventsCap) {parser : SseParser}
    (unbroken : Unbroken parser.buf) (bytes : Bytes) : (parser.feed bytes eventsCap).status = .ok ↔
      (byteMachine.run parser bytes).2.length ≤ eventsCap := by
  have spec := feed_spec positive unbroken bytes
  dsimp only at spec
  split at spec
  · next room =>
    rw [spec]
    exact ⟨fun _ => room, fun _ => rfl⟩
  · next beyond =>
    rw [spec]
    exact ⟨fun impossible => (nomatch impossible), fun room => absurd room beyond⟩

theorem feed_eq_of_ok (positive : 0 < eventsCap) {parser : SseParser}
    (unbroken : Unbroken parser.buf) {bytes : Bytes}
    (succeeded : (parser.feed bytes eventsCap).status = .ok) : parser.feed bytes eventsCap =
      { status := .ok
        parser := (byteMachine.run parser bytes).1
        events := (byteMachine.run parser bytes).2 } := by
  have room := (feed_status_ok_iff positive unbroken bytes).mp succeeded
  have spec := feed_spec positive unbroken bytes
  dsimp only at spec
  rw [if_pos room] at spec
  exact spec

end SseParser

section Runs

variable {σ : Type} (config : StreamConfig) (decodeFn : DecodeFn σ)

theorem eventsPerFeed_pos : 0 < eventsPerFeed config := by
  rw [eventsPerFeed]
  split
  · assumption
  · decide

/-- One call for each piece, up to the first that reports an error. -/
def feedUntilError (decoder : StreamDecoder σ) (pieces : List Bytes) :
    Except Status Unit × StreamDecoder σ :=
  (pieces.forM (feed config decodeFn)).outcome decoder

/-- One call for each piece, whatever the calls report. -/
def feedAll (decoder : StreamDecoder σ) (pieces : List Bytes) : StreamDecoder σ :=
  Attempt.tryAll (feed config decodeFn) decoder pieces

/-- No call that is made completes more events than `eventsPerFeed`. -/
def WithinEventCap (decoder : StreamDecoder σ) : List Bytes → Prop
  | [] => True
  | piece :: rest =>
    (decoder.parser.feed piece (eventsPerFeed config)).status = .ok ∧
      (((feed config decodeFn piece).outcome decoder).1 = .ok () →
        WithinEventCap ((feed config decodeFn piece).outcome decoder).2 rest)

instance WithinEventCap.decidable (decoder : StreamDecoder σ) (pieces : List Bytes) :
    Decidable (WithinEventCap config decodeFn decoder pieces) :=
  match pieces with
  | [] => .isTrue trivial
  | piece :: rest =>
    have := decidable ((feed config decodeFn piece).outcome decoder).2 rest
    inferInstanceAs (Decidable (_ ∧ (_ → _)))

theorem outcome_feed_within {decoder : StreamDecoder σ}
    (unbroken : SseParser.Unbroken decoder.parser.buf) {bytes : Bytes}
    (within : (decoder.parser.feed bytes (eventsPerFeed config)).status = .ok) :
    (feed config decodeFn bytes).outcome decoder =
      let reference := SseParser.byteMachine.run decoder.parser bytes
      let handled := (reference.2.forM (processEvent config decodeFn)).outcome decoder.assembly
      (handled.1, { parser := reference.1, assembly := handled.2 }) := by
  have parsed := SseParser.feed_eq_of_ok (eventsPerFeed_pos config) unbroken within
  rw [outcome_feed, parsed]
  exact if_pos rfl

/-- A run that stops at its first error reports and assembles what handling the
events of the whole stream, up to the first that fails, does. -/
theorem feedUntilError_eq {decoder : StreamDecoder σ}
    (unbroken : SseParser.Unbroken decoder.parser.buf) {pieces : List Bytes}
    (within : WithinEventCap config decodeFn decoder pieces) :
    let run := feedUntilError config decodeFn decoder pieces
    let reference := SseParser.byteMachine.run decoder.parser pieces.flatten
    (run.1, run.2.assembly) =
      (reference.2.forM (processEvent config decodeFn)).outcome decoder.assembly := by
  induction pieces generalizing decoder with
  | nil => rfl
  | cons piece rest induction =>
    have call := outcome_feed_within config decodeFn unbroken within.1
    have later := within.2
    dsimp only at call induction ⊢
    rw [feedUntilError, Attempt.outcome_forM_cons, List.flatten_cons, Machine.run_append,
      Attempt.outcome_forM_append, call]
    rw [call] at later
    dsimp only at later ⊢
    rcases handled : ((SseParser.byteMachine.run decoder.parser piece).2.forM
      (processEvent config decodeFn)).outcome decoder.assembly with ⟨result, assembly⟩
    rw [handled] at later
    cases result with
    | error status => rfl
    | ok value =>
      exact induction (SseParser.unbroken_run unbroken piece) (later rfl)

def StreamDecoder.done (decoder : StreamDecoder σ) : Bool :=
  decoder.assembly.events.any fun event => event.type == .streamEnd

/-- What a host sees of a decoder. -/
structure SameDelivery (left right : StreamDecoder σ) : Prop where
  events : left.assembly.events = right.assembly.events
  toolCalls : left.assembly.toolCalls = right.assembly.toolCalls
  copied : copyToolCalls left = copyToolCalls right
  done : left.done = right.done

theorem SameDelivery.of_assembly {left right : StreamDecoder σ}
    (same : left.assembly = right.assembly) : SameDelivery left right where
  events := by rw [same]
  toolCalls := by rw [same]
  copied := by rw [copyToolCalls, copyToolCalls, same]
  done := by rw [StreamDecoder.done, StreamDecoder.done, same]

/-- However a stream is cut, as long as no call completes more events than it
may: a host that stops at the first error gets the same status, events and tool
calls, and if there is no error so does a host that looks at no status. -/
theorem chunking_independent (decodeContext : σ) {pieces otherPieces : List Bytes}
    (sameStream : pieces.flatten = otherPieces.flatten)
    (within : WithinEventCap config decodeFn (.init decodeContext) pieces)
    (otherWithin : WithinEventCap config decodeFn (.init decodeContext) otherPieces) :
    let run := feedUntilError config decodeFn (.init decodeContext) pieces
    let otherRun := feedUntilError config decodeFn (.init decodeContext) otherPieces
    run.1 = otherRun.1 ∧ SameDelivery run.2 otherRun.2 ∧
      (run.1 = .ok () →
        SameDelivery (feedAll config decodeFn (.init decodeContext) pieces)
          (feedAll config decodeFn (.init decodeContext) otherPieces)) := by
  have unbroken : SseParser.Unbroken (StreamDecoder.init decodeContext).parser.buf := allIn_nil _
  have reference := feedUntilError_eq config decodeFn unbroken within
  have otherReference := feedUntilError_eq config decodeFn unbroken otherWithin
  dsimp only at reference otherReference ⊢
  rw [sameStream] at reference
  have same := reference.trans otherReference.symm
  have sameStatus := congrArg Prod.fst same
  have sameAssembly := congrArg Prod.snd same
  refine ⟨sameStatus, .of_assembly sameAssembly, ?_⟩
  intro succeeded
  rw [feedAll, feedAll, Attempt.tryAll_eq_of_ok succeeded,
    Attempt.tryAll_eq_of_ok (sameStatus.symm.trans succeeded)]
  exact .of_assembly sameAssembly

end Runs

/-- A host that takes the data of every event but `bad` as text. -/
def sampleDecode : DecodeFn Unit := fun context data =>
  if data = ascii "bad" then (context, .invalidArgument, {})
  else (context, .ok, { hasDeltaText := true, deltaText := some data })

def samplePieces : List Bytes :=
  [ascii "data: a\r", ascii "\n\nda", ascii "ta: b\n\n"]

theorem chunking_independent_sample :
    SameDelivery (feedAll {} sampleDecode (.init ()) samplePieces)
        (feedAll {} sampleDecode (.init ()) [samplePieces.flatten]) ∧
      (feedAll {} sampleDecode (.init ()) samplePieces).assembly.events.length = 2 := by
  have same : samplePieces.flatten = [samplePieces.flatten].flatten := by simp
  have independent := chunking_independent {} sampleDecode () same (by decide +kernel)
    (by decide +kernel)
  exact ⟨independent.2.2 (by decide +kernel), by decide +kernel⟩

/-- Thirty-three events in one call are all lost, one at a time all of them are
reported. An event that fails takes the ones behind it in its call with it. No
total limit is configured. -/
theorem burst_and_failure_lose_events :
    let burst := List.replicate 33 (ascii "data: a\n\n")
    let failing := [ascii "data: bad\n\n", ascii "data: a\n\n"]
    (feedAll {} sampleDecode (.init ()) burst).assembly.events.length = 33 ∧
      (feedAll {} sampleDecode (.init ()) [burst.flatten]).assembly.events = [] ∧
      (feedUntilError {} sampleDecode (.init ()) burst).2.assembly.events.length = 33 ∧
      (feedUntilError {} sampleDecode (.init ()) [burst.flatten]).2.assembly.events = [] ∧
      (feedAll {} sampleDecode (.init ()) failing).assembly.events.length = 1 ∧
      (feedAll {} sampleDecode (.init ()) [failing.flatten]).assembly.events = [] := by
  decide +kernel

end AgentC.Streaming
