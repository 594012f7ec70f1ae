import AgentC.Foundation.Bytes

/-! # Event stream parser

`core/src/agent_sse_parser.c`: bytes of a `text/event-stream` are collected
until a line feed completes a line; a blank line completes an event. -/

namespace AgentC.Streaming

def lineFeed : UInt8 := 10
def carriageReturn : UInt8 := 13
def space : UInt8 := 32
def colon : UInt8 := 58

structure SseEvent where
  event : Bytes
  id : Bytes
  data : Bytes
deriving DecidableEq, Repr

/-- `buf` holds the bytes behind the last handled line, the other fields what
the lines of the current event have set so far. -/
structure SseParser where
  buf : Bytes := []
  curEvent : Bytes := []
  curId : Bytes := []
  curData : Bytes := []
deriving DecidableEq, Repr

namespace SseParser

/-- `sse_trim_cr` -/
def trimCr (line : Bytes) : Bytes :=
  if line.getLast? = some carriageReturn then line.dropLast else line

def stripTrailingNewline (data : Bytes) : Bytes :=
  if data.getLast? = some lineFeed then data.dropLast else data

def hasNothing (parser : SseParser) : Bool :=
  parser.curEvent.isEmpty && parser.curId.isEmpty && parser.curData.isEmpty

def clearCurrent (parser : SseParser) : SseParser :=
  { parser with curEvent := [], curId := [], curData := [] }

def currentEvent (parser : SseParser) : SseEvent where
  event := parser.curEvent
  id := parser.curId
  data := stripTrailingNewline parser.curData

/-- `sse_emit_event`. With a capacity of zero events are dropped. -/
def emitEvent (parser : SseParser) (eventsCap : Nat) (events : List SseEvent) :
    Except Status (SseParser × List SseEvent) :=
  if parser.hasNothing then .ok (parser, events)
  else if 0 < eventsCap then
    if eventsCap ≤ events.length then .error .limit
    else .ok (parser.clearCurrent, events ++ [parser.currentEvent])
  else .ok (parser.clearCurrent, events)

def fieldName (line : Bytes) : Bytes :=
  line.takeWhile fun byte => byte != colon

def fieldValue (line : Bytes) : Bytes :=
  match line.dropWhile fun byte => byte != colon with
  | [] => []
  | _ :: value => if value.head? = some space then value.tail else value

/-- The second half of `sse_handle_line`: a line that is not blank. -/
def handleField (parser : SseParser) (line : Bytes) : SseParser :=
  if line.head? = some colon then parser
  else if fieldName line = ascii "event" then { parser with curEvent := fieldValue line }
  else if fieldName line = ascii "id" then { parser with curId := fieldValue line }
  else if fieldName line = ascii "data" then
    { parser with curData := parser.curData ++ fieldValue line ++ [lineFeed] }
  else parser

def handleLine (parser : SseParser) (line : Bytes) (eventsCap : Nat) (events : List SseEvent) :
    Except Status (SseParser × List SseEvent) :=
  let line := trimCr line
  if line.isEmpty then emitEvent parser eventsCap events
  else .ok (parser.handleField line, events)

def splitLine (buf : Bytes) : Option (Bytes × Bytes) :=
  match buf.dropWhile fun byte => byte != lineFeed with
  | [] => none
  | _ :: rest => some (buf.takeWhile fun byte => byte != lineFeed, rest)

theorem splitLine_length {buf line rest : Bytes} (split : splitLine buf = some (line, rest)) :
    rest.length < buf.length := by
  rw [splitLine] at split
  split at split
  · exact nomatch split
  · next first behind dropped =>
    cases split
    have parts := List.takeWhile_append_dropWhile (p := fun byte => byte != lineFeed) (l := buf)
    rw [dropped] at parts
    rw [← parts, List.length_append, List.length_cons]
    omega

/-- What a call leaves: its status, the parser and the events it completed. -/
structure FeedResult where
  status : Status
  parser : SseParser
  events : List SseEvent
deriving DecidableEq, Repr

/-- The loop of `agent_sse_parser_feed`. A line whose event does not fit stays
in the buffer. -/
def feedLines (eventsCap : Nat) (parser : SseParser) (events : List SseEvent) : FeedResult :=
  match _split : splitLine parser.buf with
  | none => { status := .ok, parser, events }
  | some (line, rest) =>
    match handleLine parser line eventsCap events with
    | .error status => { status, parser, events }
    | .ok (next, events) => feedLines eventsCap { next with buf := rest } events
termination_by parser.buf.length
decreasing_by exact splitLine_length ‹_›

/-- `agent_sse_parser_feed` -/
def feed (parser : SseParser) (bytes : Bytes) (eventsCap : Nat) : FeedResult :=
  if bytes.isEmpty then { status := .ok, parser, events := [] }
  else feedLines eventsCap { parser with buf := parser.buf ++ bytes } []

example :
    (feed {} (ascii "event: update\nid: 42\ndata: line1\r\ndata: line2\n\ndata: pa") 4).events =
      [⟨ascii "update", ascii "42", ascii "line1\nline2"⟩] := by
  decide +kernel

end SseParser

end AgentC.Streaming
