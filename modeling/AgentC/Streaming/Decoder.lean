import AgentC.Foundation.Machine
import AgentC.Streaming.SseParser
import AgentC.ToolLoop.Transcript

/-! # Stream decoder

`core/src/agent_stream_decoder.c`: the data of every event is decoded by the
host into a chunk; the decoder reports the chunk's contents as events of its
own and puts the fragments of tool calls together. Allocation always succeeds
here, and a null string is told apart from an empty one only where the source
looks at the difference. -/

namespace AgentC.Streaming

open AgentC.ToolLoop (ToolCall)

structure StreamConfig where
  maxToolCallsTotal : Nat := 0
  maxToolCallArgsChars : Nat := 0
  maxEventsPerFeed : Nat := 0
  step : UInt64 := 0
  epoch : UInt64 := 0
deriving DecidableEq, Repr

structure ToolCallDelta where
  index : Nat
  id : Bytes := []
  name : Bytes := []
  argumentsDelta : Bytes := []
deriving DecidableEq, Repr

/-- What the host decodes from the data of one event. -/
structure StreamChunk where
  hasDeltaText : Bool := false
  deltaText : Option Bytes := none
  toolCalls : List ToolCallDelta := []
  hasFinishReason : Bool := false
  finishReason : Bytes := []
  hasUsage : Bool := false
  promptTokens : UInt64 := 0
  completionTokens : UInt64 := 0
  totalTokens : UInt64 := 0
  hasError : Bool := false
  errorMessage : Bytes := []
deriving DecidableEq, Repr

inductive StreamEventType
  | error
  | assistantDelta
  | toolCallDelta
  | toolCall
  | llmUsage
  | streamEnd
deriving DecidableEq, Repr

structure StreamEvent where
  type : StreamEventType
  dataJson : Bytes
deriving DecidableEq, Repr

def hexNibble (value : Nat) : UInt8 :=
  if value < 10 then UInt8.ofNat (48 + value) else UInt8.ofNat (87 + value)

def escapedU4 (value : Nat) : Bytes :=
  ascii "\\u" ++ [hexNibble (value / 4096 % 16), hexNibble (value / 256 % 16),
    hexNibble (value / 16 % 16), hexNibble (value % 16)]

def jsonEscapeByte (byte : UInt8) : Bytes :=
  if byte = 92 then ascii "\\\\"
  else if byte = 34 then ascii "\\\""
  else if byte = 10 then ascii "\\n"
  else if byte = 13 then ascii "\\r"
  else if byte = 9 then ascii "\\t"
  else if byte < 0x20 then escapedU4 byte.toNat
  else [byte]

/-- `sd_json_escape_into` -/
def jsonEscape (text : Bytes) : Bytes :=
  text.flatMap jsonEscapeByte

def kvString (key : String) (value : Bytes) : Bytes :=
  ascii "\"" ++ ascii key ++ ascii "\":\"" ++ jsonEscape value ++ ascii "\""

/-- `sd_append_kv_u64_pair` -/
def kvU64 (key : String) (value : Nat) : Bytes :=
  ascii "\"" ++ ascii key ++ ascii "\":" ++ decimal value

def braced (fields : Bytes) : Bytes :=
  ascii "\x7b" ++ fields ++ ascii "\x7d"

def optionalKvString (key : String) (value : Bytes) : Bytes :=
  if value.isEmpty then [] else ascii "," ++ kvString key value

def assistantDeltaJson (config : StreamConfig) (delta : Bytes) : Bytes :=
  braced (kvString "delta" delta ++ ascii "," ++ kvU64 "step" config.step.toNat ++ ascii "," ++
    kvU64 "epoch" config.epoch.toNat)

def toolCallDeltaJson (delta : ToolCallDelta) : Bytes :=
  braced (kvU64 "index" delta.index ++ optionalKvString "tool_call_id" delta.id ++
    optionalKvString "tool_name" delta.name ++
    optionalKvString "arguments_delta" delta.argumentsDelta)

def toolCallJson (call : ToolCall) : Bytes :=
  braced (kvString "tool_name" call.name ++ optionalKvString "tool_call_id" call.id ++
    ascii "," ++ kvString "arguments_json" (call.argumentsJson.getD []))

def usageJson (chunk : StreamChunk) : Bytes :=
  braced (kvU64 "prompt_tokens" chunk.promptTokens.toNat ++ ascii "," ++
    kvU64 "completion_tokens" chunk.completionTokens.toNat ++ ascii "," ++
    kvU64 "total_tokens" chunk.totalTokens.toNat)

def emptyCall : ToolCall where
  id := []
  name := []
  argumentsJson := none

/-- `sd_tool_calls_reserve` and the new count behind it: the table has at least
`need` entries, new ones empty. -/
def toolCallsReserve (calls : List ToolCall) (need : Nat) : List ToolCall :=
  calls ++ List.replicate (need - calls.length) emptyCall

/-- `sd_apply_tool_call_delta`: its status and the table it leaves. A fragment
whose arguments are too long has still set the identifier and the name. -/
def applyToolCallDelta (config : StreamConfig) (calls : List ToolCall) (delta : ToolCallDelta) :
    Status × List ToolCall :=
  if 0 < config.maxToolCallsTotal ∧ config.maxToolCallsTotal ≤ delta.index then (.limit, calls)
  else
    let calls := toolCallsReserve calls (delta.index + 1)
    let calls := calls.modify delta.index fun call =>
      { call with
        id := if delta.id.isEmpty then call.id else delta.id
        name := if delta.name.isEmpty then call.name else delta.name }
    let held := ((calls.getD delta.index emptyCall).argumentsJson.getD [])
    if delta.argumentsDelta.isEmpty then (.ok, calls)
    else if 0 < config.maxToolCallArgsChars ∧
        config.maxToolCallArgsChars < held.length + delta.argumentsDelta.length then
      (.limit, calls)
    else
      (.ok, calls.modify delta.index fun call =>
        { call with argumentsJson := some (held ++ delta.argumentsDelta) })

/-- The state behind the parser: the host's decode context, the table, and the
events reported so far. -/
structure Assembly (σ : Type) where
  decodeContext : σ
  toolCalls : List ToolCall := []
  events : List StreamEvent := []
deriving DecidableEq, Repr

structure StreamDecoder (σ : Type) where
  parser : SseParser := {}
  assembly : Assembly σ
deriving DecidableEq, Repr

/-- The host's decode function. Only a chunk decoded with status `ok` is used. -/
abbrev DecodeFn (σ : Type) := σ → Bytes → σ × Status × StreamChunk

/-- `agent_stream_decoder_init` -/
def StreamDecoder.init {σ : Type} (decodeContext : σ) : StreamDecoder σ where
  assembly := { decodeContext }

section Feeding

variable {σ : Type} (config : StreamConfig) (decodeFn : DecodeFn σ)

/-- `sd_emit_event` -/
def emitStreamEvent (type : StreamEventType) (dataJson : Bytes) : Attempt (Assembly σ) Status Unit :=
  modify fun assembly => { assembly with events := assembly.events ++ [⟨type, dataJson⟩] }

def check (status : Status) : Attempt (Assembly σ) Status Unit :=
  if status = .ok then pure () else throw status

def decodeData (data : Bytes) : Attempt (Assembly σ) Status StreamChunk := do
  let assembly ← get
  let (decodeContext, status, chunk) := decodeFn assembly.decodeContext data
  set { assembly with decodeContext }
  check status
  return chunk

def processDelta (delta : ToolCallDelta) : Attempt (Assembly σ) Status Unit := do
  let assembly ← get
  let (status, toolCalls) := applyToolCallDelta config assembly.toolCalls delta
  set { assembly with toolCalls }
  check status
  emitStreamEvent .toolCallDelta (toolCallDeltaJson delta)

def emitToolCalls : Attempt (Assembly σ) Status Unit := do
  let assembly ← get
  (assembly.toolCalls.filter fun call => !call.name.isEmpty).forM fun call =>
    emitStreamEvent .toolCall (toolCallJson call)

/-- The body of the loop of `agent_stream_decoder_feed`. -/
def processEvent (event : SseEvent) : Attempt (Assembly σ) Status Unit := do
  unless event.data.isEmpty do
    let chunk ← decodeData decodeFn event.data
    if chunk.hasError && !chunk.errorMessage.isEmpty then
      emitStreamEvent .error (braced (kvString "error" chunk.errorMessage))
    match chunk.hasDeltaText, chunk.deltaText with
    | true, some text => emitStreamEvent .assistantDelta (assistantDeltaJson config text)
    | _, _ => pure ()
    chunk.toolCalls.forM (processDelta config)
    if chunk.hasUsage then
      emitStreamEvent .llmUsage (usageJson chunk)
    if chunk.hasFinishReason then
      emitToolCalls
      emitStreamEvent .streamEnd (braced (kvString "finish_reason" chunk.finishReason))

/-- How many events one call may complete. -/
def eventsPerFeed : Nat :=
  if 0 < config.maxEventsPerFeed then config.maxEventsPerFeed else 32

/-- `agent_stream_decoder_feed`. When the parser fails, the events it had
completed are dropped; when an event fails, the ones behind it are. -/
def feed (bytes : Bytes) : Attempt (StreamDecoder σ) Status Unit := do
  let decoder ← get
  let parsed := decoder.parser.feed bytes (eventsPerFeed config)
  if parsed.status = .ok then
    let (result, assembly) :=
      (parsed.events.forM (processEvent config decodeFn)).outcome decoder.assembly
    set { parser := parsed.parser, assembly : StreamDecoder σ }
    match result with
    | .ok _ => pure ()
    | .error status => throw status
  else
    set { decoder with parser := parsed.parser }
    throw parsed.status

theorem outcome_feed (decoder : StreamDecoder σ) (bytes : Bytes) :
    (feed config decodeFn bytes).outcome decoder =
      let parsed := decoder.parser.feed bytes (eventsPerFeed config)
      if parsed.status = .ok then
        let handled := (parsed.events.forM (processEvent config decodeFn)).outcome decoder.assembly
        (handled.1, { parser := parsed.parser, assembly := handled.2 })
      else (.error parsed.status, { decoder with parser := parsed.parser }) := by
  rw [feed, Attempt.outcome_get]
  dsimp only
  split
  · rw [Attempt.outcome_set]
    split
    · next succeeded => rw [Attempt.outcome_pure, succeeded]
    · next failed => rw [Attempt.outcome_throw, failed]
  · rw [Attempt.outcome_set, Attempt.outcome_throw]

end Feeding

def copyToolCalls {σ : Type} (decoder : StreamDecoder σ) : List ToolCall :=
  (decoder.assembly.toolCalls.filter fun call => !call.name.isEmpty).map fun call =>
    { call with argumentsJson := some (call.argumentsJson.getD []) }

end AgentC.Streaming
