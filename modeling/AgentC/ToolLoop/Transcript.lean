import AgentC.Foundation.Bytes

/-! # The transcript of a tool loop and its compaction

The message list of `core/src/agent_tool_loop.c`. Strings are the bytes of
`agent_string_t`; where the source reads one through a C pointer the model cuts
it at the first zero byte. Memory allocation is taken to succeed. -/

namespace AgentC.ToolLoop

inductive Role
  | system
  | user
  | assistant
  | tool
deriving DecidableEq, Repr

def Role.text : Role → Bytes
  | .system => ascii "system"
  | .user => ascii "user"
  | .assistant => ascii "assistant"
  | .tool => ascii "tool"

structure TranscriptCall where
  id : Bytes
  name : Bytes
  argumentsJson : Bytes
deriving DecidableEq, Repr

structure Message where
  role : Role
  content : Bytes
  name : Bytes := []
  toolCallId : Bytes := []
  toolCalls : List TranscriptCall := []
deriving DecidableEq, Repr

/-- `tl_list_push_message_copy` builds the message from C strings. -/
def plainMessage (role : Role) (content : Bytes) (toolCallId : Bytes := []) : Message where
  role := role
  content := cString content
  toolCallId := cString toolCallId

/-- A tool call as the provider returns it. The arguments may be missing, which
is not the same as empty. -/
structure ToolCall where
  id : Bytes
  name : Bytes
  argumentsJson : Option Bytes
deriving DecidableEq, Repr

def ToolCall.transcriptCall (call : ToolCall) : TranscriptCall where
  id := call.id
  name := call.name
  argumentsJson := call.argumentsJson.getD []

structure ProviderResponse where
  assistantContent : Bytes := []
  toolCalls : List ToolCall := []
  errorMessage : Bytes := []
deriving DecidableEq, Repr

/-- `tl_list_push_assistant_with_tool_calls`: the message, unless the arguments
of some call are too long. -/
def assistantMessage (response : ProviderResponse) (maxToolCallArgsChars : Nat) :
    Option Message :=
  if response.toolCalls.any fun call =>
      maxToolCallArgsChars > 0 && (call.argumentsJson.getD []).length > maxToolCallArgsChars then
    none
  else
    some
      { role := .assistant
        content := response.assistantContent
        toolCalls := response.toolCalls.map ToolCall.transcriptCall }

def estimatedCharsMessage (message : Message) : Nat :=
  12 + message.content.length + message.name.length + message.toolCallId.length +
    (message.toolCalls.map fun call =>
      20 + call.id.length + call.name.length + call.argumentsJson.length).sum

def estimatedCharsList (messages : List Message) : Nat :=
  (messages.map estimatedCharsMessage).sum

structure CallLimit where
  toolName : Bytes
  maxCalls : Nat
deriving DecidableEq, Repr

structure Options where
  model : Bytes
  forceTool : Option Bytes := none
  requireToolCall : Bool := false
  maxSteps : Nat := 0
  maxRepeatedToolCalls : Nat := 0
  maxToolCallsTotal : Nat := 0
  maxToolCallsPerTool : Nat := 0
  maxToolCallArgsChars : Nat := 0
  toolCallLimits : List CallLimit := []
  maxChars : Nat := 0
  keepLastMessages : Nat := 0
  insertCompactionSummary : Bool := false
  summaryPreviewItems : Nat := 0
  summarySnippetChars : Nat := 0
  summaryMaxChars : Nat := 0
  memoryFlushEnabled : Bool := false
  memoryFlushMaxExcerptChars : Nat := 0
  memoryFlushMaxMessages : Nat := 0
  memoryFlushPerMessageChars : Nat := 0
  maxToolResultChars : Nat := 0
  maxContextTooLongRetries : Nat := 0
  disableToolRecords : Bool := false
deriving DecidableEq, Repr

def orDefault (value default : Nat) : Nat :=
  if value = 0 then default else value

def Options.maxCharsOrDefault (options : Options) : Nat := orDefault options.maxChars 20000

def Options.keepLast (options : Options) : Nat := orDefault options.keepLastMessages 16

def Options.maxRetries (options : Options) : Nat := orDefault options.maxContextTooLongRetries 2

def compactionSummaryName : Bytes := ascii "__agent_compaction_summary__"

def messageIsCompactionSummarySystem (message : Message) : Bool :=
  message.role = .system && message.name.length != 0 &&
    cString message.name == compactionSummaryName

def isPinnedSystem (message : Message) : Bool :=
  message.role = .system && !messageIsCompactionSummarySystem message

def pinnedSystemPrefixCount (messages : List Message) : Nat :=
  let pinned := (messages.takeWhile isPinnedSystem).length
  if pinned = 0 && messages.head?.any isPinnedSystem then 1 else pinned

def roleAt (messages : List Message) (index : Nat) : Option Role :=
  messages[index]?.map Message.role

/-- Step back over tool messages, but not into the pinned ones. -/
def toolRunStart (messages : List Message) (pinned : Nat) : Nat → Nat
  | 0 => 0
  | index + 1 =>
    if index + 1 > pinned && roleAt messages index = some .tool then
      toolRunStart messages pinned index
    else index + 1

/-- Where the kept suffix starts: the last messages, extended to the left so
that it does not start with a tool result. -/
def suffixStart (messages : List Message) (keepLast pinned : Nat) : Nat :=
  let wanted := if messages.length > keepLast then messages.length - keepLast else pinned
  let start := if wanted < pinned then pinned else wanted
  if start < messages.length && roleAt messages start = some .tool then
    let first := toolRunStart messages pinned start
    if first > pinned && roleAt messages (first - 1) = some .assistant then first - 1 else first
  else start

def dropRange (options : Options) (messages : List Message) : Nat × Nat :=
  let pinned := pinnedSystemPrefixCount messages
  let start := suffixStart messages options.keepLast pinned
  (pinned, if start < messages.length then start else messages.length)

def isLineBreak (byte : UInt8) : Bool :=
  byte == 10 || byte == 13

def ellipsis : Bytes := [0xE2, 0x80, 0xA6]

/-- The first line of a message, cut to `maxSnippet` bytes. -/
def summarySnippet (content : Bytes) (maxSnippet : Nat) : Bytes :=
  let line := content.takeWhile fun byte => !isLineBreak byte
  if maxSnippet > 0 && line.length > maxSnippet then
    trimBoth isSpace (cString (line.take maxSnippet)) ++ ellipsis
  else trimBoth isSpace (cString line)

/-- The summary line of the message shown at position `index`. -/
def summaryLine (options : Options) (index : Nat) (message : Message) : Bytes :=
  let snippet := summarySnippet message.content options.summarySnippetChars
  decimal (index + 1) ++ ascii ". " ++ message.role.text ++
    (if snippet.isEmpty then [] else ascii ": " ++ snippet) ++ [10]

def summaryHeader (dropped : Nat) : Bytes :=
  ascii "Previous conversation truncated (" ++ decimal dropped ++
    ascii " earlier messages omitted) to stay within the model context window." ++ [10]

def dropTrailingNewline (text : Bytes) : Bytes :=
  if text.getLast? = some 10 then text.dropLast else text

/-- Cut to `maxChars` bytes; the last of them becomes a zero byte. -/
def clipSummary (maxChars : Nat) (text : Bytes) : Bytes :=
  if maxChars > 0 && text.length > maxChars then text.take (maxChars - 1) ++ [0] else text

/-- `tl_build_compaction_summary` for a range inside the list. -/
def buildCompactionSummary (options : Options) (messages : List Message)
    (dropBegin dropEnd : Nat) : Bytes :=
  let dropped := (messages.take dropEnd).drop dropBegin
  let preview := dropped.drop (dropped.length - min options.summaryPreviewItems dropped.length)
  let lines := preview.zipIdx.map fun (message, index) => summaryLine options index message
  clipSummary options.summaryMaxChars
    (dropTrailingNewline (summaryHeader dropped.length ++ lines.flatten))

/-- The summary starts with something C sees. -/
def summaryIsVisible (summary : Bytes) : Bool :=
  !(cString summary).isEmpty

def compactionSummaryMessage (summary : Bytes) : Message where
  role := .system
  content := summary
  name := compactionSummaryName

structure CompactionReport where
  beforeChars : Nat
  afterChars : Nat
  pinnedSystemMessages : Nat := 0
  droppedMessages : Nat := 0
  insertedSummary : Bool := false
deriving DecidableEq, Repr

/-- The message inserted in place of the dropped range. -/
def insertedSummary (options : Options) (messages : List Message) (dropBegin dropEnd : Nat) :
    List Message :=
  let summary := buildCompactionSummary options messages dropBegin dropEnd
  if options.insertCompactionSummary && summaryIsVisible summary then
    [compactionSummaryMessage summary]
  else []

/-- `tl_compact_in_place` with a positive budget. -/
def compactInPlace (options : Options) (maxCharsBudget : Nat) (messages : List Message) :
    List Message × CompactionReport :=
  let beforeChars := estimatedCharsList messages
  if beforeChars ≤ maxCharsBudget then (messages, ⟨beforeChars, beforeChars, 0, 0, false⟩)
  else
    let (pinned, dropEnd) := dropRange options messages
    if dropEnd ≤ pinned then (messages, ⟨beforeChars, beforeChars, pinned, 0, false⟩)
    else
      let summary := insertedSummary options messages pinned dropEnd
      let compacted := messages.take pinned ++ summary ++ messages.drop dropEnd
      (compacted,
        ⟨beforeChars, estimatedCharsList compacted, pinned, dropEnd - pinned, !summary.isEmpty⟩)

end AgentC.ToolLoop
