import AgentC.ToolLoop.Transcript

/-! # The tool loop

`agent_tool_loop_run` of `core/src/agent_tool_loop.c`. The provider, the tool
executor and the host's hooks are an environment with a state of its own, so
that every behaviour of theirs over a run is one environment. The events the
loop reports to its host are left out: nothing is read back from them. -/

namespace AgentC.ToolLoop

/-- Which part of the loop sent a request. -/
inductive RequestOrigin
  | mainLoop
  | memoryFlush
deriving DecidableEq, Repr

structure Request where
  origin : RequestOrigin
  model : Bytes
  messages : List Message
  tools : List Bytes
  forceTool : Option Bytes
  step : Nat
  epoch : UInt64
deriving DecidableEq, Repr

structure Environment (σ : Type) where
  generate : σ → Request → σ × Status × ProviderResponse
  execute : σ → Bytes → Bytes → σ × Status × Bytes
  shouldCancel : σ → σ × Bool
  /-- The hook that cuts a tool result to a number of characters. -/
  capToolOutputForPrompt : Option (σ → Bytes → Nat → σ × Bytes × Bool) := none

structure ToolRecord where
  toolName : Bytes
  toolCallId : Bytes
  argumentsJson : Bytes
  resultString : Bytes
  resultStringForPrompt : Bytes
  resultTruncatedForPrompt : Bool
deriving DecidableEq, Repr

/-- The variables of the loop, its result record, and the requests and tool
executions of the run so far. -/
structure LoopState (σ : Type) where
  env : σ
  messages : List Message := []
  epoch : UInt64 := 0
  lastMemoryFlushEpoch : UInt64 := 0xffffffffffffffff
  lastToolSig : UInt64 := 0
  repeatedToolCalls : Nat := 0
  totalToolCalls : Nat := 0
  toolCounts : List (UInt64 × Nat) := []
  finalAssistantText : Bytes := []
  sawToolCall : Bool := false
  stepsExecuted : Nat := 0
  toolRecords : List ToolRecord := []
  errorMessage : Bytes := []
  requests : List Request := []
  executions : List (Bytes × Bytes) := []

namespace LoopState

variable {σ : Type}

def generate (environment : Environment σ) (state : LoopState σ) (request : Request) :
    LoopState σ × Status × ProviderResponse :=
  let (env, status, response) := environment.generate state.env request
  ({ state with env := env, requests := state.requests ++ [request] }, status, response)

def execute (environment : Environment σ) (state : LoopState σ) (toolName argsJson : Bytes) :
    LoopState σ × Status × Bytes :=
  let (env, status, output) := environment.execute state.env toolName argsJson
  ({ state with env := env, executions := state.executions ++ [(toolName, argsJson)] },
    status, output)

def shouldCancel (environment : Environment σ) (state : LoopState σ) : LoopState σ × Bool :=
  let (env, cancel) := environment.shouldCancel state.env
  ({ state with env := env }, cancel)

def capOutputDefault (output : Bytes) (maxChars : Nat) : Bytes × Bool :=
  if maxChars = 0 || output.length ≤ maxChars then (output, false)
  else (output.take maxChars, true)

def capOutput (environment : Environment σ) (state : LoopState σ) (output : Bytes)
    (maxChars : Nat) : LoopState σ × Bytes × Bool :=
  match environment.capToolOutputForPrompt with
  | none => (state, capOutputDefault output maxChars)
  | some cap =>
    let (env, capped) := cap state.env output maxChars
    ({ state with env := env }, capped)

def appendToolRecord (options : Options) (state : LoopState σ) (record : ToolRecord) :
    LoopState σ :=
  if options.disableToolRecords then state
  else { state with toolRecords := state.toolRecords ++ [record] }

def push (state : LoopState σ) (message : Message) : LoopState σ :=
  { state with messages := state.messages ++ [message] }

def toolsHas (tools : List Bytes) (name : Bytes) : Bool :=
  tools.any fun tool => cString tool == name

/-- The loop of `tl_build_dropped_excerpt` over the messages still to be taken:
the text so far and the number of messages in it. -/
def excerptLoop (excerptCap perMessageCap : Nat) :
    List Message → Bytes × Nat → Bytes × Nat
  | [], taken => taken
  | message :: rest, (text, included) =>
    let next := text ++ ascii "[" ++ message.role.text ++ ascii "]" ++ [10] ++
      message.content.take perMessageCap ++ [10, 10]
    if next.length ≥ excerptCap then (next, included + 1)
    else excerptLoop excerptCap perMessageCap rest (next, included + 1)

def buildDroppedExcerpt (options : Options) (messages : List Message) (dropBegin dropEnd : Nat) :
    Bytes :=
  let excerptCap := orDefault options.memoryFlushMaxExcerptChars 8000
  let maxMessages := orDefault options.memoryFlushMaxMessages 32
  let perMessageCap := orDefault options.memoryFlushPerMessageChars 800
  let dropped := (messages.take dropEnd).drop dropBegin
  let excerpt := excerptLoop excerptCap perMessageCap (dropped.take maxMessages) ([], 0)
  excerpt.1.take excerptCap

def flushSystemPrompt : Bytes :=
  ascii "INTERNAL MEMORY FLUSH (silent)\n" ++
  ascii "- Session history will be compacted and older messages dropped.\n" ++
  ascii "- Persist durable facts/preferences NOW using memory tools:\n" ++
  ascii "  - memory_write: append durable notes (daily log or session memory)\n" ++
  ascii "  - memory_get/memory_search: inspect existing memory\n" ++
  ascii "  - memory_put: consolidate MEMORY.md so it contains only current/active facts; " ++
  ascii "deprecate outdated facts.\n" ++
  ascii "- Goal: avoid legacy memory (contradictory/stale requirements). " ++
  ascii "If an earlier requirement is no longer true,\n" ++
  ascii "  update core memory to reflect the current truth " ++
  ascii "and mark the old requirement as deprecated.\n" ++
  ascii "- Reply with NO_REPLY when done.\n"

def flushUserPrompt (excerpt : Bytes) : Bytes :=
  ascii "The following excerpt is from the portion of the transcript that is about to be " ++
  ascii "dropped.\n" ++
  ascii "Extract durable facts/preferences/decisions (especially requirements changes) " ++
  ascii "and persist them.\n" ++
  ascii "If something previously required is now not required, " ++
  ascii "consolidate core memory accordingly.\n" ++
  ascii "\n=== DROPPED EXCERPT START ===\n" ++ excerpt ++
  ascii "\n=== DROPPED EXCERPT END ===\n" ++
  ascii "\nWrite memories now. Then reply with NO_REPLY.\n"

/-- `tl_format_tool_call_id`; the result always fits its buffer. -/
def formatToolCallId (kind : Bytes) (first second : Nat) : Bytes :=
  kind ++ ascii "_" ++ decimal first ++ ascii "_" ++ decimal second

/-- The id the result of a call is filed under. -/
def resultCallId (kind : Bytes) (number index : Nat) (call : ToolCall) : Bytes :=
  if (cString call.id).isEmpty then formatToolCallId kind number index else cString call.id

def callArguments (call : ToolCall) : Bytes :=
  match call.argumentsJson with
  | none => ascii "\x7b\x7d"
  | some arguments => cString arguments

def maxFlushToolCalls : Nat := 12

/-- The tool calls of a memory flush. The second component is false when the
flush has to stop. -/
def flushCalls (environment : Environment σ) (options : Options) :
    Nat → List ToolCall → LoopState σ × List Message → (LoopState σ × List Message) × Bool
  | _, [], flush => (flush, true)
  | index, call :: rest, (state, flush) =>
    let (state, cancel) := state.shouldCancel environment
    if cancel then ((state, flush), false)
    else
      let toolName := cString call.name
      let toolCallId := resultCallId (ascii "flush") state.epoch.toNat index call
      let (state, status, output) := state.execute environment toolName (callArguments call)
      if status ≠ .ok then ((state, flush), false)
      else
        let (state, capped, truncated) :=
          state.capOutput environment output options.maxToolResultChars
        let state := state.appendToolRecord options
          ⟨toolName, toolCallId, callArguments call, output, capped, truncated⟩
        flushCalls environment options (index + 1) rest
          (state, flush ++ [plainMessage .tool capped toolCallId])

def flushRequest (options : Options) (tools : List Bytes) (messages : List Message) (step : Nat)
    (epoch : UInt64) : Request where
  origin := .memoryFlush
  model := options.model
  messages := messages
  tools := tools
  forceTool := none
  step := step
  epoch := epoch

/-- `tl_run_memory_flush_best_effort`: its status is ignored by every caller. -/
def runMemoryFlush (environment : Environment σ) (tools : List Bytes) (options : Options)
    (state : LoopState σ) (dropBegin dropEnd : Nat) : LoopState σ :=
  if dropEnd ≤ dropBegin || dropEnd > state.messages.length then state
  else if !toolsHas tools (ascii "memory_write") && !toolsHas tools (ascii "memory_put") then state
  else
    let excerpt := buildDroppedExcerpt options state.messages dropBegin dropEnd
    let flush := [plainMessage .system flushSystemPrompt,
      plainMessage .user (flushUserPrompt excerpt)]
    let (state, status, response) :=
      state.generate environment (flushRequest options tools flush 0 state.epoch)
    if status ≠ .ok then state
    else
      let flush := flush ++ (assistantMessage response options.maxToolCallArgsChars).toList
      let ((state, flush), completed) :=
        flushCalls environment options 0 (response.toolCalls.take maxFlushToolCalls)
          (state, flush)
      if !completed then state
      else (state.generate environment (flushRequest options tools flush 1 state.epoch)).1

/-- The flush in front of a compaction to `budget`. -/
def flushBeforeCompaction (environment : Environment σ) (tools : List Bytes) (enabled : Bool)
    (options : Options) (budget : Nat) (state : LoopState σ) : LoopState σ :=
  if enabled && estimatedCharsList state.messages > budget &&
      state.epoch != state.lastMemoryFlushEpoch then
    let (dropBegin, dropEnd) := dropRange options state.messages
    if dropEnd > dropBegin then
      { state.runMemoryFlush environment tools options dropBegin dropEnd with
        lastMemoryFlushEpoch := state.epoch }
    else state
  else state

/-- Compact to `budget` and count an epoch if messages were dropped. -/
def compact (options : Options) (budget : Nat) (state : LoopState σ) : LoopState σ :=
  let (messages, report) := compactInPlace options budget state.messages
  { state with
    messages := messages
    epoch := if report.droppedMessages > 0 then state.epoch + 1 else state.epoch }

/-- The options of a retry: three quarters of the budget, computed in 64 bits,
but at least 2000 characters. -/
def tighten (options : Options) : Options :=
  let shrunk := options.maxCharsOrDefault * 3 % 2 ^ 64 / 4
  { options with maxChars := if shrunk < 2000 then 2000 else shrunk }

def mainRequest (options : Options) (tools : List Bytes) (step : Nat) (state : LoopState σ) :
    Request where
  origin := .mainLoop
  model := options.model
  messages := state.messages
  tools := tools
  forceTool := if step = 0 then options.forceTool else none
  step := step
  epoch := state.epoch

/-- The request loop of one step, with `retries` further attempts left. -/
def callProvider (environment : Environment σ) (tools : List Bytes) (options : Options)
    (step : Nat) : Nat → LoopState σ → LoopState σ × Status × ProviderResponse
  | retries, state =>
    let (state, status, response) :=
      state.generate environment (mainRequest options tools step state)
    match retries with
    | 0 => (state, status, response)
    | further + 1 =>
      if status = .contextTooLong then
        let tighter := tighten options
        let flushed := state.flushBeforeCompaction environment tools
          options.memoryFlushEnabled tighter tighter.maxChars
        callProvider environment tools options step further
          (flushed.compact tighter tighter.maxChars)
      else (state, status, response)

def fnv1a64 (text : Bytes) : UInt64 :=
  text.foldl (fun hash byte => (hash ^^^ byte.toUInt64) * 1099511628211) 1469598103934665603

def toolCallSig (toolName argsJson : Bytes) : UInt64 :=
  let a := fnv1a64 toolName
  let b := fnv1a64 argsJson
  a ^^^ (b + 0x9e3779b97f4a7c15 + (a <<< (6 : UInt64)) + (a >>> (2 : UInt64)))

/-- Count one more call under a signature. At most 32 signatures are counted;
the result is missing for one that does not fit. -/
def countToolCall (signature : UInt64) : List (UInt64 × Nat) → Nat → List (UInt64 × Nat) × Option Nat
  | [], used => if used < 32 then ([(signature, 1)], some 1) else ([], none)
  | (known, count) :: rest, used =>
    if known = signature then ((known, count + 1) :: rest, some (count + 1))
    else
      let (counted, result) := countToolCall signature rest (used + 1)
      ((known, count) :: counted, result)

def toolLimit (options : Options) (toolName : Bytes) : Nat :=
  match options.toolCallLimits.find? fun limit =>
      !(cString limit.toolName).isEmpty && cString limit.toolName == toolName with
  | some limit => limit.maxCalls
  | none => options.maxToolCallsPerTool

def guardTotal (options : Options) (state : LoopState σ) : LoopState σ × Bool :=
  let counted := { state with totalToolCalls := state.totalToolCalls + 1 }
  if options.maxToolCallsTotal > 0 && counted.totalToolCalls > options.maxToolCallsTotal then
    ({ counted with errorMessage := ascii "max tool calls exceeded" }, false)
  else (counted, true)

def guardPerTool (options : Options) (toolName : Bytes) (state : LoopState σ) :
    LoopState σ × Bool :=
  if options.maxToolCallsPerTool > 0 || options.toolCallLimits.length > 0 then
    let (toolCounts, count) := countToolCall (fnv1a64 toolName) state.toolCounts 0
    let counted := { state with toolCounts := toolCounts }
    let limit := toolLimit options toolName
    if limit > 0 && count.any fun made => made > limit then
      ({ counted with errorMessage := ascii "max tool calls for tool exceeded" }, false)
    else (counted, true)
  else (state, true)

def guardRepeated (options : Options) (toolName argsJson : Bytes) (state : LoopState σ) :
    LoopState σ × Bool :=
  if options.maxRepeatedToolCalls > 0 then
    let signature := toolCallSig toolName argsJson
    let counted :=
      if signature = state.lastToolSig then
        { state with repeatedToolCalls := state.repeatedToolCalls + 1 }
      else { state with lastToolSig := signature, repeatedToolCalls := 1 }
    if counted.repeatedToolCalls > options.maxRepeatedToolCalls then
      ({ counted with errorMessage := ascii "repeated tool call detected (guard)" }, false)
    else (counted, true)
  else (state, true)

/-- All guards, in the order of the source; each counts before it refuses. -/
def guardCall (options : Options) (toolName argsJson : Bytes) (state : LoopState σ) :
    LoopState σ × Bool :=
  let (state, allowed) := state.guardTotal options
  if !allowed then (state, false)
  else
    let (state, allowed) := state.guardPerTool options toolName
    if !allowed then (state, false) else state.guardRepeated options toolName argsJson

/-- How a part of the loop ends: it goes on, the model has no more tool calls,
or the run stops with a status. -/
inductive Flow (σ : Type)
  | running (state : LoopState σ)
  | finished (state : LoopState σ)
  | stopped (state : LoopState σ) (status : Status)

def Flow.state : Flow σ → LoopState σ
  | .running state => state
  | .finished state => state
  | .stopped state _ => state

/-- One tool call of a step: cancellation, guards, execution, and the result
appended to the transcript. -/
def runCall (environment : Environment σ) (options : Options) (step index : Nat)
    (call : ToolCall) (state : LoopState σ) : Flow σ :=
  let (state, cancel) := state.shouldCancel environment
  if cancel then .stopped { state with errorMessage := ascii "cancelled" } .cancelled
  else
    let toolName := cString call.name
    let toolCallId := resultCallId (ascii "call") step index call
    let (state, allowed) := state.guardCall options toolName (callArguments call)
    if !allowed then .stopped state .limit
    else
      let (state, status, output) := state.execute environment toolName (callArguments call)
      if status ≠ .ok then
        .stopped { state with errorMessage := ascii "tool execution failed" } status
      else
        let (state, capped, truncated) :=
          state.capOutput environment output options.maxToolResultChars
        let state := state.appendToolRecord options
          ⟨toolName, toolCallId, callArguments call, output, capped, truncated⟩
        .running (state.push (plainMessage .tool capped toolCallId))

def runCalls (environment : Environment σ) (options : Options) (step : Nat) :
    Nat → List ToolCall → LoopState σ → Flow σ
  | _, [], state => .running state
  | index, call :: rest, state =>
    match state.runCall environment options step index call with
    | .running next => runCalls environment options step (index + 1) rest next
    | ended => ended

def takeAnswer (environment : Environment σ) (options : Options) (step : Nat)
    (response : ProviderResponse) (state : LoopState σ) : Flow σ :=
  let state := { state with
    finalAssistantText := response.assistantContent
    sawToolCall := state.sawToolCall || !response.toolCalls.isEmpty }
  match assistantMessage response options.maxToolCallArgsChars with
  | none => .stopped { state with errorMessage := ascii "tool call arguments too large" } .limit
  | some message =>
    let state := state.push message
    if response.toolCalls.isEmpty then .finished state
    else state.runCalls environment options step 0 response.toolCalls

def providerError (response : ProviderResponse) : Bytes :=
  if (cString response.errorMessage).isEmpty then ascii "provider error"
  else response.errorMessage

def runStep (environment : Environment σ) (tools : List Bytes) (options : Options) (step : Nat)
    (state : LoopState σ) : Flow σ :=
  let (state, cancel) :=
    { state with stepsExecuted := step + 1 }.shouldCancel environment
  if cancel then .stopped { state with errorMessage := ascii "cancelled" } .cancelled
  else
    let budget := options.maxCharsOrDefault
    let flushed := state.flushBeforeCompaction environment tools options.memoryFlushEnabled
      options budget
    let (state, status, response) := callProvider environment tools options step
      options.maxRetries (flushed.compact options budget)
    if status ≠ .ok then .stopped { state with errorMessage := providerError response } status
    else state.takeAnswer environment options step response

def finish (options : Options) (state : LoopState σ) : LoopState σ × Status :=
  if options.requireToolCall && !state.sawToolCall then
    ({ state with errorMessage := ascii "no tool call occurred" }, .internal)
  else ({ state with errorMessage := [] }, .ok)

/-- The main loop from `step` on, for at most `fuel` iterations. There is no
status when the iterations did not suffice. -/
def runSteps (environment : Environment σ) (tools : List Bytes) (options : Options) :
    Nat → Nat → LoopState σ → LoopState σ × Option Status
  | 0, _, state => (state, none)
  | fuel + 1, step, state =>
    if options.maxSteps = 0 || step < options.maxSteps then
      match state.runStep environment tools options step with
      | .running next => runSteps environment tools options fuel (step + 1) next
      | .finished last => ((last.finish options).1, some (last.finish options).2)
      | .stopped last status => (last, some status)
    else
      -- The loop only gets here after all its steps.
      ({ state with errorMessage := ascii "max steps exceeded" }, some .limit)

/-- The transcript before the main loop: the seed, compacted to leave room for
the prompt, and the prompt. -/
def prepare (environment : Environment σ) (tools : List Bytes) (options : Options)
    (seed : List Message) (userPrompt : Bytes) (env : σ) : LoopState σ :=
  let maxChars := options.maxCharsOrDefault
  let promptLength := (cString userPrompt).length
  let budget := if maxChars > promptLength then maxChars - promptLength else 1
  let seeded : LoopState σ := { env := env, messages := seed }
  let flushed := seeded.flushBeforeCompaction environment tools options.memoryFlushEnabled
    options budget
  (flushed.compact options budget).push (plainMessage .user userPrompt)

end LoopState

structure SeedMessage where
  role : Role
  content : Bytes
deriving DecidableEq, Repr

def seedMessages (seed : List SeedMessage) : List Message :=
  seed.map fun message => plainMessage message.role message.content

/-- `agent_tool_loop_run`, for at most `fuel` steps. -/
def agentToolLoopRun {σ : Type} (environment : Environment σ) (tools : List Bytes)
    (options : Options) (seed : List SeedMessage) (userPrompt : Bytes) (env : σ) (fuel : Nat) :
    LoopState σ × Option Status :=
  LoopState.runSteps environment tools options fuel 0
    (LoopState.prepare environment tools options (seedMessages seed) userPrompt env)

end AgentC.ToolLoop
