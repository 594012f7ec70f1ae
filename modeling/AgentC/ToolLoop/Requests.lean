import AgentC.ToolLoop.Run

/-! # The requests of a run

What a run can put into its transcript and what it can send, as a rule for
properties of requests: a property of transcripts that the prompt, compaction
and answered tool calls keep holds in every request of the main loop, and a
memory flush only ever sends its prompt and the calls it has run. -/

namespace AgentC.ToolLoop

def Message.shownCallId (message : Message) : Bytes :=
  cString message.toolCallId

/-- A tool result that is filed under the id of the call, or under a made-up id
where the call has none. -/
structure AnswersCall (result : Message) (call : ToolCall) : Prop where
  role : result.role = .tool
  noCalls : result.toolCalls = []
  named : cString call.id ≠ [] → result.shownCallId = cString call.id
  unnamed : cString call.id = [] → result.shownCallId ≠ []

theorem cString_append_ne_nil {text : Bytes} (visible : cString text ≠ []) (more : Bytes) :
    cString (text ++ more) ≠ [] := by
  cases text with
  | nil => exact absurd rfl visible
  | cons first rest =>
    have shown : first ≠ 0 := by
      intro zero
      simp [cString, zero] at visible
    simp [cString, shown]

theorem answersCall_plainMessage {kind : Bytes} (visible : cString kind ≠ [])
    (number index : Nat) (call : ToolCall) (content : Bytes) :
    AnswersCall (plainMessage .tool content (LoopState.resultCallId kind number index call))
      call where
  role := rfl
  noCalls := rfl
  named := by
    intro named
    rw [LoopState.resultCallId, if_neg (by simpa using named), Message.shownCallId, plainMessage,
      cString_cString, cString_cString]
  unnamed := by
    intro unnamed
    rw [LoopState.resultCallId, if_pos (by simpa using unnamed), Message.shownCallId,
      plainMessage, cString_cString, LoopState.formatToolCallId, List.append_assoc,
      List.append_assoc, List.append_assoc]
    exact cString_append_ne_nil visible _

namespace LoopState

variable {σ : Type} (environment : Environment σ) (tools : List Bytes) (options : Options)

/-- The epoch and the epoch of the last flush are the same. -/
structure SameEpochs (before after : LoopState σ) : Prop where
  epoch : after.epoch = before.epoch
  lastFlush : after.lastMemoryFlushEpoch = before.lastMemoryFlushEpoch

theorem SameEpochs.trans {first second third : LoopState σ} (left : SameEpochs first second)
    (right : SameEpochs second third) : SameEpochs first third :=
  ⟨right.epoch.trans left.epoch, right.lastFlush.trans left.lastFlush⟩

/-- Transcript, requests and epochs are the same. -/
structure Untouched (before after : LoopState σ) : Prop where
  messages : after.messages = before.messages
  requests : after.requests = before.requests
  epochs : SameEpochs before after

theorem Untouched.refl (state : LoopState σ) : Untouched state state :=
  ⟨rfl, rfl, rfl, rfl⟩

theorem Untouched.trans {first second third : LoopState σ} (left : Untouched first second)
    (right : Untouched second third) : Untouched first third :=
  ⟨right.messages.trans left.messages, right.requests.trans left.requests,
    left.epochs.trans right.epochs⟩

theorem untouched_shouldCancel (state : LoopState σ) :
    Untouched state (state.shouldCancel environment).1 :=
  ⟨rfl, rfl, rfl, rfl⟩

theorem untouched_execute (state : LoopState σ) (toolName argsJson : Bytes) :
    Untouched state (state.execute environment toolName argsJson).1 :=
  ⟨rfl, rfl, rfl, rfl⟩

theorem untouched_capOutput (state : LoopState σ) (output : Bytes) (maxChars : Nat) :
    Untouched state (state.capOutput environment output maxChars).1 := by
  simp only [capOutput]
  split <;> exact ⟨rfl, rfl, rfl, rfl⟩

theorem untouched_appendToolRecord (state : LoopState σ) (record : ToolRecord) :
    Untouched state (state.appendToolRecord options record) := by
  rw [appendToolRecord]
  split <;> exact ⟨rfl, rfl, rfl, rfl⟩

theorem untouched_guardTotal (state : LoopState σ) :
    Untouched state (state.guardTotal options).1 := by
  simp only [guardTotal]
  split <;> exact ⟨rfl, rfl, rfl, rfl⟩

theorem untouched_guardPerTool (toolName : Bytes) (state : LoopState σ) :
    Untouched state (state.guardPerTool options toolName).1 := by
  simp only [guardPerTool]
  split
  · split <;> exact ⟨rfl, rfl, rfl, rfl⟩
  · exact .refl state

theorem untouched_guardRepeated (toolName argsJson : Bytes) (state : LoopState σ) :
    Untouched state (state.guardRepeated options toolName argsJson).1 := by
  simp only [guardRepeated]
  split
  · split <;> split <;> exact ⟨rfl, rfl, rfl, rfl⟩
  · exact .refl state

theorem untouched_guardCall (toolName argsJson : Bytes) (state : LoopState σ) :
    Untouched state (state.guardCall options toolName argsJson).1 := by
  have total := state.untouched_guardTotal options
  simp only [guardCall]
  split
  · exact total
  · have perTool := total.trans
      (untouched_guardPerTool options toolName (state.guardTotal options).1)
    split
    · exact perTool
    · exact perTool.trans (untouched_guardRepeated options toolName argsJson _)

theorem runCall_spec (step index : Nat) (call : ToolCall) (state : LoopState σ) :
    (∃ last status, state.runCall environment options step index call = .stopped last status ∧
        Untouched state last) ∨ ∃ middle result, Untouched state middle ∧ AnswersCall result call ∧
        state.runCall environment options step index call = .running (middle.push result) := by
  have cancel := state.untouched_shouldCancel environment
  simp only [runCall]
  generalize state.shouldCancel environment = cancelled at cancel
  split
  · exact .inl ⟨_, _, rfl, cancel.trans ⟨rfl, rfl, rfl, rfl⟩⟩
  · have guarded := cancel.trans
      (untouched_guardCall options (cString call.name) (callArguments call) cancelled.1)
    generalize cancelled.1.guardCall options (cString call.name) (callArguments call) = allowed
      at guarded
    split
    · exact .inl ⟨_, _, rfl, guarded⟩
    · have run := guarded.trans
        (allowed.1.untouched_execute environment (cString call.name) (callArguments call))
      generalize allowed.1.execute environment (cString call.name) (callArguments call) =
        executed at run
      split
      · exact .inl ⟨_, _, rfl, run.trans ⟨rfl, rfl, rfl, rfl⟩⟩
      · have capped := run.trans
          (executed.1.untouched_capOutput environment executed.2.2 options.maxToolResultChars)
        exact .inr ⟨_, _, capped.trans (untouched_appendToolRecord options _ _),
          answersCall_plainMessage (by decide) step index call _, rfl⟩

theorem runCalls_spec (step : Nat) (calls : List ToolCall) (index : Nat) (state : LoopState σ) :
    (∃ last status, runCalls environment options step index calls state = .stopped last status ∧
        last.requests = state.requests ∧ SameEpochs state last) ∨
      ∃ next results, runCalls environment options step index calls state = .running next ∧
        next.messages = state.messages ++ results ∧ List.Forall₂ AnswersCall results calls ∧
        next.requests = state.requests ∧ SameEpochs state next := by
  induction calls generalizing index state with
  | nil => exact .inr ⟨state, [], rfl, (List.append_nil _).symm, .nil, rfl, rfl, rfl⟩
  | cons call rest induction =>
    rcases runCall_spec environment options step index call state with
      ⟨last, status, ended, untouched⟩ | ⟨middle, result, untouched, answers, running⟩
    · rw [runCalls, ended]
      exact .inl ⟨last, status, rfl, untouched.requests, untouched.epochs⟩
    · rw [runCalls, running]
      rcases induction (index + 1) (middle.push result) with
        ⟨last, status, ended, sent, epochs⟩ |
          ⟨next, results, went, messages, answered, sent, epochs⟩
      · exact .inl ⟨last, status, ended, sent.trans untouched.requests,
          untouched.epochs.trans ⟨epochs.epoch, epochs.lastFlush⟩⟩
      · refine .inr ⟨next, result :: results, went, ?_, .cons answers answered,
          sent.trans untouched.requests, untouched.epochs.trans ⟨epochs.epoch, epochs.lastFlush⟩⟩
        rw [messages, push, untouched.messages, List.append_assoc]
        rfl

theorem takeAnswer_spec (step : Nat) (response : ProviderResponse) (state : LoopState σ) :
    (state.takeAnswer environment options step response).state.requests = state.requests ∧
      SameEpochs state (state.takeAnswer environment options step response).state ∧
      ∀ next, state.takeAnswer environment options step response = .running next →
        ∃ message results, assistantMessage response options.maxToolCallArgsChars = some message ∧
            response.toolCalls ≠ [] ∧ next.messages = state.messages ++ message :: results ∧
            List.Forall₂ AnswersCall results response.toolCalls := by
  simp only [takeAnswer]
  split
  · exact ⟨rfl, ⟨rfl, rfl⟩, nofun⟩
  · next message appended =>
    split
    · exact ⟨rfl, ⟨rfl, rfl⟩, nofun⟩
    · next hasCalls =>
      generalize asked : LoopState.push _ message = pushed
      have transcript : pushed.messages = state.messages ++ [message] := by
        rw [← asked]
        rfl
      have requests : pushed.requests = state.requests := by
        rw [← asked]
        rfl
      have epochs : SameEpochs state pushed := by
        rw [← asked]
        exact ⟨rfl, rfl⟩
      rcases runCalls_spec environment options step response.toolCalls 0 pushed with
        ⟨last, status, ended, sent, kept⟩ |
          ⟨next, results, went, messages, answered, sent, kept⟩
      · rw [ended]
        exact ⟨sent.trans requests, epochs.trans kept, nofun⟩
      · rw [went]
        refine ⟨sent.trans requests, epochs.trans kept, ?_⟩
        intro last running
        cases running
        refine ⟨message, results, appended, by simpa using hasCalls, ?_,
          answered⟩
        rw [messages, transcript, List.append_assoc]
        rfl

theorem flushCalls_spec (calls : List ToolCall) (index : Nat) (state : LoopState σ)
    (flush : List Message) :
    Untouched state (flushCalls environment options index calls (state, flush)).1.1 ∧
      ((flushCalls environment options index calls (state, flush)).2 = true →
        ∃ results, (flushCalls environment options index calls (state, flush)).1.2 =
          flush ++ results ∧ List.Forall₂ AnswersCall results calls) := by
  induction calls generalizing index state flush with
  | nil => exact ⟨.refl state, fun _ => ⟨[], (List.append_nil flush).symm, .nil⟩⟩
  | cons call rest induction =>
    have cancel := state.untouched_shouldCancel environment
    simp only [flushCalls]
    generalize state.shouldCancel environment = cancelled at cancel
    split
    · exact ⟨cancel, nofun⟩
    · have run := cancel.trans (cancelled.1.untouched_execute environment (cString call.name)
        (callArguments call))
      generalize cancelled.1.execute environment (cString call.name) (callArguments call) =
        executed at run
      split
      · exact ⟨run, nofun⟩
      · have capped := run.trans
          (executed.1.untouched_capOutput environment executed.2.2 options.maxToolResultChars)
        have answers := @answersCall_plainMessage (ascii "flush") (by decide)
          cancelled.1.epoch.toNat index call
          (executed.1.capOutput environment executed.2.2 options.maxToolResultChars).2.1
        generalize executed.1.capOutput environment executed.2.2 options.maxToolResultChars =
          cut at capped answers
        have finished := induction (index + 1) (cut.1.appendToolRecord options
          ⟨cString call.name, resultCallId (ascii "flush") cancelled.1.epoch.toNat index call,
            callArguments call, executed.2.2, cut.2.1, cut.2.2⟩)
          (flush ++ [plainMessage .tool cut.2.1
            (resultCallId (ascii "flush") cancelled.1.epoch.toNat index call)])
        refine ⟨(capped.trans (untouched_appendToolRecord options _ _)).trans finished.1, ?_⟩
        intro completed
        rcases finished.2 completed with ⟨results, appended, answered⟩
        refine ⟨_ :: results, ?_, .cons answers answered⟩
        rw [appended, List.append_assoc]
        rfl

def flushPrompt (excerpt : Bytes) : List Message :=
  [plainMessage .system flushSystemPrompt, plainMessage .user (flushUserPrompt excerpt)]

end LoopState

/-- The requests of a memory flush: the prompt, or the prompt with the answer
to it and the results of its first calls. -/
inductive FlushMessages : List Message → Prop
  | start (excerpt : Bytes) : FlushMessages (LoopState.flushPrompt excerpt)
  | finish (excerpt : Bytes) (response : ProviderResponse) (maxArgsChars : Nat)
      (results : List Message)
      (answered : List.Forall₂ AnswersCall results
        (response.toolCalls.take LoopState.maxFlushToolCalls)) :
      FlushMessages (LoopState.flushPrompt excerpt ++
        (assistantMessage response maxArgsChars).toList ++ results)

namespace LoopState

variable {σ : Type} (environment : Environment σ) (tools : List Bytes) (options : Options)

structure OnlyFlushes (before after : LoopState σ) : Prop where
  messages : after.messages = before.messages
  requests : ∀ request ∈ after.requests, request ∈ before.requests ∨
    request.origin = .memoryFlush ∧ FlushMessages request.messages

theorem OnlyFlushes.refl (state : LoopState σ) : OnlyFlushes state state :=
  ⟨rfl, fun _ => .inl⟩

theorem OnlyFlushes.trans {first second third : LoopState σ} (left : OnlyFlushes first second)
    (right : OnlyFlushes second third) : OnlyFlushes first third := by
  refine ⟨right.messages.trans left.messages, ?_⟩
  intro request member
  rcases right.requests request member with earlier | flush
  · exact left.requests request earlier
  · exact .inr flush

theorem Untouched.onlyFlushes {before after : LoopState σ} (untouched : Untouched before after) :
    OnlyFlushes before after :=
  ⟨untouched.messages, fun _ member => .inl (untouched.requests ▸ member)⟩

theorem onlyFlushes_generate (state : LoopState σ) {messages : List Message} (step : Nat)
    (flush : FlushMessages messages) : OnlyFlushes state
      (state.generate environment (flushRequest options tools messages step state.epoch)).1 := by
  refine ⟨rfl, ?_⟩
  intro request member
  rcases List.mem_append.mp member with earlier | now
  · exact .inl earlier
  · rw [List.mem_singleton.mp now]
    exact .inr ⟨rfl, flush⟩

theorem onlyFlushes_runMemoryFlush (state : LoopState σ) (dropBegin dropEnd : Nat) :
    OnlyFlushes state (state.runMemoryFlush environment tools options dropBegin dropEnd) := by
  simp only [runMemoryFlush]
  split
  · exact .refl state
  · split
    · exact .refl state
    · have asked := state.onlyFlushes_generate environment tools options 0
        (.start (buildDroppedExcerpt options state.messages dropBegin dropEnd))
      rw [flushPrompt] at asked
      generalize state.generate environment _ = answer at asked
      split
      · exact asked
      · have called := flushCalls_spec environment options
          (answer.2.2.toolCalls.take maxFlushToolCalls) 0 answer.1
          ([plainMessage .system flushSystemPrompt, plainMessage .user (flushUserPrompt
            (buildDroppedExcerpt options state.messages dropBegin dropEnd))] ++
            (assistantMessage answer.2.2 options.maxToolCallArgsChars).toList)
        generalize flushCalls environment options 0 _ _ = flushed at called
        have run := asked.trans called.1.onlyFlushes
        split
        · exact run
        · next completed =>
          rcases called.2 (by simpa using completed) with ⟨results, appended, answered⟩
          refine run.trans (flushed.1.1.onlyFlushes_generate environment tools options 1 ?_)
          rw [appended]
          exact .finish _ answer.2.2 options.maxToolCallArgsChars results answered

theorem onlyFlushes_flushBeforeCompaction (enabled : Bool) (budget : Nat) (state : LoopState σ) :
    OnlyFlushes state (state.flushBeforeCompaction environment tools enabled options budget) := by
  simp only [flushBeforeCompaction]
  split
  · split
    · exact (onlyFlushes_runMemoryFlush environment tools options state _ _).trans
        ⟨rfl, fun _ => .inl⟩
    · exact .refl state
  · exact .refl state

end LoopState

/-- A property of transcripts that every change to a transcript keeps, and a
property of requests that holds of whatever is sent under it. -/
structure RequestRule (options : Options) (Transcript : List Message → Prop)
    (Sent : Request → Prop) : Prop where
  prompt : ∀ messages content, Transcript messages →
    Transcript (messages ++ [plainMessage .user content])
  compact : ∀ compacting budget messages, Transcript messages →
    Transcript (compactInPlace compacting budget messages).1
  answer : ∀ messages response message results, Transcript messages →
    assistantMessage response options.maxToolCallArgsChars = some message →
    response.toolCalls ≠ [] → List.Forall₂ AnswersCall results response.toolCalls →
    Transcript (messages ++ message :: results)
  main : ∀ request : Request, request.origin = .mainLoop → Transcript request.messages →
    Sent request
  flush : ∀ request : Request, request.origin = .memoryFlush → FlushMessages request.messages →
    Sent request

namespace LoopState

section Rule

variable {σ : Type} {environment : Environment σ} {tools : List Bytes} {options : Options}
  {Transcript : List Message → Prop} {Sent : Request → Prop}

/-- What holds between the parts of a step. -/
structure Holds (Transcript : List Message → Prop) (Sent : Request → Prop)
    (state : LoopState σ) : Prop where
  transcript : Transcript state.messages
  requests : ∀ request ∈ state.requests, Sent request

theorem Holds.onlyFlushes {before after : LoopState σ} (holds : before.Holds Transcript Sent)
    (rule : RequestRule options Transcript Sent) (flushes : OnlyFlushes before after) :
    after.Holds Transcript Sent where
  transcript := flushes.messages ▸ holds.transcript
  requests request member := by
    rcases flushes.requests request member with earlier | flush
    · exact holds.requests request earlier
    · exact rule.flush request flush.1 flush.2

theorem Holds.compact {state : LoopState σ} (holds : state.Holds Transcript Sent)
    (rule : RequestRule options Transcript Sent) (compacting : Options) (budget : Nat) :
    (state.compact compacting budget).Holds Transcript Sent :=
  ⟨rule.compact compacting budget _ holds.transcript, holds.requests⟩

theorem Holds.generate {state : LoopState σ} (holds : state.Holds Transcript Sent)
    (rule : RequestRule options Transcript Sent) (step : Nat) :
    (state.generate environment (mainRequest options tools step state)).1.Holds
      Transcript Sent where
  transcript := holds.transcript
  requests request member := by
    rcases List.mem_append.mp member with earlier | now
    · exact holds.requests request earlier
    · rw [List.mem_singleton.mp now]
      exact rule.main _ rfl holds.transcript

theorem Holds.callProvider {state : LoopState σ} (holds : state.Holds Transcript Sent)
    (rule : RequestRule options Transcript Sent) (step retries : Nat) :
    (callProvider environment tools options step retries state).1.Holds Transcript Sent := by
  induction retries generalizing state with
  | zero => exact holds.generate rule step
  | succ further induction =>
    have asked : (state.generate environment (mainRequest options tools step state)).1.Holds
        Transcript Sent := holds.generate rule step
    rw [LoopState.callProvider]
    generalize state.generate environment (mainRequest options tools step state) = answer
      at asked
    simp only
    split
    · apply induction
      have flushed := onlyFlushes_flushBeforeCompaction environment tools (tighten options)
        options.memoryFlushEnabled (tighten options).maxChars answer.1
      exact (asked.onlyFlushes rule flushed).compact rule _ _
    · exact asked

theorem Holds.takeAnswer {state : LoopState σ} (holds : state.Holds Transcript Sent)
    (rule : RequestRule options Transcript Sent) (step : Nat) (response : ProviderResponse) :
    (∀ request ∈ (state.takeAnswer environment options step response).state.requests,
        Sent request) ∧ ∀ next, state.takeAnswer environment options step response = .running next →
        next.Holds Transcript Sent := by
  rcases takeAnswer_spec environment options step response state with ⟨sent, _, went⟩
  have kept : ∀ request ∈ (state.takeAnswer environment options step response).state.requests,
      Sent request := by
    rw [sent]
    exact holds.requests
  refine ⟨kept, ?_⟩
  intro next running
  rcases went next running with ⟨message, results, appended, hasCalls, messages, answered⟩
  refine ⟨?_, ?_⟩
  · rw [messages]
    exact rule.answer _ response message results holds.transcript appended hasCalls answered
  · rw [running] at kept
    exact kept

theorem Holds.runStep {state : LoopState σ} (holds : state.Holds Transcript Sent)
    (rule : RequestRule options Transcript Sent) (step : Nat) :
    (∀ request ∈ (state.runStep environment tools options step).state.requests, Sent request) ∧
      ∀ next, state.runStep environment tools options step = .running next →
        next.Holds Transcript Sent := by
  have started : ({ state with stepsExecuted := step + 1 }.shouldCancel environment).1.Holds
      Transcript Sent := ⟨holds.transcript, holds.requests⟩
  simp only [LoopState.runStep]
  generalize ({ state with stepsExecuted := step + 1 } : LoopState σ).shouldCancel environment =
    cancelled at started
  split
  · exact ⟨started.requests, nofun⟩
  · have flushed := started.onlyFlushes rule (onlyFlushes_flushBeforeCompaction environment tools
      options options.memoryFlushEnabled options.maxCharsOrDefault cancelled.1)
    have called := @Holds.callProvider σ environment tools options Transcript Sent _
      (flushed.compact rule options options.maxCharsOrDefault) rule step options.maxRetries
    generalize LoopState.callProvider environment tools options step options.maxRetries _ =
      answer at called
    split
    · exact ⟨called.requests, nofun⟩
    · exact called.takeAnswer rule step answer.2.2

theorem Holds.runSteps {state : LoopState σ} (holds : state.Holds Transcript Sent)
    (rule : RequestRule options Transcript Sent) (fuel step : Nat) :
    ∀ request ∈ (runSteps environment tools options fuel step state).1.requests, Sent request := by
  induction fuel generalizing step state with
  | zero => exact holds.requests
  | succ fuel induction =>
    have kept : (∀ request ∈ (state.runStep environment tools options step).state.requests,
          Sent request) ∧
        ∀ next, state.runStep environment tools options step = .running next →
          next.Holds Transcript Sent := holds.runStep rule step
    rw [LoopState.runSteps]
    split
    · generalize state.runStep environment tools options step = flow at kept
      cases flow with
      | running next => exact induction (kept.2 next rfl) (step + 1)
      | finished last =>
        simp only [finish]
        split <;> exact kept.1
      | stopped => exact kept.1
    · exact holds.requests

end Rule

end LoopState

theorem RequestRule.run {σ : Type} {options : Options} {Transcript : List Message → Prop}
    {Sent : Request → Prop} (rule : RequestRule options Transcript Sent)
    (environment : Environment σ) (tools : List Bytes) {seed : List SeedMessage}
    (seeded : Transcript (seedMessages seed)) (userPrompt : Bytes) (env : σ) (fuel : Nat) :
    ∀ request ∈ (agentToolLoopRun environment tools options seed userPrompt env fuel).1.requests,
      Sent request := by
  have start : ({ env := env, messages := seedMessages seed } : LoopState σ).Holds
      Transcript Sent := ⟨seeded, nofun⟩
  have flushed := start.onlyFlushes rule (LoopState.onlyFlushes_flushBeforeCompaction environment
    tools options options.memoryFlushEnabled
    (if options.maxCharsOrDefault > (cString userPrompt).length then
      options.maxCharsOrDefault - (cString userPrompt).length else 1) _)
  have compacted := flushed.compact rule options
    (if options.maxCharsOrDefault > (cString userPrompt).length then
      options.maxCharsOrDefault - (cString userPrompt).length else 1)
  have prompted : (LoopState.prepare environment tools options (seedMessages seed) userPrompt
      env).Holds Transcript Sent :=
    ⟨rule.prompt _ userPrompt compacted.transcript, compacted.requests⟩
  exact prompted.runSteps rule fuel 0

end AgentC.ToolLoop
