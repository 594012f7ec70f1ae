import AgentC.Foundation.Streaks
import AgentC.ToolLoop.CallLimits

/-! # Repeated tool calls

The last guard in front of a tool call compares a hash of the call with the hash
of the call before it, and counts how often it stayed the same. Steps, retries
and memory flushes lie between two calls and leave the count as it is. -/

namespace AgentC.ToolLoop

structure MainCall (σ : Type) where
  state : LoopState σ
  toolName : Bytes
  argsJson : Bytes

namespace MainCall

variable {σ : Type} (options : Options) (call : MainCall σ)

def pair (call : MainCall σ) : Bytes × Bytes :=
  (call.toolName, call.argsJson)

def guarded : LoopState σ × Bool :=
  call.state.guardCall options call.toolName call.argsJson

def Executed : Prop :=
  (call.guarded options).2 = true

instance : DecidablePred (MainCall.Executed (σ := σ) options) := fun call =>
  inferInstanceAs (Decidable ((call.guarded options).2 = true))

/-- The guards on the numbers of calls, which come first, do not stop the call. -/
def WithinCounts : Prop :=
  (call.state.guardTotal options).2 = true ∧
    ((call.state.guardTotal options).1.guardPerTool options call.toolName).2 = true

end MainCall

/-! ## The calls of a run -/

namespace LoopState

variable {σ : Type} (environment : Environment σ) (tools : List Bytes) (options : Options)

def callAttempts (step : Nat) : Nat → List ToolCall → LoopState σ → List (MainCall σ)
  | _, [], _ => []
  | index, call :: rest, state =>
    if (state.shouldCancel environment).2 then []
    else
      ⟨(state.shouldCancel environment).1, cString call.name, callArguments call⟩ ::
        match state.runCall environment options step index call with
        | .running next => callAttempts step (index + 1) rest next
        | _ => []

def answerAttempts (step : Nat) (answer : LoopState σ × Status × ProviderResponse) :
    List (MainCall σ) :=
  if answer.2.1 ≠ .ok then []
  else
    match assistantMessage answer.2.2 options.maxToolCallArgsChars with
    | none => []
    | some message =>
      callAttempts environment options step 0 answer.2.2.toolCalls
        (push { answer.1 with
          finalAssistantText := answer.2.2.assistantContent
          sawToolCall := answer.1.sawToolCall || !answer.2.2.toolCalls.isEmpty } message)

def stepAttempts (step : Nat) (state : LoopState σ) : List (MainCall σ) :=
  if ({ state with stepsExecuted := step + 1 }.shouldCancel environment).2 then []
  else
    answerAttempts environment options step
      (callProvider environment tools options step options.maxRetries
        ((stepSite environment options step state).compacted environment tools))

def runAttempts : Nat → Nat → LoopState σ → List (MainCall σ)
  | 0, _, _ => []
  | fuel + 1, step, state =>
    if options.maxSteps = 0 || step < options.maxSteps then
      match state.runStep environment tools options step with
      | .running next =>
        stepAttempts environment tools options step state ++ runAttempts fuel (step + 1) next
      | _ => stepAttempts environment tools options step state
    else []

end LoopState

section Run

variable {σ : Type} (environment : Environment σ) (tools : List Bytes) (options : Options)
  (seed : List SeedMessage) (userPrompt : Bytes) (env : σ) (fuel : Nat)

/-- Every call of the main loop of a run, in order. The last one may have been
stopped by a guard. -/
def mainCalls : List (MainCall σ) :=
  LoopState.runAttempts environment tools options fuel 0
    (LoopState.prepare environment tools options (seedMessages seed) userPrompt env)

def executedCalls : List (Bytes × Bytes) :=
  ((mainCalls environment tools options seed userPrompt env fuel).filter fun call =>
    call.Executed options).map MainCall.pair

end Run

def pairSig (pair : Bytes × Bytes) : UInt64 :=
  LoopState.toolCallSig pair.1 pair.2

/-- The hash is not zero on the calls, and no two of them share one. -/
structure SignaturesApart (pairs : List (Bytes × Bytes)) : Prop where
  nonzero : ∀ pair ∈ pairs, pairSig pair ≠ 0
  injective : ∀ pair ∈ pairs, ∀ other ∈ pairs, pairSig other = pairSig pair → other = pair

/-- The run ends at a call because the guard on repeated calls stops it. -/
structure StopsAsRepeated {σ : Type} (options : Options) (result : LoopState σ × Option Status)
    (call : MainCall σ) : Prop where
  unexecuted : ¬call.Executed options
  ended : result = ((call.guarded options).1, some .limit)
  message : result.1.errorMessage = ascii "repeated tool call detected (guard)"

namespace LoopState

/-! ## Between two calls -/

variable {before after : LoopState σ} (call : MainCall σ)

section Steady

variable {σ : Type} {environment : Environment σ} {tools : List Bytes} {options : Options}

def streakCounter (state : LoopState σ) : StreakCounter UInt64 :=
  ⟨state.lastToolSig, state.repeatedToolCalls⟩

/-- The guard on repeated calls sees nothing of what happens in between. -/
structure Steady (before after : LoopState σ) : Prop where
  counter : after.streakCounter = before.streakCounter
  executions : before.executions <+: after.executions

variable (state : LoopState σ)

theorem Steady.refl : Steady state state :=
  ⟨rfl, List.prefix_refl _⟩

theorem Steady.trans {first second third : LoopState σ} (left : Steady first second)
    (right : Steady second third) : Steady first third :=
  ⟨right.counter.trans left.counter, left.executions.trans right.executions⟩

theorem Steady.of_eq (counter : after.streakCounter = before.streakCounter)
    (executions : after.executions = before.executions) : Steady before after :=
  ⟨counter, executions ▸ List.prefix_refl _⟩

variable (environment tools options)

theorem steady_execute (toolName argsJson : Bytes) :
    Steady state (state.execute environment toolName argsJson).1 :=
  ⟨rfl, List.prefix_append _ _⟩

theorem steady_capOutput (output : Bytes) (maxChars : Nat) :
    Steady state (state.capOutput environment output maxChars).1 := by
  simp only [capOutput]
  split
  · exact .refl state
  · exact .of_eq rfl rfl

theorem steady_appendToolRecord (record : ToolRecord) :
    Steady state (state.appendToolRecord options record) := by
  rw [appendToolRecord]
  split
  · exact .refl state
  · exact .of_eq rfl rfl

theorem steady_flushCalls (calls : List ToolCall) (index : Nat) (state : LoopState σ)
    (flush : List Message) :
    Steady state (flushCalls environment options index calls (state, flush)).1.1 := by
  induction calls generalizing index state flush with
  | nil => exact .refl state
  | cons call rest induction =>
    have asked : Steady state (state.shouldCancel environment).1 := .of_eq rfl rfl
    simp only [flushCalls]
    generalize state.shouldCancel environment = cancelled at asked
    split
    · exact asked
    · have run := asked.trans (steady_execute environment cancelled.1
        (cString call.name) (callArguments call))
      generalize cancelled.1.execute environment (cString call.name) (callArguments call) =
        executed at run
      split
      · exact run
      · have capped := run.trans (steady_capOutput environment executed.1
          executed.2.2 options.maxToolResultChars)
        exact (capped.trans (steady_appendToolRecord options _ _)).trans (induction _ _ _)

theorem steady_runMemoryFlush (dropBegin dropEnd : Nat) :
    Steady state (state.runMemoryFlush environment tools options dropBegin dropEnd) := by
  simp only [runMemoryFlush]
  split
  · exact .refl state
  · split
    · exact .refl state
    · have asked : Steady state (state.generate environment (flushRequest options tools
          [plainMessage .system flushSystemPrompt, plainMessage .user (flushUserPrompt
            (buildDroppedExcerpt options state.messages dropBegin dropEnd))] 0 state.epoch)).1 :=
        .of_eq rfl rfl
      generalize state.generate environment _ = answer at asked
      split
      · exact asked
      · have called := asked.trans (steady_flushCalls environment options
          (answer.2.2.toolCalls.take maxFlushToolCalls) 0 answer.1
          ([plainMessage .system flushSystemPrompt, plainMessage .user (flushUserPrompt
            (buildDroppedExcerpt options state.messages dropBegin dropEnd))] ++
            (assistantMessage answer.2.2 options.maxToolCallArgsChars).toList))
        generalize flushCalls environment options 0 _ _ = flushed at called
        split
        · exact called
        · exact called.trans (.of_eq rfl rfl)

theorem steady_compacted (site : CompactionSite σ) :
    Steady site.state (site.compacted environment tools) := by
  have flushed : Steady site.state (site.flushed environment tools) := by
    simp only [CompactionSite.flushed, flushBeforeCompaction]
    split
    · split
      · exact (steady_runMemoryFlush environment tools site.options site.state _ _).trans (.of_eq rfl rfl)
      · exact .refl site.state
    · exact .refl site.state
  exact flushed.trans (.of_eq rfl rfl)

theorem steady_callProvider (step retries : Nat) (state : LoopState σ) :
    Steady state (callProvider environment tools options step retries state).1 := by
  induction retries generalizing state with
  | zero => exact .of_eq rfl rfl
  | succ further induction =>
    have asked : Steady state
        (state.generate environment (mainRequest options tools step state)).1 := .of_eq rfl rfl
    rw [callProvider]
    generalize state.generate environment (mainRequest options tools step state) = answer
      at asked
    simp only
    split
    · have compacted := steady_compacted environment tools
        ⟨answer.1, tighten options, (tighten options).maxChars⟩
      exact (asked.trans compacted).trans (induction _)
    · exact asked

end Steady

/-! ## The guard -/

section Guard

variable {σ : Type} {options : Options} {state : LoopState σ} {toolName argsJson : Bytes}

theorem guardTotal_streak : (state.guardTotal options).1.streakCounter = state.streakCounter := by
  rw [guardTotal]
  split <;> rfl

theorem guardPerTool_streak :
    (state.guardPerTool options toolName).1.streakCounter = state.streakCounter := by
  simp only [guardPerTool]
  split
  · split <;> rfl
  · rfl

def countRepeated (state : LoopState σ) (toolName argsJson : Bytes) : StreakCounter UInt64 :=
  state.streakCounter.add (toolCallSig toolName argsJson)

theorem guardRepeated_eq (limited : 0 < options.maxRepeatedToolCalls) :
    state.guardRepeated options toolName argsJson =
      if (state.countRepeated toolName argsJson).count > options.maxRepeatedToolCalls then
        ({ state with
            lastToolSig := (state.countRepeated toolName argsJson).mark
            repeatedToolCalls := (state.countRepeated toolName argsJson).count
            errorMessage := ascii "repeated tool call detected (guard)" }, false)
      else
        ({ state with
            lastToolSig := (state.countRepeated toolName argsJson).mark
            repeatedToolCalls := (state.countRepeated toolName argsJson).count }, true) := by
  rw [guardRepeated, if_pos limited, countRepeated, StreakCounter.add, streakCounter]
  by_cases same : toolCallSig toolName argsJson = state.lastToolSig
  · simp only [if_pos same]
  · simp only [if_neg same]

theorem guarded_eq (counted : call.WithinCounts options) : call.guarded options =
      ((call.state.guardTotal options).1.guardPerTool options call.toolName).1.guardRepeated
        options call.toolName call.argsJson := by
  rcases counted with ⟨total, perTool⟩
  simp only [MainCall.guarded, guardCall, total, perTool, Bool.not_true, Bool.false_eq_true,
    if_false]

theorem message_of_counts (beyond : ¬call.WithinCounts options) :
    (call.guarded options).1.errorMessage ≠ ascii "repeated tool call detected (guard)" := by
  have total : (call.state.guardTotal options).2 = false →
      (call.state.guardTotal options).1.errorMessage = ascii "max tool calls exceeded" := by
    rw [guardTotal]
    split
    · exact fun _ => rfl
    · rintro ⟨⟩
  have perTool : ∀ state : LoopState σ, (state.guardPerTool options call.toolName).2 = false →
      (state.guardPerTool options call.toolName).1.errorMessage =
        ascii "max tool calls for tool exceeded" := by
    intro state
    simp only [guardPerTool]
    split
    · split
      · exact fun _ => rfl
      · rintro ⟨⟩
    · rintro ⟨⟩
  simp only [MainCall.guarded, guardCall]
  split
  · next stopped =>
    rw [total (by simpa using stopped)]
    decide
  · next allowed =>
    split
    · next stopped =>
      rw [perTool _ (by simpa using stopped)]
      decide
    · next allowed' =>
      exact absurd ⟨by simpa using allowed, by simpa using allowed'⟩ beyond

theorem not_executed_of_counts (beyond : ¬call.WithinCounts options) : ¬call.Executed options := by
  intro executed
  simp only [MainCall.Executed, MainCall.guarded, guardCall] at executed
  split at executed
  · cases executed
  · next total =>
    split at executed
    · cases executed
    · next perTool => exact beyond ⟨by simpa using total, by simpa using perTool⟩

end Guard

/-! ## What a run keeps -/

section Tracks

variable {σ : Type} {environment : Environment σ} {tools : List Bytes} {options : Options}
  {pairs : List (Bytes × Bytes)}

/-- The calls that were executed, with the newest in front, and nothing beyond
the limit. -/
structure Logged (options : Options) (state : LoopState σ) (log : List (Bytes × Bytes)) :
    Prop where
  within : StreaksWithin options.maxRepeatedToolCalls log
  executed : log.reverse.Sublist state.executions

/-- The counter of the guard is that of the calls so far. -/
structure Tracks (options : Options) (pairs : List (Bytes × Bytes)) (state : LoopState σ)
    (log : List (Bytes × Bytes)) : Prop extends Logged options state log where
  counter : state.streakCounter = StreakCounter.after pairSig 0 log
  known : ∀ pair ∈ log, pair ∈ pairs

theorem Logged.steady {log : List (Bytes × Bytes)} (logged : Logged options before log)
    (steady : Steady before after) : Logged options after log :=
  ⟨logged.within, logged.executed.trans steady.executions.sublist⟩

theorem Tracks.steady {log : List (Bytes × Bytes)} (tracks : Tracks options pairs before log)
    (steady : Steady before after) :
    Tracks options pairs after log where
  toLogged := tracks.toLogged.steady steady
  counter := steady.counter.trans tracks.counter
  known := tracks.known

/-- A call that gets as far as the guard on repetitions is stopped there if it
and the calls before it fill the limit, and is counted otherwise. -/
theorem Tracks.guarded (limited : 0 < options.maxRepeatedToolCalls)
    (apart : SignaturesApart pairs) {call : MainCall σ} {log : List (Bytes × Bytes)}
    (tracks : Tracks options pairs call.state log) (listed : call.pair ∈ pairs)
    (counted : call.WithinCounts options) :
    (call.guarded options).1.streakCounter = StreakCounter.after pairSig 0 (call.pair :: log) ∧
      (call.Executed options ↔ streak call.pair (call.pair :: log) ≤ options.maxRepeatedToolCalls) ∧
      (¬call.Executed options → (call.guarded options).1.errorMessage =
        ascii "repeated tool call detected (guard)") := by
  have counter : (((call.state.guardTotal options).1.guardPerTool options
      call.toolName).1).countRepeated call.toolName call.argsJson =
        StreakCounter.after pairSig 0 (call.pair :: log) := by
    rw [countRepeated, guardPerTool_streak, guardTotal_streak, tracks.counter]
    exact StreakCounter.add_after (apart.nonzero _ listed)
      fun other member => apart.injective _ listed _ (tracks.known _ member)
  rw [MainCall.Executed, guarded_eq call counted, guardRepeated_eq limited, counter]
  split
  · next beyond => exact ⟨rfl, ⟨by rintro ⟨⟩, fun within => absurd beyond (by
      simpa [StreakCounter.after] using within)⟩, fun _ => rfl⟩
  · next within => exact ⟨rfl, ⟨fun _ => by simpa [StreakCounter.after] using within,
      fun _ => rfl⟩, fun stopped => absurd rfl stopped⟩

theorem guarded_executions : (call.guarded options).1.executions = call.state.executions :=
  (guardCall_spec options call.state call.toolName call.argsJson).1

theorem Tracks.executing (limited : 0 < options.maxRepeatedToolCalls)
    (apart : SignaturesApart pairs) {call : MainCall σ} {log : List (Bytes × Bytes)}
    (tracks : Tracks options pairs call.state log) (listed : call.pair ∈ pairs)
    (executed : call.Executed options) : Tracks options pairs
      ((call.guarded options).1.execute environment call.toolName call.argsJson).1
      (call.pair :: log) := by
  have counted : call.WithinCounts options := by
    by_contra beyond
    exact not_executed_of_counts call beyond executed
  rcases tracks.guarded limited apart listed counted with ⟨counter, within, _⟩
  refine ⟨⟨tracks.within.cons (within.mp executed), ?_⟩, counter, ?_⟩
  · rw [List.reverse_cons, execute]
    simp only [guarded_executions]
    exact tracks.toLogged.executed.append (List.Sublist.refl _)
  · exact List.forall_mem_cons.mpr ⟨listed, tracks.known⟩

/-- A part of a run makes these calls: each is met with the log so far, and only
the last one may be stopped by a guard. -/
def Follows (options : Options) (pairs : List (Bytes × Bytes))
    (ended : List (Bytes × Bytes) → Prop) (refused : LoopState σ → Prop) :
    List (Bytes × Bytes) → List (MainCall σ) → Prop
  | log, [] => ended log
  | log, call :: rest =>
    Tracks options pairs call.state log ∧ call.pair ∈ pairs ∧
      (call.Executed options ∧ Follows options pairs ended refused (call.pair :: log) rest ∨
        ¬call.Executed options ∧ rest = [] ∧ refused (call.guarded options).1)

theorem Follows.imp {ended ended' : List (Bytes × Bytes) → Prop}
    {refused refused' : LoopState σ → Prop} {log : List (Bytes × Bytes)}
    {calls : List (MainCall σ)} (follows : Follows options pairs ended refused log calls)
    (ends : ∀ log, ended log → ended' log) (refuses : ∀ state, refused state → refused' state) :
    Follows options pairs ended' refused' log calls := by
  induction calls generalizing log with
  | nil => exact ends log follows
  | cons call rest induction =>
    rcases follows with ⟨tracks, listed, ⟨executed, follows⟩ | ⟨stopped, last, refused⟩⟩
    · exact ⟨tracks, listed, .inl ⟨executed, induction follows⟩⟩
    · exact ⟨tracks, listed, .inr ⟨stopped, last, refuses _ refused⟩⟩

theorem Follows.append {between ended : List (Bytes × Bytes) → Prop}
    {refused : LoopState σ → Prop} {log : List (Bytes × Bytes)} {calls more : List (MainCall σ)}
    (follows : Follows options pairs between (fun _ => False) log calls)
    (later : ∀ log, between log → Follows options pairs ended refused log more) :
    Follows options pairs ended refused log (calls ++ more) := by
  induction calls generalizing log with
  | nil => exact later log follows
  | cons call rest induction =>
    rcases follows with ⟨tracks, listed, ⟨executed, follows⟩ | ⟨_, _, impossible⟩⟩
    · exact ⟨tracks, listed, .inl ⟨executed, induction follows⟩⟩
    · exact impossible.elim

def Flow.Ends (options : Options) (pairs : List (Bytes × Bytes)) (log : List (Bytes × Bytes)) :
    Flow σ → Prop
  | .running next => Tracks options pairs next log
  | .finished last => Logged options last log
  | .stopped last _ => Logged options last log

def Flow.Refuses (flow : Flow σ) (state : LoopState σ) : Prop :=
  flow = .stopped state .limit

def Flow.Follows (options : Options) (pairs : List (Bytes × Bytes)) (flow : Flow σ)
    (log : List (Bytes × Bytes)) (calls : List (MainCall σ)) : Prop :=
  LoopState.Follows options pairs (fun log => flow.Ends options pairs log) flow.Refuses log calls

theorem Tracks.runCall (limited : 0 < options.maxRepeatedToolCalls)
    (apart : SignaturesApart pairs) {state : LoopState σ} {log : List (Bytes × Bytes)}
    (tracks : Tracks options pairs state log) (step index : Nat) (call : ToolCall)
    (goesOn : (state.shouldCancel environment).2 = false)
    (listed : (cString call.name, callArguments call) ∈ pairs) :
    Tracks options pairs (state.shouldCancel environment).1 log ∧
      ((state.runCall environment options step index call).Follows options pairs log
        [⟨(state.shouldCancel environment).1, cString call.name, callArguments call⟩]) := by
  have asked : Tracks options pairs (state.shouldCancel environment).1 log :=
    tracks.steady (.of_eq rfl rfl)
  refine ⟨asked, asked, listed, ?_⟩
  have executing := @Tracks.executing σ environment options pairs limited apart
    ⟨(state.shouldCancel environment).1, cString call.name, callArguments call⟩ log asked listed
  simp only [LoopState.runCall, goesOn, Bool.false_eq_true, if_false]
  rw [MainCall.Executed, MainCall.guarded] at executing ⊢
  simp only at executing ⊢
  generalize (state.shouldCancel environment).1.guardCall options (cString call.name)
    (callArguments call) = guarded at executing ⊢
  split
  · next stopped =>
    exact .inr ⟨by simpa using stopped, trivial, rfl⟩
  · next allowed =>
    have allowed : guarded.2 = true := by simpa using allowed
    have executed := executing allowed
    refine .inl ⟨allowed, ?_⟩
    rw [Follows]
    generalize guarded.1.execute environment (cString call.name) (callArguments call) = run
      at executed ⊢
    by_cases failed : run.2.1 ≠ .ok
    · rw [if_pos failed]
      exact executed.toLogged.steady (.of_eq rfl rfl)
    · rw [if_neg failed]
      have capped := executed.steady (steady_capOutput environment run.1 run.2.2
        options.maxToolResultChars)
      exact (capped.steady (steady_appendToolRecord options _ _)).steady (.of_eq rfl rfl)

theorem Tracks.runCalls (limited : 0 < options.maxRepeatedToolCalls)
    (apart : SignaturesApart pairs) {state : LoopState σ} {log : List (Bytes × Bytes)}
    (tracks : Tracks options pairs state log) (step index : Nat) (calls : List ToolCall)
    (listed : ∀ call ∈ callAttempts environment options step index calls state, call.pair ∈ pairs) :
    (runCalls environment options step index calls state).Follows options pairs log
      (callAttempts environment options step index calls state) := by
  induction calls generalizing index state log with
  | nil => exact tracks
  | cons call rest induction =>
    rw [LoopState.runCalls, callAttempts]
    rw [callAttempts] at listed
    by_cases cancel : (state.shouldCancel environment).2 = true
    · rw [if_pos cancel]
      simp only [LoopState.runCall, cancel, if_true]
      exact tracks.toLogged.steady (.of_eq rfl rfl)
    · rw [if_neg cancel] at listed ⊢
      rcases List.forall_mem_cons.mp listed with ⟨now, later⟩
      have called := tracks.runCall limited apart step index call (by simpa using cancel) now
      cases flow : state.runCall environment options step index call with
      | running next =>
        rw [flow] at called later
        rcases called.2 with ⟨_, _, ⟨executed, ends⟩ | ⟨_, _, refused⟩⟩
        · exact ⟨called.1, now, .inl ⟨executed, induction ends (index + 1) later⟩⟩
        · cases refused
      | finished last =>
        rw [flow] at called
        exact called.2
      | stopped =>
        rw [flow] at called
        exact called.2

theorem Tracks.answerFlow (limited : 0 < options.maxRepeatedToolCalls)
    (apart : SignaturesApart pairs) {answer : LoopState σ × Status × ProviderResponse}
    {log : List (Bytes × Bytes)} (tracks : Tracks options pairs answer.1 log) (step : Nat)
    (listed : ∀ call ∈ answerAttempts environment options step answer, call.pair ∈ pairs) :
    (answerFlow environment options step answer).Follows options pairs log
      (answerAttempts environment options step answer) := by
  rw [LoopState.answerFlow, answerAttempts]
  rw [answerAttempts] at listed
  split
  · exact tracks.toLogged.steady (.of_eq rfl rfl)
  · next ok =>
    rw [if_neg ok] at listed
    rw [takeAnswer]
    cases appended : assistantMessage answer.2.2 options.maxToolCallArgsChars with
    | none => exact tracks.toLogged.steady (.of_eq rfl rfl)
    | some message =>
      rw [appended] at listed
      dsimp only at listed ⊢
      split
      · next none =>
        rw [List.isEmpty_iff] at none
        rw [none]
        exact tracks.toLogged.steady (.of_eq rfl rfl)
      · apply Tracks.runCalls limited apart _ step 0 _ listed
        exact tracks.steady (.of_eq rfl rfl)

theorem Tracks.runStep (limited : 0 < options.maxRepeatedToolCalls)
    (apart : SignaturesApart pairs) {state : LoopState σ} {log : List (Bytes × Bytes)}
    (tracks : Tracks options pairs state log) (step : Nat)
    (listed : ∀ call ∈ stepAttempts environment tools options step state, call.pair ∈ pairs) :
    (state.runStep environment tools options step).Follows options pairs log
      (stepAttempts environment tools options step state) := by
  have started : Tracks options pairs (stepSite environment options step state).state log :=
    tracks.steady (.of_eq rfl rfl)
  rw [runStep_eq, stepAttempts]
  rw [stepAttempts] at listed
  split
  · exact started.toLogged.steady (.of_eq rfl rfl)
  · next goesOn =>
    rw [if_neg goesOn] at listed
    have compacted := started.steady (steady_compacted environment tools _)
    exact (compacted.steady (steady_callProvider environment tools options step options.maxRetries _)).answerFlow limited
      apart step listed

theorem Tracks.runSteps (limited : 0 < options.maxRepeatedToolCalls)
    (apart : SignaturesApart pairs) {state : LoopState σ} {log : List (Bytes × Bytes)}
    (tracks : Tracks options pairs state log) (fuel step : Nat)
    (listed : ∀ call ∈ runAttempts environment tools options fuel step state,
      call.pair ∈ pairs) :
    Follows options pairs
      (Logged options (runSteps environment tools options fuel step state).1)
      (fun refused => runSteps environment tools options fuel step state =
        (refused, some .limit))
      log (runAttempts environment tools options fuel step state) := by
  induction fuel generalizing step state log with
  | zero => exact tracks.toLogged
  | succ fuel induction =>
    rw [LoopState.runSteps, runAttempts]
    rw [runAttempts] at listed
    split
    · next within =>
      rw [if_pos within] at listed
      cases flow : state.runStep environment tools options step with
      | running next =>
        simp only [flow] at listed ⊢
        have stepped := tracks.runStep limited apart step
          fun call member => listed call (List.mem_append_left _ member)
        rw [flow] at stepped
        have goesOn : Follows options pairs (Tracks options pairs next) (fun _ => False) log
            (stepAttempts environment tools options step state) :=
          Follows.imp stepped (fun _ => id) (by rintro _ ⟨⟩)
        exact goesOn.append fun log ends => induction ends (step + 1)
          fun call member => listed call (List.mem_append_right _ member)
      | finished last =>
        simp only [flow] at listed ⊢
        have stepped := tracks.runStep limited apart step listed
        rw [flow] at stepped
        refine Follows.imp stepped (fun log ends => ?_) (by rintro _ ⟨⟩)
        rw [finish]
        split <;> exact ends.steady (.of_eq rfl rfl)
      | stopped =>
        simp only [flow] at listed ⊢
        have stepped := tracks.runStep limited apart step listed
        rw [flow] at stepped
        refine Follows.imp stepped (fun log ends => ends) (fun refused stops => ?_)
        cases stops
        rfl
    · exact tracks.toLogged.steady (.of_eq rfl rfl)

variable {ended : List (Bytes × Bytes) → Prop} {refused : LoopState σ → Prop}
  {log : List (Bytes × Bytes)} {calls : List (MainCall σ)}

theorem Follows.at_call (follows : Follows options pairs ended refused log calls)
    {front back : List (MainCall σ)} {call : MainCall σ} (parts : calls = front ++ call :: back) :
    Tracks options pairs call.state ((front.map MainCall.pair).reverse ++ log) ∧
      call.pair ∈ pairs ∧ (¬call.Executed options → refused (call.guarded options).1) := by
  subst parts
  induction front generalizing log with
  | nil =>
    rcases follows with ⟨tracks, listed, ⟨executed, _⟩ | ⟨_, _, refused⟩⟩
    · exact ⟨tracks, listed, fun stopped => absurd executed stopped⟩
    · exact ⟨tracks, listed, fun _ => refused⟩
  | cons first front induction =>
    rcases follows with ⟨_, _, ⟨_, follows⟩ | ⟨_, last, _⟩⟩
    · rw [List.map_cons, List.reverse_cons, List.append_assoc]
      exact induction follows
    · exact absurd last (by simp)

theorem Follows.logged {last : LoopState σ}
    (follows : Follows options pairs (Logged options last) refused log calls)
    (stopped : ∀ state, refused state → state = last) :
    Logged options last
      (((calls.filter fun call => call.Executed options).map MainCall.pair).reverse ++ log) := by
  induction calls generalizing log with
  | nil => exact follows
  | cons call rest induction =>
    rcases follows with ⟨tracks, _, ⟨executed, follows⟩ | ⟨unexecuted, none, refused⟩⟩
    · rw [List.filter_cons_of_pos (by simpa using executed), List.map_cons, List.reverse_cons,
        List.append_assoc]
      exact induction follows
    · rw [none, List.filter_cons_of_neg (by simpa using unexecuted), ← stopped _ refused]
      refine ⟨tracks.within, ?_⟩
      rw [guarded_executions]
      exact tracks.toLogged.executed

end Tracks

end LoopState

section Run

variable {σ : Type} {environment : Environment σ} {tools : List Bytes} {options : Options}
  {seed : List SeedMessage} {userPrompt : Bytes} {env : σ} {fuel : Nat}

theorem follows_mainCalls (limited : 0 < options.maxRepeatedToolCalls)
    (apart : SignaturesApart
      ((mainCalls environment tools options seed userPrompt env fuel).map MainCall.pair)) :
    LoopState.Follows options
      ((mainCalls environment tools options seed userPrompt env fuel).map MainCall.pair)
      (LoopState.Logged options
        (agentToolLoopRun environment tools options seed userPrompt env fuel).1)
      (fun refused => agentToolLoopRun environment tools options seed userPrompt env fuel =
        (refused, some .limit))
      [] (mainCalls environment tools options seed userPrompt env fuel) := by
  have start : LoopState.Tracks options
      ((mainCalls environment tools options seed userPrompt env fuel).map MainCall.pair)
      (LoopState.promptSite options (seedMessages seed) userPrompt env).state [] :=
    ⟨⟨.nil _, List.nil_sublist _⟩, rfl, nofun⟩
  have prepared : LoopState.Tracks options
      ((mainCalls environment tools options seed userPrompt env fuel).map MainCall.pair)
      (LoopState.prepare environment tools options (seedMessages seed) userPrompt env) [] :=
    (start.steady (LoopState.steady_compacted environment tools _)).steady (.of_eq rfl rfl)
  exact LoopState.Tracks.runSteps limited apart prepared fuel 0 fun call member =>
    List.mem_map_of_mem member

/-- In no run does the executor see more equal calls of the main loop in a row than
the limit. The run ends at a call because of its repetition just when the call gets
past the guards on the numbers of calls and the calls before it, as many as the
limit says, are equal to it. -/
theorem repeated_calls_stopped {σ : Type} (environment : Environment σ) (tools : List Bytes)
    (options : Options) (seed : List SeedMessage) (userPrompt : Bytes) (env : σ) (fuel : Nat)
    (limited : 0 < options.maxRepeatedToolCalls)
    (apart : SignaturesApart
      ((mainCalls environment tools options seed userPrompt env fuel).map MainCall.pair)) :
    StreaksWithin options.maxRepeatedToolCalls
        (executedCalls environment tools options seed userPrompt env fuel) ∧
      (executedCalls environment tools options seed userPrompt env fuel).Sublist
        (agentToolLoopRun environment tools options seed userPrompt env fuel).1.executions ∧
      ∀ front call back,
        mainCalls environment tools options seed userPrompt env fuel = front ++ call :: back →
          (StopsAsRepeated options
              (agentToolLoopRun environment tools options seed userPrompt env fuel) call ↔
            call.WithinCounts options ∧
              List.replicate options.maxRepeatedToolCalls call.pair <:+
                front.map MainCall.pair) := by
  have follows := follows_mainCalls limited apart
  have logged := follows.logged fun state stopped => (congrArg Prod.fst stopped).symm
  rw [List.append_nil] at logged
  have within := logged.within.reverse
  have executed := logged.executed
  rw [List.reverse_reverse] at within executed
  refine ⟨within, executed, ?_⟩
  intro front call back parts
  rcases follows.at_call parts with ⟨tracks, listed, stopped⟩
  rw [List.append_nil] at tracks
  have filled : List.replicate options.maxRepeatedToolCalls call.pair <:+
      front.map MainCall.pair ↔ options.maxRepeatedToolCalls ≤
        streak call.pair (front.map MainCall.pair).reverse := by
    rw [le_streak_iff, ← List.reverse_suffix, List.reverse_reverse, List.reverse_replicate]
  rw [filled]
  constructor
  · intro stops
    have counted : call.WithinCounts options := by
      by_contra beyond
      apply LoopState.message_of_counts call beyond
      rw [← stops.message, stops.ended]
    have guard := (tracks.guarded limited apart listed counted).2.1
    rw [streak_cons_self] at guard
    have beyond := mt guard.mpr stops.unexecuted
    exact ⟨counted, by omega⟩
  · rintro ⟨counted, repeated⟩
    rcases tracks.guarded limited apart listed counted with ⟨_, guard, message⟩
    rw [streak_cons_self] at guard
    have unexecuted : ¬call.Executed options := fun executed => by
      have := guard.mp executed
      omega
    have ended := stopped unexecuted
    exact ⟨unexecuted, ended, ended ▸ message unexecuted⟩

end Run

def sampleRepeatingOptions : Options where
  model := ascii "model"
  maxRepeatedToolCalls := 2
  maxChars := 100
  keepLastMessages := 2

theorem repeated_calls_stopped_sample :
    StreaksWithin 2
        (executedCalls sampleLimitedEnvironment [] sampleRepeatingOptions [] (ascii "go on") 0 3) ∧
      ∃ call ∈ mainCalls sampleLimitedEnvironment [] sampleRepeatingOptions [] (ascii "go on") 0 3,
        StopsAsRepeated sampleRepeatingOptions
          (agentToolLoopRun sampleLimitedEnvironment [] sampleRepeatingOptions []
            (ascii "go on") 0 3) call := by
  have guarded := repeated_calls_stopped sampleLimitedEnvironment [] sampleRepeatingOptions []
    (ascii "go on") 0 3 (by decide) ⟨by decide, by decide⟩
  have parts := (List.take_append_drop 2 (mainCalls sampleLimitedEnvironment []
    sampleRepeatingOptions [] (ascii "go on") 0 3)).symm
  rw [List.drop_eq_getElem_cons (by decide)] at parts
  exact ⟨guarded.1, _, List.getElem_mem (by decide),
    (guarded.2.2 _ _ _ parts).mpr ⟨⟨by decide, by decide⟩, by decide⟩⟩

end AgentC.ToolLoop
