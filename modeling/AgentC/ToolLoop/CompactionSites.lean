import AgentC.ToolLoop.Requests

/-! # Flushes in front of compactions

The places of a run where the transcript is compacted: in front of the prompt,
at the start of each step and before each retry. At each of them the range to
be dropped is computed twice, for the memory flush and for the compaction, and
an epoch decides whether the flush is left out. Each compaction that drops
something has one flush in front of it, for the range that it drops. -/

namespace AgentC.ToolLoop

/-- The loop in front of the flush and the compaction, with the options and the
budget they are given. -/
structure CompactionSite (σ : Type) where
  state : LoopState σ
  options : Options
  budget : Nat

namespace CompactionSite

variable {σ : Type} (environment : Environment σ) (tools : List Bytes)

def flushed (site : CompactionSite σ) : LoopState σ :=
  site.state.flushBeforeCompaction environment tools site.options.memoryFlushEnabled site.options
    site.budget

def compacted (site : CompactionSite σ) : LoopState σ :=
  (site.flushed environment tools).compact site.options site.budget

def report (site : CompactionSite σ) : CompactionReport :=
  (compactInPlace site.options site.budget (site.flushed environment tools).messages).2

def Drops (site : CompactionSite σ) : Prop :=
  0 < (site.report environment tools).droppedMessages

instance (site : CompactionSite σ) : Decidable (site.Drops environment tools) :=
  inferInstanceAs (Decidable (_ < _))

def flushStart (site : CompactionSite σ) (dropBegin dropEnd : Nat) : Request :=
  LoopState.flushRequest site.options tools
    (LoopState.flushPrompt
      (LoopState.buildDroppedExcerpt site.options site.state.messages dropBegin dropEnd))
    0 site.state.epoch

end CompactionSite

namespace LoopState

variable {σ : Type} (environment : Environment σ) (tools : List Bytes) (options : Options)

def retrySites (step : Nat) : Nat → LoopState σ → List (CompactionSite σ)
  | 0, _ => []
  | further + 1, state =>
    let answer := state.generate environment (mainRequest options tools step state)
    if answer.2.1 = .contextTooLong then
      let site : CompactionSite σ := ⟨answer.1, tighten options, (tighten options).maxChars⟩
      site :: retrySites step further (site.compacted environment tools)
    else []

def stepSite (step : Nat) (state : LoopState σ) : CompactionSite σ :=
  ⟨({ state with stepsExecuted := step + 1 }.shouldCancel environment).1, options,
    options.maxCharsOrDefault⟩

def stepSites (step : Nat) (state : LoopState σ) : List (CompactionSite σ) :=
  if ({ state with stepsExecuted := step + 1 }.shouldCancel environment).2 then []
  else
    let site := stepSite environment options step state
    site :: retrySites environment tools options step options.maxRetries
      (site.compacted environment tools)

def runSites : Nat → Nat → LoopState σ → List (CompactionSite σ)
  | 0, _, _ => []
  | fuel + 1, step, state =>
    if options.maxSteps = 0 || step < options.maxSteps then
      match state.runStep environment tools options step with
      | .running next =>
        stepSites environment tools options step state ++ runSites fuel (step + 1) next
      | _ => stepSites environment tools options step state
    else []

def promptSite (seed : List Message) (userPrompt : Bytes) (env : σ) : CompactionSite σ :=
  ⟨{ env := env, messages := seed }, options,
    if options.maxCharsOrDefault > (cString userPrompt).length then
      options.maxCharsOrDefault - (cString userPrompt).length else 1⟩

end LoopState

def compactionSites {σ : Type} (environment : Environment σ) (tools : List Bytes)
    (options : Options) (seed : List SeedMessage) (userPrompt : Bytes) (env : σ) (fuel : Nat) :
    List (CompactionSite σ) :=
  LoopState.promptSite options (seedMessages seed) userPrompt env ::
    LoopState.runSites environment tools options fuel 0
      (LoopState.prepare environment tools options (seedMessages seed) userPrompt env)

def Request.StartsFlush (request : Request) : Prop :=
  request.origin = .memoryFlush ∧ request.step = 0

instance (request : Request) : Decidable request.StartsFlush :=
  inferInstanceAs (Decidable (_ ∧ _))

/-- The range that is dropped is flushed directly before, in one memory flush. -/
structure CompactionSite.FlushedExactly {σ : Type} (environment : Environment σ)
    (tools : List Bytes) (site : CompactionSite σ) (dropBegin dropEnd : Nat) : Prop where
  dropped : (site.compacted environment tools).messages =
    site.state.messages.take dropBegin ++
      insertedSummary site.options site.state.messages dropBegin dropEnd ++
      site.state.messages.drop dropEnd
  flush : site.flushed environment tools =
    { site.state.runMemoryFlush environment tools site.options dropBegin dropEnd with
      lastMemoryFlushEpoch := site.state.epoch }
  sent : ∃ rest, (site.flushed environment tools).requests =
      site.state.requests ++ site.flushStart tools dropBegin dropEnd :: rest ∧
    rest.length ≤ 1 ∧ ∀ request ∈ rest, request.origin = .memoryFlush ∧ request.step = 1

namespace LoopState

variable {σ : Type} {environment : Environment σ} {tools : List Bytes} {options : Options}

def HasMemoryTool (tools : List Bytes) : Prop :=
  toolsHas tools (ascii "memory_write") = true ∨ toolsHas tools (ascii "memory_put") = true

/-- A flush of a range of the transcript sends its first request, and at most
one more. -/
theorem runMemoryFlush_spec (hasTool : HasMemoryTool tools) (state : LoopState σ)
    {dropBegin dropEnd : Nat} (nonempty : dropBegin < dropEnd)
    (inside : dropEnd ≤ state.messages.length) :
    SameEpochs state (state.runMemoryFlush environment tools options dropBegin dropEnd) ∧
      ∃ rest, (state.runMemoryFlush environment tools options dropBegin dropEnd).requests =
          state.requests ++ flushRequest options tools
            (flushPrompt (buildDroppedExcerpt options state.messages dropBegin dropEnd)) 0
            state.epoch :: rest ∧
        rest.length ≤ 1 ∧ ∀ request ∈ rest, request.origin = .memoryFlush ∧ request.step = 1 := by
  simp only [runMemoryFlush]
  split
  · next empty =>
    simp only [Bool.or_eq_true, decide_eq_true_eq] at empty
    omega
  · split
    · next missing =>
      simp only [Bool.and_eq_true, Bool.not_eq_true'] at missing
      rcases hasTool with write | put
      · rw [missing.1] at write
        cases write
      · rw [missing.2] at put
        cases put
    · have asked : (state.generate environment (flushRequest options tools
          (flushPrompt (buildDroppedExcerpt options state.messages dropBegin dropEnd)) 0
          state.epoch)).1.requests = state.requests ++ [flushRequest options tools
            (flushPrompt (buildDroppedExcerpt options state.messages dropBegin dropEnd)) 0
            state.epoch] := rfl
      have epochs : SameEpochs state (state.generate environment (flushRequest options tools
          (flushPrompt (buildDroppedExcerpt options state.messages dropBegin dropEnd)) 0
          state.epoch)).1 := ⟨rfl, rfl⟩
      rw [flushPrompt] at asked epochs ⊢
      generalize state.generate environment _ = answer at asked epochs ⊢
      split
      · exact ⟨epochs, [], asked, Nat.zero_le 1, List.forall_mem_nil _⟩
      · have called := (flushCalls_spec environment options
          (answer.2.2.toolCalls.take maxFlushToolCalls) 0 answer.1
          ([plainMessage .system flushSystemPrompt, plainMessage .user (flushUserPrompt
            (buildDroppedExcerpt options state.messages dropBegin dropEnd))] ++
            (assistantMessage answer.2.2 options.maxToolCallArgsChars).toList)).1
        generalize flushCalls environment options 0 _ _ = flushed at called
        split
        · exact ⟨epochs.trans called.epochs, [], called.requests.trans asked, Nat.zero_le 1,
            List.forall_mem_nil _⟩
        · refine ⟨epochs.trans ⟨called.epochs.epoch, called.epochs.lastFlush⟩,
            [flushRequest options tools flushed.1.2 1 flushed.1.1.epoch], ?_, Nat.le_refl 1, ?_⟩
          · rw [generate, called.requests, asked, List.append_assoc]
            rfl
          · intro request member
            rw [List.mem_singleton.mp member]
            exact ⟨rfl, rfl⟩

theorem runMemoryFlush_idle (state : LoopState σ) {dropBegin dropEnd : Nat}
    (idle : ¬(HasMemoryTool tools ∧ dropBegin < dropEnd ∧ dropEnd ≤ state.messages.length)) :
    state.runMemoryFlush environment tools options dropBegin dropEnd = state := by
  rw [runMemoryFlush]
  split
  · rfl
  · next range =>
    split
    · rfl
    · next tool =>
      simp only [Bool.or_eq_true, decide_eq_true_eq, not_or] at range
      rw [← Bool.not_or, Bool.not_eq_true', Bool.not_eq_false, Bool.or_eq_true] at tool
      exact absurd ⟨tool, by omega, by omega⟩ idle

/-- No compaction of this epoch was flushed yet: the last flush was in the
epoch before. -/
def EpochFresh (state : LoopState σ) : Prop :=
  state.epoch = state.lastMemoryFlushEpoch + 1

theorem EpochFresh.of_same {before after : LoopState σ} (fresh : before.EpochFresh)
    (epochs : SameEpochs before after) : after.EpochFresh := by
  rw [EpochFresh, epochs.epoch, epochs.lastFlush]
  exact fresh

theorem EpochFresh.ne {state : LoopState σ} (fresh : state.EpochFresh) :
    (state.epoch != state.lastMemoryFlushEpoch) = true := by
  rw [EpochFresh] at fresh
  rw [bne_iff_ne, fresh]
  grind

/-- There is something over the budget and something to drop. -/
def Excess (options : Options) (budget : Nat) (messages : List Message) : Prop :=
  budget < estimatedCharsList messages ∧
    (dropRange options messages).1 < (dropRange options messages).2

variable {budget : Nat}

theorem compactInPlace_of_excess {messages : List Message}
    (excess : Excess options budget messages) : (compactInPlace options budget messages).1 =
        messages.take (dropRange options messages).1 ++
          insertedSummary options messages (dropRange options messages).1
            (dropRange options messages).2 ++ messages.drop (dropRange options messages).2 ∧
      0 < (compactInPlace options budget messages).2.droppedMessages := by
  simp only [compactInPlace]
  rw [if_neg (Nat.not_le_of_lt excess.1), if_neg (Nat.not_le_of_lt excess.2)]
  exact ⟨rfl, Nat.sub_pos_of_lt excess.2⟩

theorem compactInPlace_of_not_excess {messages : List Message}
    (none : ¬Excess options budget messages) :
    (compactInPlace options budget messages).2.droppedMessages = 0 := by
  simp only [compactInPlace]
  split
  · rfl
  · next exceeded =>
    split
    · rfl
    · next nonempty =>
      exact absurd ⟨Nat.lt_of_not_le exceeded, Nat.lt_of_not_le nonempty⟩ none

theorem flushBeforeCompaction_of_excess {state : LoopState σ} (fresh : state.EpochFresh)
    (excess : Excess options budget state.messages) :
    state.flushBeforeCompaction environment tools true options budget =
      { state.runMemoryFlush environment tools options (dropRange options state.messages).1
          (dropRange options state.messages).2 with
        lastMemoryFlushEpoch := state.epoch } := by
  simp only [flushBeforeCompaction]
  rw [if_pos, if_pos excess.2]
  simp [fresh.ne, excess.1]

theorem flushBeforeCompaction_of_not_excess {state : LoopState σ} {enabled : Bool}
    (none : ¬Excess options budget state.messages) :
    state.flushBeforeCompaction environment tools enabled options budget = state := by
  simp only [flushBeforeCompaction]
  split
  · next exceeded =>
    simp only [gt_iff_lt, Bool.and_eq_true, decide_eq_true_eq] at exceeded
    rw [if_neg fun nonempty => none ⟨exceeded.1.2, nonempty⟩]
  · rfl

theorem dropRange_le (options : Options) (messages : List Message) :
    (dropRange options messages).2 ≤ messages.length := by
  simp only [dropRange]
  split <;> omega

def flushStarts (state : LoopState σ) : List Request :=
  state.requests.filter fun request => request.StartsFlush

end LoopState

namespace CompactionSite

variable {σ : Type} {environment : Environment σ} {tools : List Bytes}

def range (site : CompactionSite σ) : Nat × Nat :=
  dropRange site.options site.state.messages

theorem flushed_messages (site : CompactionSite σ) :
    (site.flushed environment tools).messages = site.state.messages :=
  (LoopState.onlyFlushes_flushBeforeCompaction ..).messages

theorem drops_iff (site : CompactionSite σ) : site.Drops environment tools ↔
      LoopState.Excess site.options site.budget site.state.messages := by
  rw [Drops, report, site.flushed_messages]
  constructor
  · intro drops
    by_contra none
    rw [LoopState.compactInPlace_of_not_excess none] at drops
    exact Nat.lt_irrefl 0 drops
  · exact fun excess => (LoopState.compactInPlace_of_excess excess).2

/-- What a compaction with the flush in front of it does to the loop. -/
structure Accounted (environment : Environment σ) (tools : List Bytes) (site : CompactionSite σ) :
    Prop where
  fresh : (site.compacted environment tools).EpochFresh
  starts : (site.compacted environment tools).flushStarts = site.state.flushStarts ++
    if site.Drops environment tools then [site.flushStart tools site.range.1 site.range.2] else []
  exactly : site.Drops environment tools →
    site.FlushedExactly environment tools site.range.1 site.range.2
  epoch : (site.compacted environment tools).epoch =
    if site.Drops environment tools then site.state.epoch + 1 else site.state.epoch

theorem flushedExactly_of_drops {site : CompactionSite σ}
    (enabled : site.options.memoryFlushEnabled = true)
    (hasTool : LoopState.HasMemoryTool tools) (fresh : site.state.EpochFresh)
    (drops : site.Drops environment tools) :
    site.FlushedExactly environment tools site.range.1 site.range.2 := by
  have excess := site.drops_iff.mp drops
  have flushed : site.flushed environment tools =
      { site.state.runMemoryFlush environment tools site.options site.range.1 site.range.2 with
        lastMemoryFlushEpoch := site.state.epoch } := by
    rw [CompactionSite.flushed, enabled]
    exact LoopState.flushBeforeCompaction_of_excess fresh excess
  refine ⟨?_, flushed, ?_⟩
  · rw [compacted, LoopState.compact, site.flushed_messages]
    exact (LoopState.compactInPlace_of_excess excess).1
  · rcases (LoopState.runMemoryFlush_spec hasTool site.state excess.2 (LoopState.dropRange_le _ _)).2
      with ⟨rest, sent, few, second⟩
    refine ⟨rest, ?_, few, second⟩
    rw [flushed]
    exact sent

theorem compacted_epoch (site : CompactionSite σ) :
    (site.compacted environment tools).epoch =
      if site.Drops environment tools then (site.flushed environment tools).epoch + 1
      else (site.flushed environment tools).epoch :=
  rfl

theorem compacted_lastFlush (site : CompactionSite σ) :
    (site.compacted environment tools).lastMemoryFlushEpoch =
      (site.flushed environment tools).lastMemoryFlushEpoch :=
  rfl

theorem compacted_flushStarts (site : CompactionSite σ) :
    (site.compacted environment tools).flushStarts = (site.flushed environment tools).flushStarts :=
  rfl

theorem FlushedExactly.flushStarts {site : CompactionSite σ} {dropBegin dropEnd : Nat}
    (exactly : site.FlushedExactly environment tools dropBegin dropEnd) :
    (site.flushed environment tools).flushStarts =
      site.state.flushStarts ++ [site.flushStart tools dropBegin dropEnd] := by
  rcases exactly.sent with ⟨rest, sent, _, second⟩
  have noStart : rest.filter (fun request => decide request.StartsFlush) = [] := by
    rw [List.filter_eq_nil_iff]
    intro request member starts
    have isSecond := (second request member).2
    rw [(of_decide_eq_true starts).2] at isSecond
    cases isSecond
  have starts : decide (site.flushStart tools dropBegin dropEnd).StartsFlush = true :=
    decide_eq_true ⟨rfl, rfl⟩
  rw [LoopState.flushStarts, sent, List.filter_append, List.filter_cons, if_pos starts, noStart]
  rfl

theorem accounted {site : CompactionSite σ} (enabled : site.options.memoryFlushEnabled = true)
    (hasTool : LoopState.HasMemoryTool tools) (fresh : site.state.EpochFresh) :
    site.Accounted environment tools := by
  by_cases drops : site.Drops environment tools
  · have exactly := flushedExactly_of_drops enabled hasTool fresh drops
    have excess := site.drops_iff.mp drops
    have epochs := (@LoopState.runMemoryFlush_spec σ environment tools site.options hasTool
      site.state _ _ excess.2 (LoopState.dropRange_le _ _)).1
    have epoch : (site.flushed environment tools).epoch = site.state.epoch := by
      rw [exactly.flush]
      exact epochs.epoch
    refine ⟨?_, ?_, fun _ => exactly, ?_⟩
    · have lastFlush : (site.flushed environment tools).lastMemoryFlushEpoch =
          site.state.epoch := by
        rw [exactly.flush]
      rw [LoopState.EpochFresh, compacted_epoch, if_pos drops, compacted_lastFlush, epoch,
        lastFlush]
    · rw [if_pos drops, compacted_flushStarts]
      exact exactly.flushStarts
    · rw [compacted_epoch, if_pos drops, if_pos drops, epoch]
  · have excess := mt site.drops_iff.mpr drops
    have unflushed : site.flushed environment tools = site.state :=
      LoopState.flushBeforeCompaction_of_not_excess excess
    refine ⟨?_, ?_, fun does => absurd does drops, ?_⟩
    · rw [LoopState.EpochFresh, compacted_epoch, if_neg drops, compacted_lastFlush, unflushed]
      exact fresh
    · rw [if_neg drops, List.append_nil, compacted_flushStarts, unflushed]
    · rw [compacted_epoch, if_neg drops, if_neg drops, unflushed]

end CompactionSite

namespace LoopState

variable {σ : Type} {environment : Environment σ} {tools : List Bytes} {options : Options}

/-- What happened between two states: at each site that drops messages the
range it drops was flushed before, no other flush was started, and each such
site began an epoch. -/
structure Traced (environment : Environment σ) (tools : List Bytes) (before after : LoopState σ)
    (sites : List (CompactionSite σ)) : Prop where
  exactly : ∀ site ∈ sites, site.Drops environment tools →
    site.FlushedExactly environment tools site.range.1 site.range.2
  starts : after.flushStarts = before.flushStarts ++
    (sites.filter fun site => site.Drops environment tools).map fun site =>
      site.flushStart tools site.range.1 site.range.2
  epoch : after.epoch = before.epoch +
    UInt64.ofNat (sites.countP fun site => site.Drops environment tools)

theorem traced_of_same {before after : LoopState σ} (requests : after.requests = before.requests)
    (epoch : after.epoch = before.epoch) : Traced environment tools before after [] where
  exactly := nofun
  starts := by
    rw [flushStarts, requests]
    exact (List.append_nil _).symm
  epoch := by
    rw [epoch]
    exact (UInt64.add_zero _).symm

theorem Traced.append {first second third : LoopState σ} {left right : List (CompactionSite σ)}
    (before : Traced environment tools first second left)
    (after : Traced environment tools second third right) :
    Traced environment tools first third (left ++ right) where
  exactly := List.forall_mem_append.mpr ⟨before.exactly, after.exactly⟩
  starts := by
    rw [after.starts, before.starts, List.filter_append, List.map_append, List.append_assoc]
  epoch := by
    rw [after.epoch, before.epoch, List.countP_append, UInt64.ofNat_add, UInt64.add_assoc]

theorem traced_site {site : CompactionSite σ} (accounted : site.Accounted environment tools) :
    Traced environment tools site.state (site.compacted environment tools) [site] where
  exactly := List.forall_mem_singleton.mpr accounted.exactly
  starts := by
    rw [accounted.starts, List.filter_singleton]
    by_cases drops : site.Drops environment tools
    · simp [drops]
    · simp [drops]
  epoch := by
    rw [accounted.epoch, List.countP_singleton]
    by_cases drops : site.Drops environment tools
    · simp [drops]
    · simp [drops]

theorem traced_generate_main (state : LoopState σ) (step : Nat) :
    Traced environment tools state
      (state.generate environment (mainRequest options tools step state)).1 [] where
  exactly := nofun
  starts := by
    rw [flushStarts, generate, List.filter_append, List.filter_singleton]
    have other : decide (mainRequest options tools step state).StartsFlush = false := by
      rw [decide_eq_false_iff_not]
      intro starts
      exact nomatch starts.1
    rw [other]
    rfl
  epoch := (UInt64.add_zero _).symm

theorem traced_callProvider (enabled : options.memoryFlushEnabled = true)
    (hasTool : HasMemoryTool tools) (step retries : Nat) {state : LoopState σ}
    (fresh : state.EpochFresh) : Traced environment tools state
        (callProvider environment tools options step retries state).1
        (retrySites environment tools options step retries state) ∧
      (callProvider environment tools options step retries state).1.EpochFresh := by
  induction retries generalizing state with
  | zero => exact ⟨traced_generate_main state step, fresh⟩
  | succ further induction =>
    have asked : Traced environment tools state
        (state.generate environment (mainRequest options tools step state)).1 [] :=
      traced_generate_main state step
    have askedFresh :
        (state.generate environment (mainRequest options tools step state)).1.EpochFresh := fresh
    rw [callProvider, retrySites]
    generalize state.generate environment (mainRequest options tools step state) = answer
      at asked askedFresh
    simp only
    split
    · have accounted := @CompactionSite.accounted σ environment tools
        ⟨answer.1, tighten options, (tighten options).maxChars⟩ enabled hasTool askedFresh
      have finished := induction accounted.fresh
      exact ⟨asked.append ((traced_site accounted).append finished.1), finished.2⟩
    · exact ⟨asked, askedFresh⟩

/-- What a step makes of the last answer of the provider. -/
def answerFlow (environment : Environment σ) (options : Options) (step : Nat)
    (answer : LoopState σ × Status × ProviderResponse) : Flow σ :=
  if answer.2.1 ≠ .ok then
    .stopped { answer.1 with errorMessage := providerError answer.2.2 } answer.2.1
  else answer.1.takeAnswer environment options step answer.2.2

theorem runStep_eq (step : Nat) (state : LoopState σ) :
    state.runStep environment tools options step =
      if ({ state with stepsExecuted := step + 1 }.shouldCancel environment).2 then
        .stopped { (stepSite environment options step state).state with
          errorMessage := ascii "cancelled" } .cancelled
      else
        answerFlow environment options step
          (callProvider environment tools options step options.maxRetries
            ((stepSite environment options step state).compacted environment tools)) :=
  rfl

theorem traced_answerFlow (step : Nat) (answer : LoopState σ × Status × ProviderResponse) :
    Traced environment tools answer.1 (answerFlow environment options step answer).state [] ∧
      SameEpochs answer.1 (answerFlow environment options step answer).state := by
  rw [answerFlow]
  split
  · exact ⟨traced_of_same rfl rfl, rfl, rfl⟩
  · rcases takeAnswer_spec environment options step answer.2.2 answer.1 with ⟨sent, epochs, _⟩
    exact ⟨traced_of_same sent epochs.epoch, epochs⟩

theorem traced_runStep (enabled : options.memoryFlushEnabled = true)
    (hasTool : HasMemoryTool tools) (step : Nat) {state : LoopState σ} (fresh : state.EpochFresh) :
    Traced environment tools state (state.runStep environment tools options step).state
        (stepSites environment tools options step state) ∧
      (state.runStep environment tools options step).state.EpochFresh := by
  have started : Traced environment tools state (stepSite environment options step state).state
      [] := traced_of_same rfl rfl
  have startedFresh : (stepSite environment options step state).state.EpochFresh := fresh
  rw [runStep_eq, stepSites]
  split
  · exact ⟨traced_of_same rfl rfl, fresh⟩
  · have accounted := @CompactionSite.accounted σ environment tools
      (stepSite environment options step state) enabled hasTool startedFresh
    have called := @traced_callProvider σ environment tools options enabled hasTool step
      options.maxRetries _ accounted.fresh
    generalize callProvider environment tools options step options.maxRetries
      ((stepSite environment options step state).compacted environment tools) = answer at called ⊢
    have answered := @traced_answerFlow σ environment tools options step answer
    have traced := (started.append ((traced_site accounted).append called.1)).append answered.1
    rw [List.nil_append, List.singleton_append, List.append_nil] at traced
    exact ⟨traced, called.2.of_same answered.2⟩

theorem traced_runSteps (enabled : options.memoryFlushEnabled = true)
    (hasTool : HasMemoryTool tools) (fuel step : Nat) {state : LoopState σ}
    (fresh : state.EpochFresh) :
    Traced environment tools state (runSteps environment tools options fuel step state).1
      (runSites environment tools options fuel step state) := by
  induction fuel generalizing step state with
  | zero => exact traced_of_same rfl rfl
  | succ fuel induction =>
    have stepped := @traced_runStep σ environment tools options enabled hasTool step _ fresh
    rw [runSteps, runSites]
    split
    · generalize state.runStep environment tools options step = flow at stepped
      cases flow with
      | running next => exact stepped.1.append (induction (step + 1) stepped.2)
      | finished last =>
        have ended : Traced environment tools last (last.finish options).1 [] := by
          simp only [finish]
          split <;> exact traced_of_same rfl rfl
        have traced := stepped.1.append ended
        rw [List.append_nil] at traced
        exact traced
      | stopped => exact stepped.1
    · exact traced_of_same rfl rfl

end LoopState

/-- With memory flushes enabled and a memory tool registered, each compaction
of a run that drops messages comes directly after one flush of the range it
drops, and the run starts no other flush. The epoch of the run counts these
compactions, so none is missing among the sites. -/
theorem flushed_before_drop {σ : Type} (environment : Environment σ) (tools : List Bytes)
    (options : Options) (seed : List SeedMessage) (userPrompt : Bytes) (env : σ) (fuel : Nat)
    (enabled : options.memoryFlushEnabled = true) (hasTool : LoopState.HasMemoryTool tools) :
    (∀ site ∈ compactionSites environment tools options seed userPrompt env fuel,
        site.Drops environment tools →
          site.FlushedExactly environment tools site.range.1 site.range.2) ∧
      ((agentToolLoopRun environment tools options seed userPrompt env fuel).1.flushStarts =
        ((compactionSites environment tools options seed userPrompt env fuel).filter fun site =>
          site.Drops environment tools).map fun site =>
            site.flushStart tools site.range.1 site.range.2) ∧
      (agentToolLoopRun environment tools options seed userPrompt env fuel).1.epoch =
        UInt64.ofNat ((compactionSites environment tools options seed userPrompt env fuel).countP
          fun site => site.Drops environment tools) := by
  have fresh : (LoopState.promptSite options (seedMessages seed) userPrompt
      env).state.EpochFresh := by
    change (0 : UInt64) = 0xffffffffffffffff + 1
    decide
  have accounted := @CompactionSite.accounted σ environment tools
    (LoopState.promptSite options (seedMessages seed) userPrompt env) enabled hasTool fresh
  have prepared : LoopState.Traced environment tools
      ((LoopState.promptSite options (seedMessages seed) userPrompt env).compacted environment
        tools)
      (LoopState.prepare environment tools options (seedMessages seed) userPrompt env) [] :=
    LoopState.traced_of_same rfl rfl
  have preparedFresh : (LoopState.prepare environment tools options (seedMessages seed) userPrompt
      env).EpochFresh := accounted.fresh
  have ran := @LoopState.traced_runSteps σ environment tools options enabled hasTool fuel 0 _
    preparedFresh
  have traced := (LoopState.traced_site accounted).append (prepared.append ran)
  refine ⟨traced.exactly, traced.starts, ?_⟩
  exact traced.epoch.trans (UInt64.zero_add _)

def sampleFlushEnvironment : Environment Nat where
  generate asked request :=
    match request.origin with
    | .memoryFlush => (asked, .ok, { assistantContent := ascii "NO_REPLY" })
    | .mainLoop =>
      (asked + 1, if asked = 0 then .contextTooLong else .ok,
        { assistantContent := ascii "done" })
  execute asked _ _ := (asked, .ok, ascii "result")
  shouldCancel asked := (asked, false)

def sampleFlushOptions : Options where
  model := ascii "model"
  maxChars := 100
  keepLastMessages := 2
  memoryFlushEnabled := true

def sampleFlushSeed : List SeedMessage :=
  [⟨.system, ascii "be brief"⟩, ⟨.user, List.replicate 40 120⟩,
    ⟨.assistant, List.replicate 40 121⟩, ⟨.user, ascii "on"⟩]

/-- The seed and the transcript with the prompt are both too long. -/
theorem flushed_before_drop_sample :
    ((compactionSites sampleFlushEnvironment [ascii "memory_put"] sampleFlushOptions
        sampleFlushSeed (ascii "go on") 0 3).map fun site =>
          decide (site.Drops sampleFlushEnvironment [ascii "memory_put"])) =
        [true, true, false] ∧
      (agentToolLoopRun sampleFlushEnvironment [ascii "memory_put"] sampleFlushOptions
          sampleFlushSeed (ascii "go on") 0 3).1.flushStarts =
        ((compactionSites sampleFlushEnvironment [ascii "memory_put"] sampleFlushOptions
          sampleFlushSeed (ascii "go on") 0 3).filter fun site =>
            site.Drops sampleFlushEnvironment [ascii "memory_put"]).map fun site =>
              site.flushStart [ascii "memory_put"] site.range.1 site.range.2 := by
  constructor
  · decide
  · exact (flushed_before_drop sampleFlushEnvironment [ascii "memory_put"] sampleFlushOptions
      sampleFlushSeed (ascii "go on") 0 3 rfl (.inr (by decide))).2.1

end AgentC.ToolLoop
