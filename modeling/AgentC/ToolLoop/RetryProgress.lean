import AgentC.ToolLoop.CompactionGrowth
import AgentC.ToolLoop.CompactionSites
import Mathlib.Data.List.Chain

/-! # Requests that are repeated

When the provider finds the context too long, the loop compacts to three quarters of the
configured budget and asks again. Neighbouring main requests of one step in the log of a run
are a refused request and its repetition. -/

namespace AgentC.ToolLoop

open LoopState (tighten)

def retried (options : Options) (refused : List Message) : List Message :=
  (compactInPlace (tighten options) (tighten options).maxChars refused).1

/-- Only the leading system messages, one summary at most and the protected last messages. -/
def OnlyProtected (options : Options) (messages : List Message) : Prop :=
  droppedMessages options messages = [] ∨
    ∃ summary, droppedMessages options messages = [summary] ∧
      messageIsCompactionSummarySystem summary = true

/-- The repeated request is smaller, unless nothing was left to drop. -/
def Progress (options : Options) (refused repeated : List Message) : Prop :=
  estimatedCharsList repeated < estimatedCharsList refused ∨ OnlyProtected options refused

/-- The refused transcript is over the budget of a retry, and the summary counts less than the
messages it stands for. -/
def CanShrink (options : Options) (refused : List Message) : Prop :=
  (tighten options).maxChars < estimatedCharsList refused ∧
    summaryChars options (droppedMessages options refused) <
      estimatedCharsList (droppedMessages options refused)

variable (options : Options)

theorem droppedMessages_tighten (messages : List Message) :
    droppedMessages (tighten options) messages = droppedMessages options messages :=
  rfl

theorem summaryChars_tighten (dropped : List Message) :
    summaryChars (tighten options) dropped = summaryChars options dropped :=
  rfl

theorem progress_retried_iff (refused : List Message) :
    Progress options refused (retried options refused) ↔
      OnlyProtected options refused ∨ CanShrink options refused := by
  have before := estimatedCharsList_parts (tighten options) refused
  have size := estimatedCharsList_compactInPlace (tighten options) (tighten options).maxChars refused
  rw [estimatedCharsList_replacement, droppedMessages_tighten, summaryChars_tighten] at size
  rw [droppedMessages_tighten] at before
  rw [Progress, retried, or_comm]
  by_cases least : OnlyProtected options refused
  · exact ⟨fun _ => .inl least, fun _ => .inl least⟩
  · have more : droppedMessages options refused ≠ [] := fun empty => least (.inl empty)
    rw [or_iff_right least, or_iff_right least, size, CanShrink]
    by_cases large : (tighten options).maxChars < estimatedCharsList refused
    · rw [if_pos ⟨large, more⟩]
      constructor
      · intro smaller
        exact ⟨large, by omega⟩
      · intro shrinks
        have lighter := shrinks.2
        omega
    · rw [if_neg fun both => large both.1]
      exact ⟨fun smaller => absurd smaller (Nat.lt_irrefl _), fun shrinks => absurd shrinks.1 large⟩

namespace LoopState

variable {σ : Type} {environment : Environment σ} {tools : List Bytes} {options : Options}

def mainRequests (state : LoopState σ) : List Request :=
  state.requests.filter fun request => request.origin == .mainLoop

variable {before after : LoopState σ}

theorem mainRequests_of_same (same : after.requests = before.requests) :
    after.mainRequests = before.mainRequests := by
  rw [mainRequests, same, mainRequests]

theorem mainRequests_generate_main (state : LoopState σ) (step : Nat) :
    (state.generate environment (mainRequest options tools step state)).1.mainRequests =
      state.mainRequests ++ [mainRequest options tools step state] := by
  rw [mainRequests, generate, List.filter_append]
  rfl

theorem mainRequests_runMemoryFlush (state : LoopState σ) (dropBegin dropEnd : Nat) :
    (state.runMemoryFlush environment tools options dropBegin dropEnd).mainRequests =
      state.mainRequests := by
  by_cases sends : HasMemoryTool tools ∧ dropBegin < dropEnd ∧ dropEnd ≤ state.messages.length
  · rcases (@runMemoryFlush_spec σ environment tools options sends.1 state _ _ sends.2.1
      sends.2.2).2 with ⟨rest, log, _, later⟩
    have others : rest.filter (fun request => request.origin == .mainLoop) = [] := by
      rw [List.filter_eq_nil_iff]
      intro request member
      rw [(later request member).1]
      decide
    rw [mainRequests, log, List.filter_append, List.filter_cons, others]
    exact List.append_nil _
  · rw [runMemoryFlush_idle state sends]

theorem mainRequests_flushBeforeCompaction (state : LoopState σ) (enabled : Bool) (budget : Nat) :
    (state.flushBeforeCompaction environment tools enabled options budget).mainRequests =
      state.mainRequests := by
  simp only [flushBeforeCompaction]
  split
  · split
    · exact mainRequests_runMemoryFlush state _ _
    · rfl
  · rfl

/-- A second request of a step has the compacted transcript of the first. -/
def Repeats (options : Options) (first second : Request) : Prop :=
  first.step = second.step → second.messages = retried options first.messages

structure Between (options : Options) (step : Nat) (state : LoopState σ) : Prop where
  chain : state.mainRequests.IsChain (Repeats options)
  earlier : ∀ request ∈ state.mainRequests, request.step < step

structure Ready (options : Options) (step : Nat) (state : LoopState σ) : Prop where
  chain : state.mainRequests.IsChain (Repeats options)
  reached : ∀ request ∈ state.mainRequests, request.step ≤ step
  refused : ∀ last ∈ state.mainRequests.getLast?, last.step = step →
    state.messages = retried options last.messages

theorem Between.ready {step : Nat} (between : before.Between options step)
    (same : after.mainRequests = before.mainRequests) : after.Ready options step where
  chain := same ▸ between.chain
  reached request member := (between.earlier request (same ▸ member)).le
  refused last member now := by
    have early := between.earlier last (List.mem_of_getLast? (same ▸ member))
    omega

theorem Between.of_same {step : Nat} (between : before.Between options step)
    (same : after.mainRequests = before.mainRequests) : after.Between options step :=
  ⟨same ▸ between.chain, same ▸ between.earlier⟩

theorem Ready.generate {step : Nat} {state : LoopState σ} (ready : state.Ready options step) :
    (state.generate environment (mainRequest options tools step state)).1.Between options
      (step + 1) := by
  have log := @mainRequests_generate_main σ environment tools options state step
  constructor
  · rw [log, List.isChain_append]
    refine ⟨ready.chain, List.isChain_singleton _, ?_⟩
    intro last member next isNext
    cases isNext
    exact ready.refused last member
  · intro request member
    rw [log] at member
    rcases List.mem_append.mp member with before | now
    · exact Nat.lt_succ_of_le (ready.reached request before)
    · rw [List.mem_singleton.mp now]
      exact Nat.lt_succ_self step

theorem Ready.callProvider {step : Nat} {state : LoopState σ} (ready : state.Ready options step)
    (retries : Nat) :
    (callProvider environment tools options step retries state).1.Between options (step + 1) := by
  induction retries generalizing state with
  | zero => exact ready.generate
  | succ further induction =>
    have log := @mainRequests_generate_main σ environment tools options state step
    have asked := @Ready.generate σ environment tools options step state ready
    have kept : (state.generate environment (mainRequest options tools step state)).1.messages =
      state.messages := rfl
    rw [LoopState.callProvider]
    generalize state.generate environment (mainRequest options tools step state) = answer
      at asked log kept
    simp only
    split
    · apply induction
      have flushed := onlyFlushes_flushBeforeCompaction environment tools (tighten options)
        options.memoryFlushEnabled (tighten options).maxChars answer.1
      have unsent := @mainRequests_flushBeforeCompaction σ environment tools (tighten options)
        answer.1 options.memoryFlushEnabled (tighten options).maxChars
      generalize answer.1.flushBeforeCompaction environment tools options.memoryFlushEnabled
        (tighten options) (tighten options).maxChars = next at flushed unsent
      have same : (next.compact (tighten options) (tighten options).maxChars).mainRequests =
          answer.1.mainRequests := unsent
      refine ⟨same ▸ asked.chain, ?_, ?_⟩
      · intro request member
        exact Nat.le_of_lt_succ (asked.earlier request (same ▸ member))
      · intro last member _
        rw [same, log, List.getLast?_concat] at member
        cases member
        have compacted : (next.compact (tighten options) (tighten options).maxChars).messages =
          retried options next.messages := rfl
        rw [compacted, flushed.messages, kept]
        rfl
    · exact asked

theorem Between.runStep {step : Nat} {state : LoopState σ} (between : state.Between options step) :
    (state.runStep environment tools options step).state.Between options (step + 1) := by
  have asked : ({ state with stepsExecuted := step + 1 }.shouldCancel
      environment).1.mainRequests = state.mainRequests := rfl
  simp only [LoopState.runStep]
  generalize ({ state with stepsExecuted := step + 1 } : LoopState σ).shouldCancel environment =
    cancelled at asked
  split
  · have same : ({ cancelled.1 with errorMessage := ascii "cancelled" } : LoopState σ).mainRequests =
        state.mainRequests := asked
    exact ⟨same ▸ between.chain,
      fun request member => (between.earlier request (same ▸ member)).trans (Nat.lt_succ_self _)⟩
  · have unsent := @mainRequests_flushBeforeCompaction σ environment tools options cancelled.1
      options.memoryFlushEnabled options.maxCharsOrDefault
    have ready := between.ready (unsent.trans asked)
    generalize cancelled.1.flushBeforeCompaction environment tools options.memoryFlushEnabled
      options options.maxCharsOrDefault = flushed at unsent ready
    have compacted : (flushed.compact options options.maxCharsOrDefault).Ready options step :=
      between.ready (unsent.trans asked)
    have called := @Ready.callProvider σ environment tools options step _ compacted
      options.maxRetries
    generalize LoopState.callProvider environment tools options step options.maxRetries
      (flushed.compact options options.maxCharsOrDefault) = answer at called ⊢
    split
    · exact called.of_same rfl
    · have sent := (takeAnswer_spec environment options step answer.2.2 answer.1).1
      exact called.of_same (mainRequests_of_same sent)

theorem Between.runSteps {step : Nat} {state : LoopState σ} (between : state.Between options step)
    (fuel : Nat) : (runSteps environment tools options fuel step state).1.mainRequests.IsChain
      (Repeats options) := by
  induction fuel generalizing step state with
  | zero => exact between.chain
  | succ fuel induction =>
    have stepped := @Between.runStep σ environment tools options step state between
    rw [LoopState.runSteps]
    split
    · generalize state.runStep environment tools options step = flow at stepped
      cases flow with
      | running next => exact induction stepped
      | finished last =>
        have same : (last.finish options).1.mainRequests = last.mainRequests := by
          simp only [finish]
          split <;> rfl
        exact (stepped.of_same same).chain
      | stopped => exact stepped.chain
    · exact between.chain

theorem mainRequests_prepare (environment : Environment σ) (tools : List Bytes)
    (options : Options) (seed : List Message) (userPrompt : Bytes) (env : σ) :
    (prepare environment tools options seed userPrompt env).mainRequests = [] := by
  have flushed := @mainRequests_flushBeforeCompaction σ environment tools options
    { env := env, messages := seed } options.memoryFlushEnabled
    (if options.maxCharsOrDefault > (cString userPrompt).length then
      options.maxCharsOrDefault - (cString userPrompt).length else 1)
  exact flushed

end LoopState

/-- In every run, a repeated request is smaller than the refused one or has nothing left to
drop exactly when the refused transcript was over the budget of the retry and is not outweighed
by its summary, or had nothing left to drop. -/
theorem progress_iff {σ : Type} (environment : Environment σ) (tools : List Bytes)
    (options : Options) (seed : List SeedMessage) (userPrompt : Bytes) (env : σ) (fuel : Nat)
    {refused repeated : Request}
    (neighbours : [refused, repeated] <:+:
      (agentToolLoopRun environment tools options seed userPrompt env fuel).1.mainRequests)
    (oneStep : refused.step = repeated.step) :
    Progress options refused.messages repeated.messages ↔
      OnlyProtected options refused.messages ∨ CanShrink options refused.messages := by
  have none := LoopState.mainRequests_prepare environment tools options (seedMessages seed)
    userPrompt env
  have start : (LoopState.prepare environment tools options (seedMessages seed) userPrompt
      env).Between options 0 := by
    constructor
    · rw [none]
      exact List.isChain_nil
    · rw [none]
      exact nofun
  have chain := @LoopState.Between.runSteps σ environment tools options 0 _ start fuel
  have neighbouring : [refused, repeated].IsChain (LoopState.Repeats options) :=
    List.IsChain.infix chain neighbours
  rw [List.isChain_pair.mp neighbouring oneStep]
  exact progress_retried_iff options refused.messages

def refusingEnvironment : Environment Nat where
  generate asked _ :=
    (asked + 1, if asked = 0 then .contextTooLong else .ok, { assistantContent := ascii "done" })
  execute asked _ _ := (asked, .ok, ascii "result")
  shouldCancel asked := (asked, false)

def refusedOptions (maxChars : Nat) : Options where
  model := ascii "model"
  maxChars := maxChars
  keepLastMessages := 1

def refusedRequest (length : Nat) : Request where
  origin := .mainLoop
  model := ascii "model"
  messages :=
    [plainMessage .user (List.replicate length 120),
      plainMessage .assistant (List.replicate length 121), plainMessage .user (ascii "go on")]
  tools := []
  forceTool := none
  step := 0
  epoch := 0

theorem progress_iff_sample :
    Progress (refusedOptions 3000) (refusedRequest 1300).messages
      [plainMessage .user (ascii "go on")] := by
  have progress := @progress_iff Nat refusingEnvironment [] (refusedOptions 3000)
    [⟨.user, List.replicate 1300 120⟩, ⟨.assistant, List.replicate 1300 121⟩] (ascii "go on") 0 1
    (refusedRequest 1300)
    { refusedRequest 0 with messages := [plainMessage .user (ascii "go on")], epoch := 1 }
    ⟨[], [], by decide +kernel⟩ rfl
  exact progress.mpr (.inr ⟨by decide +kernel, by decide +kernel⟩)

/-- A transcript that is below the budget of a retry is sent once more as it is. -/
theorem retry_without_progress :
    ∃ refused repeated,
      [refused, repeated] <:+:
          (agentToolLoopRun refusingEnvironment [] (refusedOptions 0)
            [⟨.user, List.replicate 5 120⟩, ⟨.assistant, List.replicate 5 121⟩] (ascii "go on")
            0 1).1.mainRequests ∧
        refused.step = repeated.step ∧
        ¬Progress (refusedOptions 0) refused.messages repeated.messages := by
  refine ⟨refusedRequest 5, refusedRequest 5, ⟨[], [], by decide +kernel⟩, rfl, ?_⟩
  have two : (droppedMessages (refusedOptions 0) (refusedRequest 5).messages).length = 2 := by
    decide +kernel
  intro progress
  rcases progress with smaller | none | ⟨summary, one, _⟩
  · exact Nat.lt_irrefl _ smaller
  · rw [none] at two
    cases two
  · rw [one] at two
    cases two

end AgentC.ToolLoop
