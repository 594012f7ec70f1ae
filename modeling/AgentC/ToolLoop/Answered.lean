import AgentC.ToolLoop.Requests

/-! # Every tool call is followed by its results

A transcript is a sequence of blocks: plain messages, and assistant messages
with tool calls together with as many tool results. Compaction cuts between
blocks, and a request is only sent when the last block is complete. -/

namespace AgentC.ToolLoop

/-- An assistant message with calls is followed immediately by one tool message
for each of them, and there are no other tool messages. -/
inductive Answered : List Message → Prop
  | nil : Answered []
  | plain {message : Message} {rest : List Message} (notTool : message.role ≠ .tool)
      (noCalls : message.toolCalls = []) (answered : Answered rest) :
      Answered (message :: rest)
  | called {message : Message} {results rest : List Message}
      (assistant : message.role = .assistant) (calls : 0 < message.toolCalls.length)
      (complete : results.length = message.toolCalls.length)
      (tools : ∀ result ∈ results, result.role = .tool) (answered : Answered rest) :
      Answered (message :: (results ++ rest))

variable {messages : List Message} {index : Nat} (options : Options)

namespace Answered

theorem append {left right : List Message} (leftAnswered : Answered left)
    (rightAnswered : Answered right) : Answered (left ++ right) := by
  induction leftAnswered with
  | nil => exact rightAnswered
  | plain notTool noCalls _ induction => exact .plain notTool noCalls induction
  | called assistant calls complete tools _ induction =>
    rw [List.cons_append, List.append_assoc]
    exact .called assistant calls complete tools induction

theorem of_plain (plain : ∀ message ∈ messages, message.role ≠ .tool ∧ message.toolCalls = []) :
    Answered messages := by
  induction messages with
  | nil => exact .nil
  | cons message rest induction =>
    have first := plain message (List.mem_cons_self ..)
    exact .plain first.1 first.2 (induction fun other member =>
      plain other (List.mem_cons_of_mem _ member))

theorem drop (answered : Answered messages) (cut : Nat)
    (boundary : roleAt messages cut ≠ some .tool) : Answered (messages.drop cut) := by
  induction answered generalizing cut with
  | nil =>
    rw [List.drop_nil]
    exact .nil
  | plain notTool noCalls answered induction =>
    cases cut with
    | zero => exact .plain notTool noCalls answered
    | succ cut => exact induction cut boundary
  | @called message results rest assistant calls complete tools answered induction =>
    cases cut with
    | zero => exact .called assistant calls complete tools answered
    | succ cut =>
      rw [List.drop_succ_cons, List.drop_append]
      change roleAt (results ++ rest) cut ≠ some .tool at boundary
      by_cases inside : cut < results.length
      · have isTool := tools _ (List.getElem_mem inside)
        simp [roleAt, List.getElem?_append_left inside, List.getElem?_eq_getElem inside,
          isTool] at boundary
      · have outside : results.length ≤ cut := Nat.le_of_not_lt inside
        rw [List.drop_eq_nil_of_le outside, List.nil_append]
        apply induction
        simpa [roleAt, List.getElem?_append_right outside] using boundary

theorem before_tool (answered : Answered messages) (isTool : roleAt messages index = some .tool) :
    ∃ earlier, index = earlier + 1 ∧
      (roleAt messages earlier = some .assistant ∨ roleAt messages earlier = some .tool) := by
  induction answered generalizing index with
  | nil => simp [roleAt] at isTool
  | plain notTool noCalls answered induction =>
    cases index with
    | zero =>
      simp only [roleAt, List.getElem?_cons_zero, Option.map_some, Option.some.injEq] at isTool
      exact absurd isTool notTool
    | succ index =>
      rcases induction isTool with ⟨earlier, equal, before⟩
      exact ⟨earlier + 1, by rw [equal], before⟩
  | @called message results rest assistant calls complete tools answered induction =>
    cases index with
    | zero =>
      simp only [roleAt, List.getElem?_cons_zero, Option.map_some, Option.some.injEq] at isTool
      rw [assistant] at isTool
      cases isTool
    | succ index =>
      change roleAt (results ++ rest) index = some .tool at isTool
      refine ⟨index, rfl, ?_⟩
      cases index with
      | zero => exact .inl (by simp [roleAt, assistant])
      | succ earlier =>
        change roleAt (results ++ rest) earlier = _ ∨ roleAt (results ++ rest) earlier = _
        by_cases inside : earlier < results.length
        · have previous := tools _ (List.getElem_mem inside)
          exact .inr (by
            simp [roleAt, List.getElem?_append_left inside,
              List.getElem?_eq_getElem inside, previous])
        · have outside : results.length ≤ earlier := Nat.le_of_not_lt inside
          have inRest : roleAt rest (earlier + 1 - results.length) = some .tool := by
            simpa [roleAt, List.getElem?_append_right (Nat.le_succ_of_le outside)] using isTool
          rcases induction inRest with ⟨position, equal, before⟩
          have same : earlier - results.length = position := by omega
          simpa [roleAt, List.getElem?_append_right outside, same] using before

end Answered

theorem pinnedSystemPrefixCount_eq (messages : List Message) :
    pinnedSystemPrefixCount messages = (messages.takeWhile isPinnedSystem).length := by
  cases messages with
  | nil => rfl
  | cons message rest =>
    by_cases pinned : isPinnedSystem message = true <;> simp [pinnedSystemPrefixCount, pinned]

theorem take_pinnedSystemPrefixCount (messages : List Message) :
    messages.take (pinnedSystemPrefixCount messages) = messages.takeWhile isPinnedSystem := by
  rw [pinnedSystemPrefixCount_eq]
  exact (List.prefix_iff_eq_take.mp (List.takeWhile_prefix _)).symm

theorem lt_length_of_roleAt {role : Role} (found : roleAt messages index = some role) :
    index < messages.length := by
  rcases Option.map_eq_some_iff.mp found with ⟨message, there, _⟩
  exact (List.getElem?_eq_some_iff.mp there).1

theorem roleAt_of_lt_pinned (pinned : index < pinnedSystemPrefixCount messages) :
    roleAt messages index = some .system := by
  rw [roleAt, ← List.getElem?_take_of_lt pinned, take_pinnedSystemPrefixCount]
  rw [pinnedSystemPrefixCount_eq] at pinned
  have satisfied := List.all_takeWhile (l := messages) (p := isPinnedSystem)
  have isPinned := List.all_eq_true.mp satisfied _ (List.getElem_mem pinned)
  simp only [isPinnedSystem, Bool.and_eq_true, decide_eq_true_eq] at isPinned
  rw [List.getElem?_eq_getElem pinned, Option.map_some, isPinned.1]

theorem Answered.takeWhile_pinned (answered : Answered messages) :
    Answered (messages.takeWhile isPinnedSystem) := by
  induction answered with
  | nil => exact .nil
  | plain notTool noCalls _ induction =>
    rw [List.takeWhile_cons]
    split
    · exact .plain notTool noCalls induction
    · exact .nil
  | called assistant calls complete tools _ _ =>
    rw [List.takeWhile_cons, isPinnedSystem, assistant]
    exact .nil

theorem le_toolRunStart {messages : List Message} {pinned index : Nat} (inside : pinned ≤ index) :
    pinned ≤ toolRunStart messages pinned index := by
  induction index with
  | zero => exact inside
  | succ index induction =>
    rw [toolRunStart]
    split
    · next continues =>
      simp only [gt_iff_lt, Bool.and_eq_true, decide_eq_true_eq] at continues
      exact induction (Nat.le_of_lt_succ continues.1)
    · exact inside

/-- Stepping back stops at a tool message that has no tool message in front of
it, or at the pinned messages. -/
theorem toolRunStart_spec {pinned : Nat} (isTool : roleAt messages index = some .tool) :
    roleAt messages (toolRunStart messages pinned index) = some .tool ∧
      (pinned < toolRunStart messages pinned index →
        roleAt messages (toolRunStart messages pinned index - 1) ≠ some .tool) := by
  induction index with
  | zero => exact ⟨isTool, fun positive => absurd positive (Nat.not_lt_zero pinned)⟩
  | succ index induction =>
    rw [toolRunStart]
    split
    · next continues =>
      simp only [gt_iff_lt, Bool.and_eq_true, decide_eq_true_eq] at continues
      exact induction continues.2
    · next stops =>
      simp only [gt_iff_lt, Bool.and_eq_true, decide_eq_true_eq, not_and] at stops
      exact ⟨isTool, stops⟩

theorem roleAt_suffixStart (answered : Answered messages) (keepLast : Nat) :
    roleAt messages (suffixStart messages keepLast (pinnedSystemPrefixCount messages)) ≠
      some .tool := by
  simp only [suffixStart]
  generalize (if _ < pinnedSystemPrefixCount messages then _ else _ : Nat) = start
  split
  · next startsWithTool =>
    simp only [Bool.and_eq_true, decide_eq_true_eq] at startsWithTool
    rcases toolRunStart_spec startsWithTool.2 with ⟨firstIsTool, noneBefore⟩
    generalize toolRunStart messages _ _ = first at firstIsTool noneBefore
    rcases answered.before_tool firstIsTool with ⟨earlier, equal, before⟩
    subst equal
    -- A pinned message is a system message, so the call is not pinned.
    have beyond : pinnedSystemPrefixCount messages < earlier + 1 := by
      by_contra inside
      have system : roleAt messages earlier = some .system :=
        roleAt_of_lt_pinned (by omega)
      rw [system] at before
      rcases before with assistant | tool
      · cases assistant
      · cases tool
    have assistant := before.resolve_right (noneBefore beyond)
    rw [Nat.add_sub_cancel]
    simp [beyond, assistant]
  · next otherwise =>
    intro isTool
    simp only [Bool.and_eq_true, decide_eq_true_eq, not_and] at otherwise
    exact otherwise (lt_length_of_roleAt isTool) isTool

theorem Answered.drop_dropRange (answered : Answered messages) (options : Options) :
    Answered (messages.drop (dropRange options messages).2) := by
  apply answered.drop
  simp only [dropRange]
  split
  · exact roleAt_suffixStart answered options.keepLast
  · simp [roleAt]

theorem insertedSummary_plain {options : Options} {dropBegin dropEnd : Nat} :
    ∀ message ∈ insertedSummary options messages dropBegin dropEnd,
      message.role ≠ .tool ∧ message.toolCalls = [] := by
  intro message member
  simp only [insertedSummary] at member
  split at member
  · rw [List.mem_singleton.mp member]
    exact ⟨nofun, rfl⟩
  · cases member

theorem Answered.compactInPlace (answered : Answered messages) (options : Options) (budget : Nat) :
    Answered (compactInPlace options budget messages).1 := by
  simp only [ToolLoop.compactInPlace]
  split
  · exact answered
  · split
    · exact answered
    · have pinned : Answered (messages.take (dropRange options messages).1) := by
        change Answered (messages.take (pinnedSystemPrefixCount messages))
        rw [take_pinnedSystemPrefixCount]
        exact answered.takeWhile_pinned
      exact (pinned.append (.of_plain insertedSummary_plain)).append
        (answered.drop_dropRange options)

theorem assistantMessage_eq_some {response : ProviderResponse} {maxArgsChars : Nat}
    {message : Message} (appended : assistantMessage response maxArgsChars = some message) :
    message =
      { role := .assistant
        content := response.assistantContent
        toolCalls := response.toolCalls.map ToolCall.transcriptCall } := by
  rw [assistantMessage] at appended
  split at appended
  · cases appended
  · exact (Option.some.inj appended).symm

theorem isTool_of_answered {results : List Message} {calls : List ToolCall}
    (answered : List.Forall₂ AnswersCall results calls) :
    ∀ result ∈ results, result.role = .tool := by
  induction answered with
  | nil => exact nofun
  | cons answers _ induction =>
    intro result member
    rcases List.mem_cons.mp member with first | later
    · exact first ▸ answers.role
    · exact induction result later

/-- Complete transcripts are what the main loop keeps and sends. -/
theorem answered_rule :
    RequestRule options Answered
      fun request => request.origin = .mainLoop → Answered request.messages where
  prompt messages content answered := answered.append (.plain nofun rfl .nil)
  compact compacting budget messages answered := answered.compactInPlace compacting budget
  answer messages response message results answered appended hasCalls filed := by
    apply answered.append
    rw [← List.append_nil results]
    rw [assistantMessage_eq_some appended]
    refine .called rfl ?_ ?_ (isTool_of_answered filed) .nil
    · rw [List.length_map]
      exact List.length_pos_of_ne_nil hasCalls
    · rw [List.length_map, filed.length_eq]
  main request origin answered := fun _ => answered
  flush request origin flush := by
    intro main
    rw [origin] at main
    cases main

/-- Whatever the provider, the executor and the hooks do, every request of the
main loop carries a transcript in which tool calls and results belong
together. -/
theorem requests_answered {σ : Type} (environment : Environment σ) (tools : List Bytes)
    (options : Options) (seed : List SeedMessage) (userPrompt : Bytes) (env : σ) (fuel : Nat)
    (noTools : ∀ message ∈ seed, message.role ≠ .tool) :
    ∀ request ∈ (agentToolLoopRun environment tools options seed userPrompt env fuel).1.requests,
      request.origin = .mainLoop → Answered request.messages := by
  apply (answered_rule options).run environment tools
  apply Answered.of_plain
  intro message member
  rcases List.mem_map.mp member with ⟨given, givenMember, built⟩
  rw [← built]
  exact ⟨noTools given givenMember, rfl⟩

def sampleProvider (step : Nat) : ProviderResponse :=
  let call := { id := [], name := ascii "read", argumentsJson := none }
  match step with
  | 0 => { toolCalls := [call, call] }
  | 1 => { toolCalls := [call] }
  | _ => { assistantContent := ascii "done" }

def sampleEnvironment : Environment Nat where
  generate asked _ := (asked + 1, .ok, sampleProvider asked)
  execute asked _ _ := (asked, .ok, ascii "result")
  shouldCancel asked := (asked, false)

def sampleOptions : Options where
  model := ascii "model"
  maxChars := 100
  keepLastMessages := 2

def sampleSeed : List SeedMessage :=
  [⟨.system, ascii "be brief"⟩, ⟨.user, ascii "hello"⟩, ⟨.assistant, ascii "hi"⟩]

def sampleRun : LoopState Nat × Option Status :=
  agentToolLoopRun sampleEnvironment [] sampleOptions sampleSeed (ascii "read it") 0 5

theorem requests_answered_sample :
    sampleRun.1.requests.map (fun request => request.messages.map Message.role) =
        [[.system, .user, .assistant, .user],
          [.system, .assistant, .tool, .tool],
          [.system, .assistant, .tool]] ∧
      ∀ request ∈ sampleRun.1.requests, request.origin = .mainLoop →
        Answered request.messages := by
  constructor
  · decide
  · exact requests_answered sampleEnvironment [] sampleOptions sampleSeed (ascii "read it") 0 5
      (by decide)

end AgentC.ToolLoop
