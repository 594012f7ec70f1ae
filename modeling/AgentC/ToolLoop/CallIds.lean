import AgentC.ToolLoop.Answered

/-! # The ids of tool results

A result is filed under the id of its call. Where the provider gave the call no
id, the loop makes one up for the result, and leaves the call in the assistant
message without one. A memory flush lists all calls of the answer and runs the
first twelve. In every request the results of an assistant message carry the
ids it lists exactly where neither happened. -/

namespace AgentC.ToolLoop

def Message.shownCallIds (message : Message) : List Bytes :=
  message.toolCalls.map fun call => cString call.id

def isToolMessage (message : Message) : Bool :=
  message.role = .tool

/-- The calls of an assistant message that tool results follow have exactly one
result each, directly after the message and in the order of the calls. -/
def ResultsMatch (messages : List Message) : Prop :=
  ∀ front message rest, messages = front ++ message :: rest → message.role = .assistant →
    message.toolCalls ≠ [] → roleAt rest 0 = some .tool →
      (rest.takeWhile isToolMessage).map Message.shownCallId = message.shownCallIds

variable {message : Message} {rest : List Message} {calls : List ToolCall}
variable {response : ProviderResponse}

theorem resultsMatch_cons : ResultsMatch (message :: rest) ↔
      (message.role = .assistant → message.toolCalls ≠ [] → roleAt rest 0 = some .tool →
        (rest.takeWhile isToolMessage).map Message.shownCallId = message.shownCallIds) ∧
      ResultsMatch rest := by
  constructor
  · intro resultsMatch
    refine ⟨resultsMatch [] message rest rfl, ?_⟩
    intro front other more split
    exact resultsMatch (message :: front) other more (by rw [split]; rfl)
  · rintro ⟨first, later⟩ front other more split
    cases front with
    | nil =>
      rw [List.nil_append, List.cons.injEq] at split
      rw [← split.1, ← split.2]
      exact first
    | cons head front =>
      rw [List.cons_append, List.cons.injEq] at split
      exact later front other more split.2

theorem resultsMatch_cons_of_noCalls (noCalls : message.toolCalls = []) :
    ResultsMatch (message :: rest) ↔ ResultsMatch rest := by
  rw [resultsMatch_cons]
  exact ⟨And.right, fun later => ⟨fun _ calls => absurd noCalls calls, later⟩⟩

variable {results : List Message}

theorem resultsMatch_append_of_noCalls (noCalls : ∀ result ∈ results, result.toolCalls = []) :
    ResultsMatch (results ++ rest) ↔ ResultsMatch rest := by
  induction results with
  | nil => rfl
  | cons result results induction =>
    rw [List.cons_append, resultsMatch_cons_of_noCalls (noCalls result List.mem_cons_self)]
    exact induction fun other member => noCalls other (List.mem_cons_of_mem _ member)

theorem takeWhile_results (tools : ∀ result ∈ results, result.role = .tool)
    (ended : roleAt rest 0 ≠ some .tool) : (results ++ rest).takeWhile isToolMessage = results := by
  have all : ∀ result ∈ results, isToolMessage result = true :=
    fun result member => decide_eq_true (tools result member)
  rw [List.takeWhile_append_of_pos all]
  cases rest with
  | nil => exact List.append_nil results
  | cons next rest =>
    have other : isToolMessage next = false := by
      simpa [roleAt, isToolMessage] using ended
    rw [List.takeWhile_cons, other]
    exact List.append_nil results

/-- Messages without calls, and assistant messages with the results of their
calls, whose ids match where the message is as `identified` says. -/
inductive Blocks (identified : Message → Prop) : List Message → Prop
  | nil : Blocks identified []
  | single {message : Message} {rest : List Message} (noCalls : message.toolCalls = [])
      (blocks : Blocks identified rest) : Blocks identified (message :: rest)
  | called {message : Message} {results rest : List Message}
      (assistant : message.role = .assistant) (calls : message.toolCalls ≠ [])
      (present : results ≠ []) (tools : ∀ result ∈ results, result.role = .tool)
      (noCalls : ∀ result ∈ results, result.toolCalls = [])
      (filed : results.map Message.shownCallId = message.shownCallIds ↔ identified message)
      (ended : roleAt rest 0 ≠ some .tool) (blocks : Blocks identified rest) :
      Blocks identified (message :: (results ++ rest))

variable {identified : Message → Prop}

theorem roleAt_results (rest : List Message) (present : results ≠ [])
    (tools : ∀ result ∈ results, result.role = .tool) :
    roleAt (results ++ rest) 0 = some .tool := by
  cases results with
  | nil => exact absurd rfl present
  | cons result results =>
    rw [roleAt, List.cons_append, List.getElem?_cons_zero, Option.map_some,
      tools result List.mem_cons_self]

variable {messages left right : List Message}

/-- In blocks the results match exactly when every message with calls is
identified. -/
theorem Blocks.resultsMatch_iff (blocks : Blocks identified messages) : ResultsMatch messages ↔
      ∀ message ∈ messages, message.toolCalls ≠ [] → identified message := by
  induction blocks with
  | nil => exact ⟨nofun, fun _ front _ _ split => by simp at split⟩
  | single noCalls blocks induction =>
    rw [resultsMatch_cons_of_noCalls noCalls, induction, List.forall_mem_cons]
    exact ⟨fun later => ⟨fun calls => absurd noCalls calls, later⟩, And.right⟩
  | @called message results rest assistant calls present tools noCalls filed ended blocks induction =>
    rw [resultsMatch_cons, resultsMatch_append_of_noCalls noCalls, induction,
      takeWhile_results tools ended, List.forall_mem_cons, List.forall_mem_append]
    constructor
    · rintro ⟨first, later⟩
      have matched := first assistant calls (roleAt_results rest present tools)
      refine ⟨fun _ => filed.mp matched, ?_, later⟩
      exact fun result member listed => absurd (noCalls result member) listed
    · rintro ⟨first, _, later⟩
      exact ⟨fun _ _ _ => filed.mpr (first calls), later⟩

theorem Blocks.noCalls_of_role (blocks : Blocks identified messages) (member : message ∈ messages)
    (other : message.role ≠ .assistant) : message.toolCalls = [] := by
  induction blocks with
  | nil => cases member
  | single noCalls blocks induction =>
    rcases List.mem_cons.mp member with first | later
    · exact first ▸ noCalls
    · exact induction later
  | called assistant calls present tools noCalls filed ended blocks induction =>
    rcases List.mem_cons.mp member with first | later
    · exact absurd (first ▸ assistant) other
    · rcases List.mem_append.mp later with result | rest
      · exact noCalls message result
      · exact induction rest

theorem blocks_append_of_noCalls (noCalls : ∀ message ∈ left, message.toolCalls = [])
    (blocks : Blocks identified right) : Blocks identified (left ++ right) := by
  induction left with
  | nil => exact blocks
  | cons message left induction =>
    exact .single (noCalls message List.mem_cons_self)
      (induction fun other member => noCalls other (List.mem_cons_of_mem _ member))

theorem blocks_of_noCalls (noCalls : ∀ message ∈ messages, message.toolCalls = []) :
    Blocks identified messages := by
  rw [← List.append_nil messages]
  exact blocks_append_of_noCalls noCalls .nil

theorem roleAt_append_ne (leftEnded : roleAt left 0 ≠ some .tool)
    (rightEnded : roleAt right 0 ≠ some .tool) : roleAt (left ++ right) 0 ≠ some .tool := by
  cases left with
  | nil => exact rightEnded
  | cons => exact leftEnded

theorem Blocks.append (leftBlocks : Blocks identified left)
    (rightBlocks : Blocks identified right) (ended : roleAt right 0 ≠ some .tool) :
    Blocks identified (left ++ right) := by
  induction leftBlocks with
  | nil => exact rightBlocks
  | single noCalls _ induction => exact .single noCalls induction
  | called assistant calls present tools noCalls filed leftEnded _ induction =>
    rw [List.cons_append, List.append_assoc]
    exact .called assistant calls present tools noCalls filed (roleAt_append_ne leftEnded ended)
      induction

/-- Nothing in front of the cut has results behind it. -/
def Boundary (messages : List Message) (cut : Nat) : Prop :=
  roleAt messages cut ≠ some .tool ∨ cut = 0 ∨
    ∃ earlier, cut = earlier + 1 ∧ roleAt messages earlier ≠ some .assistant ∧
      roleAt messages earlier ≠ some .tool

theorem Boundary.of_cons {cut : Nat} (boundary : Boundary (message :: rest) (cut + 1)) :
    Boundary rest cut := by
  rcases boundary with other | zero | ⟨earlier, equal, notAssistant, notTool⟩
  · exact .inl other
  · cases zero
  · cases equal
    cases cut with
    | zero => exact .inr (.inl rfl)
    | succ earlier => exact .inr (.inr ⟨earlier, rfl, notAssistant, notTool⟩)

theorem Boundary.of_results {cut : Nat} (tools : ∀ result ∈ results, result.role = .tool)
    (boundary : Boundary (results ++ rest) cut) (positive : cut = 0 → results = []) :
    results.length ≤ cut ∧ Boundary rest (cut - results.length) := by
  induction results generalizing cut with
  | nil => exact ⟨Nat.zero_le cut, boundary⟩
  | cons result results induction =>
    cases cut with
    | zero => exact absurd (positive rfl) (List.cons_ne_nil _ _)
    | succ cut =>
      have isTool := tools result List.mem_cons_self
      have laterTools : ∀ other ∈ results, other.role = .tool :=
        fun other member => tools other (List.mem_cons_of_mem _ member)
      have ended : cut = 0 → results = [] := by
        intro zero
        subst zero
        cases results with
        | nil => rfl
        | cons next results =>
          rcases boundary with other | zero | ⟨earlier, equal, _, notTool⟩
          · exact absurd (congrArg some (laterTools next List.mem_cons_self)) other
          · cases zero
          · cases equal
            exact absurd (congrArg some isTool) notTool
      rcases induction laterTools boundary.of_cons ended with ⟨outside, behind⟩
      rw [List.length_cons, Nat.add_sub_add_right]
      exact ⟨Nat.succ_le_succ outside, behind⟩

theorem Blocks.drop (blocks : Blocks identified messages) (cut : Nat)
    (boundary : Boundary messages cut) : Blocks identified (messages.drop cut) := by
  induction blocks generalizing cut with
  | nil =>
    rw [List.drop_nil]
    exact .nil
  | single noCalls blocks induction =>
    cases cut with
    | zero => exact .single noCalls blocks
    | succ cut => exact induction cut boundary.of_cons
  | @called message results rest assistant calls present tools noCalls filed ended blocks
      induction =>
    cases cut with
    | zero => exact .called assistant calls present tools noCalls filed ended blocks
    | succ cut =>
      have notFirst : cut = 0 → results = [] := by
        intro zero
        subst zero
        have isTool := roleAt_results rest present tools
        rcases boundary with other | zero | ⟨earlier, equal, notAssistant, _⟩
        · exact absurd isTool other
        · cases zero
        · cases equal
          exact absurd (congrArg some assistant) notAssistant
      rcases boundary.of_cons.of_results tools notFirst with ⟨outside, behind⟩
      rw [List.drop_succ_cons, List.drop_append, List.drop_eq_nil_of_le outside,
        List.nil_append]
      exact induction _ behind

theorem boundary_pinned (messages : List Message) :
    Boundary messages (pinnedSystemPrefixCount messages) := by
  cases count : pinnedSystemPrefixCount messages with
  | zero => exact .inr (.inl rfl)
  | succ earlier =>
    have system : roleAt messages earlier = some .system :=
      roleAt_of_lt_pinned (by omega)
    refine .inr (.inr ⟨earlier, rfl, ?_, ?_⟩)
    · rw [system]
      exact nofun
    · rw [system]
      exact nofun

theorem boundary_suffixStart (messages : List Message) (keepLast : Nat) : Boundary messages
      (suffixStart messages keepLast (pinnedSystemPrefixCount messages)) := by
  simp only [suffixStart]
  generalize wanted : (if messages.length > keepLast then messages.length - keepLast
    else pinnedSystemPrefixCount messages) = first
  have beyond : pinnedSystemPrefixCount messages ≤
      if first < pinnedSystemPrefixCount messages then pinnedSystemPrefixCount messages
      else first := by
    split <;> omega
  generalize (if first < pinnedSystemPrefixCount messages then _ else _ : Nat) = start at beyond
  split
  · next startsWithTool =>
    simp only [Bool.and_eq_true, decide_eq_true_eq] at startsWithTool
    rcases toolRunStart_spec startsWithTool.2 with ⟨firstIsTool, noneBefore⟩
    have inside := @le_toolRunStart messages _ _ beyond
    generalize toolRunStart messages _ _ = tool at firstIsTool noneBefore inside
    split
    · next called =>
      simp only [gt_iff_lt, Bool.and_eq_true, decide_eq_true_eq] at called
      left
      rw [called.2]
      rintro ⟨⟩
    · next notCalled =>
      simp only [gt_iff_lt, Bool.and_eq_true, decide_eq_true_eq, not_and] at notCalled
      rcases Nat.eq_or_lt_of_le inside with same | later
      · rw [← same]
        exact boundary_pinned messages
      · exact .inr (.inr ⟨tool - 1, by omega, notCalled later, noneBefore later⟩)
  · next otherwise =>
    left
    intro isTool
    simp only [Bool.and_eq_true, decide_eq_true_eq, not_and] at otherwise
    exact otherwise (lt_length_of_roleAt isTool) isTool

theorem Blocks.compactInPlace (blocks : Blocks identified messages) (options : Options)
    (budget : Nat) : Blocks identified (compactInPlace options budget messages).1 := by
  simp only [ToolLoop.compactInPlace]
  split
  · exact blocks
  · split
    · exact blocks
    · apply blocks_append_of_noCalls
      · intro message member
        rcases List.mem_append.mp member with pinned | inserted
        · change message ∈ messages.take (pinnedSystemPrefixCount messages) at pinned
          rw [take_pinnedSystemPrefixCount] at pinned
          have isPinned := List.all_eq_true.mp List.all_takeWhile message pinned
          simp only [isPinnedSystem, Bool.and_eq_true, decide_eq_true_eq] at isPinned
          apply blocks.noCalls_of_role (List.takeWhile_subset _ pinned)
          rw [isPinned.1]
          rintro ⟨⟩
        · exact (insertedSummary_plain message inserted).2
      · apply blocks.drop
        simp only [dropRange]
        split
        · exact boundary_suffixStart messages options.keepLast
        · left
          simp [roleAt]

theorem shownCallIds_eq_iff (answered : List.Forall₂ AnswersCall results calls) :
    results.map Message.shownCallId = calls.map (fun call => cString call.id) ↔
      ∀ call ∈ calls, cString call.id ≠ [] := by
  induction answered with
  | nil => exact ⟨fun _ => nofun, fun _ => rfl⟩
  | cons answers _ induction =>
    rw [List.map_cons, List.map_cons, List.cons.injEq, induction, List.forall_mem_cons]
    apply and_congr_left
    intro _
    constructor
    · intro same unnamed
      exact answers.unnamed unnamed (same.trans unnamed)
    · exact answers.named

/-- Every call the message lists has an id, and a memory flush lists no more
calls than it runs. -/
def Message.CallsIdentified (origin : RequestOrigin) (message : Message) : Prop :=
  (∀ id ∈ message.shownCallIds, id ≠ []) ∧
    (origin = .memoryFlush → message.toolCalls.length ≤ LoopState.maxFlushToolCalls)

instance (origin : RequestOrigin) (message : Message) :
    Decidable (message.CallsIdentified origin) :=
  inferInstanceAs (Decidable (_ ∧ _))

theorem shownCallIds_assistantMessage {maxArgsChars : Nat}
    (appended : assistantMessage response maxArgsChars = some message) :
    message.shownCallIds = response.toolCalls.map fun call => cString call.id := by
  rw [assistantMessage_eq_some appended, Message.shownCallIds, List.map_map]
  rfl

theorem noCalls_of_answered (answered : List.Forall₂ AnswersCall results calls) :
    ∀ result ∈ results, result.toolCalls = [] := by
  induction answered with
  | nil => exact nofun
  | cons answers _ induction => exact List.forall_mem_cons.mpr ⟨answers.noCalls, induction⟩

theorem blocks_called {maxArgsChars : Nat}
    (appended : assistantMessage response maxArgsChars = some message) (hasCalls : calls ≠ [])
    (listed : response.toolCalls ≠ []) (answered : List.Forall₂ AnswersCall results calls)
    (filed : results.map Message.shownCallId = message.shownCallIds ↔ identified message) :
    Blocks identified (message :: results) := by
  have isMessage := assistantMessage_eq_some appended
  rw [← List.append_nil results]
  refine .called ?_ ?_ ?_ (isTool_of_answered answered) (noCalls_of_answered answered) filed nofun
    .nil
  · rw [isMessage]
  · rw [isMessage]
    simpa using listed
  · intro none
    rw [none] at answered
    cases answered
    exact hasCalls rfl

theorem callsIdentified_main {maxArgsChars : Nat}
    (appended : assistantMessage response maxArgsChars = some message)
    (answered : List.Forall₂ AnswersCall results response.toolCalls) :
    results.map Message.shownCallId = message.shownCallIds ↔ message.CallsIdentified .mainLoop := by
  rw [Message.CallsIdentified, shownCallIds_assistantMessage appended,
    shownCallIds_eq_iff answered, List.forall_mem_map]
  exact ⟨fun named => ⟨named, nofun⟩, And.left⟩

theorem callsIdentified_flush {maxArgsChars : Nat}
    (appended : assistantMessage response maxArgsChars = some message)
    (answered : List.Forall₂ AnswersCall results
      (response.toolCalls.take LoopState.maxFlushToolCalls)) :
    results.map Message.shownCallId = message.shownCallIds ↔
      message.CallsIdentified .memoryFlush := by
  have count : message.toolCalls.length = response.toolCalls.length := by
    rw [assistantMessage_eq_some appended, List.length_map]
  rw [Message.CallsIdentified, shownCallIds_assistantMessage appended, count, List.forall_mem_map]
  by_cases all : response.toolCalls.length ≤ LoopState.maxFlushToolCalls
  · rw [List.take_of_length_le all] at answered
    rw [shownCallIds_eq_iff answered]
    exact ⟨fun named => ⟨named, fun _ => all⟩, And.left⟩
  · constructor
    · intro same
      have lengths := congrArg List.length same
      rw [List.length_map, List.length_map, answered.length_eq, List.length_take] at lengths
      omega
    · intro identified
      exact absurd (identified.2 rfl) all

theorem noCalls_flushPrompt (excerpt : Bytes) :
    ∀ message ∈ LoopState.flushPrompt excerpt, message.toolCalls = [] := by
  intro message member
  rcases List.mem_cons.mp member with system | later
  · rw [system]
    rfl
  · rw [List.mem_singleton.mp later]
    rfl

theorem FlushMessages.blocks (flush : FlushMessages messages) :
    Blocks (Message.CallsIdentified .memoryFlush) messages := by
  cases flush with
  | start excerpt => exact blocks_of_noCalls (noCalls_flushPrompt excerpt)
  | finish excerpt response maxArgsChars results answered =>
    rw [List.append_assoc]
    apply blocks_append_of_noCalls (noCalls_flushPrompt excerpt)
    cases appended : assistantMessage response maxArgsChars with
    | none => exact blocks_of_noCalls (noCalls_of_answered answered)
    | some message =>
      rw [Option.toList_some, List.singleton_append]
      by_cases listed : response.toolCalls = []
      · rw [listed, List.take_nil] at answered
        cases answered
        apply blocks_of_noCalls
        rw [List.forall_mem_singleton, assistantMessage_eq_some appended, listed]
        rfl
      · refine blocks_called appended ?_ listed answered (callsIdentified_flush appended answered)
        intro none
        rw [List.take_eq_nil_iff] at none
        rcases none with zero | empty
        · cases zero
        · exact listed empty

theorem blocks_rule (options : Options) :
    RequestRule options (Blocks (Message.CallsIdentified .mainLoop))
      fun request => Blocks (Message.CallsIdentified request.origin) request.messages where
  prompt messages content blocks := blocks.append (.single rfl .nil) nofun
  compact compacting budget messages blocks := blocks.compactInPlace compacting budget
  answer messages response message results blocks appended hasCalls answered := by
    apply blocks.append
    · exact blocks_called appended hasCalls hasCalls answered
        (callsIdentified_main appended answered)
    · rw [assistantMessage_eq_some appended]
      exact nofun
  main request origin blocks := by
    rw [origin]
    exact blocks
  flush request origin flush := by
    rw [origin]
    exact flush.blocks

/-- In every request of a run the results of the calls carry the ids that the
assistant messages list, in their order, exactly when every listed call has an
id and no memory flush lists more calls than it runs. -/
theorem results_match_iff {σ : Type} (environment : Environment σ) (tools : List Bytes)
    (options : Options) (seed : List SeedMessage) (userPrompt : Bytes) (env : σ) (fuel : Nat)
    (request : Request)
    (sent : request ∈
      (agentToolLoopRun environment tools options seed userPrompt env fuel).1.requests) :
    ResultsMatch request.messages ↔
      ∀ message ∈ request.messages, message.toolCalls ≠ [] →
        message.CallsIdentified request.origin := by
  have seeded : Blocks (Message.CallsIdentified .mainLoop) (seedMessages seed) := by
    apply blocks_of_noCalls
    intro message member
    rcases List.mem_map.mp member with ⟨given, _, built⟩
    rw [← built]
    rfl
  have blocks := (blocks_rule options).run environment tools seeded userPrompt env fuel request sent
  exact blocks.resultsMatch_iff

def sampleIdentifiedEnvironment : Environment Nat where
  generate asked _ := (asked + 1, .ok,
    if asked = 0 then
      { toolCalls := [⟨ascii "a", ascii "read", none⟩, ⟨ascii "b", ascii "read", none⟩] }
    else { assistantContent := ascii "done" })
  execute asked _ _ := (asked, .ok, ascii "result")
  shouldCancel asked := (asked, false)

def sampleIdentifiedRequest : Request where
  origin := .mainLoop
  model := ascii "model"
  messages :=
    [plainMessage .user (ascii "read it"),
      { role := .assistant
        content := []
        toolCalls := [⟨ascii "a", ascii "read", []⟩, ⟨ascii "b", ascii "read", []⟩] },
      plainMessage .tool (ascii "result") (ascii "a"),
      plainMessage .tool (ascii "result") (ascii "b")]
  tools := []
  forceTool := none
  step := 1
  epoch := 0

theorem results_match_iff_sample :
    sampleIdentifiedRequest ∈ (agentToolLoopRun sampleIdentifiedEnvironment []
        { model := ascii "model" } [] (ascii "read it") 0 5).1.requests ∧
      ResultsMatch sampleIdentifiedRequest.messages := by
  have sent : sampleIdentifiedRequest ∈ (agentToolLoopRun sampleIdentifiedEnvironment []
      { model := ascii "model" } [] (ascii "read it") 0 5).1.requests := by decide
  exact ⟨sent, (results_match_iff sampleIdentifiedEnvironment [] { model := ascii "model" } []
    (ascii "read it") 0 5 sampleIdentifiedRequest sent).mpr (by decide)⟩

/-- The calls without ids of the provider above, as its third request shows
them: the assistant message lists an empty id, and the result has another. -/
theorem unnamed_call_not_matched :
    ¬∀ request ∈ sampleRun.1.requests, ResultsMatch request.messages := by
  intro always
  have sent : sampleRun.1.requests[2]? ≠ none := by decide
  rcases Option.ne_none_iff_exists'.mp sent with ⟨request, third⟩
  have shown : request.messages =
      [plainMessage .system (ascii "be brief"),
        { role := .assistant
          content := []
          toolCalls := [⟨[], ascii "read", []⟩] },
        plainMessage .tool (ascii "result") (ascii "call_1_0")] := by
    have listed : sampleRun.1.requests[2]?.map Request.messages = some
        [plainMessage .system (ascii "be brief"),
          { role := .assistant
            content := []
            toolCalls := [⟨[], ascii "read", []⟩] },
          plainMessage .tool (ascii "result") (ascii "call_1_0")] := by decide
    rw [third] at listed
    exact Option.some.inj listed
  have matched := always request (List.mem_of_getElem? third) [_] _ _ shown rfl (by decide) rfl
  exact absurd matched (by decide)

end AgentC.ToolLoop
