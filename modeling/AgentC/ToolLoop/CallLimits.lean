import AgentC.ToolLoop.CompactionSites

/-! # Limits on tool calls

The guards in front of a tool call count what the steps of a run ask for, in
all and under the hash of the tool's name. A limit on the calls the executor
sees holds as long as every such call passes a guard that counts it: the calls
of a memory flush pass none, and a name whose hash finds no room in the table
is not counted. -/

namespace AgentC.ToolLoop

def limitFor (options : Options) (toolName : Bytes) : Nat :=
  match options.toolCallLimits.find? fun limit => cString limit.toolName == toolName with
  | some limit => limit.maxCalls
  | none => options.maxToolCallsPerTool

namespace LoopState

variable {σ : Type}

/-- How often the executor was asked for tools of some kind. -/
def callsWhere (state : LoopState σ) (measured : Bytes → Bool) : Nat :=
  state.executions.countP fun execution => measured execution.1

def callsOf (state : LoopState σ) (toolName : Bytes) : Nat :=
  state.callsWhere fun name => name == toolName

/-! ## Calls and flushes of a run -/

structure GuardedCall (σ : Type) where
  state : LoopState σ
  toolName : Bytes

/-- The table of counts has the name's hash, or room for it. -/
def GuardedCall.Tracked (call : GuardedCall σ) : Prop :=
  (call.state.toolCounts.lookup (fnv1a64 call.toolName)).isSome = true ∨
    call.state.toolCounts.length < 32

instance (call : GuardedCall σ) : Decidable call.Tracked :=
  inferInstanceAs (Decidable (_ ∨ _))

variable (environment : Environment σ) (tools : List Bytes) (options : Options)

def callGuards (step : Nat) : Nat → List ToolCall → LoopState σ → List (GuardedCall σ)
  | _, [], _ => []
  | index, call :: rest, state =>
    if (state.shouldCancel environment).2 then []
    else
      ⟨(state.shouldCancel environment).1, cString call.name⟩ ::
        match state.runCall environment options step index call with
        | .running next => callGuards step (index + 1) rest next
        | _ => []

def answerGuards (step : Nat) (answer : LoopState σ × Status × ProviderResponse) :
    List (GuardedCall σ) :=
  if answer.2.1 ≠ .ok then []
  else
    match assistantMessage answer.2.2 options.maxToolCallArgsChars with
    | none => []
    | some message =>
      callGuards environment options step 0 answer.2.2.toolCalls
        (push { answer.1 with
          finalAssistantText := answer.2.2.assistantContent
          sawToolCall := answer.1.sawToolCall || !answer.2.2.toolCalls.isEmpty } message)

def stepGuards (step : Nat) (state : LoopState σ) : List (GuardedCall σ) :=
  if ({ state with stepsExecuted := step + 1 }.shouldCancel environment).2 then []
  else
    answerGuards environment options step
      (callProvider environment tools options step options.maxRetries
        ((stepSite environment options step state).compacted environment tools))

def runGuards : Nat → Nat → LoopState σ → List (GuardedCall σ)
  | 0, _, _ => []
  | fuel + 1, step, state =>
    if options.maxSteps = 0 || step < options.maxSteps then
      match state.runStep environment tools options step with
      | .running next =>
        stepGuards environment tools options step state ++ runGuards fuel (step + 1) next
      | _ => stepGuards environment tools options step state
    else []

end LoopState

def guardedCalls {σ : Type} (environment : Environment σ) (tools : List Bytes)
    (options : Options) (seed : List SeedMessage) (userPrompt : Bytes) (env : σ) (fuel : Nat) :
    List (LoopState.GuardedCall σ) :=
  LoopState.runGuards environment tools options fuel 0
    (LoopState.prepare environment tools options (seedMessages seed) userPrompt env)

/-- The flush of a compaction is answered with a call of the tool, among the
first calls of the answer. -/
structure CompactionSite.AnsweredWith {σ : Type} (environment : Environment σ)
    (tools : List Bytes) (site : CompactionSite σ) (toolName : Bytes) : Prop where
  enabled : site.options.memoryFlushEnabled = true
  excess : LoopState.Excess site.options site.budget site.state.messages
  hasTool : LoopState.HasMemoryTool tools
  answered : (site.state.generate environment
    (site.flushStart tools site.range.1 site.range.2)).2.1 = .ok
  listed : ∃ call ∈ (site.state.generate environment (site.flushStart tools site.range.1
    site.range.2)).2.2.toolCalls.take LoopState.maxFlushToolCalls, cString call.name = toolName

namespace LoopState

/-! ## The table of counts -/

def countOf (signature : UInt64) (counts : List (UInt64 × Nat)) : Nat :=
  (counts.lookup signature).getD 0

variable (signature : UInt64)

@[simp] theorem countOf_cons_self (count : Nat) (counts : List (UInt64 × Nat)) :
    countOf signature ((signature, count) :: counts) = count := by
  simp [countOf]

theorem countOf_cons_of_ne {signature known : UInt64} (other : known ≠ signature) (count : Nat)
    (counts : List (UInt64 × Nat)) :
    countOf signature ((known, count) :: counts) = countOf signature counts := by
  have differs : (signature == known) = false := beq_false_of_ne other.symm
  simp only [countOf, List.lookup_cons, differs]

theorem countOf_countToolCall_of_ne {signature other : UInt64} (different : signature ≠ other)
    (counts : List (UInt64 × Nat)) (used : Nat) :
    countOf other (countToolCall signature counts used).1 = countOf other counts := by
  induction counts generalizing used with
  | nil =>
    rw [countToolCall]
    split
    · exact countOf_cons_of_ne different 1 []
    · rfl
  | cons entry rest induction =>
    rcases entry with ⟨known, count⟩
    rw [countToolCall]
    split
    · next same =>
      rw [same, countOf_cons_of_ne different, countOf_cons_of_ne different]
    · by_cases isOther : known = other
      · rw [isOther, countOf_cons_self, countOf_cons_self]
      · rw [countOf_cons_of_ne isOther, countOf_cons_of_ne isOther]
        exact induction (used + 1)

theorem countToolCall_spec (counts : List (UInt64 × Nat)) (used : Nat) :
    (∃ count, (countToolCall signature counts used).2 = some count ∧
        count = countOf signature counts + 1 ∧
        countOf signature (countToolCall signature counts used).1 = count) ∨
      (countToolCall signature counts used).1 = counts ∧
        counts.lookup signature = none ∧ 32 ≤ used + counts.length := by
  induction counts generalizing used with
  | nil =>
    rw [countToolCall]
    split
    · exact .inl ⟨1, rfl, rfl, countOf_cons_self signature 1 []⟩
    · next full => exact .inr ⟨rfl, rfl, by simpa using full⟩
  | cons entry rest induction =>
    rcases entry with ⟨known, count⟩
    rw [countToolCall]
    split
    · next same =>
      rw [same]
      refine .inl ⟨count + 1, rfl, ?_, countOf_cons_self signature (count + 1) rest⟩
      rw [countOf_cons_self]
    · next other =>
      rcases induction (used + 1) with ⟨made, counted, next, stored⟩ | ⟨kept, missing, full⟩
      · refine .inl ⟨made, counted, ?_, ?_⟩
        · rw [countOf_cons_of_ne other]
          exact next
        · rw [countOf_cons_of_ne other]
          exact stored
      · refine .inr ⟨?_, ?_, ?_⟩
        · exact congrArg _ kept
        · have differs : (signature == known) = false := beq_false_of_ne (Ne.symm other)
          rw [List.lookup_cons, differs]
          exact missing
        · rw [List.length_cons]
          omega

theorem countOf_le_countToolCall (other : UInt64) (counts : List (UInt64 × Nat)) :
    countOf other counts ≤ countOf other (countToolCall signature counts 0).1 := by
  by_cases same : signature = other
  · rw [← same]
    rcases countToolCall_spec signature counts 0 with ⟨count, _, next, stored⟩ | ⟨kept, _⟩
    · rw [stored, next]
      exact Nat.le_succ _
    · rw [kept]
  · rw [countOf_countToolCall_of_ne same]

section Guards

variable {σ : Type} (options : Options) (state : LoopState σ) (toolName argsJson : Bytes)

/-- The calls of single tools are counted. -/
def CountsPerTool (options : Options) : Prop :=
  0 < options.maxToolCallsPerTool ∨ 0 < options.toolCallLimits.length

theorem guardTotal_spec : (state.guardTotal options).1.executions = state.executions ∧
      (state.guardTotal options).1.totalToolCalls = state.totalToolCalls + 1 ∧
      (state.guardTotal options).1.toolCounts = state.toolCounts ∧
      ((state.guardTotal options).2 = true → options.maxToolCallsTotal ≠ 0 →
        state.totalToolCalls + 1 ≤ options.maxToolCallsTotal) := by
  simp only [guardTotal]
  split
  · exact ⟨rfl, rfl, rfl, by rintro ⟨⟩⟩
  · next within =>
    refine ⟨rfl, rfl, rfl, fun _ limited => ?_⟩
    simp only [gt_iff_lt, Bool.and_eq_true, decide_eq_true_eq] at within
    omega

theorem guardPerTool_spec : (state.guardPerTool options toolName).1.executions = state.executions ∧
      (state.guardPerTool options toolName).1.totalToolCalls = state.totalToolCalls ∧
      ((state.guardPerTool options toolName).1.toolCounts = state.toolCounts ∧
          ¬CountsPerTool options ∨ (state.guardPerTool options toolName).1.toolCounts =
            (countToolCall (fnv1a64 toolName) state.toolCounts 0).1 ∧
          ((state.guardPerTool options toolName).2 = true → toolLimit options toolName ≠ 0 →
            ∀ count, (countToolCall (fnv1a64 toolName) state.toolCounts 0).2 = some count →
              count ≤ toolLimit options toolName)) := by
  simp only [guardPerTool]
  split
  · split
    · exact ⟨rfl, rfl, .inr ⟨rfl, by rintro ⟨⟩⟩⟩
    · next within =>
      refine ⟨rfl, rfl, .inr ⟨rfl, ?_⟩⟩
      intro _ limited count counted
      rw [counted] at within
      simp only [gt_iff_lt, Option.any_some, Bool.and_eq_true, decide_eq_true_eq] at within
      omega
  · next uncounted =>
    refine ⟨rfl, rfl, .inl ⟨rfl, ?_⟩⟩
    simpa [CountsPerTool] using uncounted

theorem guardRepeated_spec :
    (state.guardRepeated options toolName argsJson).1.executions = state.executions ∧
      (state.guardRepeated options toolName argsJson).1.totalToolCalls = state.totalToolCalls ∧
      (state.guardRepeated options toolName argsJson).1.toolCounts = state.toolCounts := by
  simp only [guardRepeated]
  split
  · split <;> split <;> exact ⟨rfl, rfl, rfl⟩
  · exact ⟨rfl, rfl, rfl⟩

/-- The guards count the call in all and, unless calls of single tools are not
counted, under its name; a call they allow is within the limits. -/
theorem guardCall_spec :
    (state.guardCall options toolName argsJson).1.executions = state.executions ∧
      (state.guardCall options toolName argsJson).1.totalToolCalls = state.totalToolCalls + 1 ∧
      ((state.guardCall options toolName argsJson).1.toolCounts = state.toolCounts ∨
        (state.guardCall options toolName argsJson).1.toolCounts =
          (countToolCall (fnv1a64 toolName) state.toolCounts 0).1) ∧
      ((state.guardCall options toolName argsJson).2 = true →
        (options.maxToolCallsTotal ≠ 0 → state.totalToolCalls + 1 ≤ options.maxToolCallsTotal) ∧
          (CountsPerTool options → (state.guardCall options toolName argsJson).1.toolCounts =
                (countToolCall (fnv1a64 toolName) state.toolCounts 0).1 ∧
              (toolLimit options toolName ≠ 0 →
                ∀ count, (countToolCall (fnv1a64 toolName) state.toolCounts 0).2 = some count →
                  count ≤ toolLimit options toolName))) := by
  rcases guardTotal_spec options state with ⟨executions, total, counts, withinTotal⟩
  simp only [guardCall]
  generalize state.guardTotal options = first at executions total counts withinTotal
  split
  · exact ⟨executions, total, .inl counts, by rintro ⟨⟩⟩
  · next allowed =>
    have withinTotal := withinTotal (by simpa using allowed)
    rcases guardPerTool_spec options first.1 toolName with ⟨executions', total', counted⟩
    rw [counts] at counted
    generalize first.1.guardPerTool options toolName = second at executions' total' counted
    have executions := executions'.trans executions
    have total := total'.trans total
    have either : second.1.toolCounts = state.toolCounts ∨ second.1.toolCounts =
        (countToolCall (fnv1a64 toolName) state.toolCounts 0).1 :=
      counted.imp And.left And.left
    split
    · exact ⟨executions, total, either, by rintro ⟨⟩⟩
    · next allowed =>
      rcases guardRepeated_spec options second.1 toolName argsJson with
        ⟨executions', total', counts'⟩
      generalize second.1.guardRepeated options toolName argsJson = third
        at executions' total' counts'
      rw [← counts'] at counted either
      refine ⟨executions'.trans executions, total'.trans total, either, fun _ =>
        ⟨withinTotal, ?_⟩⟩
      intro counts
      rcases counted with ⟨_, uncounted⟩ | ⟨stored, within⟩
      · exact absurd counts uncounted
      · exact ⟨stored, within (by simpa using allowed)⟩

end Guards

/-! ## Meters -/

structure Ledger where
  totalToolCalls : Nat
  toolCounts : List (UInt64 × Nat)

def ledger {σ : Type} (state : LoopState σ) : Ledger :=
  ⟨state.totalToolCalls, state.toolCounts⟩

end LoopState

/-- A count of some calls that the guards keep: they add each measured call to
it, if the variables admit that, and allow none beyond the limit. -/
structure Meter (σ : Type) (options : Options) where
  measures : Bytes → Bool
  limit : Nat
  reading : LoopState.Ledger → Nat
  Admits : LoopState.GuardedCall σ → Prop
  grows : ∀ (state : LoopState σ) (toolName argsJson : Bytes),
    reading state.ledger ≤ reading (state.guardCall options toolName argsJson).1.ledger
  allowed : ∀ (state : LoopState σ) (toolName argsJson : Bytes), measures toolName = true →
    Admits ⟨state, toolName⟩ → (state.guardCall options toolName argsJson).2 = true →
      reading state.ledger + 1 ≤ reading (state.guardCall options toolName argsJson).1.ledger ∧
        reading (state.guardCall options toolName argsJson).1.ledger ≤ limit

variable {options : Options} {toolName : Bytes}

namespace LoopState

def totalMeter (σ : Type) {options : Options} (limited : options.maxToolCallsTotal ≠ 0) :
    Meter σ options where
  measures _ := true
  limit := options.maxToolCallsTotal
  reading := Ledger.totalToolCalls
  Admits _ := True
  grows state toolName argsJson := by
    rcases guardCall_spec options state toolName argsJson with ⟨_, total, _⟩
    rw [ledger, ledger, total]
    exact Nat.le_succ _
  allowed state toolName argsJson _ _ allowed := by
    rcases guardCall_spec options state toolName argsJson with ⟨_, total, _, within⟩
    rw [ledger, ledger, total]
    exact ⟨Nat.le_refl _, (within allowed).1 limited⟩

theorem countsPerTool_of_limit (limited : toolLimit options toolName ≠ 0) :
    CountsPerTool options := by
  rw [toolLimit] at limited
  split at limited
  · next found =>
    exact .inr (List.length_pos_of_mem (List.mem_of_find?_eq_some found))
  · exact .inl (Nat.pos_of_ne_zero limited)

/-- The calls of one tool, under its limit. Calls of other tools with the same
hash only add to its count. -/
def toolMeter (σ : Type) {options : Options} {toolName : Bytes}
    (limited : toolLimit options toolName ≠ 0) : Meter σ options where
  measures name := name == toolName
  limit := toolLimit options toolName
  reading ledger := countOf (fnv1a64 toolName) ledger.toolCounts
  Admits := GuardedCall.Tracked
  grows state name argsJson := by
    rcases guardCall_spec options state name argsJson with ⟨_, _, kept | counted, _⟩
    · rw [ledger, ledger, kept]
    · rw [ledger, ledger, counted]
      exact countOf_le_countToolCall _ _ _
  allowed state name argsJson measured tracked allowed := by
    have isTool : name = toolName := beq_iff_eq.mp measured
    rw [isTool] at tracked allowed ⊢
    rcases guardCall_spec options state toolName argsJson with ⟨_, _, _, within⟩
    rcases (within allowed).2 (countsPerTool_of_limit limited) with ⟨stored, below⟩
    rw [ledger, ledger, stored]
    rcases countToolCall_spec (fnv1a64 toolName) state.toolCounts 0 with
      ⟨count, counted, next, held⟩ | ⟨_, missing, full⟩
    · rw [held]
      exact ⟨next.ge, below limited count counted⟩
    · rcases tracked with known | room
      · rw [missing] at known
        cases known
      · rw [Nat.zero_add] at full
        exact absurd room (Nat.not_lt_of_le full)

section Metered

variable {σ : Type} {environment : Environment σ} {tools : List Bytes} {options : Options}
  (meter : Meter σ options)

/-- The calls made so far are on the meter, and within its limit. -/
structure Metered (state : LoopState σ) : Prop where
  made : state.callsWhere meter.measures ≤ meter.reading state.ledger
  limited : state.callsWhere meter.measures ≤ meter.limit

def AllAdmitted (calls : List (GuardedCall σ)) : Prop :=
  ∀ call ∈ calls, meter.measures call.toolName = true → meter.Admits call

variable {meter}

/-- Nothing changed that is measured. -/
structure Unmeasured (measured : Bytes → Bool) (before after : LoopState σ) : Prop where
  ledger : after.ledger = before.ledger
  calls : after.callsWhere measured = before.callsWhere measured

theorem Unmeasured.refl (measured : Bytes → Bool) (state : LoopState σ) :
    Unmeasured measured state state :=
  ⟨rfl, rfl⟩

variable {measured : Bytes → Bool} {state : LoopState σ} (step : Nat)

theorem Unmeasured.trans {first second third : LoopState σ}
    (left : Unmeasured measured first second) (right : Unmeasured measured second third) :
    Unmeasured measured first third :=
  ⟨right.ledger.trans left.ledger, right.calls.trans left.calls⟩

theorem Metered.unmeasured {before after : LoopState σ}
    (metered : Metered meter before) (same : Unmeasured meter.measures before after) :
    Metered meter after where
  made := by
    rw [same.ledger, same.calls]
    exact metered.made
  limited := by
    rw [same.calls]
    exact metered.limited

variable (environment options)

theorem unmeasured_capOutput (measured : Bytes → Bool) (state : LoopState σ) (output : Bytes)
    (maxChars : Nat) :
    Unmeasured measured state (state.capOutput environment output maxChars).1 := by
  simp only [capOutput]
  split <;> exact ⟨rfl, rfl⟩

theorem unmeasured_appendToolRecord (measured : Bytes → Bool) (state : LoopState σ)
    (record : ToolRecord) : Unmeasured measured state (state.appendToolRecord options record) := by
  rw [appendToolRecord]
  split <;> exact ⟨rfl, rfl⟩

theorem callsWhere_execute (measured : Bytes → Bool) (state : LoopState σ)
    (toolName argsJson : Bytes) :
    (state.execute environment toolName argsJson).1.callsWhere measured =
      state.callsWhere measured + if measured toolName = true then 1 else 0 := by
  rw [callsWhere, execute, List.countP_append, List.countP_singleton]
  rfl

theorem Metered.execute (metered : Metered meter state) (argsJson : Bytes)
    (admitted : meter.measures toolName = true → meter.Admits ⟨state, toolName⟩)
    (allowed : (state.guardCall options toolName argsJson).2 = true) :
    Metered meter ((state.guardCall options toolName argsJson).1.execute environment toolName
      argsJson).1 := by
  have executions := (guardCall_spec options state toolName argsJson).1
  have before : (state.guardCall options toolName argsJson).1.callsWhere meter.measures =
      state.callsWhere meter.measures := by
    rw [callsWhere, callsWhere, executions]
  have after := callsWhere_execute environment meter.measures
    (state.guardCall options toolName argsJson).1 toolName argsJson
  rw [before] at after
  by_cases measured : meter.measures toolName = true
  · rcases meter.allowed state toolName argsJson measured (admitted measured) allowed with
      ⟨counted, within⟩
    rw [if_pos measured] at after
    have made := Nat.le_trans (Nat.add_le_add_right metered.made 1) counted
    exact ⟨after.trans_le made, after.trans_le (Nat.le_trans made within)⟩
  · rw [if_neg measured] at after
    have made := Nat.le_trans metered.made (meter.grows state toolName argsJson)
    exact ⟨after.trans_le made, after.trans_le metered.limited⟩

theorem Metered.guardCall (metered : Metered meter state) (toolName argsJson : Bytes) :
    Metered meter (state.guardCall options toolName argsJson).1 := by
  have executions := (guardCall_spec options state toolName argsJson).1
  have calls : (state.guardCall options toolName argsJson).1.callsWhere meter.measures =
      state.callsWhere meter.measures := by
    rw [callsWhere, callsWhere, executions]
  exact ⟨calls.trans_le (Nat.le_trans metered.made (meter.grows state toolName argsJson)),
    calls.trans_le metered.limited⟩

variable {environment options}

theorem AllAdmitted.left {first second : List (GuardedCall σ)}
    (admitted : AllAdmitted meter (first ++ second)) : AllAdmitted meter first :=
  fun call member => admitted call (List.mem_append_left second member)

theorem AllAdmitted.right {first second : List (GuardedCall σ)}
    (admitted : AllAdmitted meter (first ++ second)) : AllAdmitted meter second :=
  fun call member => admitted call (List.mem_append_right first member)

theorem Metered.runCall (metered : Metered meter state) (step index : Nat) (call : ToolCall)
    (admitted : (state.shouldCancel environment).2 = false →
      meter.measures (cString call.name) = true →
        meter.Admits ⟨(state.shouldCancel environment).1, cString call.name⟩) :
    Metered meter (state.runCall environment options step index call).state := by
  have asked : Metered meter (state.shouldCancel environment).1 :=
    metered.unmeasured ⟨rfl, rfl⟩
  simp only [LoopState.runCall]
  generalize state.shouldCancel environment = cancelled at asked admitted
  split
  · exact asked.unmeasured ⟨rfl, rfl⟩
  · next goesOn =>
    have admitted := admitted (by simpa using goesOn)
    have refused := asked.guardCall options (cString call.name) (callArguments call)
    have executed := asked.execute environment options (callArguments call) admitted
    generalize cancelled.1.guardCall options (cString call.name) (callArguments call) = guarded
      at refused executed
    split
    · exact refused
    · next allowed =>
      have executed := executed (by simpa using allowed)
      generalize guarded.1.execute environment (cString call.name) (callArguments call) = run
        at executed
      split
      · exact executed.unmeasured ⟨rfl, rfl⟩
      · have capped := executed.unmeasured (unmeasured_capOutput environment meter.measures run.1
          run.2.2 options.maxToolResultChars)
        exact (capped.unmeasured (unmeasured_appendToolRecord options meter.measures _
          _)).unmeasured ⟨rfl, rfl⟩

theorem Metered.runCalls (metered : Metered meter state) (step : Nat) (calls : List ToolCall)
    (index : Nat)
    (admitted : AllAdmitted meter (callGuards environment options step index calls state)) :
    Metered meter (runCalls environment options step index calls state).state := by
  induction calls generalizing index state with
  | nil => exact metered
  | cons call rest induction =>
    have called : Metered meter (state.runCall environment options step index call).state := by
      apply metered.runCall step index call
      intro goesOn
      rw [callGuards, if_neg (by simp [goesOn])] at admitted
      exact admitted _ List.mem_cons_self
    have later : ∀ next, state.runCall environment options step index call = .running next →
        AllAdmitted meter (callGuards environment options step (index + 1) rest next) := by
      intro next running
      rw [callGuards, running] at admitted
      split at admitted
      · next cancelled =>
        -- A cancelled call does not go on.
        simp only [LoopState.runCall] at running
        rw [if_pos cancelled] at running
        cases running
      · exact fun call member => admitted call (List.mem_cons_of_mem _ member)
    rw [LoopState.runCalls]
    generalize state.runCall environment options step index call = flow at called later
    cases flow with
    | running next => exact induction called (index + 1) (later next rfl)
    | finished last => exact called
    | stopped => exact called

theorem Metered.answerFlow {answer : LoopState σ × Status × ProviderResponse}
    (metered : Metered meter answer.1) (step : Nat)
    (admitted : AllAdmitted meter (answerGuards environment options step answer)) :
    Metered meter (answerFlow environment options step answer).state := by
  rw [LoopState.answerFlow]
  rw [answerGuards] at admitted
  split
  · exact metered.unmeasured ⟨rfl, rfl⟩
  · next ok =>
    rw [if_neg ok] at admitted
    simp only [takeAnswer]
    split
    · exact metered.unmeasured ⟨rfl, rfl⟩
    · next message appended =>
      rw [appended] at admitted
      split
      · exact metered.unmeasured ⟨rfl, rfl⟩
      · apply Metered.runCalls _ step _ 0 admitted
        exact metered.unmeasured ⟨rfl, rfl⟩

theorem unmeasured_flushCalls (environment : Environment σ) (options : Options)
    (calls : List ToolCall) (silent : ∀ call ∈ calls, ¬measured (cString call.name) = true)
    (index : Nat) (state : LoopState σ) (flush : List Message) : Unmeasured measured state
      (flushCalls environment options index calls (state, flush)).1.1 := by
  induction calls generalizing index state flush with
  | nil => exact .refl measured state
  | cons call rest induction =>
    rcases List.forall_mem_cons.mp silent with ⟨now, later⟩
    have asked : Unmeasured measured state (state.shouldCancel environment).1 := ⟨rfl, rfl⟩
    simp only [flushCalls]
    generalize state.shouldCancel environment = cancelled at asked
    split
    · exact asked
    · have run : Unmeasured measured cancelled.1 (cancelled.1.execute environment
          (cString call.name) (callArguments call)).1 := by
        refine ⟨rfl, ?_⟩
        rw [callsWhere_execute, if_neg now, Nat.add_zero]
      have run := asked.trans run
      generalize cancelled.1.execute environment (cString call.name) (callArguments call) =
        executed at run
      split
      · exact run
      · exact ((run.trans (unmeasured_capOutput environment measured executed.1 executed.2.2
          _)).trans (unmeasured_appendToolRecord options measured _ _)).trans
            (induction later _ _ _)

theorem unmeasured_runMemoryFlush (flushing : Options) (state : LoopState σ)
    (dropBegin dropEnd : Nat) (silent : HasMemoryTool tools →
      (state.generate environment (flushRequest flushing tools (flushPrompt
        (buildDroppedExcerpt flushing state.messages dropBegin dropEnd)) 0 state.epoch)).2.1 = .ok →
      ∀ call ∈ (state.generate environment (flushRequest flushing tools (flushPrompt
        (buildDroppedExcerpt flushing state.messages dropBegin dropEnd)) 0
          state.epoch)).2.2.toolCalls.take maxFlushToolCalls,
        ¬measured (cString call.name) = true) : Unmeasured measured state
      (state.runMemoryFlush environment tools flushing dropBegin dropEnd) := by
  simp only [runMemoryFlush]
  split
  · exact .refl measured state
  · split
    · exact .refl measured state
    · next found =>
      have hasTool : HasMemoryTool tools := by
        rw [HasMemoryTool]
        simp only [Bool.and_eq_true, Bool.not_eq_true', not_and_or, Bool.not_eq_false] at found
        exact found
      have silent := silent hasTool
      have asked : Unmeasured measured state (state.generate environment (flushRequest flushing
          tools (flushPrompt (buildDroppedExcerpt flushing state.messages dropBegin dropEnd)) 0
          state.epoch)).1 := ⟨rfl, rfl⟩
      rw [flushPrompt] at asked silent
      generalize state.generate environment _ = answer at asked silent
      split
      · exact asked
      · next ok =>
        have called := asked.trans (unmeasured_flushCalls environment flushing _ (silent (by simpa using ok)) 0 answer.1
          ([plainMessage .system flushSystemPrompt, plainMessage .user (flushUserPrompt
            (buildDroppedExcerpt flushing state.messages dropBegin dropEnd))] ++
            (assistantMessage answer.2.2 flushing.maxToolCallArgsChars).toList))
        generalize flushCalls environment flushing 0 _ _ = flushed at called
        split
        · exact called
        · exact called.trans ⟨rfl, rfl⟩

def AllSilent (environment : Environment σ) (tools : List Bytes) (measured : Bytes → Bool)
    (sites : List (CompactionSite σ)) : Prop :=
  ∀ site ∈ sites, ∀ toolName, measured toolName = true →
    ¬site.AnsweredWith environment tools toolName

theorem unmeasured_compacted {site : CompactionSite σ}
    (silent : ∀ toolName, measured toolName = true →
      ¬site.AnsweredWith environment tools toolName) :
    Unmeasured measured site.state (site.compacted environment tools) := by
  have flushed : Unmeasured measured site.state (site.flushed environment tools) := by
    simp only [CompactionSite.flushed, flushBeforeCompaction]
    split
    · next exceeded =>
      simp only [gt_iff_lt, Bool.and_eq_true, decide_eq_true_eq] at exceeded
      split
      · next nonempty =>
        refine (unmeasured_runMemoryFlush site.options site.state _ _ ?_).trans ⟨rfl, rfl⟩
        intro hasTool answered call listed isMeasured
        exact silent _ isMeasured
          ⟨exceeded.1.1, ⟨exceeded.1.2, nonempty⟩, hasTool, answered, call, listed, rfl⟩
      · exact .refl measured site.state
    · exact .refl measured site.state
  exact flushed.trans ⟨rfl, rfl⟩

theorem unmeasured_callProvider (retries : Nat) (state : LoopState σ)
    (silent : AllSilent environment tools measured
      (retrySites environment tools options step retries state)) :
    Unmeasured measured state (callProvider environment tools options step retries state).1 := by
  induction retries generalizing state with
  | zero => exact ⟨rfl, rfl⟩
  | succ further induction =>
    have asked : Unmeasured measured state
        (state.generate environment (mainRequest options tools step state)).1 := ⟨rfl, rfl⟩
    rw [callProvider]
    rw [retrySites] at silent
    generalize state.generate environment (mainRequest options tools step state) = answer
      at asked silent
    simp only at silent ⊢
    split
    · next again =>
      rw [if_pos again] at silent
      rcases List.forall_mem_cons.mp silent with ⟨now, later⟩
      exact (asked.trans (unmeasured_compacted now)).trans (induction _ later)
    · exact asked

theorem Metered.runStep {state : LoopState σ} (metered : Metered meter state) (step : Nat)
    (silent : AllSilent environment tools meter.measures
      (stepSites environment tools options step state))
    (admitted : AllAdmitted meter (stepGuards environment tools options step state)) :
    Metered meter (state.runStep environment tools options step).state := by
  have started : Metered meter (stepSite environment options step state).state :=
    metered.unmeasured ⟨rfl, rfl⟩
  rw [runStep_eq]
  rw [stepSites] at silent
  rw [stepGuards] at admitted
  split
  · exact started.unmeasured ⟨rfl, rfl⟩
  · next goesOn =>
    rw [if_neg goesOn] at silent admitted
    rcases List.forall_mem_cons.mp silent with ⟨now, later⟩
    have compacted := started.unmeasured (unmeasured_compacted now)
    exact (compacted.unmeasured (unmeasured_callProvider step options.maxRetries _
      later)).answerFlow step admitted

theorem Metered.runSteps {state : LoopState σ} (metered : Metered meter state) (fuel step : Nat)
    (silent : AllSilent environment tools meter.measures
      (runSites environment tools options fuel step state))
    (admitted : AllAdmitted meter (runGuards environment tools options fuel step state)) :
    Metered meter (runSteps environment tools options fuel step state).1 := by
  induction fuel generalizing step state with
  | zero => exact metered
  | succ fuel induction =>
    rw [LoopState.runSteps]
    rw [runSites] at silent
    rw [runGuards] at admitted
    split
    · next within =>
      rw [if_pos within] at silent admitted
      cases flow : state.runStep environment tools options step with
      | running next =>
        rw [flow] at silent admitted
        have stepped := metered.runStep step
          (fun site member => silent site (List.mem_append_left _ member)) admitted.left
        rw [flow] at stepped
        exact induction stepped (step + 1)
          (fun site member => silent site (List.mem_append_right _ member)) admitted.right
      | finished last =>
        rw [flow] at silent admitted
        have stepped := metered.runStep step silent admitted
        rw [flow] at stepped
        simp only [finish]
        split <;> exact stepped.unmeasured ⟨rfl, rfl⟩
      | stopped =>
        rw [flow] at silent admitted
        have stepped := metered.runStep step silent admitted
        rw [flow] at stepped
        exact stepped
    · exact metered.unmeasured ⟨rfl, rfl⟩

end Metered

end LoopState

theorem Meter.run {σ : Type} (meter : Meter σ options) (environment : Environment σ)
    (tools : List Bytes) (seed : List SeedMessage) (userPrompt : Bytes) (env : σ) (fuel : Nat)
    (silent : LoopState.AllSilent environment tools meter.measures
      (compactionSites environment tools options seed userPrompt env fuel))
    (admitted : LoopState.AllAdmitted meter
      (guardedCalls environment tools options seed userPrompt env fuel)) :
    (agentToolLoopRun environment tools options seed userPrompt env fuel).1.callsWhere
      meter.measures ≤ meter.limit := by
  rcases List.forall_mem_cons.mp silent with ⟨now, later⟩
  have start : LoopState.Metered meter (LoopState.promptSite options (seedMessages seed) userPrompt
      env).state := ⟨Nat.zero_le _, Nat.zero_le _⟩
  have prepared : LoopState.Metered meter (LoopState.prepare environment tools options
      (seedMessages seed) userPrompt env) :=
    (start.unmeasured (LoopState.unmeasured_compacted now)).unmeasured ⟨rfl, rfl⟩
  exact (prepared.runSteps fuel 0 later admitted).limited

/-! ## The limits of the options -/

theorem toolLimit_nil (options : Options) :
    LoopState.toolLimit options [] = options.maxToolCallsPerTool := by
  have missing : options.toolCallLimits.find? (fun limit =>
      !(cString limit.toolName).isEmpty && cString limit.toolName == []) = none := by
    rw [List.find?_eq_none]
    intro limit _
    cases cString limit.toolName <;> simp
  rw [LoopState.toolLimit, missing]

theorem toolLimit_eq_limitFor (options : Options) (named : toolName ≠ []) :
    LoopState.toolLimit options toolName = limitFor options toolName := by
  have sameEntry : (fun limit : CallLimit =>
        !(cString limit.toolName).isEmpty && cString limit.toolName == toolName) =
      fun limit => cString limit.toolName == toolName := by
    funext limit
    by_cases isTool : cString limit.toolName = toolName
    · rw [isTool]
      simp [named]
    · simp [isTool]
  cases found : options.toolCallLimits.find? fun limit => cString limit.toolName == toolName with
  | none => simp only [LoopState.toolLimit, limitFor, sameEntry, found]
  | some limit => simp only [LoopState.toolLimit, limitFor, sameEntry, found]

/-- Entries without a name make no difference: there is none, or the common limit
is not above it. -/
def EntryHeeded (options : Options) (toolName : Bytes) : Prop :=
  toolName = [] →
    options.maxToolCallsPerTool ≠ 0 ∧ options.maxToolCallsPerTool ≤ limitFor options []

instance (options : Options) (toolName : Bytes) : Decidable (EntryHeeded options toolName) :=
  inferInstanceAs (Decidable (_ → _))

theorem toolLimit_le_limitFor (limited : limitFor options toolName ≠ 0)
    (heeded : EntryHeeded options toolName) : LoopState.toolLimit options toolName ≠ 0 ∧
      LoopState.toolLimit options toolName ≤ limitFor options toolName := by
  by_cases unnamed : toolName = []
  · rw [unnamed, toolLimit_nil]
    exact heeded unnamed
  · rw [toolLimit_eq_limitFor options unnamed]
    exact ⟨limited, Nat.le_refl _⟩

/-- In a run in which no memory flush is answered with a tool call, the executor
is asked at most as often as the total limit allows. In a run in which no flush
is answered with a call of a tool and the table of counts has its hash, or room
for it, at each of its calls, the executor is asked for the tool at most as often
as its limit allows. -/
theorem calls_within_limits {σ : Type} (environment : Environment σ) (tools : List Bytes)
    (options : Options) (seed : List SeedMessage) (userPrompt : Bytes) (env : σ) (fuel : Nat) :
    (options.maxToolCallsTotal ≠ 0 →
        (∀ site ∈ compactionSites environment tools options seed userPrompt env fuel,
          ∀ toolName, ¬site.AnsweredWith environment tools toolName) →
        (agentToolLoopRun environment tools options seed userPrompt env fuel).1.executions.length ≤
          options.maxToolCallsTotal) ∧
      ∀ toolName, limitFor options toolName ≠ 0 → EntryHeeded options toolName →
        (∀ site ∈ compactionSites environment tools options seed userPrompt env fuel,
          ¬site.AnsweredWith environment tools toolName) →
        (∀ call ∈ guardedCalls environment tools options seed userPrompt env fuel,
          call.toolName = toolName → call.Tracked) →
        (agentToolLoopRun environment tools options seed userPrompt env fuel).1.callsOf toolName ≤
          limitFor options toolName := by
  constructor
  · intro limited silent
    have within := (LoopState.totalMeter σ limited).run environment tools seed userPrompt env fuel
      (fun site member toolName _ => silent site member toolName) (fun _ _ _ => trivial)
    have all : (LoopState.totalMeter σ limited).measures = fun _ => true := rfl
    rw [all, LoopState.callsWhere, List.countP_true] at within
    exact within
  · intro toolName limited heeded silent tracked
    rcases toolLimit_le_limitFor limited heeded with ⟨metered, below⟩
    have within := (LoopState.toolMeter σ metered).run environment tools seed userPrompt env fuel
      (fun site member name isTool => beq_iff_eq.mp isTool ▸ silent site member)
      (fun call member isTool => tracked call member (beq_iff_eq.mp isTool))
    exact Nat.le_trans within below

/-! ## Runs with and without calls in a flush -/

def sampleLimitedEnvironment : Environment Nat where
  generate asked request :=
    match request.origin with
    | .memoryFlush => (asked, .ok, { assistantContent := ascii "NO_REPLY" })
    | .mainLoop => (asked + 1, .ok, { toolCalls := List.replicate 3 ⟨[], ascii "read", none⟩ })
  execute asked _ _ := (asked, .ok, ascii "result")
  shouldCancel asked := (asked, false)

def sampleLimitedOptions : Options where
  model := ascii "model"
  toolCallLimits := [⟨ascii "read", 2⟩]
  maxToolCallsTotal := 4
  maxChars := 100
  keepLastMessages := 2
  memoryFlushEnabled := true

theorem calls_within_limits_sample :
    (agentToolLoopRun sampleLimitedEnvironment [ascii "memory_put"] sampleLimitedOptions
        sampleFlushSeed (ascii "go on") 0 3).1.executions.length ≤ 4 ∧
      (agentToolLoopRun sampleLimitedEnvironment [ascii "memory_put"] sampleLimitedOptions
        sampleFlushSeed (ascii "go on") 0 3).1.callsOf (ascii "read") ≤ 2 := by
  have silent : ∀ site : CompactionSite Nat, ∀ toolName,
      ¬site.AnsweredWith sampleLimitedEnvironment [ascii "memory_put"] toolName := by
    intro site toolName answered
    rcases answered.listed with ⟨call, member, _⟩
    exact List.not_mem_nil member
  have limits := calls_within_limits sampleLimitedEnvironment [ascii "memory_put"]
    sampleLimitedOptions sampleFlushSeed (ascii "go on") 0 3
  exact ⟨limits.1 (by decide) (fun site _ => silent site),
    limits.2 (ascii "read") (by decide) (by decide) (fun site _ => silent site _) (by decide)⟩

def sampleFlushingEnvironment : Environment Nat where
  generate asked request :=
    match request.origin with
    | .memoryFlush =>
      (asked, .ok, { toolCalls := List.replicate 2 ⟨[], ascii "memory_put", none⟩ })
    | .mainLoop => (asked, .ok, { assistantContent := ascii "done" })
  execute asked _ _ := (asked, .ok, ascii "result")
  shouldCancel asked := (asked, false)

def sampleFlushingOptions : Options where
  model := ascii "model"
  maxToolCallsTotal := 1
  maxToolCallsPerTool := 1
  maxChars := 100
  keepLastMessages := 2
  memoryFlushEnabled := true

/-- The flush in front of the prompt makes two calls where one is allowed, in all
and of each tool. -/
theorem flush_exceeds_limits :
    ¬∀ (environment : Environment Nat) (tools : List Bytes) (options : Options)
        (seed : List SeedMessage) (userPrompt : Bytes) (env fuel : Nat),
      (options.maxToolCallsTotal ≠ 0 →
          (agentToolLoopRun environment tools options seed userPrompt env
            fuel).1.executions.length ≤ options.maxToolCallsTotal) ∧
        ∀ toolName, limitFor options toolName ≠ 0 →
          (agentToolLoopRun environment tools options seed userPrompt env fuel).1.callsOf
            toolName ≤ limitFor options toolName := by
  intro always
  have limited := (always sampleFlushingEnvironment [ascii "memory_put"] sampleFlushingOptions
    (sampleFlushSeed.take 3) (ascii "go on") 0 2).1 (by decide)
  exact absurd limited (by decide)

end AgentC.ToolLoop
