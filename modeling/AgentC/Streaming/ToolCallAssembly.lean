import AgentC.Streaming.WholeStream
import Mathlib.Data.List.GetD

/-! # Tool calls put together from their fragments

The table of a decoder whose calls were all successful holds, for every index, what the
fragments for that index say, however they arrived. -/

namespace AgentC.Streaming

open AgentC.ToolLoop (ToolCall)

def receivedDeltas {σ : Type} (decodeFn : DecodeFn σ) (context : σ) :
    List SseEvent → List ToolCallDelta
  | [] => []
  | event :: rest =>
    if event.data = [] then receivedDeltas decodeFn context rest
    else
      let (next, _, chunk) := decodeFn context event.data
      chunk.toolCalls ++ receivedDeltas decodeFn next rest

/-- The last value that is not empty. -/
def lastNonEmpty (values : List Bytes) : Bytes :=
  (values.filter fun value => !value.isEmpty).getLastD []

structure ToolCallEntry where
  id : Bytes
  name : Bytes
  arguments : Bytes
deriving DecidableEq, Repr

def assembled (deltas : List ToolCallDelta) (index : Nat) : ToolCallEntry :=
  let own := deltas.filter fun delta => delta.index == index
  { id := lastNonEmpty (own.map ToolCallDelta.id)
    name := lastNonEmpty (own.map ToolCallDelta.name)
    arguments := (own.map ToolCallDelta.argumentsDelta).flatten }

def ToolCallEntry.toolCall (entry : ToolCallEntry) : ToolCall where
  id := entry.id
  name := entry.name
  argumentsJson := some entry.arguments

/-- The fields of a call that fragments fill in. Missing arguments are empty ones. -/
def ToolCallEntry.ofCall (call : ToolCall) : ToolCallEntry where
  id := call.id
  name := call.name
  arguments := call.argumentsJson.getD []

def entryAt (calls : List ToolCall) (index : Nat) : ToolCallEntry :=
  .ofCall (calls.getD index emptyCall)

def ToolCallEntry.merge (entry : ToolCallEntry) (delta : ToolCallDelta) : ToolCallEntry where
  id := if delta.id = [] then entry.id else delta.id
  name := if delta.name = [] then entry.name else delta.name
  arguments := entry.arguments ++ delta.argumentsDelta

variable (calls : List ToolCall) (need : Nat) {next : List ToolCall}

theorem getD_padded (more index : Nat) :
    (calls ++ List.replicate more emptyCall).getD index emptyCall = calls.getD index emptyCall := by
  by_cases inside : index < calls.length
  · rw [List.getD_append _ _ _ _ inside]
  · rw [List.getD_append_right _ _ _ _ (by omega), List.getD_eq_default calls _ (by omega),
      List.getD_eq_getElem?_getD, List.getElem?_replicate]
    split <;> rfl

theorem getD_toolCallsReserve (index : Nat) :
    (toolCallsReserve calls need).getD index emptyCall = calls.getD index emptyCall :=
  getD_padded ..

theorem entryAt_toolCallsReserve (index : Nat) :
    entryAt (toolCallsReserve calls need) index = entryAt calls index := by
  rw [entryAt, getD_toolCallsReserve, entryAt]

theorem length_toolCallsReserve : (toolCallsReserve calls need).length = max calls.length need := by
  rw [toolCallsReserve, List.length_append, List.length_replicate]
  omega

theorem getD_modify {calls : List ToolCall} {place : Nat} (inside : place < calls.length)
    (change : ToolCall → ToolCall) (index : Nat) :
    (calls.modify place change).getD index emptyCall =
      if place = index then change (calls.getD index emptyCall)
      else calls.getD index emptyCall := by
  rw [List.getD_eq_getElem?_getD, List.getElem?_modify, List.getD_eq_getElem?_getD]
  split
  · next same =>
    rw [← same, List.getElem?_eq_getElem inside]
    rfl
  · simp

theorem entryAt_modify {calls : List ToolCall} {place : Nat} (inside : place < calls.length)
    (change : ToolCall → ToolCall) (changed : ToolCallEntry → ToolCallEntry)
    (same : .ofCall (change (calls.getD place emptyCall)) = changed (entryAt calls place))
    (index : Nat) :
    entryAt (calls.modify place change) index =
      if place = index then changed (entryAt calls index) else entryAt calls index := by
  simp only [entryAt, getD_modify inside]
  split
  · next here =>
    rw [← here]
    exact same
  · rfl

theorem applyToolCallDelta_ok {config : StreamConfig} {calls : List ToolCall}
    {delta : ToolCallDelta} (applied : applyToolCallDelta config calls delta = (.ok, next)) :
    next.length = max calls.length (delta.index + 1) ∧
      ∀ index, entryAt next index =
        if delta.index = index then (entryAt calls index).merge delta
        else entryAt calls index := by
  let rename (call : ToolCall) : ToolCall :=
    { call with
      id := if delta.id.isEmpty then call.id else delta.id
      name := if delta.name.isEmpty then call.name else delta.name }
  let named := (toolCallsReserve calls (delta.index + 1)).modify delta.index rename
  let held := (named.getD delta.index emptyCall).argumentsJson.getD []
  have reserved : delta.index < (toolCallsReserve calls (delta.index + 1)).length := by
    rw [length_toolCallsReserve]
    omega
  have length : named.length = max calls.length (delta.index + 1) := by
    rw [List.length_modify, length_toolCallsReserve]
  have inside : delta.index < named.length := by omega
  have entries : ∀ index, entryAt named index =
      if delta.index = index then
        (entryAt calls index).merge { delta with argumentsDelta := [] }
      else entryAt calls index := by
    intro index
    rw [← entryAt_toolCallsReserve calls (delta.index + 1)]
    exact entryAt_modify reserved rename
      (fun entry => entry.merge { delta with argumentsDelta := [] })
      (by simp [entryAt, ToolCallEntry.ofCall, ToolCallEntry.merge, rename]) index
  rw [applyToolCallDelta] at applied
  split at applied
  · cases applied
  · change (if delta.argumentsDelta.isEmpty then (Status.ok, named)
      else if 0 < config.maxToolCallArgsChars ∧
          config.maxToolCallArgsChars < held.length + delta.argumentsDelta.length then
        (.limit, named)
      else
        (.ok, named.modify delta.index fun call =>
          { call with argumentsJson := some (held ++ delta.argumentsDelta) })) = _ at applied
    split at applied
    · next empty =>
      have same := (Prod.mk.inj applied).2
      rw [← same]
      refine ⟨length, ?_⟩
      intro index
      rw [entries]
      simp only [ToolCallEntry.merge, List.isEmpty_iff.mp empty]
    split at applied
    · cases applied
    · have same := (Prod.mk.inj applied).2
      have appended := entryAt_modify inside
        (fun call => { call with argumentsJson := some (held ++ delta.argumentsDelta) })
        (fun entry => { entry with arguments := entry.arguments ++ delta.argumentsDelta }) rfl
      rw [← same]
      refine ⟨(List.length_modify ..).trans length, ?_⟩
      intro index
      rw [appended, entries]
      split
      · simp only [ToolCallEntry.merge, List.append_nil]
      · rfl

structure Absorbed (calls : List ToolCall) (deltas : List ToolCallDelta) (next : List ToolCall) :
    Prop where
  length : ∀ bound, calls.length ≤ bound → (∀ delta ∈ deltas, delta.index < bound) →
    next.length ≤ bound
  entries : ∀ index, entryAt next index =
    (deltas.filter fun delta => delta.index == index).foldl .merge (entryAt calls index)

theorem Absorbed.nil : Absorbed calls [] calls where
  length _ within _ := within
  entries _ := rfl

theorem Absorbed.append {calls middle : List ToolCall} {front rest : List ToolCallDelta}
    (first : Absorbed calls front middle) (second : Absorbed middle rest next) :
    Absorbed calls (front ++ rest) next where
  length bound within below :=
    second.length bound
      (first.length bound within fun delta member => below delta (List.mem_append_left _ member))
      fun delta member => below delta (List.mem_append_right _ member)
  entries index := by
    rw [List.filter_append, List.foldl_append, ← first.entries, second.entries]

theorem Absorbed.single {config : StreamConfig} {calls : List ToolCall} {delta : ToolCallDelta}
    (applied : applyToolCallDelta config calls delta = (.ok, next)) :
    Absorbed calls [delta] next := by
  have merged := applyToolCallDelta_ok applied
  constructor
  · intro bound within below
    have here := below delta (List.mem_singleton_self _)
    rw [merged.1]
    omega
  · intro index
    rw [merged.2]
    by_cases here : delta.index = index
    · simp [here]
    · simp [here]

section

variable {σ : Type} {config : StreamConfig} {decodeFn : DecodeFn σ}

/-- The table has taken in the fragments, and nothing was decoded. -/
structure Adds (deltas : List ToolCallDelta) (before after : Assembly σ) : Prop where
  context : after.decodeContext = before.decodeContext
  absorbed : Absorbed before.toolCalls deltas after.toolCalls

theorem Adds.nothing (assembly : Assembly σ) : Adds [] assembly assembly :=
  ⟨rfl, .nil _⟩

theorem Adds.append {front rest : List ToolCallDelta} (before middle after : Assembly σ)
    (first : Adds front before middle) (second : Adds rest middle after) :
    Adds (front ++ rest) before after :=
  ⟨second.context.trans first.context, first.absorbed.append second.absorbed⟩

theorem adds_emit (type : StreamEventType) (dataJson : Bytes) :
    Attempt.Achieves (Adds (σ := σ) []) (emitStreamEvent type dataJson) := by
  intro before after done
  cases done
  exact ⟨rfl, .nil _⟩

theorem adds_emitToolCalls : Attempt.Achieves (Adds (σ := σ) []) emitToolCalls := by
  intro before after done
  let named := before.toolCalls.filter fun call => !call.name.isEmpty
  let emitted (_ : List ToolCall) : Assembly σ → Assembly σ → Prop := Adds []
  have each : Attempt.Achieves (emitted named) _ := Attempt.achieves_forM
    (fun call => adds_emit .toolCall (toolCallJson call)) Adds.nothing
    (fun _ _ before middle after => Adds.append before middle after) named
  exact each before after done

theorem adds_processDelta (delta : ToolCallDelta) :
    Attempt.Achieves (Adds (σ := σ) [delta]) (processDelta config delta) := by
  intro before after done
  rw [processDelta, Attempt.outcome_get] at done
  rcases applied : applyToolCallDelta config before.toolCalls delta with ⟨status, next⟩
  simp only [applied] at done
  rw [Attempt.outcome_set] at done
  by_cases ok : status = .ok
  · rw [ok] at applied
    have emitted : (emitStreamEvent .toolCallDelta (toolCallDeltaJson delta)).outcome
        { before with toolCalls := next } = (.ok (), after) := by
      rw [check, if_pos ok] at done
      exact done
    have adds := adds_emit _ _ _ _ emitted
    exact ⟨adds.context, (Absorbed.single applied).append adds.absorbed⟩
  · rw [check, if_neg ok] at done
    cases done

theorem adds_optional {deltas : List ToolCallDelta} {action rest : Attempt (Assembly σ) Status Unit}
    (nothing : Attempt.Achieves (Adds []) action) (later : Attempt.Achieves (Adds deltas) rest)
    (done : Prop) [Decidable done] :
    Attempt.Achieves (Adds deltas) (if done then do action; rest else rest) := by
  split
  · exact nothing.andThen later Adds.append
  · exact later

theorem adds_processDeltas (deltas : List ToolCallDelta) :
    Attempt.Achieves (Adds (σ := σ) deltas) (deltas.forM (processDelta config)) :=
  Attempt.achieves_forM adds_processDelta Adds.nothing
    (fun _ _ before middle after => Adds.append before middle after) deltas

theorem outcome_decodeData (data : Bytes) (action : StreamChunk → Attempt (Assembly σ) Status Unit)
    (before : Assembly σ) :
    (do action (← decodeData decodeFn data)).outcome before =
      let (decodeContext, status, chunk) := decodeFn before.decodeContext data
      if status = .ok then (action chunk).outcome { before with decodeContext }
      else (.error status, { before with decodeContext }) := by
  rcases decoded : decodeFn before.decodeContext data with ⟨decodeContext, status, chunk⟩
  rw [decodeData, bind_assoc, Attempt.outcome_get]
  simp only [decoded, bind_assoc, pure_bind]
  rw [Attempt.outcome_set]
  by_cases ok : status = .ok
  · rw [check, if_pos ok, if_pos ok]
    rfl
  · rw [check, if_neg ok, if_neg ok]
    rfl

theorem processEvent_ok {event : SseEvent} {before after : Assembly σ}
    (done : (processEvent config decodeFn event).outcome before = (.ok (), after)) :
    if event.data = [] then after = before
    else
      after.decodeContext = (decodeFn before.decodeContext event.data).1 ∧
        Absorbed before.toolCalls (decodeFn before.decodeContext event.data).2.2.toolCalls
          after.toolCalls := by
  rw [processEvent] at done
  by_cases empty : event.data = []
  · rw [empty] at done
    rw [if_pos empty]
    cases done
    rfl
  · have filled : event.data.isEmpty = false := by
      rw [List.isEmpty_eq_false_iff]
      exact empty
    rw [if_neg empty]
    rw [filled, if_neg (by decide)] at done
    dsimp only at done
    rw [outcome_decodeData] at done
    split at done
    next decodeContext status chunk decoded =>
    split at done
    · rw [decoded]
      have finish : Attempt.Achieves (Adds (σ := σ) []) (if chunk.hasFinishReason = true then do
            emitToolCalls
            emitStreamEvent .streamEnd (braced (kvString "finish_reason" chunk.finishReason))
          else pure ()) := by
        split
        · exact adds_emitToolCalls.andThen (adds_emit _ _) Adds.append
        · exact Attempt.achieves_pure Adds.nothing
      have usage := adds_optional (adds_emit .llmUsage (usageJson chunk)) finish
        (chunk.hasUsage = true)
      have deltas := (@adds_processDeltas σ config chunk.toolCalls).andThen usage
        Adds.append
      rw [List.append_nil] at deltas
      have adds : Adds chunk.toolCalls { before with decodeContext } after := by
        refine adds_optional (adds_emit _ _) ?_ _ _ _ done
        split
        · exact (adds_emit _ _).andThen deltas Adds.append
        · exact deltas
      exact ⟨adds.context, adds.absorbed⟩
    · cases done

theorem processEvents_ok {events : List SseEvent} {before after : Assembly σ}
    (done : (events.forM (processEvent config decodeFn)).outcome before = (.ok (), after)) :
    Absorbed before.toolCalls (receivedDeltas decodeFn before.decodeContext events)
      after.toolCalls := by
  induction events generalizing before with
  | nil =>
    cases done
    exact .nil _
  | cons event rest induction =>
    rw [Attempt.outcome_forM_cons] at done
    rcases handled : (processEvent config decodeFn event).outcome before with ⟨result, middle⟩
    rw [handled] at done
    cases result with
    | error failure => cases done
    | ok value =>
      have first := processEvent_ok handled
      have later := induction done
      rw [receivedDeltas]
      split at first
      · next empty =>
        rw [if_pos empty, ← first]
        exact later
      · next filled =>
        rw [if_neg filled]
        rw [first.1] at later
        exact first.2.append later

theorem withinEventCap_of_ok {decoder : StreamDecoder σ} {pieces : List Bytes}
    (succeeded : (feedUntilError config decodeFn decoder pieces).1 = .ok ()) :
    WithinEventCap config decodeFn decoder pieces := by
  induction pieces generalizing decoder with
  | nil => trivial
  | cons piece rest induction =>
    rw [feedUntilError, Attempt.outcome_forM_cons] at succeeded
    rcases called : (feed config decodeFn piece).outcome decoder with ⟨result, next⟩
    rw [called] at succeeded
    cases result with
    | error failure => cases succeeded
    | ok value =>
      refine ⟨?_, ?_⟩
      · rw [outcome_feed] at called
        dsimp only at called
        split at called
        · assumption
        · cases called
      · intro _
        rw [called]
        exact induction succeeded

end

theorem foldl_merge (own : List ToolCallDelta) (entry : ToolCallEntry) :
    own.foldl .merge entry =
      { id := ((own.map ToolCallDelta.id).filter fun value => !value.isEmpty).getLastD entry.id
        name :=
          ((own.map ToolCallDelta.name).filter fun value => !value.isEmpty).getLastD entry.name
        arguments := entry.arguments ++ (own.map ToolCallDelta.argumentsDelta).flatten } := by
  induction own generalizing entry with
  | nil => simp
  | cons delta rest induction =>
    have last : ∀ (value : Bytes) (values : List Bytes) (default : Bytes),
        ((value :: values).filter fun value => !value.isEmpty).getLastD default =
          (values.filter fun value => !value.isEmpty).getLastD
            (if value = [] then default else value) := by
      intro value values default
      cases value with
      | nil => rfl
      | cons => rw [List.filter_cons_of_pos rfl, List.getLastD_cons, if_neg (by simp)]
    rw [List.foldl_cons, induction]
    simp only [List.map_cons, last, List.flatten_cons, ToolCallEntry.merge, List.append_assoc]

theorem Absorbed.assembled {deltas : List ToolCallDelta} (absorbed : Absorbed [] deltas next)
    (index : Nat) : entryAt next index = Streaming.assembled deltas index := by
  rw [absorbed.entries, foldl_merge]
  rfl

/-- The copied calls are the named entries of the table, in the order of their indices. -/
theorem copyToolCalls_eq {σ : Type} (decoder : StreamDecoder σ) {bound : Nat}
    (within : decoder.assembly.toolCalls.length ≤ bound) :
    copyToolCalls decoder =
      ((List.range bound).filter fun index =>
        !(entryAt decoder.assembly.toolCalls index).name.isEmpty).map fun index =>
          (entryAt decoder.assembly.toolCalls index).toolCall := by
  let calls := decoder.assembly.toolCalls
  let padded := calls ++ List.replicate (bound - calls.length) emptyCall
  have named : padded.filter (fun call => !call.name.isEmpty) =
      calls.filter fun call => !call.name.isEmpty := by
    rw [List.filter_append, List.filter_replicate_of_neg (by decide), List.append_nil]
  have listed : padded = (List.range bound).map fun index => calls.getD index emptyCall := by
    apply List.ext_getElem
    · simp only [padded, calls, List.length_append, List.length_replicate, List.length_map,
        List.length_range]
      omega
    · intro index inside _
      rw [List.getElem_map, List.getElem_range, ← getD_padded calls (bound - calls.length),
        List.getD_eq_getElem _ _ inside]
  rw [copyToolCalls, ← named, listed, List.filter_map, List.map_map]
  rfl

/-- Calls that are all successful put every tool call together as its fragments say. -/
theorem toolCalls_assembled {σ : Type} (config : StreamConfig) (decodeFn : DecodeFn σ)
    (decodeContext : σ) (pieces : List Bytes)
    (succeeded : (feedUntilError config decodeFn (.init decodeContext) pieces).1 = .ok ())
    (small : ∀ delta ∈ receivedDeltas decodeFn decodeContext (referenceEvents pieces.flatten),
      delta.index < 2 ^ 32) :
    let decoder := (feedUntilError config decodeFn (.init decodeContext) pieces).2
    let deltas := receivedDeltas decodeFn decodeContext (referenceEvents pieces.flatten)
    (∀ index, entryAt decoder.assembly.toolCalls index = assembled deltas index) ∧
      copyToolCalls decoder =
        ((List.range (2 ^ 32)).filter fun index => !(assembled deltas index).name.isEmpty).map
          fun index => (assembled deltas index).toolCall := by
  have unbroken : SseParser.Unbroken (StreamDecoder.init decodeContext).parser.buf := allIn_nil _
  have run := feedUntilError_eq config decodeFn unbroken (withinEventCap_of_ok succeeded)
  have holds : ({} : SseParser).Holds {} := ⟨rfl, rfl, rfl⟩
  dsimp only at run
  rw [succeeded] at run
  have handled := processEvents_ok run.symm
  have events : (SseParser.byteMachine.run {} pieces.flatten).2 = referenceEvents pieces.flatten :=
    SseParser.run_events holds rfl _
  have absorbed : Absorbed []
      (receivedDeltas decodeFn decodeContext (referenceEvents pieces.flatten))
      (feedUntilError config decodeFn (.init decodeContext) pieces).2.assembly.toolCalls := by
    rw [← events]
    exact handled
  have entries := absorbed.assembled
  refine ⟨entries, ?_⟩
  rw [copyToolCalls_eq _ (absorbed.length (2 ^ 32) (Nat.zero_le _) small)]
  simp only [entries]

def sampleFragments : DecodeFn Unit := fun context data =>
  if data = ascii "first" then
    (context, .ok,
      { toolCalls :=
          [{ index := 3, id := ascii "b", name := ascii "write", argumentsDelta := ascii "[1" },
            { index := 0, name := ascii "read" }] })
  else
    (context, .ok,
      { toolCalls := [{ index := 3, argumentsDelta := ascii ",2]" }, { index := 0, id := ascii "a" }]
        hasFinishReason := true })

theorem toolCalls_assembled_sample :
    let decoder := (feedUntilError {} sampleFragments (.init ())
      [ascii "data: first\n\ndata: se", ascii "cond\n\n"]).2
    entryAt decoder.assembly.toolCalls 3 = ⟨ascii "b", ascii "write", ascii "[1,2]"⟩ := by
  have assembled := toolCalls_assembled {} sampleFragments ()
    [ascii "data: first\n\ndata: se", ascii "cond\n\n"] (by decide +kernel) (by decide +kernel)
  exact (assembled.1 3).trans (by decide +kernel)

end AgentC.Streaming
