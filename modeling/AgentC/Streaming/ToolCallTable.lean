import AgentC.Foundation.SignedArithmetic
import AgentC.Streaming.ToolCallAssembly
import Mathlib.Tactic.IntervalCases

/-! # The table of tool calls in memory

`sd_tool_calls_reserve` and `sd_apply_tool_call_delta` with a word of 64 bits: the index plus
one, the doubled capacity and the number of bytes are computed in a word, and the block that
is allocated need not have as many entries as the capacity that is recorded. -/

namespace AgentC.Streaming

open AgentC.ToolLoop (ToolCall)

/-- What `size_t` wraps around at. -/
def wordSize : Nat := 2 ^ 64

/-- `sizeof(agent_tool_call_t)`: three strings, each a pointer and a length. -/
def callBytes : Nat := 48

/-- `agent_malloc`: whether a call is granted so many bytes, and how many calls were made. -/
structure Heap where
  grants : Nat → Nat → Bool
  calls : Nat := 0

structure CallTable where
  /-- As many as the block has room for. -/
  entries : List ToolCall := []
  count : Nat := 0
  cap : Nat := 0
deriving DecidableEq, Repr

/-- The doubling loop of `sd_tool_calls_reserve`, for so many turns at most. -/
def growCap (need : Nat) : (turns : Nat) → Nat → Option Nat
  | 0, _ => none
  | turns + 1, newCap =>
    if newCap < need then growCap need turns (newCap * 2 % wordSize) else some newCap

/-- The new block of `sd_tool_calls_reserve`. The entries in use are copied to it. -/
def moveCalls (table : CallTable) (heap : Heap) (newCap : Nat) :
    Defined (Status × CallTable × Heap) :=
  let bytes := newCap * callBytes % wordSize
  let granted := heap.grants heap.calls bytes
  let heap := { heap with calls := heap.calls + 1 }
  if granted = false then .ok (.oom, table, heap)
  else if bytes / callBytes < table.count then .error .outOfBounds
  else
    .ok (.ok,
      { table with
        entries := table.entries.take table.count ++
          List.replicate (bytes / callBytes - table.count) emptyCall
        cap := newCap },
      heap)

/-- `sd_tool_calls_reserve`. There is no result as long as the loop has not ended. -/
def toolCallsReserveIn (turns : Nat) (table : CallTable) (heap : Heap) (need : Nat) :
    Option (Defined (Status × CallTable × Heap)) :=
  if need ≤ table.cap then some (.ok (.ok, table, heap))
  else (growCap need turns (if table.cap = 0 then 4 else table.cap)).map (moveCalls table heap)

def requestBytes (bytes : Nat) : Attempt (ToolCall × Heap) Status Unit := do
  let (call, heap) ← get
  set (call, { heap with calls := heap.calls + 1 })
  unless heap.grants heap.calls bytes do throw .oom

/-- A text of the entry is replaced, and freed before its copy is allocated. -/
def replaceText (text : Bytes) (store : ToolCall → Bytes → ToolCall) :
    Attempt (ToolCall × Heap) Status Unit := do
  unless text.isEmpty do
    modify fun (call, heap) => (store call [], heap)
    requestBytes (text.length + 1)
    modify fun (call, heap) => (store call text, heap)

def appendArguments (config : StreamConfig) (argumentsDelta : Bytes) :
    Attempt (ToolCall × Heap) Status Unit := do
  unless argumentsDelta.isEmpty do
    let (call, _) ← get
    let arguments := call.argumentsJson.getD [] ++ argumentsDelta
    if 0 < config.maxToolCallArgsChars ∧ config.maxToolCallArgsChars < arguments.length then
      throw .limit
    else
      requestBytes (arguments.length + 1)
      modify fun (call, heap) => ({ call with argumentsJson := some arguments }, heap)

def enterDelta (config : StreamConfig) (delta : ToolCallDelta) :
    Attempt (ToolCall × Heap) Status Unit := do
  replaceText delta.id fun call id => { call with id }
  replaceText delta.name fun call name => { call with name }
  appendArguments config delta.argumentsDelta

def statusOf : Except Status Unit → Status
  | .ok _ => .ok
  | .error status => status

/-- The entry of a fragment is written. The address of an entry outside the block has no
meaning already. -/
def writeCall (config : StreamConfig) (delta : ToolCallDelta) (table : CallTable) (heap : Heap) :
    Defined (Status × CallTable × Heap) :=
  match table.entries[delta.index]? with
  | none => .error .outOfBounds
  | some call =>
    let (result, call, heap) := (enterDelta config delta).outcome (call, heap)
    .ok (statusOf result, { table with entries := table.entries.set delta.index call }, heap)

def CallTable.counting (table : CallTable) (needed : Nat) : CallTable :=
  if table.count < needed then { table with count := needed } else table

/-- What is done behind `sd_tool_calls_reserve`. -/
def applyReserved (config : StreamConfig) (delta : ToolCallDelta)
    (reserved : Status × CallTable × Heap) : Defined (Status × CallTable × Heap) :=
  if reserved.1 ≠ .ok then .ok reserved
  else
    writeCall config delta (reserved.2.1.counting ((delta.index + 1) % wordSize)) reserved.2.2

/-- The limit turns the index down. -/
def Limited (config : StreamConfig) (index : Nat) : Prop :=
  0 < config.maxToolCallsTotal ∧ config.maxToolCallsTotal ≤ index

instance (config : StreamConfig) (index : Nat) : Decidable (Limited config index) :=
  inferInstanceAs (Decidable (_ ∧ _))

/-- `sd_apply_tool_call_delta` -/
def applyToolCallDeltaIn (turns : Nat) (config : StreamConfig) (table : CallTable) (heap : Heap)
    (delta : ToolCallDelta) : Option (Defined (Status × CallTable × Heap)) :=
  if Limited config delta.index then some (.ok (.limit, table, heap))
  else
    (toolCallsReserveIn turns table heap ((delta.index + 1) % wordSize)).map fun reserved =>
      reserved >>= applyReserved config delta

/-- The tables of decoders: empty at first, and then what fragments leave. -/
inductive IsDecoderTable : CallTable → Prop
  | init : IsDecoderTable {}
  | apply {turns : Nat} {config : StreamConfig} {table after : CallTable} {heap next : Heap}
      {delta : ToolCallDelta} {status : Status} (before : IsDecoderTable table)
      (word : delta.index < wordSize)
      (applied : applyToolCallDeltaIn turns config table heap delta =
        some (.ok (status, after, next))) :
      IsDecoderTable after

/-! ## Doubling -/

variable {need exponent turns newCap final index : Nat} {status : Status} {delta : ToolCallDelta}
variable {call : ToolCall}

theorem growCap_double (small : 2 ^ exponent < need) (turns : Nat) (fits : exponent < 63) :
    growCap need (turns + 1) (2 ^ exponent) = growCap need turns (2 ^ (exponent + 1)) := by
  have double : 2 ^ exponent * 2 % wordSize = 2 ^ (exponent + 1) := by
    rw [← Nat.pow_succ]
    exact Nat.mod_eq_of_lt (Nat.pow_lt_pow_right (by decide) (by omega))
  rw [growCap, if_pos small, double]

theorem exists_growCap {rest : Nat} (last : exponent + rest = 63) (half : need ≤ 2 ^ 63) :
    ∃ newCap, growCap need (rest + 1) (2 ^ exponent) = some newCap := by
  induction rest generalizing exponent with
  | zero =>
    have top : exponent = 63 := last
    rw [top, growCap, if_neg (by omega)]
    exact ⟨_, rfl⟩
  | succ rest induction =>
    by_cases small : 2 ^ exponent < need
    · rw [growCap_double small _ (by omega)]
      exact induction (by omega)
    · rw [growCap, if_neg small]
      exact ⟨_, rfl⟩

theorem growCap_zero (positive : 0 < need) (turns : Nat) : growCap need turns 0 = none := by
  induction turns with
  | zero => rfl
  | succ turns induction =>
    rw [growCap, if_pos positive]
    exact induction

/-- A loop that ends has found a power of two, and no larger one than it has to be. -/
theorem growCap_eq_some (fits : exponent ≤ 63)
    (ended : growCap need turns (2 ^ exponent) = some newCap) :
    ∃ final, exponent ≤ final ∧ final ≤ 63 ∧ newCap = 2 ^ final ∧ need ≤ newCap ∧
      (final = exponent ∨ newCap < 2 * need) := by
  induction turns generalizing exponent with
  | zero => cases ended
  | succ turns induction =>
    by_cases small : 2 ^ exponent < need
    · by_cases top : exponent = 63
      · rw [growCap, if_pos small, top] at ended
        have none := growCap_zero (Nat.lt_of_le_of_lt (Nat.zero_le _) small) turns
        rw [show 2 ^ 63 * 2 % wordSize = 0 from rfl, none] at ended
        cases ended
      · rw [growCap_double small turns (by omega)] at ended
        rcases induction (by omega) ended with ⟨final, above, below, same, enough, least⟩
        refine ⟨final, by omega, below, same, enough, .inr ?_⟩
        rcases least with first | least
        · rw [same, first, Nat.pow_succ]
          omega
        · exact least
    · rw [growCap, if_neg small] at ended
      cases ended
      exact ⟨exponent, Nat.le_refl _, fits, rfl, by omega, .inl rfl⟩

theorem bytes_of_le (few : final ≤ 58) :
    2 ^ final * callBytes % wordSize = 2 ^ final * callBytes := by
  apply Nat.mod_eq_of_lt
  calc 2 ^ final * callBytes
      ≤ 2 ^ 58 * callBytes :=
        Nat.mul_le_mul_right _ (Nat.pow_le_pow_right (by decide) few)
    _ < wordSize := by decide

theorem bytes_of_ge (many : 60 ≤ final) (last : final ≤ 63) :
    2 ^ final * callBytes % wordSize = 0 := by
  interval_cases final <;> decide

def wrappedBytes (need : Nat) : Nat :=
  if need ≤ 2 ^ 59 then 2 ^ 63 else 0

/-! ## What holds of a table -/

/-- The block has the recorded capacity, which is a power of two that fits in memory, and the
entries that are not in use are empty. -/
structure CallTable.Sound (table : CallTable) : Prop where
  whole : table.entries.length = table.cap
  counted : table.count ≤ table.cap
  grown : table.cap = 0 ∨ ∃ exponent, exponent ≤ 58 ∧ table.cap = 2 ^ exponent
  unused : ∀ call ∈ table.entries.drop table.count, call = emptyCall

theorem CallTable.sound_init : CallTable.Sound {} :=
  ⟨rfl, Nat.le_refl 0, .inl rfl, nofun⟩

/-- The entry of one index is written, and nothing else changes. -/
structure WritesOnly (index : Nat) (table after : CallTable) : Prop where
  inside : index < after.entries.length
  whole : after.entries.length = after.cap
  others : ∀ other, other ≠ index →
    after.entries.getD other emptyCall = table.entries.getD other emptyCall

section Soundness

variable {table : CallTable} (sound : table.Sound)

include sound

theorem CallTable.Sound.cap_le : table.cap ≤ 2 ^ 58 := by
  rcases sound.grown with none | ⟨exponent, few, same⟩
  · omega
  · rw [same]
    exact Nat.pow_le_pow_right (by decide) few

theorem CallTable.Sound.start :
    ∃ exponent, exponent ≤ 58 ∧ (if table.cap = 0 then 4 else table.cap) = 2 ^ exponent := by
  rcases sound.grown with none | ⟨exponent, few, same⟩
  · exact ⟨2, by decide, if_pos none⟩
  · refine ⟨exponent, few, ?_⟩
    rw [if_neg, same]
    rw [same]
    exact (Nat.two_pow_pos exponent).ne'

/-- The capacity that the loop finds: its entries fit in a word of bytes, or it is taken for
what they wrap around to. -/
theorem CallTable.Sound.grown_eq
    (ended : growCap need turns (if table.cap = 0 then 4 else table.cap) = some newCap) :
    ∃ final, newCap = 2 ^ final ∧ need ≤ 2 ^ final ∧ need ≤ 2 ^ 63 ∧
      (final ≤ 58 ∨
        2 ^ final * callBytes % wordSize = wrappedBytes need ∧ 2 ^ 58 < need) := by
  rcases sound.start with ⟨exponent, few, same⟩
  rw [same] at ended
  rcases growCap_eq_some (by omega) ended with ⟨final, above, last, rfl, enough, least⟩
  refine ⟨final, rfl, enough,
    Nat.le_trans enough (Nat.pow_le_pow_right (by decide) last), or_iff_not_imp_left.mpr ?_⟩
  intro many
  have least := least.resolve_left (by omega)
  rw [wrappedBytes]
  by_cases exactly : final = 59
  · rw [exactly] at least enough ⊢
    rw [if_pos enough]
    exact ⟨by decide, by omega⟩
  · have atLeast : 2 ^ 60 ≤ 2 ^ final := Nat.pow_le_pow_right (by decide) (by omega)
    rw [if_neg (by omega), bytes_of_ge (by omega) last]
    exact ⟨rfl, by omega⟩

theorem CallTable.Sound.exists_grown (half : need ≤ 2 ^ 63) :
    ∃ turns newCap,
      growCap need turns (if table.cap = 0 then 4 else table.cap) = some newCap := by
  rcases sound.start with ⟨exponent, few, same⟩
  rw [same]
  have last : exponent + (63 - exponent) = 63 := by omega
  rcases exists_growCap last half with ⟨newCap, ended⟩
  exact ⟨_, newCap, ended⟩

theorem CallTable.Sound.getD_unused (beyond : table.count ≤ index) :
    table.entries.getD index emptyCall = emptyCall := by
  rw [List.getD_eq_getElem?_getD]
  by_cases inside : index < table.entries.length
  · have member : table.entries[index] ∈ table.entries.drop table.count := by
      rw [List.mem_drop_iff_getElem]
      exact ⟨index - table.count, by omega, by simp [Nat.add_sub_cancel' beyond]⟩
    rw [List.getElem?_eq_getElem inside, Option.getD_some]
    exact sound.unused _ member
  · rw [List.getElem?_eq_none (by omega)]
    rfl

end Soundness

/-! ## Making room -/

/-- The table has room, and its entries are the ones that it had. -/
structure MakesRoom (need : Nat) (table after : CallTable) : Prop where
  sound : after.Sound
  room : need ≤ after.cap
  count : after.count = table.count
  same : ∀ index, after.entries.getD index emptyCall = table.entries.getD index emptyCall

theorem CallTable.Sound.move {table : CallTable} (sound : table.Sound) (few : final ≤ 58)
    (more : table.cap < need) (enough : need ≤ 2 ^ final) : MakesRoom need table { table with
        entries := table.entries.take table.count ++
          List.replicate (2 ^ final - table.count) emptyCall
        cap := 2 ^ final } := by
  have counted := sound.counted
  have used : (table.entries.take table.count).length = table.count := by
    rw [List.length_take, sound.whole]
    omega
  refine ⟨⟨?_, ?_, .inr ⟨final, few, rfl⟩, ?_⟩, enough, rfl, fun index => ?_⟩
  · simp only [List.length_append, used, List.length_replicate]
    omega
  · change table.count ≤ 2 ^ final
    omega
  · intro call member
    simp only at member
    rw [List.drop_left' used] at member
    exact List.eq_of_mem_replicate member
  · rw [List.getD_eq_getElem?_getD, List.getElem?_append, used]
    split
    · next inUse => rw [List.getElem?_take_of_lt inUse, List.getD_eq_getElem?_getD]
    · next beyond =>
      rw [sound.getD_unused (by omega), List.getElem?_replicate]
      split <;> rfl

theorem moveCalls_eq_ok {table after : CallTable} {heap next : Heap}
    (moved : moveCalls table heap newCap = .ok (status, after, next)) :
    (heap.grants heap.calls (newCap * callBytes % wordSize) = false ∧ status = .oom ∧
      after = table) ∨ status = .ok ∧ after = { table with
        entries := table.entries.take table.count ++
          List.replicate (newCap * callBytes % wordSize / callBytes - table.count) emptyCall
        cap := newCap } ∧ table.count ≤ newCap * callBytes % wordSize / callBytes := by
  rw [moveCalls] at moved
  split at moved
  · next refused =>
    cases moved
    exact .inl ⟨refused, rfl, rfl⟩
  · split at moved
    · cases moved
    · next copied =>
      cases moved
      exact .inr ⟨rfl, rfl, by omega⟩

theorem moveCalls_of_refused {heap : Heap}
    (refused : heap.grants heap.calls (newCap * callBytes % wordSize) = false) (table : CallTable) :
    moveCalls table heap newCap = .ok (.oom, table, { heap with calls := heap.calls + 1 }) := by
  rw [moveCalls, if_pos refused]

theorem exists_moveCalls {table : CallTable} {heap : Heap}
    (copied : table.count ≤ newCap * callBytes % wordSize / callBytes) :
    ∃ result, moveCalls table heap newCap = .ok result := by
  rw [moveCalls]
  split
  · exact ⟨_, rfl⟩
  · rw [if_neg (by omega)]
    exact ⟨_, rfl⟩

/-- What a call of `sd_tool_calls_reserve` that returns has done. -/
inductive Reserved (need : Nat) (table : CallTable) (heap : Heap) : Status → CallTable → Prop
  | refused (less : need ≤ 2 ^ 58 ∨
      need ≤ 2 ^ 63 ∧ heap.grants heap.calls (wrappedBytes need) = false) :
      Reserved need table heap .oom table
  | room {after : CallTable} (makes : MakesRoom need table after) :
      Reserved need table heap .ok after
  | short {after : CallTable} (less : after.entries.length < need) (more : 2 ^ 58 < need)
      (half : need ≤ 2 ^ 63) : Reserved need table heap .ok after

theorem CallTable.Sound.reserved {table after : CallTable} (sound : table.Sound) {heap next : Heap}
    (returned : toolCallsReserveIn turns table heap need = some (.ok (status, after, next))) :
    Reserved need table heap status after := by
  rw [toolCallsReserveIn] at returned
  split at returned
  · next enough =>
    cases returned
    exact .room ⟨sound, enough, rfl, fun _ => rfl⟩
  · next more =>
    rcases Option.map_eq_some_iff.mp returned with ⟨newCap, ended, moved⟩
    have result := moveCalls_eq_ok moved
    rcases sound.grown_eq ended with ⟨final, rfl, enough, half, few | ⟨bytes, beyond⟩⟩
    · rw [bytes_of_le few, Nat.mul_div_cancel _ (by decide)] at result
      rcases result with ⟨_, rfl, rfl⟩ | ⟨rfl, rfl, _⟩
      · exact .refused (.inl (Nat.le_trans enough (Nat.pow_le_pow_right (by decide) few)))
      · exact .room (sound.move few (by omega) enough)
    · rw [bytes] at result
      rcases result with ⟨refused, rfl, rfl⟩ | ⟨rfl, rfl, copied⟩
      · exact .refused (.inr ⟨half, refused⟩)
      · apply Reserved.short _ beyond half
        have tooFew : wrappedBytes need / callBytes < 2 ^ 58 := by
          rw [wrappedBytes]
          split <;> decide
        rw [List.length_append, List.length_take, List.length_replicate]
        omega

/-! ## One fragment -/

theorem writeCall_of_inside {config : StreamConfig} {delta : ToolCallDelta} {table : CallTable}
    {heap : Heap} (inside : delta.index < table.entries.length) :
    ∃ status call next, writeCall config delta table heap =
      .ok (status, { table with entries := table.entries.set delta.index call }, next) := by
  rw [writeCall, List.getElem?_eq_getElem inside]
  exact ⟨_, _, _, rfl⟩

theorem writeCall_of_outside {config : StreamConfig} {table : CallTable} {heap : Heap}
    (outside : table.entries.length ≤ delta.index) :
    writeCall config delta table heap = .error .outOfBounds := by
  rw [writeCall, List.getElem?_eq_none outside]

@[simp] theorem CallTable.counting_entries (table : CallTable) (needed : Nat) :
    (table.counting needed).entries = table.entries := by
  rw [counting]
  split <;> rfl

@[simp] theorem CallTable.counting_cap (table : CallTable) (needed : Nat) :
    (table.counting needed).cap = table.cap := by
  rw [counting]
  split <;> rfl

theorem CallTable.counting_count (table : CallTable) (needed : Nat) :
    (table.counting needed).count = max table.count needed := by
  rw [counting]
  split
  · next more => exact (Nat.max_eq_right more.le).symm
  · next enough => exact (Nat.max_eq_left (by omega)).symm

theorem CallTable.Sound.counting {table : CallTable} (sound : table.Sound) {needed : Nat}
    (room : needed ≤ table.cap) : (table.counting needed).Sound where
  whole := by rw [counting_entries, counting_cap, sound.whole]
  counted := by
    rw [counting_count, counting_cap]
    exact Nat.max_le.mpr ⟨sound.counted, room⟩
  grown := by
    rw [counting_cap]
    exact sound.grown
  unused := by
    intro call member
    rw [counting_count, counting_entries] at member
    exact sound.unused call
      ((List.drop_sublist_drop_left _ (Nat.le_max_left _ _)).subset member)

theorem CallTable.Sound.set {table : CallTable} (sound : table.Sound) (used : index < table.count)
    (call : ToolCall) :
    CallTable.Sound { table with entries := table.entries.set index call } where
  whole := by
    rw [List.length_set]
    exact sound.whole
  counted := sound.counted
  grown := sound.grown
  unused := by
    intro other member
    rw [List.drop_set_of_lt used] at member
    exact sound.unused other member

theorem writesOnly_set {table after : CallTable} (whole : after.entries.length = after.cap)
    (inside : index < after.entries.length)
    (same : ∀ other, after.entries.getD other emptyCall = table.entries.getD other emptyCall) :
    WritesOnly index table { after with entries := after.entries.set index call } where
  inside := by simpa using inside
  whole := by simpa using whole
  others := by
    intro other different
    rw [← same other]
    simp [List.getD_eq_getElem?_getD, List.getElem?_set_ne different.symm]

/-- Where a fragment is safe: its index is turned down by the limit, or so small that the
bytes of the table can be counted, or else the allocator refuses the bytes that are asked for
instead. From half a word on the loop does not end. -/
def IndexFits (config : StreamConfig) (heap : Heap) (index : Nat) : Prop :=
  Limited config index ∨ index < 2 ^ 58 ∨
    index < 2 ^ 59 ∧ heap.grants heap.calls (2 ^ 63) = false ∨
    2 ^ 59 ≤ index ∧ index < 2 ^ 63 ∧ heap.grants heap.calls 0 = false

theorem indexFits_of_refused {config : StreamConfig} {heap : Heap} (refused : index + 1 ≤ 2 ^ 58 ∨
      index + 1 ≤ 2 ^ 63 ∧ heap.grants heap.calls (wrappedBytes (index + 1)) = false) :
    IndexFits config heap index := by
  rcases refused with few | ⟨half, refused⟩
  · exact .inr (.inl few)
  · rw [wrappedBytes] at refused
    split at refused
    · next some => exact .inr (.inr (.inl ⟨some, refused⟩))
    · next many => exact .inr (.inr (.inr ⟨by omega, half, refused⟩))

section Fragment

variable {config : StreamConfig} {table after : CallTable} {heap next : Heap}
  {delta : ToolCallDelta} {turns : Nat} {status : Status}

/-- An error with the table as it was, or one entry in the block. -/
def SafeResult (index : Nat) (table : CallTable) (status : Status) (after : CallTable) : Prop :=
  status ≠ .ok ∧ after = table ∨ WritesOnly index table after

/-- What a fragment that returns has done: it was turned down by the limit or by the allocator,
or its entry was written to a table with room for it. -/
inductive Applied (config : StreamConfig) (table : CallTable) (heap : Heap)
    (delta : ToolCallDelta) : Status × CallTable × Heap → Prop
  | limited (limited : Limited config delta.index) :
      Applied config table heap delta (.limit, table, heap)
  | refused {next : Heap} (less : delta.index + 1 ≤ 2 ^ 58 ∨
      delta.index + 1 ≤ 2 ^ 63 ∧ heap.grants heap.calls (wrappedBytes (delta.index + 1)) = false) :
      Applied config table heap delta (.oom, table, next)
  | written {middle : CallTable} {middleHeap : Heap} {result : Status × CallTable × Heap}
      (unlimited : ¬Limited config delta.index) (makes : MakesRoom (delta.index + 1) table middle)
      (written : writeCall config delta (middle.counting (delta.index + 1)) middleHeap =
        .ok result) :
      Applied config table heap delta result

theorem CallTable.Sound.applied (sound : table.Sound) (word : delta.index < wordSize)
    (returned : applyToolCallDeltaIn turns config table heap delta =
      some (.ok (status, after, next))) :
    Applied config table heap delta (status, after, next) := by
  rw [applyToolCallDeltaIn] at returned
  split at returned
  · next limited =>
    cases returned
    exact .limited limited
  · next unlimited =>
    rcases Option.map_eq_some_iff.mp returned with ⟨reserved, room, continued⟩
    rcases bind_eq_ok.mp continued with ⟨⟨middleStatus, middle, middleHeap⟩, rfl, applied⟩
    rw [applyReserved] at applied
    by_cases last : delta.index + 1 = wordSize
    · -- The index plus one is zero: there is room for nothing.
      rw [last, Nat.mod_self, toolCallsReserveIn, if_pos (Nat.zero_le _)] at room
      cases room
      have outside : (table.counting 0).entries.length ≤ delta.index := by
        have few := sound.cap_le
        rw [CallTable.counting_entries, sound.whole]
        rw [wordSize] at last
        omega
      rw [if_neg (not_not_intro rfl), last, Nat.mod_self, writeCall_of_outside outside] at applied
      cases applied
    · have need : (delta.index + 1) % wordSize = delta.index + 1 := Nat.mod_eq_of_lt (by omega)
      rw [need] at room applied
      cases sound.reserved room with
      | refused less =>
        rw [if_pos nofun] at applied
        cases applied
        exact .refused less
      | room makes =>
        rw [if_neg (not_not_intro rfl)] at applied
        exact .written unlimited makes applied
      | short =>
        have outside : (middle.counting (delta.index + 1)).entries.length ≤ delta.index := by
          rw [CallTable.counting_entries]
          omega
        rw [if_neg (not_not_intro rfl), writeCall_of_outside outside] at applied
        cases applied

theorem MakesRoom.inside {index : Nat} {middle : CallTable}
    (makes : MakesRoom (index + 1) table middle) :
    index < (middle.counting (index + 1)).entries.length := by
  rw [CallTable.counting_entries, makes.sound.whole]
  exact makes.room

theorem Applied.fits (applied : Applied config table heap delta (status, after, next)) :
    IndexFits config heap delta.index := by
  cases applied with
  | limited limited => exact .inl limited
  | refused less => exact indexFits_of_refused less
  | written _ makes _ =>
    have few := makes.sound.cap_le
    have enough := makes.room
    exact .inr (.inl (by omega))

theorem Applied.safe (applied : Applied config table heap delta (status, after, next)) :
    SafeResult delta.index table status after := by
  cases applied with
  | limited _ => exact .inl ⟨nofun, rfl⟩
  | refused _ => exact .inl ⟨nofun, rfl⟩
  | @written middle middleHeap _ _ makes written =>
    rcases @writeCall_of_inside config delta _ middleHeap makes.inside with ⟨_, call, _, same⟩
    rw [same] at written
    cases written
    apply Or.inr
    apply writesOnly_set _ makes.inside
    · intro other
      rw [CallTable.counting_entries]
      exact makes.same other
    · rw [CallTable.counting_entries, CallTable.counting_cap]
      exact makes.sound.whole

theorem Applied.sound (sound : table.Sound)
    (applied : Applied config table heap delta (status, after, next)) : after.Sound := by
  cases applied with
  | limited _ => exact sound
  | refused _ => exact sound
  | @written middle middleHeap _ _ makes written =>
    rcases @writeCall_of_inside config delta _ middleHeap makes.inside with ⟨_, call, _, same⟩
    rw [same] at written
    cases written
    have used : delta.index < (middle.counting (delta.index + 1)).count := by
      rw [CallTable.counting_count]
      exact Nat.le_max_right _ _
    exact (makes.sound.counting makes.room).set used call

theorem IsDecoderTable.sound (decoder : IsDecoderTable table) : table.Sound := by
  induction decoder with
  | init => exact CallTable.sound_init
  | apply before word applied sound => exact (sound.applied word applied).sound sound

theorem CallTable.Sound.exists_reserved (sound : table.Sound) (fits : IndexFits config heap index)
    (unlimited : ¬Limited config index) : ∃ turns status middle next,
      toolCallsReserveIn turns table heap (index + 1) = some (.ok (status, middle, next)) ∧
        (status = .oom ∨ status = .ok ∧ index < middle.entries.length) := by
  have fits := fits.resolve_left unlimited
  by_cases enough : index + 1 ≤ table.cap
  · exact ⟨0, .ok, table, heap, if_pos enough, .inr ⟨rfl, sound.whole ▸ enough⟩⟩
  · have half : index + 1 ≤ 2 ^ 63 := by omega
    rcases sound.exists_grown half with ⟨turns, newCap, ended⟩
    have reserves : toolCallsReserveIn turns table heap (index + 1) =
        some (moveCalls table heap newCap) := by
      rw [toolCallsReserveIn, if_neg enough, ended, Option.map_some]
    rcases sound.grown_eq ended with ⟨final, rfl, power, _, few | ⟨bytes, beyond⟩⟩
    · have counted := sound.counted
      have copied : table.count ≤ 2 ^ final * callBytes % wordSize / callBytes := by
        rw [bytes_of_le few, Nat.mul_div_cancel _ (by decide)]
        omega
      rcases exists_moveCalls copied with ⟨⟨status, middle, next⟩, moved⟩
      rw [moved] at reserves
      refine ⟨turns, status, middle, next, reserves, ?_⟩
      cases sound.reserved reserves with
      | refused less => exact .inl rfl
      | room makes => exact .inr ⟨rfl, makes.sound.whole ▸ makes.room⟩
      | short =>
        have atMost : 2 ^ final ≤ 2 ^ 58 := Nat.pow_le_pow_right (by decide) few
        omega
    · have refused : heap.grants heap.calls (2 ^ final * callBytes % wordSize) = false := by
        rw [bytes, wrappedBytes]
        rcases fits with less | ⟨less, refused⟩ | ⟨more, less, refused⟩
        · omega
        · rw [if_pos (by omega)]
          exact refused
        · rw [if_neg (by omega)]
          exact refused
      rw [moveCalls_of_refused refused] at reserves
      exact ⟨turns, .oom, table, _, reserves, .inl rfl⟩

theorem CallTable.Sound.exists_applied (sound : table.Sound)
    (fits : IndexFits config heap delta.index) : ∃ turns status after next,
      applyToolCallDeltaIn turns config table heap delta = some (.ok (status, after, next)) := by
  by_cases limited : Limited config delta.index
  · exact ⟨0, .limit, table, heap, if_pos limited⟩
  · rcases sound.exists_reserved fits limited with ⟨turns, status, middle, next, reserves, room⟩
    have fits := fits.resolve_left limited
    have need : (delta.index + 1) % wordSize = delta.index + 1 := by
      apply Nat.mod_eq_of_lt
      rw [wordSize]
      omega
    have applied : applyToolCallDeltaIn turns config table heap delta =
        some (applyReserved config delta (status, middle, next)) := by
      rw [applyToolCallDeltaIn, if_neg limited, need, reserves]
      rfl
    rw [applyReserved] at applied
    rcases room with refused | ⟨granted, inside⟩
    · rw [if_pos (by rw [refused]; nofun)] at applied
      exact ⟨turns, _, _, _, applied⟩
    · have counted : delta.index <
          (middle.counting ((delta.index + 1) % wordSize)).entries.length := by
        rw [CallTable.counting_entries]
        exact inside
      rcases @writeCall_of_inside config delta _ next counted with ⟨_, _, _, written⟩
      rw [if_neg (not_not_intro granted), written] at applied
      exact ⟨turns, _, _, _, applied⟩

/-- The call returns an error and leaves the table, or writes one entry in the block. -/
def SafeDelta (config : StreamConfig) (table : CallTable) (heap : Heap) (delta : ToolCallDelta) :
    Prop :=
  ∃ turns status after next,
    applyToolCallDeltaIn turns config table heap delta = some (.ok (status, after, next)) ∧
      SafeResult delta.index table status after

/-- A fragment is safe exactly when its index fits. -/
theorem tool_call_table_safe_iff (decoder : IsDecoderTable table)
    (word : delta.index < wordSize) :
    SafeDelta config table heap delta ↔ IndexFits config heap delta.index := by
  constructor
  · rintro ⟨turns, status, after, next, applied, _⟩
    exact (decoder.sound.applied word applied).fits
  · intro fits
    rcases decoder.sound.exists_applied fits with ⟨turns, status, after, next, applied⟩
    exact ⟨turns, status, after, next, applied, (decoder.sound.applied word applied).safe⟩

end Fragment

/-- A heap that gives out nothing of the size of an address space. -/
def sampleHeap : Heap where
  grants _ bytes := bytes < 2 ^ 47

theorem tool_call_table_safe_iff_sample :
    SafeDelta {} {} sampleHeap { index := 5, name := ascii "search" } :=
  (tool_call_table_safe_iff .init (by decide)).mpr (.inr (.inl (by decide)))

/-- The largest index of a JSON integer: half a word of entries has no bytes. -/
theorem half_word_index_outside :
    IsDecoderTable {} ∧ 2 ^ 63 - 1 < wordSize ∧
      ¬SafeDelta {} {} sampleHeap { index := 2 ^ 63 - 1, name := ascii "search" } := by
  refine ⟨.init, by decide, ?_⟩
  rintro ⟨turns, status, after, next, applied, _⟩
  rcases (CallTable.sound_init.applied (by decide) applied).fits with limited | few | some | many
  · exact absurd limited.1 (by decide)
  · exact absurd few (by decide)
  · exact absurd some.1 (by decide)
  · exact absurd many.2.2 (by decide)

/-! ## The list of calls

What a table stands for is the list of its entries in use. A fragment does to it what
`applyToolCallDelta` does, unless the allocator refuses something. -/

def CallTable.calls (table : CallTable) : List ToolCall :=
  table.entries.take table.count

def Heap.next (heap : Heap) : Heap :=
  { heap with calls := heap.calls + 1 }

theorem outcome_requestBytes (bytes : Nat) (call : ToolCall) (heap : Heap) :
    (requestBytes bytes).outcome (call, heap) =
      (if heap.grants heap.calls bytes then .ok () else .error .oom, (call, heap.next)) := by
  change Attempt.outcome (if heap.grants heap.calls bytes then pure () else throw Status.oom)
    (call, heap.next) = _
  split
  · exact Attempt.outcome_pure _
  · exact Attempt.outcome_throw _ _

theorem outcome_replaceText {text : Bytes} {store : ToolCall → Bytes → ToolCall} {heap : Heap}
    (granted : ((replaceText text store).outcome (call, heap)).1 ≠ .error .oom) :
    ∃ later, (replaceText text store).outcome (call, heap) =
      (.ok (), (if text.isEmpty then call else store (store call []) text, later)) := by
  rw [replaceText] at granted ⊢
  by_cases empty : text.isEmpty = true
  · rw [if_pos empty, if_pos empty]
    exact ⟨heap, rfl⟩
  · rw [if_neg empty] at granted
    rw [if_neg empty, if_neg empty]
    change (Attempt.outcome
      (do requestBytes (text.length + 1); modify fun (call, heap) => (store call text, heap))
      (store call [], heap)).1 ≠ _ at granted
    change ∃ later, Attempt.outcome
      (do requestBytes (text.length + 1); modify fun (call, heap) => (store call text, heap))
      (store call [], heap) = _
    rw [Attempt.outcome_bind, outcome_requestBytes] at granted ⊢
    cases given : heap.grants heap.calls (text.length + 1) with
    | true => exact ⟨_, rfl⟩
    | false =>
      rw [given] at granted
      exact absurd rfl granted

def named (delta : ToolCallDelta) (call : ToolCall) : ToolCall :=
  { call with
    id := if delta.id.isEmpty then call.id else delta.id
    name := if delta.name.isEmpty then call.name else delta.name }

def joined (delta : ToolCallDelta) (call : ToolCall) : Bytes :=
  call.argumentsJson.getD [] ++ delta.argumentsDelta

def enteredCall (config : StreamConfig) (delta : ToolCallDelta) (call : ToolCall) :
    Status × ToolCall :=
  if delta.argumentsDelta.isEmpty then (.ok, named delta call)
  else if 0 < config.maxToolCallArgsChars ∧
      config.maxToolCallArgsChars < (joined delta call).length then
    (.limit, named delta call)
  else (.ok, { named delta call with argumentsJson := some (joined delta call) })

theorem outcome_appendArguments {config : StreamConfig} {heap : Heap}
    (granted : ((appendArguments config delta.argumentsDelta).outcome (named delta call, heap)).1 ≠
      .error .oom) :
    (statusOf ((appendArguments config delta.argumentsDelta).outcome (named delta call, heap)).1,
        ((appendArguments config delta.argumentsDelta).outcome (named delta call, heap)).2.1) =
      enteredCall config delta call := by
  rw [appendArguments] at granted ⊢
  rw [enteredCall]
  by_cases empty : delta.argumentsDelta.isEmpty = true
  · rw [if_pos empty, if_pos empty]
    rfl
  · rw [if_neg empty] at granted
    rw [if_neg empty, if_neg empty]
    generalize behind : Attempt.outcome _ (named delta call, heap) = outcome at granted ⊢
    rw [Attempt.outcome_get] at behind
    dsimp only at behind
    rw [show (named delta call).argumentsJson.getD [] ++ delta.argumentsDelta =
      joined delta call from rfl] at behind
    split at behind
    · next long =>
      rw [if_pos long, ← behind]
      rfl
    · next short =>
      rw [if_neg short]
      rw [Attempt.outcome_bind, outcome_requestBytes] at behind
      cases given : heap.grants heap.calls ((joined delta call).length + 1) with
      | true =>
        rw [given] at behind
        rw [← behind]
        rfl
      | false =>
        rw [given] at behind
        rw [← behind] at granted
        exact absurd rfl granted

theorem granted_of_bind {first second : Attempt (ToolCall × Heap) Status Unit}
    {state : ToolCall × Heap}
    (granted : ((do first; second : Attempt _ _ Unit).outcome state).1 ≠ .error .oom) :
    (first.outcome state).1 ≠ .error .oom := by
  intro refused
  rw [Attempt.outcome_bind] at granted
  rcases reached : first.outcome state with ⟨result, next⟩
  rw [reached] at refused granted
  cases refused
  exact granted rfl

theorem outcome_enterDelta {config : StreamConfig} {delta : ToolCallDelta} {call : ToolCall}
    {heap : Heap} (granted : ((enterDelta config delta).outcome (call, heap)).1 ≠ .error .oom) :
    (statusOf ((enterDelta config delta).outcome (call, heap)).1,
        ((enterDelta config delta).outcome (call, heap)).2.1) = enteredCall config delta call := by
  rw [enterDelta] at granted ⊢
  rcases outcome_replaceText (granted_of_bind granted) with ⟨second, identified⟩
  rw [Attempt.outcome_bind, identified] at granted ⊢
  dsimp only at granted ⊢
  rcases outcome_replaceText (granted_of_bind granted) with ⟨third, nameEntered⟩
  rw [Attempt.outcome_bind, nameEntered] at granted ⊢
  dsimp only at granted ⊢
  have entered : (if delta.name.isEmpty then
        if delta.id.isEmpty then call else { call with id := delta.id }
      else
        { (if delta.id.isEmpty then call else { call with id := delta.id }) with
          name := delta.name }) = named delta call := by
    rw [named]
    split <;> split <;> rfl
  rw [entered] at granted ⊢
  exact outcome_appendArguments granted

theorem modify_eq_set (change : ToolCall → ToolCall) (place : Nat) (calls : List ToolCall) :
    calls.modify place change = calls.set place (change (calls.getD place emptyCall)) := by
  let inhabited : Inhabited ToolCall := ⟨emptyCall⟩
  rw [List.getD_eq_getElem?_getD]
  exact List.modify_eq_set change place calls

theorem applyToolCallDelta_eq_set {config : StreamConfig}
    (unlimited : ¬Limited config delta.index) (calls : List ToolCall) :
    applyToolCallDelta config calls delta =
      ((enteredCall config delta (calls.getD delta.index emptyCall)).1,
        (toolCallsReserve calls (delta.index + 1)).set delta.index
          (enteredCall config delta (calls.getD delta.index emptyCall)).2) := by
  generalize reserves : toolCallsReserve calls (delta.index + 1) = reserved
  generalize held : calls.getD delta.index emptyCall = call
  have inside : delta.index < reserved.length := by
    rw [← reserves, length_toolCallsReserve]
    omega
  have renamed : reserved.modify delta.index (named delta) =
      reserved.set delta.index (named delta call) := by
    rw [modify_eq_set, ← held, ← reserves, getD_toolCallsReserve]
  have entry : (reserved.set delta.index (named delta call)).getD delta.index emptyCall =
      named delta call := by
    rw [List.getD_eq_getElem _ _ (by simpa using inside), List.getElem_set_self]
  rw [applyToolCallDelta, if_neg (show ¬(_ ∧ _) from unlimited), reserves]
  change (
    let calls := reserved.modify delta.index (named delta)
    let held := (calls.getD delta.index emptyCall).argumentsJson.getD []
    if delta.argumentsDelta.isEmpty then (Status.ok, calls)
    else if 0 < config.maxToolCallArgsChars ∧
        config.maxToolCallArgsChars < held.length + delta.argumentsDelta.length then
      (Status.limit, calls)
    else
      (Status.ok, calls.modify delta.index fun call =>
        { call with argumentsJson := some (held ++ delta.argumentsDelta) })) = _
  rw [renamed]
  dsimp only
  rw [modify_eq_set, entry, ← List.length_append, List.set_set, enteredCall,
    show (named delta call).argumentsJson.getD [] ++ delta.argumentsDelta = joined delta call
      from rfl]
  split
  · rfl
  · split <;> rfl

theorem writeCall_eq_ok {config : StreamConfig} {table after : CallTable} {heap next : Heap}
    (written : writeCall config delta table heap = .ok (status, after, next))
    (memory : status ≠ .oom) : after = { table with
      entries := table.entries.set delta.index
        (enteredCall config delta (table.entries.getD delta.index emptyCall)).2 } ∧
    status = (enteredCall config delta (table.entries.getD delta.index emptyCall)).1 := by
  rw [writeCall] at written
  rw [List.getD_eq_getElem?_getD]
  cases entry : table.entries[delta.index]? with
  | none =>
    rw [entry] at written
    cases written
  | some call =>
    have entered := @outcome_enterDelta config delta call heap
    rw [entry] at written
    dsimp only at written
    rcases reached : (enterDelta config delta).outcome (call, heap) with ⟨result, later, _⟩
    rw [reached] at written entered
    cases written
    have granted : result ≠ .error .oom := by
      rintro rfl
      exact memory rfl
    rw [Option.getD_some, ← entered granted]
    exact ⟨rfl, rfl⟩

theorem CallTable.Sound.length_calls {table : CallTable} (sound : table.Sound) :
    table.calls.length = table.count := by
  rw [calls, List.length_take, sound.whole]
  exact Nat.min_eq_left sound.counted

theorem CallTable.Sound.getD_calls {table : CallTable} (sound : table.Sound) (index : Nat) :
    table.calls.getD index emptyCall = table.entries.getD index emptyCall := by
  by_cases used : index < table.count
  · rw [calls, List.getD_eq_getElem?_getD, List.getElem?_take_of_lt used,
      List.getD_eq_getElem?_getD]
  · have beyond : table.count ≤ index := Nat.le_of_not_lt used
    rw [sound.getD_unused beyond, List.getD_eq_default _ _ (sound.length_calls.trans_le beyond)]

theorem MakesRoom.calls {table middle : CallTable} (sound : table.Sound)
    (makes : MakesRoom (index + 1) table middle) :
    (middle.counting (index + 1)).calls = toolCallsReserve table.calls (index + 1) := by
  have counted := makes.sound.counting makes.room
  have length : (middle.counting (index + 1)).calls.length =
      (toolCallsReserve table.calls (index + 1)).length := by
    rw [counted.length_calls, CallTable.counting_count, makes.count, length_toolCallsReserve,
      sound.length_calls]
  apply List.ext_getElem length
  intro other inside within
  rw [← List.getD_eq_getElem _ emptyCall, ← List.getD_eq_getElem _ emptyCall, counted.getD_calls,
    CallTable.counting_entries, makes.same, getD_toolCallsReserve, sound.getD_calls]

/-- A fragment does to the list of calls what `applyToolCallDelta` does, unless the allocator
refuses something. -/
theorem Applied.calls {config : StreamConfig} {table after : CallTable} {heap next : Heap}
    (sound : table.Sound) (applied : Applied config table heap delta (status, after, next))
    (memory : status ≠ .oom) :
    applyToolCallDelta config table.calls delta = (status, after.calls) := by
  cases applied with
  | limited limited =>
    rw [applyToolCallDelta, if_pos (show _ ∧ _ from limited)]
  | refused _ => exact absurd rfl memory
  | @written middle _ _ unlimited makes written =>
    rcases writeCall_eq_ok written memory with ⟨rfl, rfl⟩
    rw [applyToolCallDelta_eq_set unlimited, ← makes.calls sound, sound.getD_calls,
      CallTable.counting_entries, makes.same, CallTable.calls, CallTable.calls]
    dsimp only
    rw [CallTable.counting_entries, List.take_set]

/-- From every table of a decoder, a fragment that returns with memory left does what
`applyToolCallDelta` does. -/
theorem IsDecoderTable.refines {config : StreamConfig} {table after : CallTable}
    {heap next : Heap} (decoder : IsDecoderTable table) (word : delta.index < wordSize)
    (applied : applyToolCallDeltaIn turns config table heap delta =
      some (.ok (status, after, next))) (memory : status ≠ .oom) :
    applyToolCallDelta config table.calls delta = (status, after.calls) :=
  (decoder.sound.applied word applied).calls decoder.sound memory

theorem refines_sample : let delta : ToolCallDelta := { index := 5, name := ascii "search" }
    ∃ after next, applyToolCallDeltaIn 5 {} {} sampleHeap delta = some (.ok (.ok, after, next)) ∧
      applyToolCallDelta {} [] delta = (.ok, after.calls) := by
  refine ⟨_, _, rfl, ?_⟩
  exact @IsDecoderTable.refines 5 .ok _ {} {} _ sampleHeap _ .init (by decide) rfl (by decide)

end AgentC.Streaming
