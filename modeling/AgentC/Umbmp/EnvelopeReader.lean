import AgentC.Cbor.Reader
import AgentC.EdgeConsensus.Tokens

/-! # The envelope reader of the core library

`core/src/agent_umbmp_envelope_read.c`. A flag `has_…` and the field behind it are one
optional value. -/

namespace AgentC.Umbmp

open Cbor Cbor.Reader
open EdgeConsensus (umbmpIdIsSafe umbmpCharOk maxIdLen)

def umbmpTraceIdIsSafe (token : Bytes) : Bool :=
  token.length != 0 && token.length ≤ maxIdLen &&
    token.all fun c => umbmpCharOk c || c == '@'.toUInt8

/-- `agent_umbmp_trace_view_t` -/
structure TraceView where
  traceId : Option Bytes := none

/-- `agent_umbmp_auth_view_t`; a missing `alg` or `kid` is empty. -/
structure AuthView where
  alg : Bytes := []
  kid : Bytes := []
  seq : Option Nat := none
  sig : Option Bytes := none
deriving DecidableEq

/-- `agent_umbmp_envelope_view_t` -/
structure EnvelopeView where
  msgId : Option Bytes := none
  tsUtcMs : Option Nat := none
  type : Option Bytes := none
  fromId : Option Bytes := none
  toId : Option Bytes := none
  bodyItem : Option Bytes := none
  auth : Option AuthView := none
  trace : Option TraceView := none

abbrev ReadValue (α : Type) := Bytes → α → Bytes → Except Status (α × Bytes)

section Maps

variable {α : Type}

def readPairs (readValue : ReadValue α) : Nat → α → Bytes → Except Status (α × Bytes)
  | 0, state, input => .ok (state, input)
  | n + 1, state, input => do
    let (k, rest) ← readText input
    let (state, rest) ← readValue k state rest
    readPairs readValue n state rest

def readWholeMap (readValue : ReadValue α) (start : α) (item : Bytes) : Except Status α := do
  let (n, rest) ← readMapStart item
  let (state, rest) ← readPairs readValue n start rest
  if rest ≠ [] then .error .invalidArgument else return state

/-- `AGENT_ERR_INVALID_ARGUMENT` for every failure. -/
def orInvalid (result : Except Status α) : Except Status α :=
  match result with
  | .ok value => .ok value
  | .error _ => .error .invalidArgument

end Maps

def skipValue (input : Bytes) : Except Status Bytes := skipItem maxDepth input

def readTraceField : ReadValue TraceView := fun k out input =>
  if k = ascii "trace_id" then do
    let (v, rest) ← readText input
    return (if umbmpTraceIdIsSafe v then { out with traceId := some v } else out, rest)
  else do
    let rest ← skipValue input
    return (out, rest)

def parseTrace (traceItem : Bytes) : Except Status TraceView :=
  if traceItem = [] then .error .invalidArgument else readWholeMap readTraceField {} traceItem

def readAuthField : ReadValue AuthView := fun k out input =>
  if k = ascii "alg" then do
    let (v, rest) ← readText input
    return ({ out with alg := v }, rest)
  else if k = ascii "kid" then do
    let (v, rest) ← readText input
    return ({ out with kid := v }, rest)
  else if k = ascii "seq" then do
    let (v, rest) ← readUint input
    return ({ out with seq := some v }, rest)
  else if k = ascii "sig" then do
    let (v, rest) ← readText input
    return ({ out with sig := some v }, rest)
  else do
    let rest ← skipValue input
    return (out, rest)

def parseAuth (authItem : Bytes) : Except Status AuthView :=
  if authItem = [] then .error .invalidArgument else readWholeMap readAuthField {} authItem

/-- The check that a body is a map with text keys. -/
def readBodyField : ReadValue Unit := fun _ _ input => do
  let rest ← skipValue input
  return ((), rest)

def readId (store : Bytes → EnvelopeView) (input : Bytes) :
    Except Status (EnvelopeView × Bytes) := do
  let (v, rest) ← readText input
  if umbmpIdIsSafe v = false then .error .invalidArgument else return (store v, rest)

def readBody (out : EnvelopeView) (input : Bytes) : Except Status (EnvelopeView × Bytes) := do
  let (v, rest) ← readItemView input
  orInvalid (readWholeMap readBodyField () v)
  return ({ out with bodyItem := some v }, rest)

def readAuth (out : EnvelopeView) (input : Bytes) : Except Status (EnvelopeView × Bytes) := do
  let (v, rest) ← readItemView input
  let a ← orInvalid (parseAuth v)
  -- `auth` without `alg` and `kid` is meaningless.
  if a.alg = [] then .error .invalidArgument
  else if a.kid = [] then .error .invalidArgument
  else if umbmpIdIsSafe a.kid = false then .error .invalidArgument
  else return ({ out with auth := some a }, rest)

def readTrace (out : EnvelopeView) (input : Bytes) : Except Status (EnvelopeView × Bytes) := do
  let (v, rest) ← readItemView input
  let t ← orInvalid (parseTrace v)
  return ({ out with trace := some t }, rest)

def readEnvelopeField : ReadValue EnvelopeView := fun k out input =>
  if k = ascii "msg_id" then readId (fun v => { out with msgId := some v }) input
  else if k = ascii "ts_utc_ms" then do
    let (v, rest) ← readUint input
    return ({ out with tsUtcMs := some v }, rest)
  else if k = ascii "type" then readId (fun v => { out with type := some v }) input
  else if k = ascii "from" then readId (fun v => { out with fromId := some v }) input
  else if k = ascii "to" then readId (fun v => { out with toId := some v }) input
  else if k = ascii "body" then readBody out input
  else if k = ascii "auth" then readAuth out input
  else if k = ascii "trace" then readTrace out input
  -- An unknown key.
  else do
    let rest ← skipValue input
    return (out, rest)

def EnvelopeView.complete (out : EnvelopeView) : Bool :=
  out.msgId.isSome && out.tsUtcMs.isSome && out.type.isSome && out.fromId.isSome &&
    out.toId.isSome && out.bodyItem.isSome

/-- `agent_umbmp_envelope_read_cbor_v0_1` -/
def envelopeReadCbor (buf : Bytes) : Except Status EnvelopeView :=
  if buf = [] then .error .invalidArgument
  else do
    let out ← readWholeMap readEnvelopeField {} buf
    if out.complete = false then .error .invalidArgument else return out

section Maps

variable {α : Type} {readValue : ReadValue α}

/-- The members of a map lead from one state to another. -/
inductive Reads (readValue : ReadValue α) : List TextEntry → α → α → Prop
  | nil (state : α) : Reads readValue [] state state
  | cons {entry : TextEntry} {rest : List TextEntry} {state middle after : α}
      (keyHead : IsHead majorText entry.key.length entry.keyHead)
      (value : ∀ input, readValue entry.key state (entry.value ++ input) = .ok (middle, input))
      (more : Reads readValue rest middle after) : Reads readValue (entry :: rest) state after

variable {after : α}

theorem Reads.append {first second : List TextEntry} {state middle : α}
    (reads : Reads readValue first state middle) (more : Reads readValue second middle after) :
    Reads readValue (first ++ second) state after := by
  induction reads with
  | nil => exact more
  | cons keyHead value _ induction => exact .cons keyHead value (induction more)

variable {entries : List TextEntry}

theorem Reads.readPairs {state : α} (reads : Reads readValue entries state after) (input : Bytes) :
    readPairs readValue entries.length state (entries.flatMap TextEntry.bytes ++ input) =
      .ok (after, input) := by
  induction reads with
  | nil => rfl
  | cons keyHead value _ induction =>
    rw [List.length_cons, List.flatMap_cons, TextEntry.bytes, List.append_assoc,
      List.append_assoc, List.append_assoc, Umbmp.readPairs, readText_isHead keyHead]
    simp only [bind, Except.bind]
    rw [value]
    exact induction

theorem exists_reads (keys : ∀ entry ∈ entries, IsHead majorText entry.key.length entry.keyHead)
    (values : ∀ entry ∈ entries, ∀ state, ∃ after, ∀ input,
      readValue entry.key state (entry.value ++ input) = .ok (after, input)) (state : α) :
    ∃ after, Reads readValue entries state after := by
  induction entries generalizing state with
  | nil => exact ⟨state, .nil state⟩
  | cons entry rest induction =>
    rcases values entry (List.mem_cons_self ..) state with ⟨middle, value⟩
    rcases induction (fun other member => keys other (List.mem_cons_of_mem _ member))
      (fun other member => values other (List.mem_cons_of_mem _ member)) middle with
      ⟨after, more⟩
    exact ⟨after, .cons (keys entry (List.mem_cons_self ..)) value more⟩

theorem readWholeMap_reads {head : Bytes} {start : α}
    (isHead : IsHead majorMap entries.length head) (few : entries.length ≤ maxContainerItems)
    (reads : Reads readValue entries start after) :
    readWholeMap readValue start (head ++ entries.flatMap TextEntry.bytes) = .ok after := by
  have pairs := reads.readPairs []
  rw [List.append_nil] at pairs
  rw [readWholeMap, readMapStart_isHead isHead few]
  simp only [bind, Except.bind, pairs]
  rfl

end Maps

end AgentC.Umbmp
