import AgentC.Cbor.Agreement
import AgentC.EdgeConsensus.Tokens

/-! # The envelope encoder of a node

`core/src/agent_umbmp_auth.c`. A pointer that is null is the empty string where the
source treats both alike. -/

namespace AgentC.Umbmp

open Cbor
open EdgeConsensus (umbmpIdIsSafe maxIdLen)

/-- `agent_umbmp_envelope_cbor_params_t` -/
structure EnvelopeCborParams where
  msgId : Bytes
  tsUtcMs : Int64
  type : Bytes
  fromId : Bytes
  toId : Bytes
  encodeBody : Option Write
  encodeTrace : Option Write
  authAlg : Bytes
  authKid : Bytes
  authSeq : UInt64
  authHasSeq : Bool
  authSigB64 : Option Bytes

namespace EnvelopeCborParams

def wantAuth (params : EnvelopeCborParams) : Bool :=
  params.authAlg != [] && params.authKid != []

def ts (params : EnvelopeCborParams) : Nat :=
  if params.tsUtcMs.toInt < 0 then 0 else params.tsUtcMs.toInt.toNat

variable (params : EnvelopeCborParams)

theorem ts_lt : params.ts < 2 ^ 64 := by
  have upper := params.tsUtcMs.toInt_lt
  rw [ts]
  split
  · omega
  · omega

/-- The `auth_pairs` of the source. -/
def authPairs (params : EnvelopeCborParams) (includeSig : Bool) : List (Bytes × Write) :=
  [(ascii "alg", writeText params.authAlg), (ascii "kid", writeText params.authKid)] ++
    (if params.authHasSeq then [(ascii "seq", writeUint params.authSeq.toNat)] else []) ++
    if includeSig then (params.authSigB64.map fun sig => (ascii "sig", writeText sig)).toList else []

/-- The `env_pairs` of the source. -/
def envPairs (params : EnvelopeCborParams) (encodeBody : Write) (includeSig : Bool) :
    List (Bytes × Write) :=
  [(ascii "msg_id", writeText params.msgId), (ascii "ts_utc_ms", writeUint params.ts),
    (ascii "type", writeText params.type), (ascii "from", writeText params.fromId),
    (ascii "to", writeText params.toId), (ascii "body", encodeBody)] ++
    (params.encodeTrace.map fun encodeTrace => (ascii "trace", encodeTrace)).toList ++
    if params.wantAuth then [(ascii "auth", writeMapSorted (params.authPairs includeSig))]
    else []

def encodeEnvImpl (params : EnvelopeCborParams) (includeSig : Bool) : Write := fun writer =>
  if params.msgId = [] ∨ params.type = [] ∨ params.fromId = [] ∨ params.toId = [] then
    .error .invalidArgument
  else
    match params.encodeBody with
    | none => .error .invalidArgument
    | some encodeBody =>
      if umbmpIdIsSafe params.msgId = false then .error .invalidArgument
      else if maxIdLen < params.type.length ∨ maxIdLen < params.fromId.length ∨
          maxIdLen < params.toId.length then
        .error .invalidArgument
      else if params.wantAuth ∧
          (umbmpIdIsSafe params.authKid = false ∨ 64 < params.authAlg.length) then
        .error .invalidArgument
      -- A signature without the other fields of `auth` is meaningless.
      else if includeSig ∧ params.authSigB64.isSome ∧
          (params.wantAuth = false ∨ params.authSigB64 = some []) then
        .error .invalidArgument
      else writeMapSorted (params.envPairs encodeBody includeSig) writer

/-- `agent_umbmp_envelope_no_sig_cbor_v0_4` -/
def envelopeNoSigCbor (params : EnvelopeCborParams) : Write :=
  params.encodeEnvImpl false

/-- `agent_umbmp_envelope_cbor_v0_4` -/
def envelopeCbor (params : EnvelopeCborParams) : Write :=
  params.encodeEnvImpl true

structure Checked (params : EnvelopeCborParams) (includeSig : Bool) : Prop where
  msgId : umbmpIdIsSafe params.msgId = true
  kid : params.wantAuth = true → umbmpIdIsSafe params.authKid = true
  auth : includeSig = true → params.authSigB64.isSome = true → params.wantAuth = true

theorem encodeEnvImpl_eq_ok {params : EnvelopeCborParams} {includeSig : Bool}
    {writer after : Writer} (encoded : params.encodeEnvImpl includeSig writer = .ok after) :
    ∃ encodeBody, params.encodeBody = some encodeBody ∧ params.Checked includeSig ∧
      writeMapSorted (params.envPairs encodeBody includeSig) writer = .ok after := by
  rw [encodeEnvImpl] at encoded
  split at encoded
  · exact nomatch encoded
  · split at encoded
    · exact nomatch encoded
    · next encodeBody given =>
      split at encoded
      · exact nomatch encoded
      · next msgId =>
        split at encoded
        · exact nomatch encoded
        · split at encoded
          · exact nomatch encoded
          · next kid =>
            split at encoded
            · exact nomatch encoded
            · next auth =>
              refine ⟨encodeBody, given, ⟨by simpa using msgId, ?_, ?_⟩, encoded⟩
              · intro wanted
                by_contra unsafeKid
                exact kid ⟨wanted, .inl (by simpa using unsafeKid)⟩
              · intro included present
                by_contra unwanted
                exact auth ⟨included, present, .inl (by simpa using unwanted)⟩

def authFields (params : EnvelopeCborParams) (includeSig : Bool) : List (Bytes × Emitter) :=
  [(ascii "alg", .text params.authAlg), (ascii "kid", .text params.authKid)] ++
    (if params.authHasSeq then [(ascii "seq", .uint params.authSeq.toNat)] else []) ++
    if includeSig then (params.authSigB64.map fun sig => (ascii "sig", .text sig)).toList else []

theorem authPairs_eq (includeSig : Bool) :
    params.authPairs includeSig =
      (params.authFields includeSig).map fun field => (field.1, field.2.write) := by
  rw [authPairs, authFields]
  cases params.authHasSeq <;> cases includeSig <;> cases params.authSigB64 <;> rfl

theorem distinct_authFields (includeSig : Bool) :
    ((params.authFields includeSig).map Prod.fst).Nodup := by
  rw [authFields]
  cases params.authHasSeq <;> cases includeSig <;> cases params.authSigB64 <;>
    simp only [if_true, if_false, Bool.false_eq_true, List.map_append, List.map_cons,
      List.map_nil, Option.map_some, Option.map_none, Option.toList_some, Option.toList_none] <;>
    decide

def envFields (params : EnvelopeCborParams) (body : Emitter) (trace : Option Emitter)
    (includeSig : Bool) : List (Bytes × Emitter) :=
  [(ascii "msg_id", .text params.msgId), (ascii "ts_utc_ms", .uint params.ts),
    (ascii "type", .text params.type), (ascii "from", .text params.fromId),
    (ascii "to", .text params.toId), (ascii "body", body)] ++
    (trace.map fun trace => (ascii "trace", trace)).toList ++
    if params.wantAuth then
      [(ascii "auth", .sortedMap (params.authFields includeSig)
        (params.distinct_authFields includeSig))]
    else []

theorem envPairs_eq {params : EnvelopeCborParams} {body : Emitter} {trace : Option Emitter}
    (traced : params.encodeTrace = trace.map Emitter.write) (includeSig : Bool) :
    params.envPairs body.write includeSig =
      (params.envFields body trace includeSig).map fun field => (field.1, field.2.write) := by
  rw [envPairs, envFields, traced, authPairs_eq]
  cases trace <;> cases params.wantAuth <;> rfl

theorem distinct_envFields (body : Emitter) (trace : Option Emitter) (includeSig : Bool) :
    ((params.envFields body trace includeSig).map Prod.fst).Nodup := by
  rw [envFields]
  cases trace <;> cases params.wantAuth <;>
    simp only [if_true, if_false, Bool.false_eq_true, List.map_append, List.map_cons,
      List.map_nil, Option.map_some, Option.map_none, Option.toList_some, Option.toList_none] <;>
    decide

theorem bytes_of_encoded {params : EnvelopeCborParams} {body : Emitter} {trace : Option Emitter}
    {includeSig : Bool} (given : params.encodeBody = some body.write)
    (traced : params.encodeTrace = trace.map Emitter.write) {capacity : Nat} {after : Writer}
    (encoded : params.encodeEnvImpl includeSig (.init capacity) = .ok after) :
    after.cap = capacity ∧
      after.bytes = mapEncoding ((params.envFields body trace includeSig).map fun field =>
        (field.1, field.2.bytes)) := by
  rcases encodeEnvImpl_eq_ok encoded with ⟨encodeBody, found, _, written⟩
  rw [given] at found
  cases found
  rw [envPairs_eq traced] at written
  exact emits_writeMapSorted (params.distinct_envFields body trace includeSig) _ after written

end EnvelopeCborParams

end AgentC.Umbmp
