import AgentC.Cbor.RoundTrip
import AgentC.Json.Emit
import AgentC.Umbmp.Envelope

/-! # The signing input of an envelope

`daemon/src/edge_interop_auth.cpp`: the platform decodes an envelope, takes the
signature out and encodes it again. -/

namespace AgentC.Umbmp

open Cbor
open EdgeConsensus (umbmpIdIsSafe trimCopy)

/-- `auth2.removeMember("sig")` -/
def removeSig : Item → Item
  | .object members => .object (members.filter fun member => member.1 ≠ ascii "sig")
  | other => other

/-- The envelope `env2` of the source. -/
def withoutSig : Item → Item
  | .object members => .object (members.map fun member =>
    (member.1, if member.1 = ascii "auth" then removeSig member.2 else member.2))
  | other => other

def jsonAlgs : List Bytes :=
  [ascii "hmac-sha256", ascii "HMAC-SHA256", ascii "ed25519", ascii "ED25519"]

def cborAlgs : List Bytes :=
  [ascii "hmac-sha256-cbor", ascii "HMAC-SHA256-CBOR", ascii "ed25519-cbor", ascii "ED25519-CBOR"]

/-- `auth_input_bytes_for_alg`; `writeString` stands for `Json::writeString`. -/
def authInputBytesForAlg (writeString : Item → Bytes) (env : Item) (alg : Bytes) :
    Except String Bytes :=
  let env2 := withoutSig env
  let a := trimCopy alg
  if a ∈ jsonAlgs then
    match Json.canonicalize (writeString env2) with
    | .ok canon => .ok canon
    | .error failure => .error ("canonicalize failed: " ++
        if failure.message = "" then "unknown" else failure.message)
  else if a ∈ cborAlgs then
    match cborEncode env2 with
    | .ok cbor => .ok cbor
    | .error cerr => .error (if cerr = "" then "cbor canonical encode failed" else cerr)
  else .error "unsupported alg"

theorem authInputBytesForAlg_cbor {writeString : Item → Bytes} {env : Item} {alg : Bytes}
    (algorithm : trimCopy alg ∈ cborAlgs) (shallow : (withoutSig env).height ≤ 64)
    (short : (withoutSig env).encoding.length ≤ 4 * 1024 * 1024) :
    authInputBytesForAlg writeString env alg = .ok (withoutSig env).encoding := by
  have notJson : trimCopy alg ∉ jsonAlgs := by
    intro member
    have disjoint : ∀ name ∈ cborAlgs, name ∉ jsonAlgs := by decide
    exact disjoint _ algorithm member
  rw [authInputBytesForAlg, if_neg notJson, if_pos algorithm, cborEncode_of_shallow shallow short]

def natItem (n : Nat) (bounded : n < 2 ^ 64) : Item :=
  .integer ⟨n, by omega, by omega⟩

theorem encoding_natItem {n : Nat} (bounded : n < 2 ^ 64) :
    (natItem n bounded).encoding = appendAi majorUint n := by
  simp only [natItem, Item.encoding, encodeInteger, Int.toNat_natCast]
  rw [if_pos (Int.natCast_nonneg n), ite_self]

theorem encoding_string (text : Bytes) : (Item.string text).encoding = encodeText text := rfl

/-- A callback that writes this value, which the decoder can read one level below
the envelope. -/
structure WritesValue (write : Write) (item : Item) : Prop where
  emits : Emits write item.encoding
  stored : item.Every (fun _ => True) StoredKeys
  readable : item.Every (fun length => length ≤ 100000) ReadableKeys
  shallow : item.height < 64

theorem emits_of_rel {write : Option Write} {item : Option Item}
    (writes : Option.Rel WritesValue write item) :
    Option.Rel Emits write (item.map Item.encoding) := by
  cases writes with
  | none => exact .none
  | some writes => exact .some writes.emits

theorem forall_of_rel {write : Option Write} {item : Option Item}
    (writes : Option.Rel WritesValue write item) :
    ∀ value, item = some value → ∃ call, WritesValue call value := by
  intro value equal
  cases writes with
  | none => exact nomatch equal
  | some writes => exact ⟨_, Option.some.inj equal ▸ writes⟩

namespace EnvelopeCborParams

/-- The members of `auth`, as a `std::map` keeps them. -/
def authMembers (params : EnvelopeCborParams) (includeSig : Bool) : List (Bytes × Item) :=
  [(ascii "alg", .string params.authAlg), (ascii "kid", .string params.authKid)] ++
    (if params.authHasSeq then [(ascii "seq", natItem params.authSeq.toNat params.authSeq.toNat_lt)]
      else []) ++
    if includeSig then (params.authSigB64.map fun sig => (ascii "sig", .string sig)).toList else []

/-- The members of an envelope with `auth`, as a `std::map` keeps them. -/
def envMembers (params : EnvelopeCborParams) (body : Item) (trace : Option Item)
    (includeSig : Bool) : List (Bytes × Item) :=
  [(ascii "auth", .object (params.authMembers includeSig)), (ascii "body", body),
    (ascii "from", .string params.fromId), (ascii "msg_id", .string params.msgId),
    (ascii "to", .string params.toId)] ++
    (trace.map fun trace => (ascii "trace", trace)).toList ++
    [(ascii "ts_utc_ms", natItem params.ts params.ts_lt), (ascii "type", .string params.type)]

variable {params : EnvelopeCborParams}

variable (includeSig : Bool) {body : Item} {trace : Option Item}

theorem authMembers_encodings :
    ((params.authMembers includeSig).map fun member => (member.1, member.2.encoding)) =
      (params.authFields includeSig).map fun field => (field.1, field.2.bytes) := by
  have seq := encoding_natItem params.authSeq.toNat_lt
  rw [authMembers, authFields]
  cases params.authHasSeq <;> cases includeSig <;> cases params.authSigB64 <;>
    simp [Emitter.text, Emitter.uint, Item.encoding, seq]

theorem envMembers_encoding {body : Emitter} {trace : Option Emitter} {bodyItem : Item}
    {traceItem : Option Item} (sameBody : body.bytes = bodyItem.encoding)
    (sameTrace : trace.map Emitter.bytes = traceItem.map Item.encoding)
    (wanted : params.wantAuth = true) (includeSig : Bool) :
    mapEncoding ((params.envFields body trace includeSig).map fun field =>
      (field.1, field.2.bytes)) =
        (Item.object (params.envMembers bodyItem traceItem includeSig)).encoding := by
  rw [encoding_object_eq]
  apply mapEncoding_congr
  · have auth : (Item.object (params.authMembers includeSig)).encoding =
        mapEncoding ((params.authFields includeSig).map fun field =>
          (field.1, field.2.bytes)) := by
      rw [encoding_object_eq, authMembers_encodings]
    have traces : (trace.map fun trace => (ascii "trace", trace)).toList.map
        (fun field => (field.1, field.2.bytes)) =
          (traceItem.map fun trace => (ascii "trace", trace)).toList.map
            (fun member => (member.1, member.2.encoding)) := by
      cases trace <;> cases traceItem <;> simp_all
    rw [envFields, envMembers, List.map_append, List.map_append, traces, List.map_append,
      List.map_append, if_pos wanted, List.perm_iff_count]
    intro entry
    simp only [List.map_cons, List.map_nil, List.count_append, List.count_cons, List.count_nil,
      Emitter.text, Emitter.uint, Emitter.sortedMap, encoding_natItem, encoding_string, auth,
      sameBody]
    omega
  · rw [List.map_map]
    exact params.distinct_envFields body trace includeSig

theorem withoutSig_envMembers (body : Item) (trace : Option Item) :
    withoutSig (.object (params.envMembers body trace true)) =
      .object (params.envMembers body trace false) := by
  have auth : removeSig (.object (params.authMembers true)) =
      .object (params.authMembers false) := by
    rw [authMembers, authMembers]
    cases params.authHasSeq <;> cases params.authSigB64 <;> rfl
  rw [envMembers, envMembers, withoutSig, ← auth]
  cases trace <;> rfl

theorem every_authMembers {length : Nat → Prop} {keys : List Bytes → Prop} {includeSig : Bool}
    (accepted : keys ((params.authMembers includeSig).map Prod.fst)) :
    (Item.object (params.authMembers includeSig)).Every length keys := by
  refine ⟨accepted, ?_⟩
  rw [authMembers]
  cases params.authHasSeq <;> cases includeSig <;> cases params.authSigB64 <;>
    simp [EveryMember, Item.Every, natItem]

theorem every_envMembers {length : Nat → Prop} {keys : List Bytes → Prop} {includeSig : Bool}
    (acceptedAuth : keys ((params.authMembers includeSig).map Prod.fst))
    (accepted : keys ((params.envMembers body trace includeSig).map Prod.fst))
    (bodyEvery : body.Every length keys)
    (traceEvery : ∀ item, trace = some item → item.Every length keys) :
    (Item.object (params.envMembers body trace includeSig)).Every length keys := by
  have auth : (Item.object (params.authMembers includeSig)).Every length keys :=
    every_authMembers acceptedAuth
  refine ⟨accepted, ?_⟩
  rw [envMembers]
  cases trace with
  | none => simpa [EveryMember, Item.Every, natItem, bodyEvery] using auth
  | some item =>
    simpa [EveryMember, Item.Every, natItem, bodyEvery, traceEvery item rfl] using auth

/-- The keys of `auth`, in the order of a `std::map`. -/
def authKeys : List Bytes :=
  [ascii "alg", ascii "kid", ascii "seq", ascii "sig"]

/-- The keys of an envelope, in the order of a `std::map`. -/
def envKeys : List Bytes :=
  [ascii "auth", ascii "body", ascii "from", ascii "msg_id", ascii "to", ascii "trace",
    ascii "ts_utc_ms", ascii "type"]

theorem authMembers_keys : ((params.authMembers includeSig).map Prod.fst).Sublist authKeys := by
  rw [authMembers]
  cases params.authHasSeq <;> cases includeSig <;> cases params.authSigB64 <;>
    simp only [if_true, if_false, Bool.false_eq_true, List.map_append, List.map_cons,
      List.map_nil, Option.map_some, Option.map_none, Option.toList_some, Option.toList_none] <;>
    decide

theorem envMembers_keys (body : Item) (trace : Option Item) (includeSig : Bool) :
    ((params.envMembers body trace includeSig).map Prod.fst).Sublist envKeys := by
  rw [envMembers]
  cases trace <;>
    simp only [List.map_append, List.map_cons, List.map_nil, Option.map_some, Option.map_none,
      Option.toList_some, Option.toList_none] <;>
    decide

theorem storedKeys_of_sublist {keys allKeys : List Bytes} (stored : StoredKeys allKeys)
    (part : keys.Sublist allKeys) : StoredKeys keys :=
  ⟨part.nodup stored.distinct, stored.sorted.sublist part⟩

theorem readableKeys_of_sublist {keys allKeys : List Bytes} (readable : ReadableKeys allKeys)
    (part : keys.Sublist allKeys) : ReadableKeys keys :=
  ⟨part.length_le.trans readable.few, fun key member => readable.nonempty key (part.mem member)⟩

theorem envMembers_stored (bodyStored : body.Every (fun _ => True) StoredKeys)
    (traceStored : ∀ item, trace = some item → item.Every (fun _ => True) StoredKeys)
    (includeSig : Bool) :
    (Item.object (params.envMembers body trace includeSig)).Every (fun _ => True) StoredKeys := by
  have auth : StoredKeys authKeys := ⟨by decide, by decide⟩
  have env : StoredKeys envKeys := ⟨by decide, by decide⟩
  exact every_envMembers (storedKeys_of_sublist auth (authMembers_keys includeSig))
    (storedKeys_of_sublist env (envMembers_keys body trace includeSig)) bodyStored traceStored

theorem envMembers_readable
    (bodyReadable : body.Every (fun length => length ≤ 100000) ReadableKeys)
    (traceReadable : ∀ item, trace = some item →
      item.Every (fun length => length ≤ 100000) ReadableKeys) (includeSig : Bool) :
    (Item.object (params.envMembers body trace includeSig)).Every
      (fun length => length ≤ 100000) ReadableKeys := by
  have auth : ReadableKeys authKeys := ⟨by decide, by decide⟩
  have env : ReadableKeys envKeys := ⟨by decide, by decide⟩
  exact every_envMembers (readableKeys_of_sublist auth (authMembers_keys includeSig))
    (readableKeys_of_sublist env (envMembers_keys body trace includeSig)) bodyReadable
    traceReadable

theorem height_authMembers : (Item.object (params.authMembers includeSig)).height = 1 := by
  rw [Item.height, authMembers]
  cases params.authHasSeq <;> cases includeSig <;> cases params.authSigB64 <;>
    simp [heightOfMembers, Item.height, natItem]

theorem height_envMembers (bodyShallow : body.height < 64)
    (traceShallow : ∀ item, trace = some item → item.height < 64) (includeSig : Bool) :
    (Item.object (params.envMembers body trace includeSig)).height ≤ 64 := by
  have auth := params.height_authMembers includeSig
  rw [Item.height] at auth
  rw [Item.height, envMembers]
  cases trace with
  | none =>
    simp [heightOfMembers, Item.height, natItem]
    omega
  | some item =>
    have bound := traceShallow item rfl
    simp [heightOfMembers, Item.height, natItem]
    omega

theorem length_appendAi_small (major : UInt8) {n : Nat} (small : n < 24) :
    (appendAi major n).length = 1 := by
  rw [appendAi, if_pos small]
  rfl

theorem length_encoding_object {members : List (Bytes × Item)} (few : members.length < 24) :
    (Item.object members).encoding.length = (members.flatMap memberEncoding).length + 1 := by
  rw [encoding_object_eq, length_mapEncoding, List.length_map, length_appendAi_small _ few,
    List.flatMap_map, Nat.add_comm]
  rfl

theorem length_envMembers (body : Item) (trace : Option Item) :
    (Item.object (params.envMembers body trace false)).encoding.length ≤
      (Item.object (params.envMembers body trace true)).encoding.length := by
  have few : ∀ includeSig, (params.envMembers body trace includeSig).length < 24 := by
    intro includeSig
    have short := (params.envMembers_keys body trace includeSig).length_le
    rw [List.length_map] at short
    exact short.trans_lt (by decide)
  have fewAuth : ∀ includeSig, (params.authMembers includeSig).length < 24 := by
    intro includeSig
    have short := (params.authMembers_keys includeSig).length_le
    rw [List.length_map] at short
    exact short.trans_lt (by decide)
  have auth : (Item.object (params.authMembers false)).encoding.length ≤
      (Item.object (params.authMembers true)).encoding.length := by
    rw [length_encoding_object (fewAuth false), length_encoding_object (fewAuth true)]
    simp only [authMembers, List.flatMap_append, List.length_append, Bool.false_eq_true,
      if_false, List.flatMap_nil, List.length_nil]
    omega
  rw [length_encoding_object (few false), length_encoding_object (few true), envMembers,
    envMembers]
  simp only [List.cons_append, List.nil_append, List.flatMap_cons, List.length_append,
    memberEncoding]
  omega

/-- Whatever signed envelope the encoder of the node returns, the platform decodes it
and recomputes the bytes that the node has signed. -/
theorem signing_input_agrees (writeString : Item → Bytes) {encodeBody : Write} {body : Item}
    {trace : Option Item} (given : params.encodeBody = some encodeBody)
    (writesBody : WritesValue encodeBody body)
    (writesTrace : Option.Rel WritesValue params.encodeTrace trace)
    (signature : params.authSigB64.isSome = true) {alg : Bytes}
    (algorithm : trimCopy alg ∈ cborAlgs) {capacity otherCapacity : Nat}
    {wire signingInput : Writer} (signed : params.envelopeCbor (.init capacity) = .ok wire)
    (unsigned : params.envelopeNoSigCbor (.init otherCapacity) = .ok signingInput)
    (short : wire.bytes.length ≤ 1024 * 1024) :
    ∃ env, cborDecode wire.bytes = .ok env ∧
      authInputBytesForAlg writeString env alg = .ok signingInput.bytes := by
  rcases encodeEnvImpl_eq_ok signed with ⟨_, _, checked, _⟩
  have wanted := checked.auth rfl signature
  have traceWrites := fun item equal => forall_of_rel writesTrace item equal
  have traceStored := fun item equal => (traceWrites item equal).choose_spec.stored
  have traceReadable := fun item equal => (traceWrites item equal).choose_spec.readable
  have traceShallow := fun item equal => (traceWrites item equal).choose_spec.shallow
  rcases exists_emitter (emits_of_rel writesTrace) with ⟨traceEmitter, traced, sameTrace⟩
  have bytes := fun includeSig capacity after encoded =>
    (@bytes_of_encoded params ⟨encodeBody, _, writesBody.emits⟩ traceEmitter includeSig given
      traced capacity after encoded).2.trans (envMembers_encoding rfl sameTrace wanted includeSig)
  have wireBytes := bytes true capacity wire signed
  have inputBytes := bytes false otherCapacity signingInput unsigned
  rw [wireBytes] at short ⊢
  have shorter := @length_envMembers params body trace
  refine ⟨_, cborDecode_encoding (envMembers_stored writesBody.stored traceStored true)
    (envMembers_readable writesBody.readable traceReadable true)
    (height_envMembers writesBody.shallow traceShallow true) short, ?_⟩
  rw [inputBytes, authInputBytesForAlg_cbor algorithm, withoutSig_envMembers]
  · rw [withoutSig_envMembers]
    exact height_envMembers writesBody.shallow traceShallow false
  · rw [withoutSig_envMembers]
    omega

end EnvelopeCborParams

theorem decoded_removeSig {depth : Nat} {item : Item} (decoded : Decoded depth item) :
    Decoded depth (removeSig item) := by
  cases item with
  | object members =>
    cases decoded with
    | leaf _ flat => cases flat
    | object inside stored readable each =>
      have part := (List.filter_sublist (p := fun member => decide (member.1 ≠ ascii "sig"))
        (l := members)).map Prod.fst
      exact .object inside (EnvelopeCborParams.storedKeys_of_sublist stored part)
        (EnvelopeCborParams.readableKeys_of_sublist readable part) fun member isMember =>
          each member (List.mem_of_mem_filter isMember)
  | _ => exact decoded

theorem decoded_withoutSig {depth : Nat} {item : Item} (decoded : Decoded depth item) :
    Decoded depth (withoutSig item) := by
  cases item with
  | object members =>
    cases decoded with
    | leaf _ flat => cases flat
    | object inside stored readable each =>
      refine .object inside ?_ ?_ ?_
      · rw [List.map_map]
        exact stored
      · rw [List.map_map]
        exact readable
      · refine List.forall_mem_map.mpr fun member isMember => ?_
        dsimp only
        split
        · exact decoded_removeSig (each member isMember)
        · exact each member isMember
  | _ => exact decoded

theorem encoding_of_signed {writeString : Item → Bytes} {env : Item} {alg signed : Bytes}
    (algorithm : trimCopy alg ∈ cborAlgs)
    (signing : authInputBytesForAlg writeString env alg = .ok signed) :
    (withoutSig env).encoding = signed ∧ (withoutSig env).encoding.length < 2 ^ 64 := by
  have disjoint : ∀ name ∈ cborAlgs, name ∉ jsonAlgs := by decide
  rw [authInputBytesForAlg, if_neg (disjoint _ algorithm), if_pos algorithm] at signing
  cases encoded : cborEncode (withoutSig env) with
  | error failure =>
    rw [encoded] at signing
    cases signing
  | ok cbor =>
    rw [encoded] at signing
    cases signing
    have same := cborEncode_eq_ok encoded
    rcases bind_eq_ok.mp encoded with ⟨result, _, sized⟩
    split_ifs at sized
    cases sized
    exact ⟨same.symm, same ▸ by omega⟩

/-- Messages that the platform decodes and recomputes the same signing input for are one
message, but for their signatures. -/
theorem signature_binds_message {writeString : Item → Bytes} {input otherInput : Bytes}
    {env otherEnv : Item} (decoded : cborDecode input = .ok env)
    (otherDecoded : cborDecode otherInput = .ok otherEnv) {alg otherAlg : Bytes}
    (algorithm : trimCopy alg ∈ cborAlgs) (otherAlgorithm : trimCopy otherAlg ∈ cborAlgs)
    {signed : Bytes} (signing : authInputBytesForAlg writeString env alg = .ok signed)
    (otherSigning : authInputBytesForAlg writeString otherEnv otherAlg = .ok signed) :
    withoutSig env = withoutSig otherEnv := by
  have encoded := encoding_of_signed algorithm signing
  have otherEncoded := encoding_of_signed otherAlgorithm otherSigning
  exact (decoded_withoutSig (decoded_of_cborDecode decoded)).eq_of_encoding
    (decoded_withoutSig (decoded_of_cborDecode otherDecoded)) encoded.2
    (encoded.1.trans otherEncoded.1.symm)

def signedEnv (sig : Bytes) : Item :=
  .object [(ascii "auth", .object [(ascii "sig", .string sig)])]

theorem signature_binds_message_sample :
    withoutSig (signedEnv (ascii "x")) = withoutSig (signedEnv (ascii "y")) := by
  have stored : ∀ name : Bytes, StoredKeys [name] := fun name =>
    ⟨List.nodup_singleton name, List.pairwise_singleton ..⟩
  have readable : ReadableKeys [ascii "auth"] ∧ ReadableKeys [ascii "sig"] :=
    ⟨⟨by decide, by decide⟩, ⟨by decide, by decide⟩⟩
  have decoded : ∀ sig, (signedEnv sig).encoding.length ≤ 1024 * 1024 →
      cborDecode (signedEnv sig).encoding = .ok (signedEnv sig) := fun sig =>
    cborDecode_encoding ⟨stored _, ⟨stored _, trivial, trivial⟩, trivial⟩
      ⟨readable.1, ⟨readable.2, trivial, trivial⟩, trivial⟩
      (show 2 ≤ 64 by decide)
  have cborAlg : trimCopy (ascii "ed25519-cbor") ∈ cborAlgs := by decide
  have input : ∀ sig, authInputBytesForAlg (fun _ => []) (signedEnv sig) (ascii "ed25519-cbor") =
      .ok (Item.object [(ascii "auth", .object [])]).encoding := fun sig =>
    authInputBytesForAlg_cbor cborAlg (show 2 ≤ 64 by decide) (show 7 ≤ 4 * 1024 * 1024 by decide)
  exact signature_binds_message (decoded (ascii "x") (by decide)) (decoded (ascii "y") (by decide))
    cborAlg cborAlg (input _) (input _)

def sampleParams : EnvelopeCborParams where
  msgId := ascii "m1"
  tsUtcMs := 7
  type := ascii "t"
  fromId := ascii "node:n"
  toId := ascii "p"
  encodeBody := some (writeMapSorted [(ascii "ok", writeBool true)])
  encodeTrace := some (writeMapSorted [(ascii "n", writeNull)])
  authAlg := ascii "ed25519-cbor"
  authKid := ascii "k"
  authSeq := 3
  authHasSeq := true
  authSigB64 := some (ascii "c2ln")

def sampleAuth : Bytes :=
  0x63 :: ascii "alg" ++ 0x6c :: ascii "ed25519-cbor" ++ 0x63 :: ascii "kid" ++ 0x61 :: ascii "k" ++
    0x63 :: ascii "seq" ++ [3]

def sampleFields : Bytes :=
  0x64 :: ascii "body" ++ 0xa1 :: 0x62 :: ascii "ok" ++ 0xf5 :: 0x64 :: ascii "from" ++
    0x66 :: ascii "node:n" ++ 0x64 :: ascii "type" ++ 0x61 :: ascii "t" ++ 0x65 :: ascii "trace" ++
    0xa1 :: 0x61 :: ascii "n" ++ 0xf6 :: 0x66 :: ascii "msg_id" ++ 0x62 :: ascii "m1" ++
    0x69 :: ascii "ts_utc_ms" ++ [7]

def sampleWire : Bytes :=
  0xa8 :: 0x62 :: ascii "to" ++ 0x61 :: ascii "p" ++ 0x64 :: ascii "auth" ++ 0xa4 :: sampleAuth ++
    0x63 :: ascii "sig" ++ 0x64 :: ascii "c2ln" ++ sampleFields

def sampleInput : Bytes :=
  0xa8 :: 0x62 :: ascii "to" ++ 0x61 :: ascii "p" ++ 0x64 :: ascii "auth" ++ 0xa3 :: sampleAuth ++
    sampleFields

def sampleText : Bytes :=
  ascii "\x7b\"auth\":\x7b\"alg\":\"ed25519-cbor\",\"kid\":\"k\",\"seq\":3\x7d," ++
    ascii "\"body\":\x7b\"ok\":true\x7d,\"from\":\"node:n\",\"msg_id\":\"m1\",\"to\":\"p\"," ++
    ascii "\"trace\":\x7b\"n\":null\x7d,\"ts_utc_ms\":7,\"type\":\"t\"\x7d"

set_option maxRecDepth 2000 in
theorem signing_input_agrees_sample :
    ∃ env, cborDecode sampleWire = .ok env ∧
      authInputBytesForAlg (fun _ => sampleText) env (ascii "ed25519-cbor") = .ok sampleInput := by
  have body : WritesValue (writeMapSorted [(ascii "ok", writeBool true)])
      (.object [(ascii "ok", .bool true)]) :=
    ⟨@emits_writeMapSorted [(ascii "ok", ⟨_, _, emits_put _⟩)] (by decide),
      ⟨⟨by decide, by decide⟩, trivial, trivial⟩, ⟨⟨by decide, by decide⟩, trivial, trivial⟩,
      by decide⟩
  have trace : WritesValue (writeMapSorted [(ascii "n", writeNull)])
      (.object [(ascii "n", .null)]) :=
    ⟨@emits_writeMapSorted [(ascii "n", ⟨_, _, emits_put _⟩)] (by decide),
      ⟨⟨by decide, by decide⟩, trivial, trivial⟩, ⟨⟨by decide, by decide⟩, trivial, trivial⟩,
      by decide⟩
  have signed : sampleParams.envelopeCbor (.init 256) = .ok ⟨256, sampleWire, by decide⟩ := rfl
  have unsigned : sampleParams.envelopeNoSigCbor (.init 256) =
      .ok ⟨256, sampleInput, by decide⟩ := rfl
  exact EnvelopeCborParams.signing_input_agrees (fun _ => sampleText) rfl body (.some trace) rfl
    (by decide) signed unsigned (by decide)

end AgentC.Umbmp
