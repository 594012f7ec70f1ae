import AgentC.Umbmp.Envelope
import AgentC.Umbmp.EnvelopeReader

/-! # What is written is read back -/

namespace AgentC.Umbmp

open Cbor Cbor.Reader
open EdgeConsensus (umbmpIdIsSafe)

def fieldEntry (field : Bytes × Bytes) : TextEntry :=
  ⟨appendAi majorText field.1.length, field.1, field.2⟩

theorem mapEncoding_eq (fields : List (Bytes × Bytes)) :
    mapEncoding fields = appendAi majorMap fields.length ++
      ((sortByKey lengthFirstLE fields).map fieldEntry).flatMap TextEntry.bytes := by
  rw [mapEncoding, List.flatMap_map]
  rfl

theorem length_le_mapEncoding {fields : List (Bytes × Bytes)} {field : Bytes × Bytes}
    (member : field ∈ fields) : field.2.length ≤ (mapEncoding fields).length := by
  have shorter := length_le_flatMap (fun field : Bytes × Bytes => encodeText field.1 ++ field.2)
    member
  rw [List.length_append] at shorter
  rw [length_mapEncoding]
  omega

theorem textMap_mapEncoding {few : Nat → Prop} {levels : Nat} {fields : List (Bytes × Bytes)}
    (isFew : few fields.length) (bounded : fields.length < 2 ^ 64)
    (keys : ∀ field ∈ fields, field.1.length < 2 ^ 64)
    (values : ∀ field ∈ fields, DefiniteItem few levels field.2) :
    TextMap few levels ((sortByKey lengthFirstLE fields).map fieldEntry) (mapEncoding fields) := by
  have length : ((sortByKey lengthFirstLE fields).map fieldEntry).length = fields.length := by
    rw [List.length_map, (perm_sortByKey fields).length_eq]
  refine ⟨⟨appendAi majorMap fields.length, ?_, mapEncoding_eq fields⟩, ?_, ?_, ?_⟩
  · rw [length]
    exact isHead_appendAi majorMap bounded
  · rw [length]
    exact isFew
  · intro entry member
    rcases List.mem_map.mp member with ⟨field, isField, same⟩
    rw [← same]
    exact isHead_appendAi majorText (keys field (mem_sortByKey.mp isField))
  · intro entry member
    rcases List.mem_map.mp member with ⟨field, isField, same⟩
    rw [← same]
    exact values field (mem_sortByKey.mp isField)

variable {few : Nat → Prop} {levels : Nat}

theorem definite_encodeText {text : Bytes} (short : (encodeText text).length < 2 ^ 64) :
    DefiniteItem few levels (encodeText text) := by
  rw [encodeText, List.length_append] at short
  exact .string (.inr (isHead_appendAi majorText (by omega)))

theorem definite_uint {n : Nat} (bounded : n < 2 ^ 64) :
    DefiniteItem few levels (appendAi majorUint n) :=
  .number (.inl (isHead_appendAi majorUint bounded))

theorem readText_encodeText {text : Bytes} (short : (encodeText text).length < 2 ^ 64)
    (input : Bytes) : readText (encodeText text ++ input) = .ok (text, input) := by
  rw [encodeText, List.length_append] at short
  rw [encodeText, List.append_assoc]
  exact readText_isHead (isHead_appendAi majorText (by omega)) input

theorem readUint_appendAi {n : Nat} (bounded : n < 2 ^ 64) (input : Bytes) :
    readUint (appendAi majorUint n ++ input) = .ok (n, input) :=
  readUint_isHead (isHead_appendAi majorUint bounded) input

variable {key value : Bytes}

theorem reads_field {α : Type} {readValue : ReadValue α} {state after : α}
    (short : key.length < 2 ^ 64)
    (read : ∀ input, readValue key state (value ++ input) = .ok (after, input)) :
    Reads readValue [fieldEntry (key, value)] state after :=
  .cons (isHead_appendAi majorText short) read (.nil after)

inductive Plain : Emitter → Prop
  | text (text : Bytes) : Plain (.text text)
  | uint {n : Nat} (bounded : n < 2 ^ 64) : Plain (.uint n)

theorem Plain.definite {emitter : Emitter} (plain : Plain emitter)
    (short : emitter.bytes.length < 2 ^ 64) : DefiniteItem few levels emitter.bytes := by
  cases plain with
  | text text => exact definite_encodeText short
  | uint bounded => exact definite_uint bounded

/-- The bytes of a map with text keys within the limits of the reader. Its values may be
nested one level less deep than an item. -/
def ReadableMap (entries : List TextEntry) (bytes : Bytes) : Prop :=
  TextMap FewItems 15 entries bytes

def IsText (value : Bytes) : Prop :=
  ∃ head text, IsHead majorText text.length head ∧ value = head ++ text

/-- The bytes of a trace whose id is a text. -/
def ReadableTrace (bytes : Bytes) : Prop :=
  ∃ entries, ReadableMap entries bytes ∧
    ∀ entry ∈ entries, entry.key = ascii "trace_id" → IsText entry.value

section Readable

variable {entries : List TextEntry} {bytes : Bytes}

theorem ReadableMap.view (readable : ReadableMap entries bytes) (input : Bytes) :
    readItemView (bytes ++ input) = .ok (bytes, input) :=
  readItemView_definite (TextMap.definite readable) input

theorem ReadableMap.ne_nil (readable : ReadableMap entries bytes) : bytes ≠ [] := by
  rcases readable.layout with ⟨head, isHead, equal⟩
  rw [equal]
  cases isHead with
  | short small => exact nofun
  | wide => exact nofun

theorem ReadableMap.skipValue (readable : ReadableMap entries bytes) {entry : TextEntry}
    (member : entry ∈ entries) (input : Bytes) : skipValue (entry.value ++ input) = .ok input :=
  skips_definite ((readable.values entry member).mono (by decide)) input

theorem ReadableMap.readWholeMap {α : Type} {readValue : ReadValue α} {start after : α}
    (readable : ReadableMap entries bytes) (reads : Reads readValue entries start after) :
    readWholeMap readValue start bytes = .ok after := by
  rcases readable.layout with ⟨head, isHead, equal⟩
  rw [equal]
  exact readWholeMap_reads isHead readable.isFew reads

theorem readBody_readable (readable : ReadableMap entries bytes) (out : EnvelopeView)
    (input : Bytes) :
    readBody out (bytes ++ input) = .ok ({ out with bodyItem := some bytes }, input) := by
  have values : ∀ entry ∈ entries, ∀ state, ∃ after, ∀ input,
      readBodyField entry.key state (entry.value ++ input) = .ok (after, input) := by
    intro entry member state
    refine ⟨(), fun input => ?_⟩
    rw [readBodyField, readable.skipValue member]
    rfl
  rcases exists_reads readable.keys values () with ⟨after, reads⟩
  rw [readBody, readable.view]
  simp only [bind, Except.bind, readable.readWholeMap reads]
  rfl

theorem parseTrace_readable (readable : ReadableMap entries bytes)
    (texts : ∀ entry ∈ entries, entry.key = ascii "trace_id" → IsText entry.value) :
    ∃ trace, parseTrace bytes = .ok trace := by
  have values : ∀ entry ∈ entries, ∀ state, ∃ after, ∀ input,
      readTraceField entry.key state (entry.value ++ input) = .ok (after, input) := by
    intro entry member state
    by_cases named : entry.key = ascii "trace_id"
    · rcases texts entry member named with ⟨head, text, isHead, equal⟩
      refine ⟨if umbmpTraceIdIsSafe text then { state with traceId := some text } else state,
        fun input => ?_⟩
      rw [readTraceField, if_pos named, equal, List.append_assoc, readText_isHead isHead]
      rfl
    · refine ⟨state, fun input => ?_⟩
      rw [readTraceField, if_neg named, readable.skipValue member]
      rfl
  rcases exists_reads readable.keys values {} with ⟨after, reads⟩
  refine ⟨after, ?_⟩
  rw [parseTrace, if_neg readable.ne_nil, readable.readWholeMap reads]

theorem readTrace_readable (readable : ReadableTrace bytes) (out : EnvelopeView) : ∃ trace, ∀ input,
      readTrace out (bytes ++ input) = .ok ({ out with trace := some trace }, input) := by
  rcases readable with ⟨entries, readable, texts⟩
  rcases parseTrace_readable readable texts with ⟨trace, parsed⟩
  refine ⟨trace, fun input => ?_⟩
  rw [readTrace, readable.view]
  simp only [bind, Except.bind, parsed]
  rfl

end Readable

namespace EnvelopeCborParams

variable {params : EnvelopeCborParams}

/-- The fields of `auth` as they are written. -/
def authEntries (params : EnvelopeCborParams) : List (Bytes × Bytes) :=
  (params.authFields true).map fun field => (field.1, field.2.bytes)

/-- `auth` as it was given to the writer. -/
def authView (params : EnvelopeCborParams) : AuthView where
  alg := params.authAlg
  kid := params.authKid
  seq := if params.authHasSeq then some params.authSeq.toNat else none
  sig := params.authSigB64

theorem sorted_authEntries : sortByKey lengthFirstLE params.authEntries = params.authEntries := by
  rw [authEntries, authFields]
  cases params.authHasSeq <;> cases params.authSigB64 <;> rfl

theorem length_authEntries : params.authEntries.length ≤ 4 := by
  rw [authEntries, authFields]
  cases params.authHasSeq <;> cases params.authSigB64 <;> simp

theorem authFields_plain : ∀ field ∈ params.authFields true,
    field.1.length = 3 ∧ Plain field.2 := by
  have alg : (ascii "alg").length = 3 ∧ Plain (.text params.authAlg) := ⟨rfl, .text _⟩
  have kid : (ascii "kid").length = 3 ∧ Plain (.text params.authKid) := ⟨rfl, .text _⟩
  have seq : (ascii "seq").length = 3 ∧ Plain (.uint params.authSeq.toNat) :=
    ⟨rfl, .uint params.authSeq.toNat_lt⟩
  have sig : (ascii "sig").length = 3 := rfl
  have plain : ∀ sig, Plain (.text sig) := fun sig => .text sig
  rw [authFields]
  cases params.authHasSeq <;> cases params.authSigB64 <;> simp [alg, kid, seq, sig, plain]

theorem definite_auth (short : (mapEncoding params.authEntries).length < 2 ^ 64) :
    DefiniteItem FewItems maxDepth (mapEncoding params.authEntries) := by
  have few := params.length_authEntries
  have textMap : TextMap FewItems 15 ((sortByKey lengthFirstLE params.authEntries).map fieldEntry)
      (mapEncoding params.authEntries) := by
    apply textMap_mapEncoding
    · exact few.trans (by decide)
    · exact few.trans_lt (by decide)
    · intro entry member
      rcases List.mem_map.mp member with ⟨field, isField, same⟩
      rw [← same, (authFields_plain field isField).1]
      decide
    · intro entry member
      have shorter := length_le_mapEncoding member
      rcases List.mem_map.mp member with ⟨field, isField, same⟩
      rw [← same] at shorter ⊢
      exact (authFields_plain field isField).2.definite (shorter.trans_lt short)
  exact textMap.definite

theorem short_authField (short : (mapEncoding params.authEntries).length < 2 ^ 64)
    {field : Bytes × Emitter} (member : field ∈ params.authFields true) :
    field.2.bytes.length < 2 ^ 64 := by
  have isEntry : (field.1, field.2.bytes) ∈ params.authEntries := List.mem_map_of_mem member
  exact (length_le_mapEncoding isEntry).trans_lt short

theorem reads_auth (short : (mapEncoding params.authEntries).length < 2 ^ 64) :
    Reads readAuthField (params.authEntries.map fieldEntry) {} params.authView := by
  have algShort : (encodeText params.authAlg).length < 2 ^ 64 :=
    @short_authField params short (ascii "alg", .text params.authAlg) (by simp [authFields])
  have kidShort : (encodeText params.authKid).length < 2 ^ 64 :=
    @short_authField params short (ascii "kid", .text params.authKid) (by simp [authFields])
  have alg : Reads readAuthField [fieldEntry (ascii "alg", encodeText params.authAlg)] {}
      { alg := params.authAlg } := by
    refine reads_field (by decide) fun input => ?_
    rw [readAuthField, if_pos rfl, readText_encodeText algShort]
    rfl
  have kid : Reads readAuthField [fieldEntry (ascii "kid", encodeText params.authKid)]
      { alg := params.authAlg } { alg := params.authAlg, kid := params.authKid } := by
    refine reads_field (by decide) fun input => ?_
    rw [readAuthField, if_neg (by decide), if_pos rfl, readText_encodeText kidShort]
    rfl
  have seq : Reads readAuthField
      ((if params.authHasSeq then [(ascii "seq", appendAi majorUint params.authSeq.toNat)]
        else []).map fieldEntry)
      { alg := params.authAlg, kid := params.authKid }
      { alg := params.authAlg, kid := params.authKid,
        seq := if params.authHasSeq then some params.authSeq.toNat else none } := by
    cases params.authHasSeq with
    | false => exact .nil _
    | true =>
      refine reads_field (by decide) fun input => ?_
      rw [readAuthField, if_neg (by decide), if_neg (by decide), if_pos rfl,
        readUint_appendAi params.authSeq.toNat_lt]
      rfl
  have sig : Reads readAuthField
      ((params.authSigB64.map fun sig => (ascii "sig", encodeText sig)).toList.map fieldEntry)
      { alg := params.authAlg, kid := params.authKid,
        seq := if params.authHasSeq then some params.authSeq.toNat else none }
      params.authView := by
    rw [authView]
    cases given : params.authSigB64 with
    | none => exact .nil _
    | some sig =>
      have sigShort : (encodeText sig).length < 2 ^ 64 :=
        @short_authField params short (ascii "sig", .text sig) (by simp [authFields, given])
      refine reads_field (by decide) fun input => ?_
      rw [readAuthField, if_neg (by decide), if_neg (by decide), if_neg (by decide), if_pos rfl,
        readText_encodeText sigShort]
      rfl
  have entries : params.authEntries.map fieldEntry =
      [fieldEntry (ascii "alg", encodeText params.authAlg)] ++
        [fieldEntry (ascii "kid", encodeText params.authKid)] ++
        (if params.authHasSeq then [(ascii "seq", appendAi majorUint params.authSeq.toNat)]
          else []).map fieldEntry ++
        (params.authSigB64.map fun sig => (ascii "sig", encodeText sig)).toList.map fieldEntry := by
    rw [authEntries, authFields]
    cases params.authHasSeq <;> cases params.authSigB64 <;> rfl
  rw [entries]
  exact ((alg.append kid).append seq).append sig

theorem parseAuth_authEntries (short : (mapEncoding params.authEntries).length < 2 ^ 64) :
    parseAuth (mapEncoding params.authEntries) = .ok params.authView := by
  have few := params.length_authEntries
  have written := mapEncoding_eq params.authEntries
  have nonempty : mapEncoding params.authEntries ≠ [] := by
    rw [mapEncoding]
    simp [appendAi_ne_nil]
  have isHead := isHead_appendAi majorMap (few.trans_lt (show 4 < 2 ^ 64 by decide))
  rw [sorted_authEntries] at written
  rw [parseAuth, if_neg nonempty, written]
  apply readWholeMap_reads _ _ (reads_auth short)
  · rw [List.length_map]
    exact isHead
  · rw [List.length_map]
    exact few.trans (by decide)

theorem readAuth_authEntries (short : (mapEncoding params.authEntries).length < 2 ^ 64)
    (wanted : params.wantAuth = true) (kid : umbmpIdIsSafe params.authKid = true)
    (out : EnvelopeView) (input : Bytes) : readAuth out (mapEncoding params.authEntries ++ input) =
      .ok ({ out with auth := some params.authView }, input) := by
  have parsed := params.parseAuth_authEntries short
  simp only [wantAuth, Bool.and_eq_true, bne_iff_ne, ne_eq] at wanted
  rw [readAuth, readItemView_definite (definite_auth short)]
  simp only [bind, Except.bind, parsed, orInvalid]
  simp only [authView, if_neg wanted.1, if_neg wanted.2, kid]
  rfl

def wireFields (params : EnvelopeCborParams) (body : Bytes) (trace : Option Bytes) :
    List (Bytes × Bytes) :=
  [(ascii "to", encodeText params.toId)] ++
    (if params.wantAuth then [(ascii "auth", mapEncoding params.authEntries)] else []) ++
    [(ascii "body", body), (ascii "from", encodeText params.fromId),
      (ascii "type", encodeText params.type)] ++
    (trace.map fun trace => (ascii "trace", trace)).toList ++
    [(ascii "msg_id", encodeText params.msgId), (ascii "ts_utc_ms", appendAi majorUint params.ts)]

theorem sorted_envFields (body : Emitter) (trace : Option Emitter) :
    sortByKey lengthFirstLE ((params.envFields body trace true).map fun field =>
      (field.1, field.2.bytes)) = params.wireFields body.bytes (trace.map Emitter.bytes) := by
  rw [envFields, wireFields]
  cases trace <;> cases params.wantAuth <;> rfl

theorem readId_encodeText {id : Bytes} (safe : umbmpIdIsSafe id = true)
    (short : (encodeText id).length < 2 ^ 64) (store : Bytes → EnvelopeView) (input : Bytes) :
    readId store (encodeText id ++ input) = .ok (store id, input) := by
  rw [readId, readText_encodeText short]
  simp only [bind, Except.bind, safe]
  rfl

/-- `auth` is written only with `alg` and `kid`. -/
def writtenAuth (params : EnvelopeCborParams) : Option AuthView :=
  if params.wantAuth then some params.authView else none

/-- The envelope as it was given to the writer. -/
structure Returned (params : EnvelopeCborParams) (body : Bytes) (view : EnvelopeView) : Prop where
  msgId : view.msgId = some params.msgId
  type : view.type = some params.type
  fromId : view.fromId = some params.fromId
  toId : view.toId = some params.toId
  tsUtcMs : view.tsUtcMs = some params.tsUtcMs.toInt.toNat
  auth : view.auth = params.writtenAuth
  bodyItem : view.bodyItem = some body

/-- The ids that the reader checks and the writer does not. -/
structure SafeIds (params : EnvelopeCborParams) : Prop where
  type : umbmpIdIsSafe params.type = true
  fromId : umbmpIdIsSafe params.fromId = true
  toId : umbmpIdIsSafe params.toId = true

theorem ts_eq : params.ts = params.tsUtcMs.toInt.toNat := by
  rw [ts]
  split
  · omega
  · rfl

section Fields

variable {id : Bytes} (out : EnvelopeView) (safe : umbmpIdIsSafe id = true)
  (short : (encodeText id).length < 2 ^ 64)

include safe short

theorem reads_toId : Reads readEnvelopeField [fieldEntry (ascii "to", encodeText id)] out
    { out with toId := some id } :=
  reads_field (by decide) fun input =>
    readId_encodeText safe short (fun v => { out with toId := some v }) input

theorem reads_fromId : Reads readEnvelopeField [fieldEntry (ascii "from", encodeText id)] out
    { out with fromId := some id } :=
  reads_field (by decide) fun input =>
    readId_encodeText safe short (fun v => { out with fromId := some v }) input

theorem reads_type : Reads readEnvelopeField [fieldEntry (ascii "type", encodeText id)] out
    { out with type := some id } :=
  reads_field (by decide) fun input =>
    readId_encodeText safe short (fun v => { out with type := some v }) input

theorem reads_msgId : Reads readEnvelopeField [fieldEntry (ascii "msg_id", encodeText id)] out
    { out with msgId := some id } :=
  reads_field (by decide) fun input =>
    readId_encodeText safe short (fun v => { out with msgId := some v }) input

end Fields

theorem reads_authField {out : EnvelopeView} (bare : out.auth = none)
    (checked : params.Checked true)
    (short : params.wantAuth = true → (mapEncoding params.authEntries).length < 2 ^ 64) :
    Reads readEnvelopeField
      ((if params.wantAuth then [(ascii "auth", mapEncoding params.authEntries)] else []).map
        fieldEntry) out
      { out with auth := params.writtenAuth } := by
  rw [writtenAuth]
  cases wanted : params.wantAuth with
  | false =>
    have same : { out with auth := none } = out := by rw [← bare]
    simp only [Bool.false_eq_true, if_false, same]
    exact .nil _
  | true =>
    exact reads_field (by decide) fun input =>
      readAuth_authEntries (short wanted) wanted (checked.kid wanted) _ input

variable {trace : Option Bytes}

theorem reads_traceField (out : EnvelopeView)
    (readable : ∀ bytes, trace = some bytes → ReadableTrace bytes) :
    ∃ view, Reads readEnvelopeField
      ((trace.map fun trace => (ascii "trace", trace)).toList.map fieldEntry) out
      { out with trace := view } := by
  cases trace with
  | none => exact ⟨out.trace, .nil _⟩
  | some bytes =>
    rcases readTrace_readable (readable bytes rfl) out with ⟨view, read⟩
    exact ⟨some view, reads_field (by decide) read⟩

theorem reads_ts (params : EnvelopeCborParams) (out : EnvelopeView) : Reads readEnvelopeField
    [fieldEntry (ascii "ts_utc_ms", appendAi majorUint params.ts)] out
    { out with tsUtcMs := some params.ts } := by
  refine reads_field (by decide) fun input => ?_
  rw [readEnvelopeField, if_neg (by decide), if_pos rfl, readUint_appendAi params.ts_lt]
  rfl

theorem reads_envelope {body : Bytes} {entries : List TextEntry} (checked : params.Checked true)
    (safe : params.SafeIds) (readable : ReadableMap entries body)
    (readableTrace : ∀ bytes, trace = some bytes → ReadableTrace bytes)
    (short : ∀ field ∈ params.wireFields body trace, field.2.length < 2 ^ 64) :
    ∃ view, Reads readEnvelopeField ((params.wireFields body trace).map fieldEntry) {} view ∧
      view.complete = true ∧ params.Returned body view := by
  have toShort := short (ascii "to", encodeText params.toId) (by simp [wireFields])
  have fromShort := short (ascii "from", encodeText params.fromId) (by simp [wireFields])
  have typeShort := short (ascii "type", encodeText params.type) (by simp [wireFields])
  have msgShort := short (ascii "msg_id", encodeText params.msgId) (by simp [wireFields])
  have authShort : params.wantAuth = true → (mapEncoding params.authEntries).length < 2 ^ 64 :=
    fun wanted => short (ascii "auth", mapEncoding params.authEntries) (by simp [wireFields, wanted])
  have toId := reads_toId {} safe.toId toShort
  have auth : Reads readEnvelopeField _ { toId := some params.toId }
      { toId := some params.toId, auth := params.writtenAuth } :=
    reads_authField rfl checked authShort
  have bodyItem : Reads readEnvelopeField [fieldEntry (ascii "body", body)]
      { toId := some params.toId, auth := params.writtenAuth }
      { toId := some params.toId, auth := params.writtenAuth, bodyItem := some body } :=
    reads_field (by decide) (readBody_readable readable _)
  have fromId : Reads readEnvelopeField _
      { toId := some params.toId, auth := params.writtenAuth, bodyItem := some body }
      { toId := some params.toId, auth := params.writtenAuth, bodyItem := some body,
        fromId := some params.fromId } :=
    reads_fromId _ safe.fromId fromShort
  have type : Reads readEnvelopeField _
      { toId := some params.toId, auth := params.writtenAuth, bodyItem := some body,
        fromId := some params.fromId }
      { toId := some params.toId, auth := params.writtenAuth, bodyItem := some body,
        fromId := some params.fromId, type := some params.type } :=
    reads_type _ safe.type typeShort
  rcases reads_traceField
      { toId := some params.toId, auth := params.writtenAuth, bodyItem := some body,
        fromId := some params.fromId, type := some params.type }
      readableTrace with ⟨view, traceField⟩
  have msgId : Reads readEnvelopeField _
      { toId := some params.toId, auth := params.writtenAuth, bodyItem := some body,
        fromId := some params.fromId, type := some params.type, trace := view }
      { toId := some params.toId, auth := params.writtenAuth, bodyItem := some body,
        fromId := some params.fromId, type := some params.type, trace := view,
        msgId := some params.msgId } :=
    reads_msgId _ checked.msgId msgShort
  have ts := params.reads_ts
    { toId := some params.toId, auth := params.writtenAuth, bodyItem := some body,
      fromId := some params.fromId, type := some params.type, trace := view,
      msgId := some params.msgId }
  have reads := (((toId.append auth).append (bodyItem.append (fromId.append type))).append
    traceField).append (msgId.append ts)
  simp only [wireFields, List.map_append, List.map_cons, List.map_nil]
  exact ⟨_, reads, rfl, ⟨rfl, rfl, rfl, rfl, congrArg some ts_eq, rfl, rfl⟩⟩

theorem length_envFields (body : Emitter) (trace : Option Emitter) :
    (params.envFields body trace true).length ≤ 8 := by
  rw [envFields]
  cases trace <;> cases params.wantAuth <;> simp

theorem envelopeReadCbor_mapEncoding {fields : List (Bytes × Bytes)} {view : EnvelopeView}
    (few : fields.length ≤ maxContainerItems)
    (reads : Reads readEnvelopeField ((sortByKey lengthFirstLE fields).map fieldEntry) {} view)
    (complete : view.complete = true) : envelopeReadCbor (mapEncoding fields) = .ok view := by
  have nonempty : mapEncoding fields ≠ [] := by
    rw [mapEncoding]
    simp [appendAi_ne_nil]
  have length : ((sortByKey lengthFirstLE fields).map fieldEntry).length = fields.length := by
    rw [List.length_map, (perm_sortByKey fields).length_eq]
  have isHead := isHead_appendAi majorMap (few.trans_lt (show maxContainerItems < 2 ^ 64 by decide))
  rw [← length] at isHead few
  rw [envelopeReadCbor, if_neg nonempty, mapEncoding_eq, ← length,
    readWholeMap_reads isHead few reads]
  simp only [bind, Except.bind, complete]
  rfl

/-- The callbacks append these bytes. -/
structure Emitted (params : EnvelopeCborParams) (body : Bytes) (trace : Option Bytes) : Prop where
  body : ∃ encodeBody, params.encodeBody = some encodeBody ∧ Emits encodeBody body
  trace : Option.Rel Emits params.encodeTrace trace

/-- An envelope with safe ids, and with a body and a trace within the limits of the reader,
is read back as it was given to the writer. -/
theorem envelope_read_back {body : Bytes} {trace : Option Bytes} {entries : List TextEntry}
    (emitted : params.Emitted body trace) (readable : ReadableMap entries body)
    (readableTrace : ∀ bytes, trace = some bytes → ReadableTrace bytes) (safe : params.SafeIds)
    {capacity : UInt64} {wire : Writer}
    (written : params.envelopeCbor (.init capacity.toNat) = .ok wire) :
    ∃ view, envelopeReadCbor wire.bytes = .ok view ∧ params.Returned body view := by
  rcases emitted.body with ⟨encodeBody, given, emitsBody⟩
  rcases exists_emitter emitted.trace with ⟨traceEmitter, traced, sameTrace⟩
  rcases encodeEnvImpl_eq_ok written with ⟨_, _, checked, _⟩
  rcases @bytes_of_encoded params ⟨encodeBody, body, emitsBody⟩ traceEmitter true given traced
    capacity.toNat wire written with ⟨sameCap, bytes⟩
  have sorted := params.sorted_envFields ⟨encodeBody, body, emitsBody⟩ traceEmitter
  have few := params.length_envFields ⟨encodeBody, body, emitsBody⟩ traceEmitter
  rw [sameTrace] at sorted
  have short : ∀ field ∈ params.wireFields body trace, field.2.length < 2 ^ 64 := by
    intro field member
    rw [← sorted] at member
    have shorter := length_le_mapEncoding (mem_sortByKey.mp member)
    have fits := wire.fits
    have bound := capacity.toNat_lt
    rw [← bytes] at shorter
    omega
  rcases reads_envelope checked safe readable readableTrace short with
    ⟨view, reads, complete, returned⟩
  rw [← sorted] at reads
  refine ⟨view, ?_, returned⟩
  rw [bytes]
  refine envelopeReadCbor_mapEncoding ?_ reads complete
  rw [List.length_map]
  exact few.trans (by decide)

end EnvelopeCborParams

def AnyMap (bytes : Bytes) : Prop :=
  ∃ levels entries, TextMap (fun _ => True) levels entries bytes

def memberMap (key value : Bytes) : Bytes :=
  mapEncoding [(key, value)]

theorem memberMap_text (isFew : few 1) (short : key.length < 2 ^ 64)
    (definite : DefiniteItem few levels value) :
    TextMap few levels [fieldEntry (key, value)] (memberMap key value) := by
  refine @textMap_mapEncoding few levels [(key, value)] isFew ?_ ?_ ?_
  · simp
  · simpa using short
  · simpa using definite

theorem emits_memberMap {write : Write} (emits : Emits write value) :
    Emits (writeMapSorted [(key, write)]) (memberMap key value) :=
  @emits_writeMapSorted [(key, ⟨write, value, emits⟩)] (by simp)

def okBody : Bytes := memberMap (ascii "ok") [0xf5]

theorem okBody_text (isFew : few 1) : TextMap few 15 [fieldEntry (ascii "ok", [0xf5])] okBody :=
  memberMap_text isFew (by decide) (.simple (@IsHead.short majorSimple 21 (by decide)))

def plainEnvelope : EnvelopeCborParams where
  msgId := ascii "m"
  tsUtcMs := 1
  type := ascii "t"
  fromId := ascii "f"
  toId := ascii "p"
  encodeBody := some (writeMapSorted [(ascii "ok", writeBool true)])
  encodeTrace := none
  authAlg := []
  authKid := []
  authSeq := 0
  authHasSeq := false
  authSigB64 := none

theorem plainEnvelope_emitted : plainEnvelope.Emitted okBody none :=
  ⟨⟨_, rfl, emits_memberMap (emits_put _)⟩, .none⟩

def sampleBytesOf (count : UInt8) (body type trace : Bytes) : Bytes :=
  count :: 0x62 :: ascii "to" ++ 0x61 :: ascii "p" ++ 0x64 :: ascii "body" ++ body ++
    0x64 :: ascii "from" ++ 0x61 :: ascii "f" ++ 0x64 :: ascii "type" ++ type ++ trace ++
    0x66 :: ascii "msg_id" ++ 0x61 :: ascii "m" ++ 0x69 :: ascii "ts_utc_ms" ++ [1]

def plainWire : Bytes := sampleBytesOf 0xa6 okBody (0x61 :: ascii "t") []

set_option maxRecDepth 2000 in
theorem envelope_read_back_sample :
    ∃ view, envelopeReadCbor plainWire = .ok view ∧ plainEnvelope.Returned okBody view := by
  have written : plainEnvelope.envelopeCbor (.init (100 : UInt64).toNat) =
      .ok ⟨100, plainWire, by decide⟩ := rfl
  exact EnvelopeCborParams.envelope_read_back plainEnvelope_emitted
    (okBody_text (show 1 ≤ maxContainerItems by decide)) nofun ⟨by decide, by decide, by decide⟩ written

def nestedArrays (depth : Nat) : Bytes :=
  List.replicate depth 0x81 ++ [0x80]

theorem nestedArrays_definite (depth : Nat) :
    DefiniteItem (fun _ => True) (depth + 1) (nestedArrays depth) := by
  induction depth with
  | zero => exact @DefiniteItem.array _ 0 _ [] (.short (by decide)) trivial nofun
  | succ depth induction =>
    have inner : ∀ item ∈ [nestedArrays depth], DefiniteItem (fun _ => True) (depth + 1) item :=
      fun item member => List.mem_singleton.mp member ▸ induction
    have isHead : IsHead majorArray [nestedArrays depth].length [0x81] :=
      @IsHead.short majorArray 1 (by decide)
    have outer := DefiniteItem.array isHead trivial inner
    simpa [nestedArrays, List.replicate_succ] using outer

def spacedEnvelope : EnvelopeCborParams :=
  { plainEnvelope with type := ascii "a b" }

/-- A body nested one level deeper than the reader goes. -/
def deepEnvelope : EnvelopeCborParams :=
  { plainEnvelope with
    encodeBody := some (writeMapSorted [(ascii "a", Writer.put (nestedArrays 15))]) }

/-- A trace with a number for its id. -/
def numberedEnvelope : EnvelopeCborParams :=
  { plainEnvelope with encodeTrace := some (writeMapSorted [(ascii "trace_id", writeUint 5)]) }

/-- An algorithm without a key. -/
def keylessEnvelope : EnvelopeCborParams :=
  { plainEnvelope with authAlg := ascii "ed25519" }

/-- The callbacks write maps with text keys and the time is not negative. -/
structure WritesMaps (params : EnvelopeCborParams) (body : Bytes) (trace : Option Bytes) :
    Prop where
  emitted : params.Emitted body trace
  bodyMap : AnyMap body
  traceMap : ∀ bytes, trace = some bytes → AnyMap bytes
  ts : 0 ≤ params.tsUtcMs.toInt

theorem okBody_any : AnyMap okBody := ⟨15, _, okBody_text trivial⟩

theorem deepBody_any : AnyMap (memberMap (ascii "a") (nestedArrays 15)) :=
  ⟨16, _, memberMap_text trivial (by decide) (nestedArrays_definite 15)⟩

theorem numberedTrace_any : AnyMap (memberMap (ascii "trace_id") [5]) :=
  ⟨0, _, memberMap_text trivial (by decide) (.number (.inl (@IsHead.short majorUint 5 (by decide))))⟩

def spacedWire : Bytes := sampleBytesOf 0xa6 okBody (0x63 :: ascii "a b") []

def deepWire : Bytes :=
  sampleBytesOf 0xa6 (memberMap (ascii "a") (nestedArrays 15)) (0x61 :: ascii "t") []

def numberedWire : Bytes :=
  sampleBytesOf 0xa7 okBody (0x61 :: ascii "t")
    (0x65 :: ascii "trace" ++ memberMap (ascii "trace_id") [5])

set_option maxRecDepth 2000 in
/-- Envelopes that are written and refused, and one that comes back without `auth`. -/
theorem envelopes_not_read_back :
    (WritesMaps spacedEnvelope okBody none ∧
      (spacedEnvelope.envelopeCbor (.init 100)).map Writer.bytes = .ok spacedWire ∧
      envelopeReadCbor spacedWire = .error .invalidArgument) ∧
    (WritesMaps deepEnvelope (memberMap (ascii "a") (nestedArrays 15)) none ∧
      (deepEnvelope.envelopeCbor (.init 100)).map Writer.bytes = .ok deepWire ∧
      envelopeReadCbor deepWire = .error .limit) ∧
    (WritesMaps numberedEnvelope okBody (some (memberMap (ascii "trace_id") [5])) ∧
      (numberedEnvelope.envelopeCbor (.init 100)).map Writer.bytes = .ok numberedWire ∧
      envelopeReadCbor numberedWire = .error .invalidArgument) ∧
    (WritesMaps keylessEnvelope okBody none ∧
      (keylessEnvelope.envelopeCbor (.init 100)).map Writer.bytes = .ok plainWire ∧
      (envelopeReadCbor plainWire).map EnvelopeView.auth = .ok none) := by
  have body : ∃ encodeBody, plainEnvelope.encodeBody = some encodeBody ∧
      Emits encodeBody okBody := ⟨_, rfl, emits_memberMap (emits_put _)⟩
  refine ⟨⟨⟨⟨body, .none⟩, okBody_any, nofun, by decide⟩, rfl, rfl⟩, ⟨⟨⟨?_, .none⟩, deepBody_any,
    nofun, by decide⟩, rfl, rfl⟩, ⟨⟨⟨body, .some (emits_memberMap (emits_putAi _ _))⟩, okBody_any,
    fun bytes equal => Option.some.inj equal ▸ numberedTrace_any, by decide⟩, rfl, rfl⟩,
    ⟨⟨body, .none⟩, okBody_any, nofun, by decide⟩, rfl, rfl⟩
  exact ⟨_, rfl, emits_memberMap (emits_put _)⟩

end AgentC.Umbmp
