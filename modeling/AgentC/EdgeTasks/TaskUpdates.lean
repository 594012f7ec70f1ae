import AgentC.EdgeTasks.Calls
import AgentC.Json.Emit

/-! # Updates of tasks by node messages

The part of `update_task_state` in `daemon/src/edge_interop_endpoints.cpp` that
computes what is written: the row, the event and the verdict on an attestation.
The hash and signature functions, the base64 decoder and the JSON library are
parameters. -/

namespace AgentC.EdgeTasks

open Workflow (JsonLibrary trimCopy idIsSafe idCharOk)

structure EdgeConfig where
  json : JsonLibrary
  numbers : Json.NumberLibrary
  /-- `agent_sha256_hex_of_bytes` -/
  sha256Hex : Bytes → Bytes
  /-- `base64_decode` -/
  base64Decode : Bytes → Option Bytes
  /-- `agent_ed25519_verify` of a message, a public key and a signature. -/
  ed25519Verify : Bytes → Bytes → Bytes → Bool
  /-- `agent_hmac_sha256` of a key and a message. -/
  hmacSha256 : Bytes → Bytes → Bytes
  /-- The status with which `NODE_CAPS_RSP` is refused for the certificate of a
  manifest. -/
  manifestCertStatus : Json.Tree → Option Nat := fun _ => none
  edgeAuthRequireSeq : Bool := false
  edgeAuthKidPolicy : Bytes := []
  edgeAuthRevokedNodeIds : List Bytes := []
  edgeAuthRevokedKids : List Bytes := []
  edgeAuthEd25519Pubkeys : Bytes → Option Bytes := fun _ => none
  edgeAuthHmacKeys : Bytes → Option Bytes := fun _ => none
  edgeAttestRequired : Bool := false
  edgeAttestRequireSig : Bool := false

/-- `edge_trace_id_is_safe` -/
def traceIdIsSafe (text : Bytes) : Bool :=
  text.length != 0 && text.length ≤ 128 && text.all fun c => idCharOk c || c == '@'.toUInt8

def isHexDigit (c : UInt8) : Bool :=
  ('0'.toUInt8 ≤ c && c ≤ '9'.toUInt8) || ('a'.toUInt8 ≤ c && c ≤ 'f'.toUInt8) ||
    ('A'.toUInt8 ≤ c && c ≤ 'F'.toUInt8)

def sha256TokenIsSafe (text : Bytes) : Bool :=
  let digits := if ascii "sha256:" <+: text ∧ 7 < text.length then text.drop 7 else text
  digits.length = 64 && digits.all isHexDigit

def lowerCopy (text : Bytes) : Bytes :=
  text.map fun c => if 'A'.toUInt8 ≤ c && c ≤ 'Z'.toUInt8 then c + 32 else c

/-- The node of a sender `node:<node_id>`, empty for another sender. -/
def nodeIdOf (fromId : Bytes) : Bytes :=
  if ascii "node:" <+: fromId ∧ 5 < fromId.length then trimCopy (fromId.drop 5) else []

/-- The arguments of `update_task_state`, and the sender of the message. -/
structure TaskUpdate where
  taskId : Bytes
  stepId : Bytes
  state : Bytes
  resultJson : Bytes := []
  errorText : Bytes := []
  eventData : Json.Tree
  fromId : Bytes := []
  /-- `ts_eff` -/
  tsUtcMs : Int := 0

namespace TaskUpdate

variable (config : EdgeConfig) (update : TaskUpdate) (row : EdgeTaskRow)

def gotIdem : Bytes :=
  trimCopy (update.eventData.text (ascii "idempotency_key"))

def msgTraceId : Bytes :=
  match update.eventData.objectMember (ascii "trace") with
  | some trace => trimCopy (trace.text (ascii "trace_id"))
  | none => []

def msgTraceIdValid : Bool :=
  update.msgTraceId = [] || traceIdIsSafe update.msgTraceId

def msgTraceIdEff : Bytes :=
  if update.msgTraceIdValid then update.msgTraceId else []

def idempotencyMismatch : Bool :=
  update.gotIdem ≠ [] ∧ row.idempotencyKey ≠ [] ∧ update.gotIdem ≠ row.idempotencyKey

def canBackfillTraceId : Bool :=
  update.msgTraceIdEff ≠ [] ∧ (row.traceId = [] ∨ row.traceId = row.taskId)

/-- `apply_update` -/
def applies : Bool :=
  !isTerminalTaskState row.state && !update.idempotencyMismatch row

def succeeds : Bool :=
  update.applies row && update.state = TaskState.succeeded

def attest : Option Json.Tree :=
  (update.eventData.objectMember (ascii "result")).bind (·.objectMember (ascii "attest"))

/-! ### The stored result -/

structure StoredResult where
  bytes : Bytes
  alg : Bytes
  c14nError : Bytes := []
deriving DecidableEq, Repr

def storedForm (plain : Bytes) : StoredResult :=
  let raw := ascii "raw_result_json_bytes_v0"
  if plain.length ≤ 256 * 1024 then
    match Json.canonicalize plain with
    | .ok canonical =>
      if canonical = [] then ⟨plain, raw, ascii "c14n_failed"⟩
      else ⟨canonical, ascii "agent_json_c14n_v1", []⟩
    | .error failure =>
      ⟨plain, raw, if failure.message = "" then ascii "c14n_failed" else ascii failure.message⟩
  else ⟨plain, raw, ascii "result_json_too_large_for_c14n"⟩

/-- The result in front of the canonicalization: without its attestation. -/
def plainResult : Bytes :=
  match update.eventData.objectMember (ascii "result") with
  | some result =>
    if (result.objectMember (ascii "attest")).isSome then
      config.json.write (result.removeMember (ascii "attest"))
    else update.resultJson
  | none => update.resultJson

def storedResult : StoredResult :=
  storedForm (update.plainResult config)

def withHash : EdgeTaskRow :=
  let stored := update.storedResult config
  if update.resultJson ≠ [] then
    { row with
      resultSha256 := ascii "sha256:" ++ config.sha256Hex stored.bytes
      resultJson := stored.bytes }
  else row

def withResult : EdgeTaskRow :=
  let hashed := update.withHash config row
  match update.attest with
  | some attest => { hashed with attestJson := (config.json.write attest).take 8192 }
  | none => hashed

def attestResultSha : Bytes :=
  match update.attest with
  | some attest => trimCopy (attest.text (ascii "result_sha256"))
  | none => []

def attestResultShaMismatch : Bool :=
  update.attestResultSha ≠ [] ∧ sha256TokenIsSafe update.attestResultSha ∧
    (update.withResult config row).resultSha256 ≠ [] ∧
    update.attestResultSha ≠ (update.withResult config row).resultSha256

/-! ### The signature of an attestation -/

def sigOkKey : Bytes := ascii "_attest_sig_ok"

def sigErrorKey : Bytes := ascii "_attest_sig_error"

def rejectSignature (data : Json.Tree) (reason : Bytes) : Json.Tree :=
  (data.setMember sigOkKey (.bool false)).setMember sigErrorKey (.string reason)

end TaskUpdate

/-- `edge_auth_is_revoked`: the reason, if there is one. -/
def authRevocation (config : EdgeConfig) (nodeId kid : Bytes) : Option Bytes :=
  if nodeId ≠ [] ∧ nodeId ∈ config.edgeAuthRevokedNodeIds then some (ascii "revoked_node_id")
  else if kid ≠ [] ∧ kid ∈ config.edgeAuthRevokedKids then some (ascii "revoked_kid")
  else none

/-- The policy that binds keys to the sending node. -/
def kidPolicyAllows (config : EdgeConfig) (fromId kid : Bytes) : Bool :=
  let nodeId := nodeIdOf fromId
  if nodeId = [] ∨ ¬idIsSafe nodeId then true
  else if config.edgeAuthKidPolicy = ascii "match_node" then kid = nodeId
  else if config.edgeAuthKidPolicy = ascii "node_prefix" then
    kid = nodeId ∨ (nodeId ++ ascii ":" <+: kid ∧ (nodeId ++ ascii ":").length < kid.length)
  else true

/-- `umbmp_result_attest_input_v0_1` -/
def resultAttestInput (taskId stepId idempotencyKey resultSha256 : Bytes) (tsUtcMs : Int) : Bytes :=
  ascii "UM_EAIS_RESULT_ATTEST_v0_1\n" ++ taskId ++ ascii "\n" ++ stepId ++ ascii "\n" ++
    idempotencyKey ++ ascii "\n" ++ resultSha256 ++ ascii "\n" ++ Json.decimalInt tsUtcMs ++
    ascii "\n"

/-- Why a signature under the configured key of a `kid` does not verify, if it
does not. -/
def signatureError (config : EdgeConfig) (alg kid sigB64 input : Bytes) : Option Bytes :=
  if lowerCopy alg = ascii "ed25519" then
    match (config.edgeAuthEd25519Pubkeys kid).filter (· ≠ []) with
    | none => some (ascii "unknown_kid")
    | some pubkey =>
      match (config.base64Decode pubkey).filter (·.length = 32) with
      | none => some (ascii "invalid_config_pubkey")
      | some key =>
        match (config.base64Decode sigB64).filter (·.length = 64) with
        | none => some (ascii "invalid_sig_b64")
        | some signature =>
          if config.ed25519Verify input key signature then none
          else some (ascii "verify_failed")
  else if lowerCopy alg = ascii "hmac-sha256" then
    match (config.edgeAuthHmacKeys kid).filter (· ≠ []) with
    | none => some (ascii "unknown_kid")
    | some key =>
      match (config.base64Decode sigB64).filter (·.length = 32) with
      | none => some (ascii "invalid_sig_b64")
      | some signature =>
        if config.hmacSha256 key input = signature then none
        else some (ascii "verify_failed")
  else some (ascii "unsupported_alg")

/-- The members of an attestation that its signature is about. -/
structure AttestFields where
  kid : Bytes
  alg : Bytes
  sigB64 : Bytes
  tsUtcMs : Int
  resultSha256 : Bytes
deriving DecidableEq, Repr

def attestFields (config : EdgeConfig) (attest : Json.Tree) : AttestFields where
  kid := trimCopy (attest.text (ascii "kid"))
  alg := trimCopy (attest.text (ascii "alg"))
  sigB64 := trimCopy (attest.text (ascii "sig"))
  tsUtcMs :=
    match attest.member (ascii "ts_utc_ms") with
    | some (.number token) => (config.numbers.int64 token).getD 0
    | _ => 0
  resultSha256 := trimCopy (attest.text (ascii "result_sha256"))

namespace TaskUpdate

variable (config : EdgeConfig) (update : TaskUpdate) (row : EdgeTaskRow)

/-- `can_try` -/
def canTrySignature (fields : AttestFields) : Bool :=
  fields.kid ≠ [] ∧ fields.alg ≠ [] ∧ fields.sigB64 ≠ [] ∧ 0 < fields.tsUtcMs ∧
    update.taskId ≠ [] ∧ update.stepId ≠ [] ∧ update.gotIdem ≠ [] ∧
    fields.resultSha256 ≠ [] ∧ sha256TokenIsSafe fields.resultSha256 ∧
    fields.kid.length ≤ 64 ∧ idIsSafe fields.kid

structure AttestCheck where
  data : Json.Tree
  checked : Bool := false
  ok : Bool := false
  error : Bytes := []

def markedData (fields : AttestFields) : Json.Tree :=
  ((update.eventData.setMember (ascii "_attest_sig_checked") (.bool true)).setMember
    (ascii "_attest_sig_kid") (.string fields.kid)).setMember
      (ascii "_attest_sig_alg") (.string fields.alg)

/-- The checks of the policy, of revocations and of the signature, each made
only while the event data has no verdict yet. -/
def signatureData (fields : AttestFields) : Json.Tree :=
  let marked := update.markedData fields
  let allowed :=
    if kidPolicyAllows config update.fromId fields.kid then marked
    else rejectSignature marked (ascii "kid_policy_violation")
  let unrevoked :=
    if (allowed.member sigOkKey).isSome then allowed
    else
      match authRevocation config (nodeIdOf update.fromId) fields.kid with
      | some reason => rejectSignature allowed reason
      | none => allowed
  if (unrevoked.member sigOkKey).isSome then unrevoked
  else
    match signatureError config fields.alg fields.kid fields.sigB64
        (resultAttestInput update.taskId update.stepId update.gotIdem fields.resultSha256
          fields.tsUtcMs) with
    | some reason => rejectSignature unrevoked reason
    | none => unrevoked.setMember sigOkKey (.bool true)

def attestCheck : AttestCheck :=
  match update.attest with
  | none => { data := update.eventData }
  | some attest =>
    let fields := attestFields config attest
    if update.canTrySignature fields then
      let data := update.signatureData config fields
      match data.boolMember sigOkKey with
      | some true => { data, checked := true, ok := true }
      | some false =>
        { data, checked := true, error := trimCopy (data.text sigErrorKey) }
      | none => { data, checked := true }
    else { data := update.eventData }

/-! ### What is written -/

def enforcesAttest : Bool :=
  config.edgeAttestRequired && row.mode = ascii "invoke"

def enforcesSig : Bool :=
  config.edgeAttestRequireSig && row.mode = ascii "invoke"

def attestFailure : Option Bytes :=
  let check := update.attestCheck config
  let attestError :=
    if enforcesAttest config row then
      if update.attest.isNone then some (ascii "attest_required")
      else if update.attestResultSha = [] ∨ ¬sha256TokenIsSafe update.attestResultSha then
        some (ascii "attest_missing_result_sha256")
      else if update.attestResultShaMismatch config row then
        some (ascii "attest_result_sha256_mismatch")
      else none
    else none
  let sigError :=
    if enforcesSig config row then
      if ¬check.checked then some (ascii "attest_sig_required")
      else if ¬check.ok then
        some (if check.error = [] then ascii "attest_sig_invalid"
          else ascii "attest_sig_invalid:" ++ check.error)
      else none
    else none
  attestError.or sigError

def stateEff : Bytes :=
  if update.succeeds row ∧ (update.attestFailure config row).isSome then TaskState.failed
  else update.state

def errorTextEff : Bytes :=
  if update.succeeds row then (update.attestFailure config row).getD update.errorText
  else update.errorText

def appliedRow : EdgeTaskRow :=
  let base := if update.state = TaskState.succeeded then update.withResult config row else row
  let state := update.stateEff config row
  { base with
    state
    updatedUtcMs := update.tsUtcMs
    resultJson :=
      if update.resultJson ≠ [] ∧ state ≠ TaskState.succeeded then update.resultJson
      else base.resultJson
    error :=
      if update.errorTextEff config row ≠ [] then update.errorTextEff config row else base.error
    traceId := if update.canBackfillTraceId row then update.msgTraceIdEff else base.traceId }

/-- The row that is written: of an applied update, or with the trace identifier
only. -/
def written : Option EdgeTaskRow :=
  if update.applies row then some (update.appliedRow config row)
  else if update.canBackfillTraceId row then
    some { row with
      traceId := update.msgTraceIdEff
      updatedUtcMs := max row.updatedUtcMs update.tsUtcMs }
  else none

def rowBehind : EdgeTaskRow :=
  (update.written config row).getD row

def effectiveState : Bytes :=
  if update.applies row then update.stateEff config row else row.state

def setWhen (condition : Bool) (key : String) (value : Json.Tree) (data : Json.Tree) : Json.Tree :=
  if condition then data.setMember (ascii key) value else data

def eventDataEff : Json.Tree :=
  let check := update.attestCheck config
  let behind := update.rowBehind config row
  let eff := update.msgTraceIdEff
  let succeeds := update.succeeds row
  let failure := update.attestFailure config row
  let noted :=
    setWhen (succeeds && failure.isSome) "_attest_error" (.string (failure.getD [])) <|
      setWhen (succeeds && enforcesSig config row) "_attest_sig_required" (.bool true) <|
        setWhen (succeeds && enforcesAttest config row) "_attest_required" (.bool true) check.data
  let invalidTrace := !update.msgTraceIdValid
  let untraced :=
    if invalidTrace then
      ((noted.setMember (ascii "_trace_id_invalid") (.bool true)).setMember
        (ascii "_msg_trace_id") (.string update.msgTraceId)).removeMember (ascii "trace")
    else noted
  let traced :=
    if eff = [] ∧ behind.traceId ≠ [] then
      untraced.setMember (ascii "trace") (.object [(ascii "trace_id", .string behind.traceId)])
    else if behind.traceId ≠ [] ∧ eff ≠ [] ∧ eff ≠ behind.traceId then
      ((untraced.setMember (ascii "_trace_id_mismatch") (.bool true)).setMember
        (ascii "_platform_trace_id") (.string behind.traceId)).setMember
          (ascii "_msg_trace_id") (.string eff)
    else untraced
  let ignored :=
    if update.idempotencyMismatch row then
      (((traced.setMember (ascii "_ignored_by_platform") (.bool true)).setMember
        (ascii "_reason") (.string (ascii "idempotency_key_mismatch"))).setMember
          (ascii "_platform_idempotency_key") (.string behind.idempotencyKey)).setMember
            (ascii "_msg_idempotency_key") (.string update.gotIdem)
    else if isTerminalTaskState row.state ∧ update.state ≠ behind.state then
      (traced.setMember (ascii "_ignored_by_platform") (.bool true)).setMember
        (ascii "_platform_state") (.string behind.state)
    else traced
  let mismatched :=
    if succeeds ∧ update.attestResultShaMismatch config row then
      ((ignored.setMember (ascii "_attest_result_sha256_mismatch") (.bool true)).setMember
        (ascii "_attest_result_sha256") (.string update.attestResultSha)).setMember
          (ascii "_platform_result_sha256") (.string behind.resultSha256)
    else ignored
  let stored := update.storedResult config
  let hashed := succeeds && update.resultJson ≠ []
  setWhen (hashed && stored.c14nError ≠ []) "_platform_result_c14n_error"
    (.string stored.c14nError) <|
      setWhen hashed "_platform_result_sha256_alg" (.string stored.alg) mismatched

def event : EdgeTaskEventRow where
  taskId := update.taskId
  stepId := update.stepId
  tsUtcMs := update.tsUtcMs
  state := if update.applies row then update.stateEff config row else update.state
  dataJson := config.json.write (update.eventDataEff config row)

end TaskUpdate

end AgentC.EdgeTasks
