import AgentC.Foundation.GoStrings
import AgentC.Foundation.Runs
import Mathlib.Logic.Function.Basic

/-! # Idempotency keys of relayed requests

`ClaimIdempotency`, `CompleteIdempotency` and `DeleteIdempotency` of
`broker/internal/db/idempotency.go` over the table `broker_idempotency_keys`, and
`relayAuthorizedAgentHTTP` of `broker/internal/broker/server_proxy.go`, which uses
them. A transaction is one step. Times are microseconds since the zero time of Go,
read from the clock of the broker or from that of the database. -/

namespace AgentC.Broker

abbrev Headers := List (Bytes × Bytes)

def Headers.set (headers : Headers) (name value : Bytes) : Headers :=
  headers.filter (fun entry => entry.1 ≠ name) ++ [(name, value)]

namespace Idempotency

/-- The record that a caller passes to claim a key. No expiry is the zero time. -/
structure IdempotencyClaim where
  userSub : Bytes
  key : Bytes
  requestSha256 : Bytes
  method : Bytes
  path : Bytes
  query : Bytes
  agentId : Bytes
  expiresAt : Option Int
deriving DecidableEq, Repr

structure IdempotencyRecord where
  requestSha256 : Bytes
  method : Bytes
  path : Bytes
  query : Bytes
  agentId : Bytes
  expiresAt : Int
  createdAt : Int
  completed : Bool := false
  responseStatus : Int := 0
  responseHeaders : Headers := []
  responseBody : Bytes := []
deriving DecidableEq, Repr

inductive IdempotencyResult
  | created
  | replay (record : IdempotencyRecord)
  | inProgress
  | conflict
deriving DecidableEq, Repr

abbrev Name := Bytes × Bytes

def nameOf (userSub key : Bytes) : Name :=
  (trimSpace userSub, trimSpace key)

abbrev Rows := Name → Option IdempotencyRecord

def missingName : Bytes := ascii "missing user sub or idempotency key"

def missingHash : Bytes := ascii "missing request hash"

def day : Int := 24 * 60 * 60 * 1000000

def IdempotencyClaim.record (claim : IdempotencyClaim) (database broker : Int) :
    IdempotencyRecord where
  requestSha256 := claim.requestSha256
  method := claim.method
  path := claim.path
  query := claim.query
  agentId := claim.agentId
  expiresAt := claim.expiresAt.getD (broker + day)
  createdAt := database

/-- `DELETE … AND expires_at < now()`. -/
def deleteExpired (database : Int) (name : Name) (rows : Rows) : Rows :=
  Function.update rows name ((rows name).filter fun row => ¬row.expiresAt < database)

/-- What the transaction answers and the rows it commits. -/
def claimIdempotency (database broker : Int) (claim : IdempotencyClaim) (rows : Rows) :
    Except Bytes IdempotencyResult × Rows :=
  let name := nameOf claim.userSub claim.key
  if name.1 = [] ∨ name.2 = [] then (.error missingName, rows)
  else if trimSpace claim.requestSha256 = [] then (.error missingHash, rows)
  else
    let rows := deleteExpired database name rows
    match rows name with
    | none => (.ok .created, Function.update rows name (some (claim.record database broker)))
    | some row =>
      if row.expiresAt < broker then (.ok .created, Function.update rows name none)
      else if row.requestSha256 ≠ claim.requestSha256 then (.ok .conflict, rows)
      else if row.completed then (.ok (.replay row), rows)
      else (.ok .inProgress, rows)

/-- `storedHeaders` is what headers read as once they were stored as JSON. -/
def completeIdempotency (storedHeaders : Headers → Headers) (userSub key : Bytes) (status : Int)
    (headers : Headers) (body : Bytes) (rows : Rows) : Rows :=
  let name := nameOf userSub key
  if name.1 = [] ∨ name.2 = [] then rows
  else
    Function.update rows name ((rows name).map fun row =>
      { row with
        completed := true
        responseStatus := status
        responseHeaders := storedHeaders headers
        responseBody := body })

def deleteIdempotency (userSub key : Bytes) (rows : Rows) : Rows :=
  let name := nameOf userSub key
  if name.1 = [] ∨ name.2 = [] then rows
  else Function.update rows name none

/-- A request to relay, with the ids of its context. -/
structure RelayRequest where
  userSub : Bytes
  idemKey : Bytes
  method : Bytes
  agentPath : Bytes
  rawQuery : Bytes
  agentId : Bytes
  deploymentId : Bytes
  body : Bytes
  requestId : Bytes := []
  traceId : Bytes := []
deriving DecidableEq, Repr

def RelayRequest.name (request : RelayRequest) : Name :=
  nameOf request.userSub request.idemKey

structure RelayOutcome where
  brokerStatus : Int := 0
  err : Bytes := []
  agentStatus : Int := 0
  headers : Headers := []
  body : Bytes := []
deriving DecidableEq, Repr

/-- `digest` is the hexadecimal SHA-256 digest. -/
structure Config where
  ttl : Int
  maxBodyBytes : Int
  digest : Bytes → Bytes
  storedHeaders : Headers → Headers

/-- `strings.ToUpper` of a method, which is an ASCII token. -/
def toUpper (text : Bytes) : Bytes :=
  text.map fun byte => if 97 ≤ byte ∧ byte ≤ 122 then byte - 32 else byte

def idempotencyRequestHash (digest : Bytes → Bytes) (request : RelayRequest) : Bytes :=
  digest (toUpper (trimSpace request.method) ++ 0 :: trimSpace request.agentPath ++
    0 :: trimSpace request.rawQuery ++ 0 :: trimSpace request.agentId ++
    0 :: trimSpace request.deploymentId ++ 0 :: request.body)

def Config.hash (config : Config) (request : RelayRequest) : Bytes :=
  idempotencyRequestHash config.digest request

def Config.claim (config : Config) (request : RelayRequest) (expiresAt : Int) :
    IdempotencyClaim where
  userSub := request.userSub
  key := request.idemKey
  requestSha256 := config.hash request
  method := request.method
  path := request.agentPath
  query := request.rawQuery
  agentId := request.agentId
  expiresAt := some expiresAt

def respHeaders (request : RelayRequest) (outcome : RelayOutcome) : Headers :=
  (outcome.headers.set (ascii "X-Request-ID") request.requestId).set (ascii "X-Trace-ID")
    request.traceId

inductive Reply
  | error (message : Bytes) (status : Int)
  | replayed (record : IdempotencyRecord)
  | inProgress
  | conflict
  | answered (outcome : RelayOutcome) (tooLarge : Bool)
deriving DecidableEq, Repr

structure Store where
  rows : Rows := fun _ => none
  database : Int := 0
  broker : Int := 0

inductive Call
  | now
  | claim (request : RelayRequest) (expiresAt : Int)
  | relay (request : RelayRequest)
  | complete (userSub key : Bytes) (status : Int) (headers : Headers) (body : Bytes)
  | delete (userSub key : Bytes)
  | reply (reply : Reply)
deriving DecidableEq, Repr

/-- A claim answers nothing when it fails. A completion or deletion answers
whether it took effect; nobody looks at that. -/
def Response : Call → Type
  | .now => Int
  | .claim .. => Option IdempotencyResult
  | .relay _ => RelayOutcome
  | .complete .. | .delete .. => Bool
  | .reply _ => Unit

/-- A statement that may not have taken effect. -/
def Store.commit (store : Store) (applied : Bool) (rows : Rows) : Store :=
  if applied then { store with rows } else store

variable (config : Config)

/-- A claim reads both clocks. When it fails, it may still have been committed. -/
def Effect : (call : Call) → Store → Response call → Store → Prop
  | .now, store, response, next => store.broker ≤ response ∧ next = { store with broker := response }
  | .claim request expiresAt, store, response, next =>
    store.database ≤ next.database ∧ store.broker ≤ next.broker ∧
      let claimed := claimIdempotency next.database next.broker (config.claim request expiresAt)
        store.rows
      (response = none ∧ (next.rows = store.rows ∨ next.rows = claimed.2) ∨
        ∃ result, claimed.1 = .ok result ∧ response = some result ∧ next.rows = claimed.2)
  | .relay _, store, _, next => next = store
  | .complete userSub key status headers body, store, applied, next =>
    next = store.commit applied
      (completeIdempotency config.storedHeaders userSub key status headers body store.rows)
  | .delete userSub key, store, applied, next =>
    next = store.commit applied (deleteIdempotency userSub key store.rows)
  | .reply _, store, _, next => next = store

abbrev RelayProgram := Program Call Response

def forward (request : RelayRequest) : RelayProgram Unit := do
  let outcome ← Program.request (Call.relay request)
  if RelayOutcome.brokerStatus outcome ≠ 0 then
    if request.idemKey ≠ [] then
      let _ ← Program.request (Call.delete request.userSub request.idemKey)
      let _ ← Program.request (Call.reply
        (.error (RelayOutcome.err outcome) (RelayOutcome.brokerStatus outcome)))
      pure ()
    else
      let _ ← Program.request (Call.reply
        (.error (RelayOutcome.err outcome) (RelayOutcome.brokerStatus outcome)))
      pure ()
  else
    let fits := decide ((RelayOutcome.body outcome).length ≤ config.maxBodyBytes)
    let _ ← Program.request (Call.reply
      (.answered outcome (decide (request.idemKey ≠ []) && !fits)))
    if request.idemKey = [] then pure ()
    else if fits then
      let _ ← Program.request (Call.complete request.userSub request.idemKey
        (RelayOutcome.agentStatus outcome) (respHeaders request outcome)
        (RelayOutcome.body outcome))
      pure ()
    else
      let _ ← Program.request (Call.delete request.userSub request.idemKey)
      pure ()

def Config.expiry (now : Int) : Int :=
  now + config.ttl

def claimFailed : Bytes := ascii "idempotency claim failed"

def relayAuthorizedAgentHTTP (request : RelayRequest) : RelayProgram Unit := do
  if request.idemKey = [] then forward config request
  else
    let now ← Program.request Call.now
    match ← Program.request (Call.claim request (config.expiry now)) with
    | none =>
      let _ ← Program.request (Call.reply (.error claimFailed 500))
      pure ()
    | some (.replay record) =>
      let _ ← Program.request (Call.reply (.replayed record))
      pure ()
    | some .inProgress =>
      let _ ← Program.request (Call.reply .inProgress)
      pure ()
    | some .conflict =>
      let _ ← Program.request (Call.reply .conflict)
      pure ()
    | some .created => forward config request

def system : SharedStore Store RelayRequest Call Response where
  effect := Effect config
  program := relayAuthorizedAgentHTTP config

abbrev RelayEvent := Event Store Call Response

/-- What the outside decides about a step: the clocks, whether a call to the
database works, and what the agent answers. -/
structure Choice where
  database : Int := 0
  broker : Int := 0
  works : Bool := true
  outcome : RelayOutcome := {}

/-- The steps, with clocks that never go back. -/
def answer (choice : Choice) : (call : Call) → (store : Store) → Response call × Store
  | .now, store =>
    let broker := max store.broker choice.broker
    (broker, { store with broker })
  | .claim request expiresAt, store =>
    let database := max store.database choice.database
    let broker := max store.broker choice.broker
    let claimed := claimIdempotency database broker (config.claim request expiresAt) store.rows
    match claimed.1 with
    | .ok result =>
      if choice.works then (some result, { rows := claimed.2, database, broker })
      else (none, { store with database, broker })
    | .error _ => (none, { store with database, broker })
  | .relay _, store => (choice.outcome, store)
  | .complete userSub key status headers body, store =>
    (choice.works, store.commit choice.works
      (completeIdempotency config.storedHeaders userSub key status headers body store.rows))
  | .delete userSub key, store =>
    (choice.works, store.commit choice.works (deleteIdempotency userSub key store.rows))
  | .reply _, store => ((), store)

theorem effect_answer (choice : Choice) (call : Call) (store : Store) :
    (system config).effect call store (answer config choice call store).1
      (answer config choice call store).2 := by
  cases call with
  | now =>
    constructor
    · exact le_max_left store.broker choice.broker
    · rfl
  | claim =>
    have database := le_max_left store.database choice.database
    have broker := le_max_left store.broker choice.broker
    simp only [answer]
    split
    · next result claimed =>
      split
      · exact ⟨database, broker, .inr ⟨result, claimed, rfl, rfl⟩⟩
      · exact ⟨database, broker, .inl ⟨rfl, .inl rfl⟩⟩
    · exact ⟨database, broker, .inl ⟨rfl, .inl rfl⟩⟩
  | relay request => rfl
  | complete => rfl
  | delete => rfl
  | reply reply => rfl

end Idempotency

end AgentC.Broker
