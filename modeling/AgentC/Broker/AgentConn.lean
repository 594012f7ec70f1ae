import AgentC.Foundation.ChannelMessages
import AgentC.Foundation.GoStrings
import AgentC.Foundation.Runs

/-! # The relay session of one connected agent

`AgentConn` of `broker/internal/registry/registry.go`: requests waiting for a
response and streams waiting for messages, each with a channel. Every section
under a mutex and every channel operation is one step. A goroutine that
`DeliverStream` starts is an operation like any other, which may start at any
time. -/

namespace AgentC.Broker

structure HttpResponse where
  status : Int
  headers : List (Bytes × Bytes) := []
  bodyB64 : Bytes := []
deriving DecidableEq, Repr

/-- `RelayResponse` of `broker/internal/proto`, without the constant type tag. -/
structure RelayResponse where
  id : Bytes
  resp : HttpResponse
  err : Bytes := []
deriving DecidableEq, Repr

inductive StreamMessage
  | start (id : Bytes) (resp : HttpResponse)
  | chunk (id : Bytes) (data : Bytes)
  | finish (id : Bytes) (err : Bytes)
deriving DecidableEq, Repr

structure AgentConn where
  pendingLimit : Int
  streamLimit : Int
  pending : ChannelTable Bytes RelayResponse := {}
  closed : Bool := false
  streams : ChannelTable Bytes StreamMessage := {}
  connClosed : Bool := false
deriving DecidableEq, Repr

namespace AgentConn

inductive Call
  | pending (call : TableCall Bytes RelayResponse)
  | streams (call : TableCall Bytes StreamMessage)
  | closeConn
deriving DecidableEq, Repr

def Response : Call → Type
  | .pending call => call.Response
  | .streams call => call.Response
  | .closeConn => Unit

def pendingCapacity : Nat := 1

def streamCapacity : Nat := 16

/-- The section that closes the pending requests also closes the channel that
`Done` returns. -/
def perform (conn : AgentConn) : (call : Call) → Response call × AgentConn
  | .pending call =>
    let result := call.perform conn.pendingLimit.toNat pendingCapacity conn.pending
    (result.1, { conn with pending := result.2, closed := conn.closed || call == .closeAll })
  | .streams call =>
    let result := call.perform conn.streamLimit.toNat streamCapacity conn.streams
    (result.1, { conn with streams := result.2 })
  | .closeConn => ((), { conn with connClosed := true })

abbrev ConnProgram := Program Call Response

def onPending (call : TableCall Bytes RelayResponse) : ConnProgram call.Response :=
  .request (Call.pending call)

def onStreams (call : TableCall Bytes StreamMessage) : ConnProgram call.Response :=
  .request (Call.streams call)

def pendingError : RegisterError → String
  | .duplicate => "duplicate request id"
  | .tooMany => "too many pending requests"

def streamError : RegisterError → String
  | .duplicate => "duplicate stream id"
  | .tooMany => "too many active streams"

def registerPending (id : Bytes) : ConnProgram (Except String Nat) := do
  let registered ← onPending (.register id)
  pure (registered.mapError pendingError)

def registerStream (id : Bytes) : ConnProgram (Except String Nat) := do
  let registered ← onStreams (.register id)
  pure (registered.mapError streamError)

def deliver (resp : RelayResponse) : ConnProgram Unit := do
  match ← onPending (.take resp.id) with
  | none => pure ()
  | some channel =>
    match ← onPending (.send channel resp) with
    | .panics => pure ()
    | _ =>
      let _ ← onPending (.close channel)
      pure ()

def unregisterPending (id : Bytes) : ConnProgram Unit := do
  let id := trimSpace id
  if id = [] then pure ()
  else
    match ← onPending (.take id) with
    | none => pure ()
    | some channel =>
      let _ ← onPending (.close channel)
      pure ()

def deliverStream (id : Bytes) (message : StreamMessage) : ConnProgram Bool := do
  match ← onStreams (.find id) with
  | none => pure false
  | some channel =>
    match ← onStreams (.send channel message) with
    | .sent => pure true
    | _ => pure false

def closeStream (id : Bytes) : ConnProgram Unit := do
  match ← onStreams (.take id) with
  | none => pure ()
  | some channel =>
    let _ ← onStreams (.close channel)
    pure ()

def close : ConnProgram Unit := do
  match ← onPending .closeAll with
  | .panics => pure ()
  | .closed =>
    match ← onStreams .closeAll with
    | .panics => pure ()
    | .closed => .request Call.closeConn

/-- The operations on a session, and a client that looks at its channel. -/
inductive Operation
  | registerPending (id : Bytes)
  | deliver (resp : RelayResponse)
  | unregisterPending (id : Bytes)
  | registerStream (id : Bytes)
  | deliverStream (id : Bytes) (message : StreamMessage)
  | closeStream (id : Bytes)
  | close
  | receiveResponse (channel : Nat)
  | receiveStream (channel : Nat)

def program : Operation → ConnProgram Unit
  | .registerPending id => do
    let _ ← registerPending id
    pure ()
  | .deliver resp => deliver resp
  | .unregisterPending id => unregisterPending id
  | .registerStream id => do
    let _ ← registerStream id
    pure ()
  | .deliverStream id message => do
    let _ ← deliverStream id message
    pure ()
  | .closeStream id => closeStream id
  | .close => close
  | .receiveResponse channel => do
    let _ ← onPending (.receive channel)
    pure ()
  | .receiveStream channel => do
    let _ ← onStreams (.receive channel)
    pure ()

def system : SharedStore AgentConn Operation Call Response where
  effect call conn response next := conn.perform call = (response, next)
  program := program

abbrev ConnEvent := Event AgentConn Call Response

def MayRespond : Grip Bytes → Nat → RelayResponse → Prop :=
  Grip.SendsTaken fun id resp => resp.id = id

def MayStream (grip : Grip Bytes) (channel : Nat) (_ : StreamMessage) : Prop :=
  ∃ id, grip = .found channel id

def Released (known : Grip Bytes × Grip Bytes) : Prop :=
  known.1.taken = none ∧ known.2.taken = none

/-- An operation closes what it took before it does anything else. -/
def description : Description (Grip Bytes × Grip Bytes) Call Response where
  advance known call response :=
    match call with
    | .pending call => (known.1.advance call response, known.2)
    | .streams call => (known.1, known.2.advance call response)
    | .closeConn => known
  allowed known call :=
    match call with
    | .pending call => known.2.taken = none ∧ known.1.Allows MayRespond call
    | .streams call => known.1.taken = none ∧ known.2.Allows MayStream call
    | .closeConn => Released known

abbrev KeepsToGrip (known : Grip Bytes × Grip Bytes) {α : Type} (program : ConnProgram α) : Prop :=
  program.Follows description (fun known _ => Released known) known

variable {known : Grip Bytes × Grip Bytes} {α : Type} (id : Bytes)

theorem follows_onPending {call : TableCall Bytes RelayResponse}
    {rest : call.Response → ConnProgram α} (nothing : known.2.taken = none)
    (allowed : known.1.Allows MayRespond call)
    (next : ∀ response, KeepsToGrip (known.1.advance call response, known.2) (rest response)) :
    KeepsToGrip known (onPending call >>= rest) :=
  Program.follows_call ⟨nothing, allowed⟩ next

theorem follows_onStreams {call : TableCall Bytes StreamMessage}
    {rest : call.Response → ConnProgram α} (nothing : known.1.taken = none)
    (allowed : known.2.Allows MayStream call)
    (next : ∀ response, KeepsToGrip (known.1, known.2.advance call response) (rest response)) :
    KeepsToGrip known (onStreams call >>= rest) :=
  Program.follows_call ⟨nothing, allowed⟩ next

theorem follows_done (released : Released known) (value : α) : KeepsToGrip known (pure value) :=
  released

theorem follows_closePending {channel : Nat} {id : Bytes} {sent : Bool} :
    KeepsToGrip (.took channel id sent, .idle) (do
      let _ ← onPending (.close channel)
      pure ()) := by
  refine follows_onPending rfl rfl fun outcome => ?_
  exact follows_done ⟨rfl, rfl⟩ ()

theorem deliver_follows (resp : RelayResponse) : KeepsToGrip (.idle, .idle) (deliver resp) := by
  refine follows_onPending rfl rfl fun found => ?_
  cases found with
  | none => exact follows_done ⟨rfl, rfl⟩ ()
  | some channel =>
    refine follows_onPending rfl ⟨_, rfl, rfl⟩ fun outcome => ?_
    cases outcome with
    | panics => exact follows_done ⟨rfl, rfl⟩ ()
    | sent => exact follows_closePending
    | full => exact follows_closePending

theorem unregisterPending_follows : KeepsToGrip (.idle, .idle) (unregisterPending id) := by
  apply Program.follows_ite
  · intro _
    exact follows_done ⟨rfl, rfl⟩ ()
  · intro _
    refine follows_onPending rfl rfl fun found => ?_
    cases found with
    | none => exact follows_done ⟨rfl, rfl⟩ ()
    | some channel => exact follows_closePending

theorem closeStream_follows : KeepsToGrip (.idle, .idle) (closeStream id) := by
  refine follows_onStreams rfl rfl fun found => ?_
  cases found with
  | none => exact follows_done ⟨rfl, rfl⟩ ()
  | some channel =>
    refine follows_onStreams rfl rfl fun outcome => ?_
    exact follows_done ⟨rfl, rfl⟩ ()

theorem deliverStream_follows (message : StreamMessage) :
    KeepsToGrip (.idle, .idle) (deliverStream id message) := by
  refine follows_onStreams rfl rfl fun found => ?_
  cases found with
  | none => exact follows_done ⟨rfl, rfl⟩ false
  | some channel =>
    refine follows_onStreams rfl ⟨id, rfl⟩ fun outcome => ?_
    cases outcome with
    | sent => exact follows_done ⟨rfl, rfl⟩ true
    | full => exact follows_done ⟨rfl, rfl⟩ false
    | panics => exact follows_done ⟨rfl, rfl⟩ false

theorem close_follows : KeepsToGrip (.idle, .idle) close := by
  refine follows_onPending rfl rfl fun outcome => ?_
  cases outcome with
  | panics => exact follows_done ⟨rfl, rfl⟩ ()
  | closed =>
    refine follows_onStreams rfl rfl fun outcome => ?_
    cases outcome with
    | panics => exact follows_done ⟨rfl, rfl⟩ ()
    | closed => exact ⟨⟨rfl, rfl⟩, fun _ => ⟨rfl, rfl⟩⟩

theorem program_follows (operation : Operation) :
    KeepsToGrip (.idle, .idle) (program operation) := by
  have released : Released (.idle, .idle) := ⟨rfl, rfl⟩
  cases operation with
  | registerPending id =>
    refine follows_onPending rfl rfl fun registered => ?_
    exact follows_done released ()
  | deliver resp => exact deliver_follows resp
  | unregisterPending id => exact unregisterPending_follows id
  | registerStream id =>
    refine follows_onStreams rfl rfl fun registered => ?_
    exact follows_done released ()
  | deliverStream id message =>
    apply Program.follows_bind
    apply (deliverStream_follows id message).mono
    intro known value released
    exact released
  | closeStream id => exact closeStream_follows id
  | close => exact close_follows
  | receiveResponse channel =>
    refine follows_onPending rfl rfl fun received => ?_
    exact follows_done released ()
  | receiveStream channel =>
    refine follows_onStreams rfl rfl fun received => ?_
    exact follows_done released ()

end AgentConn

end AgentC.Broker
