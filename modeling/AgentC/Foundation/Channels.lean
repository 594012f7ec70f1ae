import AgentC.Foundation.KeyedTable

/-! # Channels kept in a table

Buffered channels with sends that never wait, as concurrent programs use them
through a table from ids to channels. Sending on a closed channel and closing a
channel twice are panics. A channel that a thread takes out of the table is its
own: nobody else finds it there any more. -/

namespace AgentC

/-- A channel of positive capacity: the messages received from it, those still
in its buffer, each with the oldest first, and whether it is closed. -/
structure Channel (Message : Type) where
  capacity : Nat
  received : List Message := []
  buffer : List Message := []
  closed : Bool := false
deriving DecidableEq, Repr

inductive SendOutcome
  | sent
  | full
  | panics
deriving DecidableEq, Repr

inductive CloseOutcome
  | closed
  | panics
deriving DecidableEq, Repr

inductive Received (Message : Type)
  | message (message : Message)
  | closed
  | nothing
deriving DecidableEq, Repr

def Received.messages {Message : Type} : Received Message → List Message
  | .message received => [received]
  | _ => []

namespace Channel

variable {Message : Type}

def sent (channel : Channel Message) : List Message :=
  channel.received ++ channel.buffer

/-- A send that gives up when the buffer is full. -/
def send (channel : Channel Message) (message : Message) : SendOutcome × Channel Message :=
  if channel.closed then (.panics, channel)
  else if channel.capacity ≤ channel.buffer.length then (.full, channel)
  else (.sent, { channel with buffer := channel.buffer ++ [message] })

def close (channel : Channel Message) : CloseOutcome × Channel Message :=
  if channel.closed then (.panics, channel) else (.closed, { channel with closed := true })

def receive (channel : Channel Message) : Received Message × Channel Message :=
  match channel.buffer with
  | message :: rest =>
    (.message message, { channel with received := channel.received ++ [message], buffer := rest })
  | [] => if channel.closed then (.closed, channel) else (.nothing, channel)

variable (channel : Channel Message) (message : Message)

@[simp] theorem send_closed :
    (channel.send message).2.closed = channel.closed := by
  simp only [send]
  split
  · rfl
  · split <;> rfl

@[simp] theorem receive_closed :
    channel.receive.2.closed = channel.closed := by
  rw [receive]
  split
  · rfl
  · split <;> rfl

@[simp] theorem receive_sent :
    channel.receive.2.sent = channel.sent := by
  rw [receive]
  split
  · next message rest buffer => simp [sent, buffer]
  · split <;> rfl

@[simp] theorem close_sent :
    channel.close.2.sent = channel.sent := by
  rw [close]
  split <;> rfl

@[simp] theorem close_closed : channel.close.2.closed = true := by
  rw [close]
  split
  · next already => exact already
  · rfl

@[simp] theorem send_received :
    (channel.send message).2.received = channel.received := by
  simp only [send]
  split
  · rfl
  · split <;> rfl

@[simp] theorem close_received :
    channel.close.2.received = channel.received := by
  rw [close]
  split <;> rfl

theorem receive_received :
    channel.receive.2.received = channel.received ++ channel.receive.1.messages := by
  rw [receive]
  split
  · rfl
  · split <;> exact (List.append_nil _).symm

theorem send_ne_panics {channel : Channel Message} (opened : channel.closed = false)
    (message : Message) : (channel.send message).1 ≠ .panics := by
  simp only [send, opened]
  split
  · next contrary => cases contrary
  · split <;> exact nofun

theorem close_ne_panics {channel : Channel Message} (opened : channel.closed = false) :
    channel.close.1 ≠ .panics := by
  simp [close, opened]

theorem sent_send : ∃ added, (added = [] ∨ added = [message]) ∧
      (channel.send message).2.sent = channel.sent ++ added := by
  simp only [send]
  split
  · exact ⟨[], .inl rfl, (List.append_nil _).symm⟩
  · split
    · exact ⟨[], .inl rfl, (List.append_nil _).symm⟩
    · exact ⟨[message], .inr rfl, (List.append_assoc ..).symm⟩

end Channel

/-- Every channel made so far, at its address and with the id it was registered
under, and the addresses that are registered now. -/
structure ChannelTable (Id Message : Type) where
  channels : List (Id × Channel Message) := []
  registered : List (Id × Nat) := []
deriving DecidableEq, Repr

inductive RegisterError
  | duplicate
  | tooMany
deriving DecidableEq, Repr

namespace ChannelTable

variable {Id Message : Type}

section Ids

variable [DecidableEq Id]

def find (table : ChannelTable Id Message) (id : Id) : Option Nat :=
  (lookupBy Prod.fst id table.registered).map Prod.snd

/-- Register a new channel; a limit of zero is no limit. -/
def register (table : ChannelTable Id Message) (limit capacity : Nat) (id : Id) :
    Except RegisterError Nat × ChannelTable Id Message :=
  if (table.find id).isSome then (.error .duplicate, table)
  else if 0 < limit ∧ limit ≤ table.registered.length then (.error .tooMany, table)
  else
    (.ok table.channels.length,
      { channels := table.channels ++ [(id, { capacity })]
        registered := table.registered ++ [(id, table.channels.length)] })

def forget (table : ChannelTable Id Message) (id : Id) : ChannelTable Id Message :=
  { table with registered := table.registered.filter fun entry => entry.1 ≠ id }

def take (table : ChannelTable Id Message) (id : Id) : Option Nat × ChannelTable Id Message :=
  match table.find id with
  | some address => (some address, table.forget id)
  | none => (none, table)

end Ids

def modify (table : ChannelTable Id Message) (address : Nat)
    (change : Channel Message → Channel Message) : ChannelTable Id Message :=
  { table with
    channels := table.channels.modify address fun entry => (entry.1, change entry.2) }

/-- An address that was never given out behaves as a closed channel. -/
def send (table : ChannelTable Id Message) (address : Nat) (message : Message) :
    SendOutcome × ChannelTable Id Message :=
  match table.channels[address]? with
  | some entry => ((entry.2.send message).1, table.modify address fun channel =>
    (channel.send message).2)
  | none => (.panics, table)

def close (table : ChannelTable Id Message) (address : Nat) :
    CloseOutcome × ChannelTable Id Message :=
  match table.channels[address]? with
  | some entry => (entry.2.close.1, table.modify address fun channel => channel.close.2)
  | none => (.panics, table)

def receive (table : ChannelTable Id Message) (address : Nat) :
    Received Message × ChannelTable Id Message :=
  match table.channels[address]? with
  | some entry => (entry.2.receive.1, table.modify address fun channel => channel.receive.2)
  | none => (.closed, table)

/-- Close the channels at some addresses, up to the first panic. -/
def closeEach (table : ChannelTable Id Message) : List (Id × Nat) →
    CloseOutcome × ChannelTable Id Message
  | [] => (.closed, table)
  | entry :: rest =>
    match table.close entry.2 with
    | (.closed, next) => next.closeEach rest
    | (.panics, next) => (.panics, next)

def closeAll (table : ChannelTable Id Message) : CloseOutcome × ChannelTable Id Message :=
  match table.closeEach table.registered with
  | (.closed, next) => (.closed, { next with registered := [] })
  | (.panics, next) => (.panics, next)

theorem registered_close (table : ChannelTable Id Message) (address : Nat) :
    (table.close address).2.registered = table.registered := by
  rw [close]
  split <;> rfl

theorem registered_receive (table : ChannelTable Id Message) (address : Nat) :
    (table.receive address).2.registered = table.registered := by
  rw [receive]
  split <;> rfl

theorem closeEach_keeps {kept : ChannelTable Id Message → Prop} {table : ChannelTable Id Message}
    {entries : List (Id × Nat)}
    (each : ∀ table, ∀ entry ∈ entries, kept table → kept (table.close entry.2).2)
    (start : kept table) : kept (table.closeEach entries).2 := by
  induction entries generalizing table with
  | nil => exact start
  | cons entry rest induction =>
    have closed := each table entry (List.mem_cons_self ..) start
    rw [closeEach]
    split
    · next next closes =>
      rw [closes] at closed
      exact induction (fun table other member =>
        each table other (List.mem_cons_of_mem entry member)) closed
    · next next closes =>
      rw [closes] at closed
      exact closed

theorem closeAll_keeps {kept : ChannelTable Id Message → Prop} {table : ChannelTable Id Message}
    (anyway : ∀ next, kept next → kept { next with registered := [] })
    (closed : kept (table.closeEach table.registered).2) : kept table.closeAll.2 := by
  rw [closeAll]
  split
  · next next closes =>
    rw [closes] at closed
    exact anyway next closed
  · next next closes =>
    rw [closes] at closed
    exact closed

theorem registered_closeEach (table : ChannelTable Id Message) (entries : List (Id × Nat)) :
    (table.closeEach entries).2.registered = table.registered := by
  apply @closeEach_keeps _ _ fun next => next.registered = table.registered
  · intro next entry _ kept
    exact (next.registered_close entry.2).trans kept
  · rfl

theorem registered_closeAll (table : ChannelTable Id Message) :
    ∀ entry ∈ table.closeAll.2.registered, entry ∈ table.registered := by
  have kept := table.registered_closeEach table.registered
  intro entry member
  rw [closeAll] at member
  split at member
  · cases member
  · next next closes =>
    rw [closes] at kept
    exact kept ▸ member

def OpenAt (table : ChannelTable Id Message) (id : Id) (address : Nat) : Prop :=
  ∃ channel, table.channels[address]? = some (id, channel) ∧ channel.closed = false

variable {table : ChannelTable Id Message} {address other : Nat}
variable {change : Channel Message → Channel Message} {id : Id}

theorem getElem?_modify :
    (table.modify address change).channels[other]? =
      table.channels[other]?.map fun entry =>
        if address = other then (entry.1, change entry.2) else entry := by
  simp only [modify, List.getElem?_modify]
  split
  · rfl
  · simp

theorem OpenAt.modify (opened : table.OpenAt id other)
    (keeps : ∀ channel : Channel Message, (change channel).closed = channel.closed) :
    (table.modify address change).OpenAt id other := by
  rcases opened with ⟨channel, found, isOpen⟩
  rw [OpenAt, getElem?_modify, found]
  by_cases same : address = other
  · exact ⟨change channel, by simp [same], (keeps channel).trans isOpen⟩
  · exact ⟨channel, by simp [same], isOpen⟩

theorem OpenAt.modify_of_ne (opened : table.OpenAt id other) (different : address ≠ other) :
    (table.modify address change).OpenAt id other := by
  rcases opened with ⟨channel, found, isOpen⟩
  rw [OpenAt, getElem?_modify, found]
  exact ⟨channel, by simp [different], isOpen⟩

theorem OpenAt.close (opened : table.OpenAt id other) (different : address ≠ other) :
    (table.close address).2.OpenAt id other := by
  rw [ChannelTable.close]
  split
  · exact opened.modify_of_ne different
  · exact opened

theorem OpenAt.closeEach {entries : List (Id × Nat)} (opened : table.OpenAt id other)
    (absent : ∀ entry ∈ entries, entry.2 ≠ other) :
    (table.closeEach entries).2.OpenAt id other := by
  apply @closeEach_keeps _ _ fun next => next.OpenAt id other
  · intro next entry member kept
    exact kept.close (absent entry member)
  · exact opened

theorem close_of_openAt (opened : table.OpenAt id address) : (table.close address).1 ≠ .panics := by
  rcases opened with ⟨channel, found, isOpen⟩
  simp only [ChannelTable.close, found]
  exact channel.close_ne_panics isOpen

theorem send_of_openAt (opened : table.OpenAt id address) (message : Message) :
    (table.send address message).1 ≠ .panics := by
  rcases opened with ⟨channel, found, isOpen⟩
  simp only [ChannelTable.send, found]
  exact channel.send_ne_panics isOpen message

end ChannelTable

end AgentC
