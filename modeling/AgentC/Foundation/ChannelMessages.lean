import AgentC.Foundation.ChannelOwnership

/-! # Messages sent on channels of a table

Where only the thread that took a channel sends on it, and once, every channel
carries one message at most, and one that fits the id it was registered under. -/

namespace AgentC

variable {address : Nat}

namespace ChannelTable

variable {Id Message : Type}

def contents (table : ChannelTable Id Message) : List (Id × List Message) :=
  table.channels.map fun entry => (entry.1, entry.2.sent)

theorem contents_modify {table : ChannelTable Id Message}
    {change : Channel Message → Channel Message}
    (keeps : ∀ channel : Channel Message, (change channel).sent = channel.sent) :
    (table.modify address change).contents = table.contents := by
  apply List.ext_getElem?
  intro other
  simp only [contents, List.getElem?_map, getElem?_modify, Option.map_map]
  congr 1
  funext entry
  simp only [Function.comp]
  split
  · rw [keeps]
  · rfl

@[simp] theorem contents_receive (table : ChannelTable Id Message) (address : Nat) :
    (table.receive address).2.contents = table.contents := by
  rw [receive]
  split
  · exact contents_modify Channel.receive_sent
  · rfl

@[simp] theorem contents_close (table : ChannelTable Id Message) (address : Nat) :
    (table.close address).2.contents = table.contents := by
  rw [close]
  split
  · exact contents_modify Channel.close_sent
  · rfl

theorem contents_closeEach (table : ChannelTable Id Message) (entries : List (Id × Nat)) :
    (table.closeEach entries).2.contents = table.contents := by
  apply @closeEach_keeps _ _ fun next => next.contents = table.contents
  · intro next entry _ kept
    exact (next.contents_close entry.2).trans kept
  · rfl

@[simp] theorem contents_closeAll (table : ChannelTable Id Message) :
    table.closeAll.2.contents = table.contents := by
  apply @closeAll_keeps _ _ fun next => next.contents = table.contents
  · exact fun _ kept => kept
  · exact table.contents_closeEach table.registered

theorem contents_send (table : ChannelTable Id Message) (address : Nat) (message : Message) :
    ∃ added, (added = [] ∨ added = [message]) ∧
      (table.send address message).2.contents =
        table.contents.modify address fun entry => (entry.1, entry.2 ++ added) := by
  rw [send]
  split
  · next entry found =>
    rcases entry.2.sent_send message with ⟨added, adds, grown⟩
    refine ⟨added, adds, ?_⟩
    apply List.ext_getElem?
    intro other
    simp only [contents, List.getElem?_map, getElem?_modify, List.getElem?_modify]
    by_cases same : address = other
    · subst same
      simp [found, grown]
    · simp [same]
  · next absent =>
    refine ⟨[], .inl rfl, ?_⟩
    simp only [List.append_nil, Prod.mk.eta]
    exact (List.modify_id address table.contents).symm

def receivedAt (table : ChannelTable Id Message) (address : Nat) : List Message :=
  match table.channels[address]? with
  | some entry => entry.2.received
  | none => []

theorem receivedAt_modify {table : ChannelTable Id Message}
    {change : Channel Message → Channel Message}
    (keeps : ∀ channel : Channel Message, (change channel).received = channel.received)
    (other : Nat) : (table.modify address change).receivedAt other = table.receivedAt other := by
  rw [receivedAt, receivedAt, getElem?_modify]
  cases table.channels[other]? with
  | none => rfl
  | some entry => by_cases same : address = other <;> simp [same, keeps]

theorem receivedAt_close (table : ChannelTable Id Message) (address other : Nat) :
    (table.close address).2.receivedAt other = table.receivedAt other := by
  rw [close]
  split
  · exact receivedAt_modify Channel.close_received other
  · rfl

theorem receivedAt_closeAll (table : ChannelTable Id Message) (other : Nat) :
    table.closeAll.2.receivedAt other = table.receivedAt other := by
  apply @closeAll_keeps _ _ fun next => next.receivedAt other = table.receivedAt other
  · exact fun _ kept => kept
  · apply @closeEach_keeps _ _ fun next => next.receivedAt other = table.receivedAt other
    · intro next entry _ kept
      exact (next.receivedAt_close entry.2 other).trans kept
    · rfl

theorem receivedAt_receive (table : ChannelTable Id Message) (address other : Nat) :
    (table.receive address).2.receivedAt other = table.receivedAt other ++
      if address = other then (table.receive address).1.messages else [] := by
  rw [receive]
  split
  · next entry found =>
    rw [receivedAt, receivedAt, getElem?_modify]
    by_cases same : address = other
    · subst same
      simp [found, Channel.receive_received]
    · cases table.channels[other]? <;> simp [same]
  · simp [Received.messages]

theorem receivedAt_prefix {table : ChannelTable Id Message} {id : Id} {sent : List Message}
    (found : table.contents[address]? = some (id, sent)) :
    ∃ rest, sent = table.receivedAt address ++ rest := by
  rw [contents, List.getElem?_map, Option.map_eq_some_iff] at found
  rcases found with ⟨entry, there, same⟩
  rw [receivedAt, there]
  cases same
  exact ⟨entry.2.buffer, rfl⟩

def MadeFor (table : ChannelTable Id Message) (id : Id) (address : Nat) : Prop :=
  ∃ sent, table.contents[address]? = some (id, sent)

def UnsentAt (table : ChannelTable Id Message) (id : Id) (address : Nat) : Prop :=
  table.contents[address]? = some (id, [])

/-- Nothing was sent on a registered channel, and at most one message on any,
which fits its id. -/
structure SendsOnce (fits : Id → Message → Prop) (table : ChannelTable Id Message) : Prop where
  waiting : ∀ entry ∈ table.registered, table.UnsentAt entry.1 entry.2
  once : ∀ entry ∈ table.contents, entry.2.length ≤ 1 ∧ ∀ message ∈ entry.2, fits entry.1 message

end ChannelTable

namespace Grip

variable {Id Message : Type}

/-- Nothing was sent on a channel that the thread took and has not sent on. -/
def Unsent (grip : Grip Id) (table : ChannelTable Id Message) : Prop :=
  ∀ address id, grip = .took address id false → table.UnsentAt id address

/-- A message is sent by the thread that took the channel for it, once. -/
def SendsTaken (fits : Id → Message → Prop) (grip : Grip Id) (address : Nat) (message : Message) :
    Prop :=
  ∃ id, grip = .took address id false ∧ fits id message

end Grip

namespace TableCall

variable {Id Message : Type} {fits : Id → Message → Prop} {grip : Grip Id}
  {table : ChannelTable Id Message}

/-- What an operation must establish about the messages sent. -/
structure KeepsOnce (fits : Id → Message → Prop) (grip : Grip Id) (table : ChannelTable Id Message)
    (call : TableCall Id Message) (response : call.Response) (next : ChannelTable Id Message) :
    Prop where
  once : next.SendsOnce fits
  own : (grip.advance call response).Unsent next
  others : ∀ other : Grip Id, other.Unsent table → grip.Apart other → other.Unsent next

variable (limit capacity : Nat)

theorem keepsOnce_of_contents {call : TableCall Id Message} {response : call.Response}
    {next : ChannelTable Id Message} (once : table.SendsOnce fits) (unsent : grip.Unsent table)
    (contents : next.contents = table.contents)
    (shrinks : ∀ entry ∈ next.registered, entry ∈ table.registered)
    (retains : ∀ address id, grip.advance call response = .took address id false →
      grip = .took address id false) : KeepsOnce fits grip table call response next := by
  have same : ∀ id address, table.UnsentAt id address → next.UnsentAt id address := by
    intro id address before
    rw [ChannelTable.UnsentAt, contents]
    exact before
  constructor
  · constructor
    · intro entry member
      exact same _ _ (once.waiting entry (shrinks entry member))
    · rw [contents]
      exact once.once
  · intro address id after
    exact same _ _ (unsent address id (retains address id after))
  · intro other otherUnsent _ address id held
    exact same _ _ (otherUnsent address id held)

theorem keepsOnce_send {message : Message} (once : table.SendsOnce fits)
    (holds : grip.Holds table) (unsent : grip.Unsent table)
    (mayUse : grip.SendsTaken fits address message) :
    KeepsOnce fits grip table (.send address message) (table.send address message).1
      (table.send address message).2 := by
  rcases mayUse with ⟨id, took, fitting⟩
  have empty := unsent address id took
  have unregistered := (holds address id false took).2
  rcases table.contents_send address message with ⟨added, adds, contents⟩
  have registered : (table.send address message).2.registered = table.registered := by
    rw [ChannelTable.send]
    split <;> rfl
  have elsewhere : ∀ id other, address ≠ other → table.UnsentAt id other →
      (table.send address message).2.UnsentAt id other := by
    intro id other different before
    rw [ChannelTable.UnsentAt, contents, List.getElem?_modify_ne _ _ different]
    exact before
  constructor
  · constructor
    · intro entry member
      rw [registered] at member
      exact elsewhere _ _ (unregistered entry member).symm (once.waiting entry member)
    · intro entry member
      rw [contents] at member
      rcases List.mem_iff_getElem?.mp member with ⟨other, found⟩
      by_cases same : address = other
      · subst same
        rw [List.getElem?_modify_eq, empty] at found
        cases found
        rcases adds with rfl | rfl
        · exact ⟨Nat.zero_le 1, by rintro _ ⟨⟩⟩
        · refine ⟨Nat.le_refl 1, ?_⟩
          intro sent member
          rw [List.mem_singleton.mp member]
          exact fitting
      · rw [List.getElem?_modify_ne _ _ same] at found
        exact once.once entry (List.mem_of_getElem? found)
  · intro other owner after
    rw [took] at after
    cases outcome : (table.send address message).1 <;> rw [outcome] at after <;> cases after
  · intro other otherUnsent apart held owner taken
    apply elsewhere _ _ _ (otherUnsent held owner taken)
    intro same
    apply apart address
    · rw [took]
      rfl
    · rw [taken, same]
      rfl

variable [DecidableEq Id]

theorem keepsOnce_take (once : table.SendsOnce fits) (unsent : grip.Unsent table) (id : Id) :
    KeepsOnce fits grip table (.take id) (table.take id).1 (table.take id).2 := by
  rw [ChannelTable.take]
  split
  · next address found =>
    have member := mem_of_find found
    constructor
    · constructor
      · intro entry kept
        exact once.waiting entry (List.mem_filter.mp kept).1
      · exact once.once
    · intro other owner after
      cases after
      exact once.waiting _ member
    · intro other otherUnsent _
      exact otherUnsent
  · exact keepsOnce_of_contents once unsent rfl (fun _ member => member) fun _ _ same => same

theorem keepsOnce_register (once : table.SendsOnce fits) (unsent : grip.Unsent table)
    (limit capacity : Nat) (id : Id) :
    KeepsOnce fits grip table (.register id) (table.register limit capacity id).1
      (table.register limit capacity id).2 := by
  rw [ChannelTable.register]
  split
  · exact keepsOnce_of_contents once unsent rfl (fun _ member => member) fun _ _ same => same
  · split
    · exact keepsOnce_of_contents once unsent rfl (fun _ member => member) fun _ _ same => same
    · generalize made : ({ channels := table.channels ++ [(id, { capacity })]
                           registered := table.registered ++ [(id, table.channels.length)] } :
        ChannelTable Id Message) = next
      have contents : next.contents = table.contents ++ [(id, [])] := by
        rw [← made, ChannelTable.contents, List.map_append]
        rfl
      have size : table.contents.length = table.channels.length := List.length_map ..
      have extended : ∀ id address, table.UnsentAt id address → next.UnsentAt id address := by
        intro id address before
        have bound := (List.getElem?_eq_some_iff.mp before).1
        rw [ChannelTable.UnsentAt, contents, List.getElem?_append_left bound]
        exact before
      constructor
      · constructor
        · intro entry member
          rw [← made] at member
          rcases List.mem_append.mp member with old | new
          · exact extended _ _ (once.waiting entry old)
          · rw [List.mem_singleton.mp new, ChannelTable.UnsentAt, contents, ← size]
            exact List.getElem?_concat_length
        · intro entry member
          rw [contents] at member
          rcases List.mem_append.mp member with old | new
          · exact once.once entry old
          · rw [List.mem_singleton.mp new]
            exact ⟨Nat.zero_le 1, by rintro _ ⟨⟩⟩
      · intro address owner held
        exact extended _ _ (unsent address owner held)
      · intro other otherUnsent _ address owner held
        exact extended _ _ (otherUnsent address owner held)

theorem perform_keepsOnce {call : TableCall Id Message} (once : table.SendsOnce fits)
    (holds : grip.Holds table) (unsent : grip.Unsent table)
    (allowed : grip.Allows (Grip.SendsTaken fits) call) :
    KeepsOnce fits grip table call (perform limit capacity table call).1
      (perform limit capacity table call).2 := by
  cases call with
  | register id => exact keepsOnce_register once unsent limit capacity id
  | find id =>
    apply keepsOnce_of_contents once unsent rfl fun _ member => member
    intro address owner after
    cases found : table.find id with
    | none => simpa [perform, found, Grip.advance] using after
    | some channel => simp [perform, found, Grip.advance] at after
  | take id => exact keepsOnce_take once unsent id
  | send => exact keepsOnce_send once holds unsent allowed
  | close address =>
    apply keepsOnce_of_contents once unsent (table.contents_close address)
    · intro entry member
      exact table.registered_close address ▸ member
    · rintro _ _ ⟨⟩
  | closeAll =>
    apply keepsOnce_of_contents once unsent table.contents_closeAll table.registered_closeAll
    exact fun _ _ same => same
  | receive address =>
    apply keepsOnce_of_contents once unsent (table.contents_receive address)
    · intro entry member
      exact table.registered_receive address ▸ member
    · exact fun _ _ same => same

def receives (address : Nat) : (call : TableCall Id Message) → call.Response → List Message
  | .receive other, received => if other = address then received.messages else []
  | _, _ => []

theorem receivedAt_perform (table : ChannelTable Id Message) (call : TableCall Id Message)
    (address : Nat) : (perform limit capacity table call).2.receivedAt address =
      table.receivedAt address ++ call.receives address (perform limit capacity table call).1 := by
  cases call with
  | register id =>
    simp only [perform, receives, List.append_nil, ChannelTable.register]
    split
    · rfl
    · split
      · rfl
      · rw [ChannelTable.receivedAt, ChannelTable.receivedAt]
        by_cases made : address < table.channels.length
        · rw [List.getElem?_append_left made]
        · have beyond := Nat.le_of_not_lt made
          rw [List.getElem?_append_right beyond, List.getElem?_eq_none beyond]
          cases address - table.channels.length <;> rfl
  | find id => exact (List.append_nil _).symm
  | take id =>
    simp only [perform, receives, List.append_nil, ChannelTable.take]
    split <;> rfl
  | send other message =>
    simp only [perform, receives, List.append_nil, ChannelTable.send]
    split
    · exact ChannelTable.receivedAt_modify (fun channel => channel.send_received message) address
    · rfl
  | close other => exact (table.receivedAt_close other address).trans (List.append_nil _).symm
  | closeAll => exact (table.receivedAt_closeAll address).trans (List.append_nil _).symm
  | receive other => exact table.receivedAt_receive other address

theorem madeFor_perform {limit capacity : Nat} {table : ChannelTable Id Message}
    {call : TableCall Id Message} {id : Id} (made : table.MadeFor id address) :
    (perform limit capacity table call).2.MadeFor id address := by
  rcases made with ⟨sent, found⟩
  have bound := (List.getElem?_eq_some_iff.mp found).1
  cases call with
  | register requested =>
    simp only [perform, ChannelTable.register]
    split
    · exact ⟨sent, found⟩
    · split
      · exact ⟨sent, found⟩
      · refine ⟨sent, ?_⟩
        rw [ChannelTable.contents, List.map_append]
        exact (List.getElem?_append_left bound).trans found
  | find requested => exact ⟨sent, found⟩
  | take requested =>
    simp only [perform, ChannelTable.take]
    split <;> exact ⟨sent, found⟩
  | send other message =>
    rcases table.contents_send other message with ⟨added, _, contents⟩
    simp only [perform, ChannelTable.MadeFor, contents]
    by_cases same : other = address
    · subst same
      rw [List.getElem?_modify_eq, found]
      exact ⟨sent ++ added, rfl⟩
    · rw [List.getElem?_modify_ne _ _ same]
      exact ⟨sent, found⟩
  | close other => exact ⟨sent, by rw [perform, ChannelTable.contents_close, found]⟩
  | closeAll => exact ⟨sent, by rw [perform, ChannelTable.contents_closeAll, found]⟩
  | receive other => exact ⟨sent, by rw [perform, ChannelTable.contents_receive, found]⟩

theorem madeFor_register {limit capacity : Nat} {table : ChannelTable Id Message} {id : Id}
    (registers : (table.register limit capacity id).1 = .ok address) :
    (table.register limit capacity id).2.MadeFor id address := by
  rw [ChannelTable.register] at registers ⊢
  split at registers
  · cases registers
  · next absent =>
    split at registers
    · cases registers
    · next unlimited =>
      cases registers
      refine ⟨[], ?_⟩
      rw [if_neg absent, if_neg unlimited, ChannelTable.contents, List.map_append]
      have size : (table.channels.map fun entry => (entry.1, entry.2.sent)).length =
          table.channels.length := List.length_map ..
      rw [← size]
      exact List.getElem?_concat_length

end TableCall

end AgentC
