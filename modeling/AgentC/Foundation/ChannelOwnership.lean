import AgentC.Foundation.Channels

/-! # Ownership of channels

What a thread may do with the channels of a table, by what it holds: a channel
it took out of the table is its own to close. Whatever the other threads do
within these bounds, a channel is closed once at most. -/

namespace AgentC

inductive TableCall (Id Message : Type)
  | register (id : Id)
  | find (id : Id)
  | take (id : Id)
  | send (address : Nat) (message : Message)
  | close (address : Nat)
  | closeAll
  | receive (address : Nat)
deriving DecidableEq, Repr

namespace TableCall

variable {Id Message : Type}

def Response : TableCall Id Message → Type
  | .register _ => Except RegisterError Nat
  | .find _ | .take _ => Option Nat
  | .send .. => SendOutcome
  | .close _ | .closeAll => CloseOutcome
  | .receive _ => Received Message

def Panics : (call : TableCall Id Message) → call.Response → Prop
  | .send .., outcome => outcome = .panics
  | .close _, outcome | .closeAll, outcome => outcome = .panics
  | _, _ => False

def perform [DecidableEq Id] (limit capacity : Nat) (table : ChannelTable Id Message) :
    (call : TableCall Id Message) → call.Response × ChannelTable Id Message
  | .register id => table.register limit capacity id
  | .find id => (table.find id, table)
  | .take id => table.take id
  | .send address message => table.send address message
  | .close address => table.close address
  | .closeAll => table.closeAll
  | .receive address => table.receive address

end TableCall

/-- Nothing, a channel taken out of the table under an id, with whether the
thread has sent on it, or one that was only looked up. -/
inductive Grip (Id : Type)
  | idle
  | took (address : Nat) (id : Id) (sent : Bool)
  | found (address : Nat) (id : Id)
deriving DecidableEq, Repr

variable {address : Nat}

namespace Grip

variable {Id Message : Type}

def taken : Grip Id → Option Nat
  | .took address _ _ => some address
  | _ => none

def advance (grip : Grip Id) : (call : TableCall Id Message) → call.Response → Grip Id
  | .take id, some address => .took address id false
  | .find id, some address => .found address id
  | .send .., outcome =>
    match grip, outcome with
    | .took _ _ _, .panics => .idle
    | .took address id _, _ => .took address id true
    | _, _ => .idle
  | .close _, _ => .idle
  | _, _ => grip

theorem advance_send_ne_found (grip : Grip Id) {other : Nat} {message : Message} {id : Id}
    {outcome : SendOutcome} : grip.advance (.send address message) outcome ≠ .found other id := by
  intro same
  cases grip with
  | idle => cases same
  | found => cases same
  | took => cases outcome <;> cases same

/-- A thread closes what it took, and takes nothing else before that. -/
def Allows (mayUse : Grip Id → Nat → Message → Prop) (grip : Grip Id) :
    TableCall Id Message → Prop
  | .send address message => mayUse grip address message
  | .close address => grip.taken = some address
  | _ => grip.taken = none

def Holds (grip : Grip Id) (table : ChannelTable Id Message) : Prop :=
  ∀ address id sent, grip = .took address id sent →
    table.OpenAt id address ∧ ∀ entry ∈ table.registered, entry.2 ≠ address

def Apart (left right : Grip Id) : Prop :=
  ∀ address, left.taken = some address → right.taken ≠ some address

theorem apart_symm {left right : Grip Id} (apart : left.Apart right) : right.Apart left :=
  fun address rightTook leftTook => apart address leftTook rightTook

theorem holds_of_not_taken {grip : Grip Id} (table : ChannelTable Id Message)
    (nothing : grip.taken = none) : grip.Holds table := by
  intro address id sent same
  rw [same] at nothing
  cases nothing

theorem apart_of_not_taken {left : Grip Id} (right : Grip Id) (nothing : left.taken = none) :
    left.Apart right := by
  intro address took
  rw [nothing] at took
  cases took

end Grip

namespace ChannelTable

variable {Id Message : Type}

/-- Registered channels are open, and there is one for each id. -/
structure Sound (table : ChannelTable Id Message) : Prop where
  opened : ∀ entry ∈ table.registered, table.OpenAt entry.1 entry.2
  distinct : (table.registered.map Prod.fst).Nodup

theorem sound_empty : ({} : ChannelTable Id Message).Sound where
  opened := fun _ member => nomatch member
  distinct := List.nodup_nil

theorem OpenAt.id_unique {table : ChannelTable Id Message} {left right : Id}
    (leftOpen : table.OpenAt left address) (rightOpen : table.OpenAt right address) :
    left = right := by
  rcases leftOpen with ⟨_, leftFound, _⟩
  rcases rightOpen with ⟨_, rightFound, _⟩
  rw [leftFound] at rightFound
  cases rightFound
  rfl

theorem Sound.of_same {table next : ChannelTable Id Message} (sound : table.Sound)
    (registered : next.registered = table.registered)
    (keeps : ∀ entry ∈ table.registered, table.OpenAt entry.1 entry.2 →
      next.OpenAt entry.1 entry.2) : next.Sound where
  opened entry member := by
    rw [registered] at member
    exact keeps entry member (sound.opened entry member)
  distinct := by
    rw [registered]
    exact sound.distinct

end ChannelTable

namespace TableCall

variable {Id Message : Type}

/-- What an operation must establish for the thread that performs it and for
every other thread. -/
structure Keeps (grip : Grip Id) (table : ChannelTable Id Message) (call : TableCall Id Message)
    (response : call.Response) (next : ChannelTable Id Message) : Prop where
  sound : next.Sound
  own : (grip.advance call response).Holds next
  others : ∀ other : Grip Id, other.Holds table → grip.Apart other →
    other.Holds next ∧ (grip.advance call response).Apart other

variable {grip : Grip Id} {table : ChannelTable Id Message}

theorem keeps_of_stays {call : TableCall Id Message} {response : call.Response}
    {next : ChannelTable Id Message} (holds : grip.Holds table) (sound : next.Sound)
    (retains : ∀ address id sent, grip.advance call response = .took address id sent →
      ∃ before, grip = .took address id before)
    (stays : ∀ id address, table.OpenAt id address →
      (∀ entry ∈ table.registered, entry.2 ≠ address) →
        next.OpenAt id address ∧ ∀ entry ∈ next.registered, entry.2 ≠ address) :
    Keeps grip table call response next where
  sound := sound
  own address id sent same := by
    rcases retains address id sent same with ⟨before, held⟩
    have owned := holds address id before held
    exact stays id address owned.1 owned.2
  others other otherHolds apart := by
    constructor
    · intro address id sent same
      have owned := otherHolds address id sent same
      exact stays id address owned.1 owned.2
    · intro address after
      apply apart
      cases held : grip.advance call response with
      | idle => simp [held, Grip.taken] at after
      | found => simp [held, Grip.taken] at after
      | took address id sent =>
        rcases retains address id sent held with ⟨before, same⟩
        rw [same]
        rw [held] at after
        exact after

theorem keeps_modify {call : TableCall Id Message} {response : call.Response}
    {change : Channel Message → Channel Message} (sound : table.Sound) (holds : grip.Holds table)
    (stillOpen : ∀ channel : Channel Message, (change channel).closed = channel.closed)
    (retains : ∀ other id sent, grip.advance call response = .took other id sent →
      ∃ before, grip = .took other id before) :
    Keeps grip table call response (table.modify address change) := by
  apply keeps_of_stays holds _ retains
  · intro id other opened unregistered
    exact ⟨opened.modify stillOpen, unregistered⟩
  · exact sound.of_same rfl fun _ _ opened => opened.modify stillOpen

theorem keeps_unchanged {call : TableCall Id Message} {response : call.Response}
    (sound : table.Sound) (holds : grip.Holds table)
    (retains : ∀ other id sent, grip.advance call response = .took other id sent →
      ∃ before, grip = .took other id before) : Keeps grip table call response table :=
  keeps_of_stays holds sound retains fun _ _ opened unregistered => ⟨opened, unregistered⟩

theorem retains_send {message : Message} {outcome : SendOutcome} :
    ∀ other id sent, grip.advance (.send address message) outcome = .took other id sent →
      ∃ before, grip = .took other id before := by
  intro other id sent same
  cases grip with
  | idle => cases same
  | found => cases same
  | took held id before =>
    cases outcome with
    | panics => cases same
    | sent =>
      cases same
      exact ⟨before, rfl⟩
    | full =>
      cases same
      exact ⟨before, rfl⟩

theorem keeps_send (sound : table.Sound) (holds : grip.Holds table) (address : Nat)
    (message : Message) : Keeps grip table (.send address message) (table.send address message).1
      (table.send address message).2 := by
  rw [ChannelTable.send]
  split
  · exact keeps_modify sound holds (fun channel => channel.send_closed message) retains_send
  · exact keeps_unchanged sound holds retains_send

theorem keeps_receive (sound : table.Sound) (holds : grip.Holds table) (address : Nat) :
    Keeps grip table (.receive address) (table.receive address).1 (table.receive address).2 := by
  have retains : ∀ response : Received Message, ∀ other id sent,
      grip.advance (.receive address) response = .took other id sent →
        ∃ before, grip = .took other id before :=
    fun _ _ _ sent same => ⟨sent, same⟩
  rw [ChannelTable.receive]
  split
  · exact keeps_modify sound holds Channel.receive_closed (retains _)
  · exact keeps_unchanged sound holds (retains _)

theorem keeps_close (sound : table.Sound) (holds : grip.Holds table)
    (owned : grip.taken = some address) :
    Keeps grip table (.close address) (table.close address).1 (table.close address).2 := by
  have unregistered : ∀ entry ∈ table.registered, entry.2 ≠ address := by
    cases grip with
    | idle => cases owned
    | found => cases owned
    | took =>
      cases owned
      exact (holds _ _ _ rfl).2
  have registered := table.registered_close address
  constructor
  · apply sound.of_same registered
    intro entry member opened
    exact opened.close (unregistered entry member).symm
  · exact Grip.holds_of_not_taken _ rfl
  · intro other otherHolds apart
    refine ⟨?_, Grip.apart_of_not_taken _ rfl⟩
    intro held id sent same
    have others := otherHolds held id sent same
    have different : address ≠ held := by
      intro equal
      apply apart address owned
      rw [same, equal]
      rfl
    rw [registered]
    exact ⟨others.1.close different, others.2⟩

theorem closeEach_of_openAt {entries : List (Id × Nat)} (distinct : (entries.map Prod.snd).Nodup)
    (opened : ∀ entry ∈ entries, table.OpenAt entry.1 entry.2) :
    (table.closeEach entries).1 = .closed := by
  induction entries generalizing table with
  | nil => rfl
  | cons entry rest induction =>
    rw [List.forall_mem_cons] at opened
    rw [List.map_cons, List.nodup_cons] at distinct
    have closes := ChannelTable.close_of_openAt opened.1
    have others : ∀ other ∈ rest, (table.close entry.2).2.OpenAt other.1 other.2 := by
      intro other member
      apply (opened.2 other member).close
      intro same
      exact distinct.1 (same ▸ List.mem_map_of_mem member)
    rw [ChannelTable.closeEach]
    split
    · next next closed =>
      rw [closed] at others
      exact induction distinct.2 others
    · next next panicked =>
      rw [panicked] at closes
      exact absurd rfl closes

theorem distinct_addresses (sound : table.Sound) : (table.registered.map Prod.snd).Nodup := by
  have distinct := sound.distinct
  rw [List.Nodup, List.pairwise_map] at distinct ⊢
  apply distinct.imp_of_mem
  intro left right leftMember rightMember different same
  have leftOpen := sound.opened left leftMember
  rw [same] at leftOpen
  exact different (leftOpen.id_unique (sound.opened right rightMember))

theorem keeps_closeAll (sound : table.Sound) (holds : grip.Holds table) :
    Keeps grip table .closeAll table.closeAll.1 table.closeAll.2 := by
  have closes := closeEach_of_openAt (distinct_addresses sound) sound.opened
  have stays : ∀ id address, table.OpenAt id address →
      (∀ entry ∈ table.registered, entry.2 ≠ address) →
        (table.closeEach table.registered).2.OpenAt id address :=
    fun _ _ opened unregistered => opened.closeEach unregistered
  rw [ChannelTable.closeAll]
  split
  · next next closed =>
    rw [closed] at stays
    have sound : ({ next with registered := [] } : ChannelTable Id Message).Sound := by
      constructor
      · rintro _ ⟨⟩
      · exact List.nodup_nil
    apply keeps_of_stays holds sound
    · intro other id sent same
      exact ⟨sent, same⟩
    · intro id address opened unregistered
      exact ⟨stays id address opened unregistered, by rintro _ ⟨⟩⟩
  · next next panicked =>
    rw [panicked] at closes
    cases closes

theorem closeAll_closed (sound : table.Sound) : table.closeAll.1 = .closed := by
  have closes := closeEach_of_openAt (distinct_addresses sound) sound.opened
  rw [ChannelTable.closeAll]
  split
  · rfl
  · next next panicked =>
    rw [panicked] at closes
    cases closes

variable [DecidableEq Id]

theorem keeps_find (sound : table.Sound) (holds : grip.Holds table) (id : Id) :
    Keeps grip table (.find id) (table.find id) table := by
  apply keeps_unchanged sound holds
  intro other owner sent same
  cases found : table.find id with
  | none =>
    rw [found] at same
    exact ⟨sent, same⟩
  | some address =>
    rw [found] at same
    cases same

theorem mem_of_find {id : Id} (found : table.find id = some address) :
    (id, address) ∈ table.registered := by
  rw [ChannelTable.find, Option.map_eq_some_iff] at found
  rcases found with ⟨entry, there, rfl⟩
  have key : entry.1 = id := key_of_lookupBy there
  rw [← key]
  exact mem_of_lookupBy there

theorem keeps_take (sound : table.Sound) (holds : grip.Holds table) (id : Id) :
    Keeps grip table (.take id) (table.take id).1 (table.take id).2 := by
  rw [ChannelTable.take]
  split
  · next address found =>
    have member := mem_of_find found
    have opened := sound.opened _ member
    have shrinks : ∀ entry ∈ (table.forget id).registered, entry ∈ table.registered :=
      fun entry kept => (List.mem_filter.mp kept).1
    constructor
    · constructor
      · intro entry kept
        exact sound.opened entry (shrinks entry kept)
      · exact sound.distinct.sublist ((List.filter_sublist ..).map Prod.fst)
    · intro other owner sent same
      cases same
      refine ⟨opened, ?_⟩
      intro entry kept equal
      have others := sound.opened entry (shrinks entry kept)
      rw [equal] at others
      have key := others.id_unique opened
      simpa [key] using (List.mem_filter.mp kept).2
    · intro other otherHolds apart
      constructor
      · intro held owner sent same
        have owned := otherHolds held owner sent same
        exact ⟨owned.1, fun entry kept => owned.2 entry (shrinks entry kept)⟩
      · intro held after taken
        cases after
        cases other with
        | idle => cases taken
        | found => cases taken
        | took =>
          cases taken
          exact (otherHolds _ _ _ rfl).2 _ member rfl
  · exact keeps_unchanged sound holds fun other owner sent same => ⟨sent, same⟩

theorem keeps_register (sound : table.Sound) (holds : grip.Holds table) (limit capacity : Nat)
    (id : Id) : Keeps grip table (.register id) (table.register limit capacity id).1
      (table.register limit capacity id).2 := by
  have retains : ∀ response : Except RegisterError Nat, ∀ other owner sent,
      grip.advance (.register id : TableCall Id Message) response = .took other owner sent →
        ∃ before, grip = .took other owner before :=
    fun _ _ _ sent same => ⟨sent, same⟩
  rw [ChannelTable.register]
  split
  · exact keeps_unchanged sound holds (retains _)
  · next absent =>
    split
    · exact keeps_unchanged sound holds (retains _)
    · have before : ∀ {owner address}, table.OpenAt owner address →
          address < table.channels.length := by
        rintro owner address ⟨channel, found, _⟩
        exact (List.getElem?_eq_some_iff.mp found).1
      have extended : ∀ {owner address}, table.OpenAt owner address →
          ({ channels := table.channels ++ [(id, { capacity })]
             registered := table.registered ++ [(id, table.channels.length)] } :
            ChannelTable Id Message).OpenAt owner address := by
        rintro owner address ⟨channel, found, isOpen⟩
        have bound := (List.getElem?_eq_some_iff.mp found).1
        exact ⟨channel, (List.getElem?_append_left bound).trans found, isOpen⟩
      apply keeps_of_stays holds _ (retains _)
      · intro owner address opened unregistered
        refine ⟨extended opened, ?_⟩
        intro entry member
        rcases List.mem_append.mp member with old | new
        · exact unregistered entry old
        · rw [List.mem_singleton.mp new]
          exact (Nat.ne_of_lt (before opened)).symm
      · constructor
        · intro entry member
          rcases List.mem_append.mp member with old | new
          · exact extended (sound.opened entry old)
          · rw [List.mem_singleton.mp new]
            exact ⟨_, List.getElem?_concat_length, rfl⟩
        · have fresh : id ∉ table.registered.map Prod.fst := by
            rw [List.mem_map]
            rintro ⟨entry, member, rfl⟩
            apply absent
            rw [ChannelTable.find, Option.isSome_map, Option.isSome_iff_exists]
            exact @lookupBy_isSome_of_mem _ _ _ Prod.fst _ _ member
          rw [List.map_append]
          exact List.concat_eq_append ▸ sound.distinct.concat fresh

variable {mayUse : Grip Id → Nat → Message → Prop}

/-- Within the bounds of what its thread holds, every operation keeps the table
sound and leaves the other threads what they hold. -/
theorem perform_keeps {call : TableCall Id Message} (limit capacity : Nat) (sound : table.Sound)
    (holds : grip.Holds table) (allowed : grip.Allows mayUse call) :
    Keeps grip table call (perform limit capacity table call).1
      (perform limit capacity table call).2 := by
  cases call with
  | register id => exact keeps_register sound holds limit capacity id
  | find id => exact keeps_find sound holds id
  | take id => exact keeps_take sound holds id
  | send address message => exact keeps_send sound holds address message
  | close address => exact keeps_close sound holds allowed
  | closeAll => exact keeps_closeAll sound holds
  | receive address => exact keeps_receive sound holds address

def Closes (table : ChannelTable Id Message) (address : Nat) : TableCall Id Message → Prop
  | .close other => other = address
  | .closeAll => ∃ entry ∈ table.registered, entry.2 = address
  | _ => False

theorem openAt_register {id owner : Id} {limit capacity : Nat}
    (opened : table.OpenAt owner address) :
    (table.register limit capacity id).2.OpenAt owner address := by
  rw [ChannelTable.register]
  split
  · exact opened
  · split
    · exact opened
    · rcases opened with ⟨channel, found, isOpen⟩
      have bound := (List.getElem?_eq_some_iff.mp found).1
      exact ⟨channel, (List.getElem?_append_left bound).trans found, isOpen⟩

theorem openAt_perform {call : TableCall Id Message} {id : Id} (limit capacity : Nat)
    (opened : table.OpenAt id address) (notClosed : ¬call.Closes table address) :
    (perform limit capacity table call).2.OpenAt id address := by
  cases call with
  | register requested => exact openAt_register opened
  | find requested => exact opened
  | take requested =>
    simp only [perform, ChannelTable.take]
    split <;> exact opened
  | send other message =>
    simp only [perform, ChannelTable.send]
    split
    · exact opened.modify fun channel => channel.send_closed message
    · exact opened
  | close other => exact opened.close notClosed
  | closeAll =>
    apply @ChannelTable.closeAll_keeps _ _ fun next => next.OpenAt id address
    · exact fun _ kept => kept
    · apply opened.closeEach
      intro entry member same
      exact notClosed ⟨entry, member, same⟩
  | receive other =>
    simp only [perform, ChannelTable.receive]
    split
    · exact opened.modify Channel.receive_closed
    · exact opened

theorem panics_send {call : TableCall Id Message} {limit capacity : Nat} (sound : table.Sound)
    (holds : grip.Holds table) (allowed : grip.Allows mayUse call)
    (panics : call.Panics (perform limit capacity table call).1) :
    ∃ address message, call = .send address message ∧ ∀ id, ¬table.OpenAt id address := by
  cases call with
  | send address message =>
    refine ⟨address, message, rfl, fun id opened => ?_⟩
    exact ChannelTable.send_of_openAt opened message panics
  | close address =>
    cases grip with
    | idle => cases allowed
    | found => cases allowed
    | took =>
      cases allowed
      exact absurd panics (ChannelTable.close_of_openAt (holds _ _ _ rfl).1)
  | closeAll => exact absurd (panics.symm.trans (closeAll_closed sound)) nofun
  | register => cases panics
  | find => cases panics
  | take => cases panics
  | receive => cases panics

end TableCall

end AgentC
