import AgentC.Foundation.ChannelMessages

/-! # No channel of a table gets lost

Every channel is registered, in the hands of one thread, or closed. -/

namespace AgentC

variable {address : Nat}

namespace ChannelTable

variable {Id Message : Type}

def ClosedAt (table : ChannelTable Id Message) (address : Nat) : Prop :=
  ∃ entry, table.channels[address]? = some entry ∧ entry.2.closed = true

/-- Not made yet, registered, or closed: no thread need do anything about it. -/
def Settled (table : ChannelTable Id Message) (address : Nat) : Prop :=
  table.channels.length ≤ address ∨ (∃ entry ∈ table.registered, entry.2 = address) ∨
    table.ClosedAt address

def Unregistered (table : ChannelTable Id Message) (address : Nat) : Prop :=
  address < table.channels.length ∧ ∀ entry ∈ table.registered, entry.2 ≠ address

variable {table : ChannelTable Id Message} {other : Nat}

theorem ClosedAt.modify {change : Channel Message → Channel Message} (closed : table.ClosedAt other)
    (keeps : ∀ channel : Channel Message, channel.closed = true → (change channel).closed = true) :
    (table.modify address change).ClosedAt other := by
  rcases closed with ⟨entry, found, isClosed⟩
  rw [ClosedAt, getElem?_modify, found]
  by_cases same : address = other
  · exact ⟨(entry.1, change entry.2), by simp [same], keeps entry.2 isClosed⟩
  · exact ⟨entry, by simp [same], isClosed⟩

theorem length_modify (table : ChannelTable Id Message) (address : Nat)
    (change : Channel Message → Channel Message) :
    (table.modify address change).channels.length = table.channels.length :=
  List.length_modify ..

theorem Settled.modify {change : Channel Message → Channel Message} (settled : table.Settled other)
    (keeps : ∀ channel : Channel Message, channel.closed = true → (change channel).closed = true) :
    (table.modify address change).Settled other := by
  rcases settled with unmade | registered | closed
  · exact .inl (table.length_modify address change ▸ unmade)
  · exact .inr (.inl registered)
  · exact .inr (.inr (closed.modify keeps))

theorem Settled.close (settled : table.Settled other) : (table.close address).2.Settled other := by
  rw [ChannelTable.close]
  split
  · exact settled.modify fun channel _ => channel.close_closed
  · exact settled

theorem Settled.send {message : Message} (settled : table.Settled other) :
    (table.send address message).2.Settled other := by
  rw [ChannelTable.send]
  split
  · exact settled.modify fun channel closed => (channel.send_closed message).trans closed
  · exact settled

theorem Settled.receive (settled : table.Settled other) :
    (table.receive address).2.Settled other := by
  rw [ChannelTable.receive]
  split
  · exact settled.modify fun channel closed => channel.receive_closed.trans closed
  · exact settled

theorem closedAt_close (closes : (table.close address).1 = .closed) :
    (table.close address).2.ClosedAt address := by
  rw [ChannelTable.close] at closes ⊢
  split at closes
  · next entry found =>
    simp only
    rw [ClosedAt, getElem?_modify, found]
    exact ⟨(entry.1, entry.2.close.2), by simp, entry.2.close_closed⟩
  · cases closes

theorem ClosedAt.close (closed : table.ClosedAt other) :
    (table.close address).2.ClosedAt other := by
  rw [ChannelTable.close]
  split
  · exact closed.modify fun channel _ => channel.close_closed
  · exact closed

theorem length_close (table : ChannelTable Id Message) (address : Nat) :
    (table.close address).2.channels.length = table.channels.length := by
  rw [ChannelTable.close]
  split
  · exact table.length_modify ..
  · rfl

theorem closedAt_closeEach {table : ChannelTable Id Message} {entries : List (Id × Nat)}
    (closes : (table.closeEach entries).1 = .closed) {address : Nat}
    (settles : (∃ entry ∈ entries, entry.2 = address) ∨ table.ClosedAt address) :
    (table.closeEach entries).2.ClosedAt address := by
  induction entries generalizing table with
  | nil => exact settles.resolve_left fun ⟨_, member, _⟩ => nomatch member
  | cons entry rest induction =>
    rw [ChannelTable.closeEach] at closes ⊢
    split at closes
    · next next closed =>
      apply induction closes
      have outcome : (table.close entry.2).1 = .closed := congrArg Prod.fst closed
      have result : (table.close entry.2).2 = next := congrArg Prod.snd closed
      rcases settles with ⟨other, member, same⟩ | already
      · rcases List.mem_cons.mp member with here | there
        · rw [here] at same
          rw [same] at outcome result
          exact .inr (result ▸ closedAt_close outcome)
        · exact .inl ⟨other, there, same⟩
      · exact .inr (result ▸ already.close)
    · cases closes

theorem length_closeEach (table : ChannelTable Id Message) (entries : List (Id × Nat)) :
    (table.closeEach entries).2.channels.length = table.channels.length := by
  apply @closeEach_keeps _ _ fun next => next.channels.length = table.channels.length
  · intro next entry _ kept
    exact (next.length_close entry.2).trans kept
  · rfl

theorem Settled.closeAll (settled : table.Settled address) (closes : table.closeAll.1 = .closed) :
    table.closeAll.2.channels.length ≤ address ∨ table.closeAll.2.ClosedAt address := by
  have length := table.length_closeEach table.registered
  have closing := @closedAt_closeEach _ _ table table.registered
  rw [ChannelTable.closeAll] at closes ⊢
  split at closes
  · next next closed =>
    rw [closed] at length closing
    rcases settled with unmade | settles
    · exact .inl (length ▸ unmade)
    · exact .inr (closing rfl settles)
  · cases closes

end ChannelTable

namespace TableCall

variable {Id Message : Type} {grip : Grip Id} {table : ChannelTable Id Message}

theorem unregistered_closeAll (made : address < table.channels.length) (sound : table.Sound) :
    table.closeAll.2.Unregistered address := by
  have closes := closeAll_closed sound
  have length := table.length_closeEach table.registered
  rw [ChannelTable.closeAll] at closes ⊢
  split at closes
  · next next closed =>
    rw [closed] at length
    have size : next.channels.length = table.channels.length := length
    rw [← size] at made
    refine ⟨made, ?_⟩
    rintro _ ⟨⟩
  · cases closes

variable [DecidableEq Id]

theorem settled_register (settled : table.Settled address) (limit capacity : Nat) (id : Id) :
    (table.register limit capacity id).2.Settled address := by
  rw [ChannelTable.register]
  split
  · exact settled
  · split
    · exact settled
    · rcases settled with unmade | ⟨entry, member, same⟩ | ⟨entry, found, closed⟩
      · by_cases here : table.channels.length = address
        · exact .inr (.inl ⟨_, List.mem_append_right _ (List.mem_singleton.mpr rfl), here⟩)
        · refine .inl ?_
          rw [List.length_append, List.length_singleton]
          omega
      · exact .inr (.inl ⟨entry, List.mem_append_left _ member, same⟩)
      · have bound := (List.getElem?_eq_some_iff.mp found).1
        exact .inr (.inr ⟨entry, (List.getElem?_append_left bound).trans found, closed⟩)

theorem settled_take (sound : table.Sound) (settled : table.Settled address) (id : Id) :
    (table.take id).2.Settled address ∨
      (grip.advance (.take id : TableCall Id Message) (table.take id).1).taken = some address := by
  rw [ChannelTable.take]
  split
  · next taken found =>
    have member := mem_of_find found
    rcases settled with unmade | ⟨entry, other, same⟩ | closed
    · exact .inl (.inl unmade)
    · by_cases key : entry.1 = id
      · refine .inr ?_
        have only : entry = (id, taken) :=
          List.inj_on_of_nodup_map sound.distinct other member key
        rw [only] at same
        exact congrArg some same
      · refine .inl (.inr (.inl ⟨entry, ?_, same⟩))
        exact List.mem_filter.mpr ⟨other, decide_eq_true key⟩
    · exact .inl (.inr (.inr closed))
  · exact .inl settled

/-- No channel gets lost: what was settled is so still or the thread took it,
and what the thread took it keeps or closes. -/
theorem perform_settled {mayUse : Grip Id → Nat → Message → Prop} {call : TableCall Id Message}
    (limit capacity : Nat) (sound : table.Sound) (allowed : grip.Allows mayUse call)
    (fine : ¬call.Panics (perform limit capacity table call).1)
    (before : table.Settled address ∨ grip.taken = some address) :
    (perform limit capacity table call).2.Settled address ∨
      (grip.advance call (perform limit capacity table call).1).taken = some address := by
  cases call with
  | register id =>
    have nothing : grip.taken = none := allowed
    rw [nothing] at before
    exact .inl (settled_register (before.resolve_right nofun) limit capacity id)
  | find id =>
    have nothing : grip.taken = none := allowed
    rw [nothing] at before
    exact .inl (before.resolve_right nofun)
  | take id =>
    have nothing : grip.taken = none := allowed
    rw [nothing] at before
    exact settled_take sound (before.resolve_right nofun) id
  | send other message =>
    rcases before with settled | held
    · exact .inl settled.send
    · refine .inr ?_
      cases grip with
      | idle => cases held
      | found => cases held
      | took taken id sent =>
        cases outcome : (table.send other message).1 with
        | panics => exact absurd outcome fine
        | sent => simpa [perform, outcome, Grip.advance, Grip.taken] using held
        | full => simpa [perform, outcome, Grip.advance, Grip.taken] using held
  | close other =>
    refine .inl ?_
    rcases before with settled | held
    · exact settled.close
    · have same : other = address := by
        have owned : grip.taken = some other := allowed
        rw [owned] at held
        exact Option.some.inj held
      cases outcome : (table.close other).1 with
      | panics => exact absurd outcome fine
      | closed => exact .inr (.inr (same ▸ ChannelTable.closedAt_close outcome))
  | closeAll =>
    have nothing : grip.taken = none := allowed
    rw [nothing] at before
    have settles := (before.resolve_right nofun).closeAll (closeAll_closed sound)
    rcases settles with unmade | closed
    · exact .inl (.inl unmade)
    · exact .inl (.inr (.inr closed))
  | receive other =>
    have nothing : grip.taken = none := allowed
    rw [nothing] at before
    exact .inl (before.resolve_right nofun).receive

theorem unregistered_perform {call : TableCall Id Message} (limit capacity : Nat)
    (unregistered : table.Unregistered address) :
    (perform limit capacity table call).2.Unregistered address := by
  rcases unregistered with ⟨made, absent⟩
  cases call with
  | register id =>
    simp only [perform, ChannelTable.register]
    split
    · exact ⟨made, absent⟩
    · split
      · exact ⟨made, absent⟩
      · constructor
        · rw [List.length_append]
          omega
        · intro entry member
          rcases List.mem_append.mp member with old | new
          · exact absent entry old
          · rw [List.mem_singleton.mp new]
            exact (Nat.ne_of_lt made).symm
  | find id => exact ⟨made, absent⟩
  | take id =>
    simp only [perform, ChannelTable.take]
    split
    · exact ⟨made, fun entry member => absent entry (List.mem_filter.mp member).1⟩
    · exact ⟨made, absent⟩
  | send =>
    simp only [perform, ChannelTable.send]
    split
    · exact ⟨table.length_modify .. ▸ made, absent⟩
    · exact ⟨made, absent⟩
  | close other => exact ⟨table.length_close other ▸ made, table.registered_close other ▸ absent⟩
  | closeAll =>
    have length : table.closeAll.2.channels.length = table.channels.length :=
      @ChannelTable.closeAll_keeps _ _
        (fun next => next.channels.length = table.channels.length) table (fun _ kept => kept)
        (table.length_closeEach table.registered)
    exact ⟨length ▸ made, fun entry member => absent entry (table.registered_closeAll entry member)⟩
  | receive other =>
    simp only [perform, ChannelTable.receive]
    split
    · exact ⟨table.length_modify .. ▸ made, absent⟩
    · exact ⟨made, absent⟩

end TableCall

end AgentC
