import AgentC.Broker.RelayMatching

/-! # Streams and the channels they are sent on

`DeliverStream` looks a stream's channel up under the mutex and sends on it
after it has released the mutex. `CloseStream` and `Close` may close the channel
in between; then the send panics. Nothing else about streams can panic. -/

namespace AgentC.Broker.AgentConn

def StreamPanics : ConnEvent → Prop
  | ⟨_, .streams call, response, _, _⟩ => call.Panics response
  | _ => False

def LooksUp (channel : Nat) : ConnEvent → Prop
  | ⟨_, .streams (.find _), response, _, _⟩ => response = some channel
  | _ => False

def ClosesStream (channel : Nat) : ConnEvent → Prop
  | ⟨_, .streams call, _, before, _⟩ => call.Closes before.streams channel
  | _ => False

/-- A stream message is sent while nobody has closed its channel since it was
looked up. -/
def SentInTime (event : ConnEvent) (earlier : List ConnEvent) : Prop :=
  match event.call with
  | .streams (.send channel _) =>
    SharedStore.Undisturbed (LooksUp channel) (ClosesStream channel) event.thread earlier
  | _ => True

variable {known : Grip Bytes × Grip Bytes}

theorem perform_streams {call : Call} {response : Response call} {conn next : AgentConn}
    (sound : conn.streams.Sound) (holds : known.2.Holds conn.streams)
    (allowed : description.allowed known call) (effect : system.effect call conn response next) :
    next.streams.Sound ∧ (description.advance known call response).2.Holds next.streams ∧
      ∀ other : Grip Bytes × Grip Bytes, other.2.Holds conn.streams → known.2.Apart other.2 →
        other.2.Holds next.streams ∧ (description.advance known call response).2.Apart other.2 := by
  cases call with
  | pending call =>
    cases effect
    exact ⟨sound, holds, fun other otherHolds apart => ⟨otherHolds, apart⟩⟩
  | streams call =>
    cases effect
    have keeps := TableCall.perform_keeps conn.streamLimit.toNat streamCapacity sound holds
      allowed.2
    exact ⟨keeps.sound, keeps.own, fun other => keeps.others other.2⟩
  | closeConn =>
    cases effect
    exact ⟨sound, holds, fun other otherHolds apart => ⟨otherHolds, apart⟩⟩

variable {pendingLimit streamLimit : Int} {events : List ConnEvent} {conn : AgentConn}

variable {channel : Nat}

theorem streams_of_trace (trace : ConnTrace (initSession pendingLimit streamLimit) events conn) :
    conn.streams.Sound ∧ ∀ index, (held index events).2.Holds conn.streams := by
  have kept := SharedStore.Trace.pairwise system (fun apart => Grip.apart_symm apart)
    ChannelTable.sound_empty (Grip.holds_of_not_taken _ rfl) (Grip.apart_of_not_taken _ rfl)
    perform_streams trace
  exact ⟨kept.1, kept.2.1⟩

def FoundOpen (channel : Nat) (known : Grip Bytes × Grip Bytes) (conn : AgentConn) : Prop :=
  ∀ id, known.2 = .found channel id → conn.streams.OpenAt id channel

theorem openAt_effect {event : ConnEvent} {id : Bytes}
    (effect : system.effect event.call event.before event.response event.after)
    (notClosed : ¬ClosesStream channel event) (opened : event.before.streams.OpenAt id channel) :
    event.after.streams.OpenAt id channel := by
  rcases event with ⟨thread, call, response, before, after⟩
  have result : (before.perform call).2 = after := congrArg Prod.snd effect
  rw [← result]
  cases call with
  | pending call => exact opened
  | streams call => exact TableCall.openAt_perform _ _ opened notClosed
  | closeConn => exact opened

theorem foundOpen_own {event : ConnEvent}
    (effect : system.effect event.call event.before event.response event.after)
    (sound : event.before.streams.Sound) (before : LooksUp channel event ∨
      ¬ClosesStream channel event ∧ FoundOpen channel known event.before) :
    FoundOpen channel (description.advance known event.call event.response) event.after := by
  intro owner found
  have kept : known.2 = .found channel owner → ¬LooksUp channel event →
      event.after.streams.OpenAt owner channel := by
    intro same notLooking
    have earlier := before.resolve_left notLooking
    exact openAt_effect effect earlier.1 (earlier.2 owner same)
  rcases event with ⟨thread, call, response, conn, after⟩
  cases call with
  | pending call => exact kept found id
  | closeConn => exact kept found id
  | streams call =>
    cases call with
    | find requested =>
      have outcome : conn.streams.find requested = response := congrArg Prod.fst effect
      have result : conn = after := congrArg Prod.snd effect
      cases response with
      | none => exact kept found nofun
      | some address =>
        cases found
        rw [← result]
        exact sound.opened _ (TableCall.mem_of_find outcome)
    | take requested =>
      cases response with
      | none => exact kept found id
      | some address => cases found
    | send =>
      exact absurd found (Grip.advance_send_ne_found known.2)
    | close address => cases found
    | register requested => exact kept found id
    | closeAll => exact kept found id
    | receive address => exact kept found id

theorem foundOpen_of_trace (trace : ConnTrace (initSession pendingLimit streamLimit) events conn)
    {index : Nat}
    (inTime : SharedStore.Undisturbed (LooksUp channel) (ClosesStream channel) index events) :
    FoundOpen channel (held index events) conn := by
  have restricted : SharedStore.Trace
      (system.restrict fun _ conn _ => conn.streams.Sound) description (.idle, .idle)
      (initSession pendingLimit streamLimit) events conn := by
    apply trace.restrict system
    intro event member
    rcases trace.of_mem system member with ⟨earlier, before, _⟩
    exact (streams_of_trace before).1
  apply SharedStore.Trace.undisturbed _ _ _ _ restricted inTime
  · exact fun _ contrary => nomatch contrary
  · intro known event _ _ effect before
    exact foundOpen_own effect.1 effect.2 before
  · intro known event effect notClosed before owner found
    exact openAt_effect effect.1 notClosed (before owner found)

/-- When every stream message is sent in time, nothing panics. -/
theorem streams_never_panic (trace : ConnTrace (initSession pendingLimit streamLimit) events conn)
    (inTime : Throughout SentInTime events) : ∀ event ∈ events, ¬StreamPanics event := by
  induction trace with
  | nil => exact fun _ member => nomatch member
  | @cons events conn next thread call response earlier allowed effect induction =>
    rw [List.forall_mem_cons]
    refine ⟨?_, induction inTime.2⟩
    cases call with
    | pending call => exact id
    | closeConn => exact id
    | streams call =>
      intro panics
      cases effect
      have kept := streams_of_trace earlier
      rcases TableCall.panics_send kept.1 (kept.2 thread) allowed.2 panics with
        ⟨channel, message, rfl, closed⟩
      rcases allowed.2 with ⟨owner, found⟩
      exact closed owner (foundOpen_of_trace earlier inTime.1 owner found)

/-- A session never panics over a stream in a run in which no channel is closed
between the moment a message's channel is looked up and its send. -/
theorem relay_streams_safe (pendingLimit streamLimit : Int) (events : List ConnEvent)
    (state : SystemState AgentConn Operation Call Response)
    (run : system.Run { store := initSession pendingLimit streamLimit } events state)
    (inTime : Throughout SentInTime events) : ∀ event ∈ events, ¬StreamPanics event :=
  streams_never_panic (SharedStore.Run.trace system program_follows run) inTime

def sampleChunk : StreamMessage := .chunk (ascii "s1") (ascii "aGk=")

/-- A stream is registered and a message looks its channel up; then `rest`. -/
def sampleStreamRun (rest : List (SharedStore.Move Operation Unit)) :
    List ConnEvent × SystemState AgentConn Operation Call Response :=
  (.start (.registerStream (ascii "s1")) :: .advance 0 () ::
    .start (.deliverStream (ascii "s1") sampleChunk) :: .advance 1 () ::
      .start (.closeStream (ascii "s1")) :: rest).foldl (system.record answer)
    ([], { store := initSession 0 0 })

theorem run_sampleStreamRun (rest : List (SharedStore.Move Operation Unit)) :
    system.Run { store := initSession 0 0 } (sampleStreamRun rest).1 (sampleStreamRun rest).2 :=
  SharedStore.run_records system (fun _ _ _ => rfl) .refl _

/-- The client closes the stream before the message is sent. -/
theorem stream_send_panics :
    ¬∀ (pendingLimit streamLimit : Int) (events : List ConnEvent)
      (state : SystemState AgentConn Operation Call Response),
      system.Run { store := initSession pendingLimit streamLimit } events state →
        ∀ event ∈ events, ¬StreamPanics event := by
  intro safe
  have run := run_sampleStreamRun [.advance 2 (), .advance 2 (), .advance 1 ()]
  apply safe 0 0 _ _ run _ (List.mem_of_getElem? (i := 0) rfl)
  rfl

/-- The client closes the stream after the message is sent. -/
theorem relay_streams_safe_sample :
    ¬∃ event ∈ (sampleStreamRun [.advance 1 (), .advance 2 (), .advance 2 ()]).1,
      StreamPanics event := by
  intro panicked
  rcases panicked with ⟨event, member, panics⟩
  refine relay_streams_safe 0 0 _ _ (run_sampleStreamRun _) ?_ event member panics
  exact ⟨trivial, trivial, .inl ⟨rfl, rfl⟩, trivial, trivial, trivial⟩

end AgentC.Broker.AgentConn
