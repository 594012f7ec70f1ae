import AgentC.Broker.AgentConn
import AgentC.Foundation.ChannelAccounting

/-! # Responses find their requests

`Deliver`, `UnregisterPending` and `Close` each take a waiting request's channel
out of the table under the mutex before they use it. Hence the channel has one
user, whatever the interleaving. -/

namespace AgentC.Broker.AgentConn

/-- A session after `InitSession`. -/
def initSession (pendingLimit streamLimit : Int) : AgentConn :=
  { pendingLimit, streamLimit }

abbrev ConnTrace (first : AgentConn) (events : List ConnEvent) (last : AgentConn) : Prop :=
  SharedStore.Trace system description (Grip.idle, Grip.idle) first events last

abbrev held (index : Nat) (events : List ConnEvent) : Grip Bytes × Grip Bytes :=
  SharedStore.known description (Grip.idle, Grip.idle) index events

/-- The waiting requests, and what was sent to them, are in order. -/
structure PendingSound (conn : AgentConn) : Prop where
  sound : conn.pending.Sound
  once : conn.pending.SendsOnce fun id resp => resp.id = id

structure PendingHeld (known : Grip Bytes × Grip Bytes) (conn : AgentConn) : Prop where
  holds : known.1.Holds conn.pending
  unsent : known.1.Unsent conn.pending

theorem pendingSound_initSession (pendingLimit streamLimit : Int) :
    (initSession pendingLimit streamLimit).PendingSound where
  sound := ChannelTable.sound_empty
  once := {
    waiting := fun _ member => nomatch member
    once := fun _ member => nomatch member }

theorem pendingHeld_idle (conn : AgentConn) : PendingHeld (.idle, .idle) conn where
  holds := Grip.holds_of_not_taken _ rfl
  unsent := nofun

variable {known : Grip Bytes × Grip Bytes} {call : Call} {next : AgentConn}
variable {response : Response call} {id : Bytes} {channel : Nat}

/-- Every call keeps the waiting requests in order, and leaves the other
operations what they hold. -/
theorem perform_pending {conn : AgentConn} (sound : conn.PendingSound)
    (holds : PendingHeld known conn) (allowed : description.allowed known call)
    (effect : system.effect call conn response next) :
    next.PendingSound ∧ PendingHeld (description.advance known call response) next ∧
      ∀ other, PendingHeld other conn → known.1.Apart other.1 →
        PendingHeld other next ∧ (description.advance known call response).1.Apart other.1 := by
  cases call with
  | pending call =>
    cases effect
    have keeps := TableCall.perform_keeps conn.pendingLimit.toNat pendingCapacity sound.sound
      holds.holds allowed.2
    have once := TableCall.perform_keepsOnce conn.pendingLimit.toNat pendingCapacity sound.once
      holds.holds holds.unsent allowed.2
    refine ⟨⟨keeps.sound, once.once⟩, ⟨keeps.own, once.own⟩, ?_⟩
    intro other otherHolds apart
    have others := keeps.others other.1 otherHolds.holds apart
    exact ⟨⟨others.1, once.others other.1 otherHolds.unsent apart⟩, others.2⟩
  | streams call =>
    cases effect
    exact ⟨⟨sound.sound, sound.once⟩, ⟨holds.holds, holds.unsent⟩, fun other otherHolds apart =>
      ⟨⟨otherHolds.holds, otherHolds.unsent⟩, apart⟩⟩
  | closeConn =>
    cases effect
    exact ⟨⟨sound.sound, sound.once⟩, ⟨holds.holds, holds.unsent⟩, fun other otherHolds apart =>
      ⟨⟨otherHolds.holds, otherHolds.unsent⟩, apart⟩⟩

variable {pendingLimit streamLimit : Int} {events : List ConnEvent} {conn : AgentConn}

variable {event : ConnEvent}

theorem pending_of_trace (trace : ConnTrace (initSession pendingLimit streamLimit) events conn) :
    conn.PendingSound ∧ ∀ index, PendingHeld (held index events) conn := by
  have kept := SharedStore.Trace.pairwise system (fun apart => Grip.apart_symm apart)
    (pendingSound_initSession pendingLimit streamLimit) (pendingHeld_idle _)
    (Grip.apart_of_not_taken _ rfl) perform_pending trace
  exact ⟨kept.1, kept.2.1⟩

def PendingPanics : ConnEvent → Prop
  | ⟨_, .pending call, response, _, _⟩ => call.Panics response
  | _ => False

theorem pending_never_panics (trace : ConnTrace (initSession pendingLimit streamLimit) events conn)
    (member : event ∈ events) : ¬PendingPanics event := by
  intro panics
  rcases trace.of_mem system member with ⟨earlier, trace, allowed, effect⟩
  rcases event with ⟨thread, call, response, before, after⟩
  cases call with
  | pending call =>
    have kept := pending_of_trace trace
    have holds := (kept.2 thread).holds
    have outcome : (before.perform (.pending call)).1 = response := congrArg Prod.fst effect
    rw [← outcome] at panics
    rcases TableCall.panics_send kept.1.sound holds allowed.2 panics with
      ⟨address, message, rfl, closed⟩
    rcases allowed.2 with ⟨id, took, _⟩
    exact closed id (holds address id false took).1
  | streams call => cases panics
  | closeConn => cases panics

def Registers (event : ConnEvent) (id : Bytes) (channel : Nat) : Prop :=
  match event with
  | ⟨_, .pending (.register requested), response, _, _⟩ => requested = id ∧ response = .ok channel
  | _ => False

def responseReceived (channel : Nat) : ConnEvent → List RelayResponse
  | ⟨_, .pending call, response, _, _⟩ => call.receives channel response
  | _ => []

def responsesReceived (channel : Nat) (events : List ConnEvent) : List RelayResponse :=
  events.reverse.flatMap (responseReceived channel)

theorem responsesReceived_of_trace
    (trace : ConnTrace (initSession pendingLimit streamLimit) events conn) (channel : Nat) :
    responsesReceived channel events = conn.pending.receivedAt channel := by
  induction trace with
  | nil => rfl
  | @cons events conn next thread call response earlier allowed effect induction =>
    rw [responsesReceived, List.reverse_cons, List.flatMap_append, List.flatMap_singleton]
    rw [responsesReceived] at induction
    rw [induction]
    cases call with
    | pending call =>
      cases effect
      exact (TableCall.receivedAt_perform _ _ conn.pending call channel).symm
    | streams call =>
      cases effect
      exact List.append_nil _
    | closeConn =>
      cases effect
      exact List.append_nil _

theorem madeFor_effect {conn : AgentConn} (effect : system.effect call conn response next)
    (made : conn.pending.MadeFor id channel) : next.pending.MadeFor id channel := by
  cases call with
  | pending call =>
    cases effect
    exact TableCall.madeFor_perform made
  | streams call =>
    cases effect
    exact made
  | closeConn =>
    cases effect
    exact made

theorem madeFor_of_registers (trace : ConnTrace (initSession pendingLimit streamLimit) events conn)
    (member : event ∈ events) (registers : Registers event id channel) :
    conn.pending.MadeFor id channel := by
  apply SharedStore.Trace.kept system (fun effect => madeFor_effect effect) trace member
  rcases trace.of_mem system member with ⟨earlier, _, _, effect⟩
  rcases event with ⟨thread, call, response, before, after⟩
  cases call with
  | pending call =>
    cases call with
    | register requested =>
      rcases registers with ⟨rfl, made⟩
      have outcome : (before.perform (.pending (.register requested))).1 = response :=
        congrArg Prod.fst effect
      have result : (before.perform (.pending (.register requested))).2 = after :=
        congrArg Prod.snd effect
      rw [← outcome] at made
      rw [← result]
      exact TableCall.madeFor_register made
    | _ => cases registers
  | streams call => cases registers
  | closeConn => cases registers

/-- A request receives one response at most, and one with its id. -/
theorem received_by_request (trace : ConnTrace (initSession pendingLimit streamLimit) events conn)
    (member : event ∈ events) (registers : Registers event id channel) :
    (responsesReceived channel events).length ≤ 1 ∧
      ∀ resp ∈ responsesReceived channel events, resp.id = id := by
  rcases madeFor_of_registers trace member registers with ⟨sent, found⟩
  rcases ChannelTable.receivedAt_prefix found with ⟨rest, parts⟩
  have bounded := (pending_of_trace trace).1.once.once _ (List.mem_of_getElem? found)
  rw [responsesReceived_of_trace trace channel]
  simp only [parts, List.length_append, List.mem_append] at bounded
  constructor
  · omega
  · intro resp received
    exact bounded.2 resp (.inl received)

def calm (call : Call) (conn : AgentConn) (response : Response call) : Prop :=
  conn.PendingSound ∧
    match call with
    | .pending call => ¬call.Panics response
    | _ => True

theorem settled_effect {conn : AgentConn} (allowed : description.allowed known call)
    (effect : (system.restrict calm).effect call conn response next)
    (before : conn.pending.Settled channel ∨ known.1.taken = some channel) :
    next.pending.Settled channel ∨
      (description.advance known call response).1.taken = some channel := by
  rcases effect with ⟨effect, sound, fine⟩
  cases call with
  | pending call =>
    cases effect
    exact TableCall.perform_settled _ _ sound.sound allowed.2 fine before
  | streams call =>
    cases effect
    exact before
  | closeConn =>
    cases effect
    exact before

theorem calm_of_trace (trace : ConnTrace (initSession pendingLimit streamLimit) events conn)
    (member : event ∈ events) : calm event.call event.before event.response := by
  have fine := pending_never_panics trace member
  rcases trace.of_mem system member with ⟨earlier, before, _⟩
  refine ⟨(pending_of_trace before).1, ?_⟩
  rcases event with ⟨thread, call, response, before, after⟩
  cases call with
  | pending call => exact fine
  | streams call => trivial
  | closeConn => trivial

theorem settled_of_trace
    (trace : ConnTrace (initSession pendingLimit streamLimit) events conn) (channel : Nat) :
    conn.pending.Settled channel ∨ ∃ index, (held index events).1.taken = some channel := by
  have restricted := trace.restrict system fun event member => calm_of_trace trace member
  apply SharedStore.Trace.accounted (system.restrict calm) _ settled_effect restricted channel
  exact fun _ => .inl (Nat.zero_le _)

theorem unregistered_effect {conn : AgentConn} (effect : system.effect call conn response next)
    (unregistered : conn.pending.Unregistered channel) : next.pending.Unregistered channel := by
  cases call with
  | pending call =>
    cases effect
    exact TableCall.unregistered_perform _ _ unregistered
  | streams call =>
    cases effect
    exact unregistered
  | closeConn =>
    cases effect
    exact unregistered

/-- The channel of a request is closed, or the next step of an operation under
way sends a response on it or closes it. -/
def Completes (state : SystemState AgentConn Operation Call Response) (channel : Nat) : Prop :=
  state.store.pending.ClosedAt channel ∨
    ∃ thread ∈ state.threads, ∃ request continuation,
      thread.remaining = .call request continuation ∧
        (request = .pending (.close channel) ∨ ∃ resp, request = .pending (.send channel resp))

theorem uses_of_taken {remaining : ConnProgram Unit} (follows : KeepsToGrip known remaining)
    (taken : known.1.taken = some channel) :
    ∃ request continuation, remaining = .call request continuation ∧
      (request = .pending (.close channel) ∨ ∃ resp, request = .pending (.send channel resp)) := by
  cases remaining with
  | done value =>
    have released : known.1.taken = none := follows.1
    rw [released] at taken
    cases taken
  | call request continuation =>
    refine ⟨request, continuation, rfl, ?_⟩
    have allowed := follows.1
    cases request with
    | pending call =>
      have allowed := allowed.2
      cases call with
      | close address =>
        have same : known.1.taken = some address := allowed
        rw [taken] at same
        cases same
        exact .inl rfl
      | send address resp =>
        rcases allowed with ⟨id, took, _⟩
        rw [took] at taken
        cases taken
        exact .inr ⟨resp, rfl⟩
      | _ =>
        have nothing : known.1.taken = none := allowed
        rw [nothing] at taken
        cases taken
    | streams call =>
      have nothing : known.1.taken = none := allowed.1
      rw [nothing] at taken
      cases taken
    | closeConn =>
      have nothing : known.1.taken = none := allowed.1
      rw [nothing] at taken
      cases taken

variable {state : SystemState AgentConn Operation Call Response}

theorem completes_of_unregistered
    (run : system.Run { store := initSession pendingLimit streamLimit } events state)
    (unregistered : state.store.pending.Unregistered channel) :
    Completes state channel := by
  rcases SharedStore.Run.follows system program_follows run with ⟨bounded, follows, trace⟩
  rcases settled_of_trace trace channel with settled | ⟨index, taken⟩
  · rcases settled with unmade | ⟨entry, member, same⟩ | closed
    · exact absurd unregistered.1 (Nat.not_lt_of_le unmade)
    · exact absurd same (unregistered.2 entry member)
    · exact .inl closed
  · cases found : state.threads[index]? with
    | none =>
      have beyond := List.getElem?_eq_none_iff.mp found
      have idle : held index events = (.idle, .idle) := by
        apply SharedStore.known_eq_initial
        intro event member same
        have bound := bounded event member
        omega
      rw [idle] at taken
      cases taken
    | some thread =>
      refine .inr ⟨thread, List.mem_of_getElem? found, ?_⟩
      exact uses_of_taken (follows index thread found) taken

/-- The event is the section of `Close` that closes the waiting requests. -/
def ClosesPending (event : ConnEvent) : Prop :=
  event.call = .pending .closeAll

/-- A request registered before `Close` is completed. -/
theorem completes_of_closesPending
    (run : system.Run { store := initSession pendingLimit streamLimit } events state)
    {later earlier : List ConnEvent} {closing registration : ConnEvent}
    (split : events = later ++ closing :: earlier) (closes : ClosesPending closing)
    (member : registration ∈ earlier) (registers : Registers registration id channel) :
    Completes state channel := by
  have trace := SharedStore.Run.trace system program_follows run
  apply completes_of_unregistered run
  apply SharedStore.Trace.kept system (fun effect => unregistered_effect effect) trace
    (split ▸ List.mem_append_right later (List.mem_cons_self ..))
  rw [split] at trace
  rcases trace.earlier system with ⟨_, upToClosing⟩
  cases upToClosing with
  | cons earlierTrace allowed effect =>
    rcases madeFor_of_registers earlierTrace member registers with ⟨sent, found⟩
    cases closes
    cases effect
    apply TableCall.unregistered_closeAll _ (pending_of_trace earlierTrace).1.sound
    have made := (List.getElem?_eq_some_iff.mp found).1
    rw [ChannelTable.contents, List.length_map] at made
    exact made

/-- On any interleaving of the operations of one session, no request's channel
is closed twice or sent on after that, a request receives one response at most
and only one with its id, and a request registered before `Close` is completed. -/
theorem relay_responses_match (pendingLimit streamLimit : Int) (events : List ConnEvent)
    (state : SystemState AgentConn Operation Call Response)
    (run : system.Run { store := initSession pendingLimit streamLimit } events state) :
    (∀ event ∈ events, ¬PendingPanics event) ∧
      (∀ registration ∈ events, ∀ id channel, Registers registration id channel →
        (responsesReceived channel events).length ≤ 1 ∧
          ∀ resp ∈ responsesReceived channel events, resp.id = id) ∧
      ∀ later closing earlier, events = later ++ closing :: earlier → ClosesPending closing →
        ∀ registration ∈ earlier, ∀ id channel, Registers registration id channel →
          Completes state channel := by
  have trace := SharedStore.Run.trace system program_follows run
  refine ⟨fun event member => pending_never_panics trace member, ?_, ?_⟩
  · intro registration member id channel registers
    exact received_by_request trace member registers
  · intro later closing earlier split closes registration member id channel registers
    exact completes_of_closesPending run split closes member registers

def sampleResponse : RelayResponse :=
  { id := ascii "r1", resp := { status := 200 } }

def answer (_ : Unit) (call : Call) (conn : AgentConn) : Response call × AgentConn :=
  conn.perform call

/-- A request is registered, its response taken out for it, the session closed,
and only then the response sent. -/
def sampleSchedule : List (SharedStore.Move Operation Unit) :=
  [.start (.registerPending (ascii "r1")), .advance 0 (), .start (.deliver sampleResponse),
    .advance 1 (), .start .close, .advance 2 (), .advance 1 (), .advance 1 (),
    .start (.receiveResponse 0), .advance 3 ()]

def sampleRun : List ConnEvent × SystemState AgentConn Operation Call Response :=
  sampleSchedule.foldl (system.record answer) ([], { store := initSession 0 0 })

theorem relay_responses_match_sample :
    responsesReceived 0 sampleRun.1 = [sampleResponse] ∧
      ∀ resp ∈ responsesReceived 0 sampleRun.1, resp.id = ascii "r1" := by
  have run : system.Run { store := initSession 0 0 } sampleRun.1 sampleRun.2 :=
    SharedStore.run_records system (fun _ _ _ => rfl) .refl sampleSchedule
  refine ⟨by decide, ?_⟩
  have registered : ∃ registration ∈ sampleRun.1, Registers registration (ascii "r1") 0 := by
    refine ⟨_, List.mem_of_getElem? (show sampleRun.1[5]? = some _ from rfl), ?_⟩
    exact ⟨rfl, rfl⟩
  rcases registered with ⟨registration, member, registers⟩
  have received := (relay_responses_match 0 0 _ _ run).2.1 registration member (ascii "r1") 0
  exact (received registers).2

end AgentC.Broker.AgentConn
