import AgentC.Broker.Registry

/-! # The registry keeps the live connection

A connection's read loop and a relay whose send failed remove a registration by
agent and deployment, whichever connection is registered there by then. -/

namespace AgentC.Broker.Registry

/-- Serving a connection it registered, having seen its reads fail, having found
a connection to send to, or having seen the send fail. -/
inductive Role
  | idle
  | serving (address : Nat) (pair : Pair)
  | exited (address : Nat) (pair : Pair)
  | found (address : Nat) (agentId deploymentId : Bytes)
  | failed (address : Nat) (agentId deploymentId : Bytes)
deriving DecidableEq, Repr

def Role.advance (role : Role) : (call : Call) → Response call → Role
  | .upsert connection, registered => .serving registered.1 connection.named.pair
  | .readFails _, _ =>
    match role with
    | .serving address pair => .exited address pair
    | _ => role
  | .require agentId deploymentId, some address => .found address agentId deploymentId
  | .send _, false =>
    match role with
    | .found address agentId deploymentId => .failed address agentId deploymentId
    | _ => role
  | .delete .., _ => .idle
  | _, _ => role

def Role.Allows (role : Role) : Call → Prop
  | .upsert connection => role = .idle ∧ connection.agentId ≠ []
  | .close _ => True
  | .readFails address => ∃ pair, role = .serving address pair
  | .require .. => role = .idle
  | .send address => ∃ agentId deploymentId, role = .found address agentId deploymentId
  | .delete agentId deploymentId =>
    deploymentId ≠ [] ∧ (∃ address, role = .exited address (agentId, deploymentId)) ∨
      ∃ address, role = .failed address agentId deploymentId

def description : Description Role Call Response where
  advance := Role.advance
  allowed := Role.Allows

theorem agentReadLoop_follows {address : Nat} {pair : Pair} (named : pair.2 ≠ []) :
    (agentReadLoop address pair).Follows description (fun _ _ => True)
      (.serving address pair) := by
  refine Program.follows_call ⟨pair, rfl⟩ fun _ => ?_
  refine Program.follows_call trivial fun _ => ?_
  refine Program.follows_call (.inl ⟨named, address, rfl⟩) fun _ => ?_
  trivial

theorem program_follows (operation : Operation) :
    (program operation).Follows description (fun _ _ => True) .idle := by
  cases operation with
  | connect agentId deploymentId connected =>
    apply Program.follows_ite
    · exact fun _ => trivial
    · intro agentNamed
      have named : (if deploymentId = [] then defaultDeployment else deploymentId) ≠ [] := by
        split
        · exact nofun
        · next named => exact named
      generalize (if deploymentId = [] then defaultDeployment else deploymentId) = deployment
        at named ⊢
      have kept : (Connection.mk agentId deployment connected).named =
          ⟨agentId, deployment, connected⟩ := if_neg named
      refine Program.follows_call ⟨rfl, agentNamed⟩ fun registered => ?_
      rcases registered with ⟨address, prev⟩
      have serves := @agentReadLoop_follows address (agentId, deployment) named
      have role : description.advance .idle (.upsert ⟨agentId, deployment, connected⟩)
          (address, prev) = .serving address (agentId, deployment) := by
        exact congrArg (fun connection => Role.serving address connection.pair) kept
      rw [role]
      cases prev with
      | none => exact serves
      | some prev => exact Program.follows_call trivial fun _ => serves
  | relay agentId deploymentId =>
    refine Program.follows_call rfl fun selected => ?_
    cases selected with
    | none => trivial
    | some address =>
      refine Program.follows_call ⟨agentId, deploymentId, rfl⟩ fun sent => ?_
      cases sent with
      | true => trivial
      | false =>
        refine Program.follows_call (.inr ⟨address, rfl⟩) fun _ => ?_
        trivial

/-! ## Registered connections -/

/-- Every registration is under the pair of its connection, and there is one
for each pair. -/
structure Sound (registry : Registry) : Prop where
  pairs : ∀ entry ∈ registry.agents, ∃ connection,
    registry.connections[entry.2]? = some connection ∧ connection.pair = entry.1
  distinct : (registry.agents.map Prod.fst).Nodup

variable {registry : Registry} {pair : Pair} {address : Nat} {call : Call} {next : Registry}
variable {event : RegistryEvent} {role : Role} {events : List RegistryEvent} {store : Registry}
variable {thread : Nat} {agentId deploymentId : Bytes} {response : Response call}

variable {connection : Connection}

theorem get_of_mem (sound : registry.Sound) {entry : Pair × Nat}
    (member : entry ∈ registry.agents) : registry.get entry.1 = some entry.2 := by
  have found : ∃ stored, lookupBy Prod.fst entry.1 registry.agents = some stored :=
    lookupBy_isSome_of_mem member
  rcases found with ⟨stored, found⟩
  have same : stored = entry := List.inj_on_of_nodup_map sound.distinct (mem_of_lookupBy found)
    member (key_of_lookupBy found)
  rw [get, found, same]
  rfl

theorem mem_of_get (found : registry.get pair = some address) :
    (pair, address) ∈ registry.agents := by
  rw [get, Option.map_eq_some_iff] at found
  rcases found with ⟨entry, there, rfl⟩
  have key : entry.1 = pair := key_of_lookupBy there
  rw [← key]
  exact mem_of_lookupBy there

theorem sound_upsert (sound : registry.Sound) (connection : Connection) :
    (registry.upsert connection).2.Sound := by
  have older : ∀ entry ∈ registry.agents, ∀ added, ∃ connection,
      (registry.connections ++ [added])[entry.2]? = some connection ∧
        connection.pair = entry.1 := by
    intro entry member added
    rcases sound.pairs entry member with ⟨stored, found, pair⟩
    have bound := (List.getElem?_eq_some_iff.mp found).1
    exact ⟨stored, (List.getElem?_append_left bound).trans found, pair⟩
  rw [upsert]
  split
  · exact ⟨fun entry member => older entry member connection, sound.distinct⟩
  · constructor
    · intro entry member
      rcases List.mem_append.mp member with old | new
      · exact older entry (List.mem_filter.mp old).1 connection.named
      · rw [List.mem_singleton.mp new]
        exact ⟨connection.named, List.getElem?_concat_length, rfl⟩
    · simp only [List.map_append, List.map_singleton]
      apply List.Nodup.append
      · exact sound.distinct.sublist ((List.filter_sublist ..).map Prod.fst)
      · exact List.nodup_singleton _
      · intro pair old new
        rcases List.mem_map.mp old with ⟨entry, member, rfl⟩
        have different := (List.mem_filter.mp member).2
        exact of_decide_eq_true different (List.mem_singleton.mp new)

theorem get_upsert (pair : Pair) (named : connection.agentId ≠ []) :
    (registry.upsert connection).2.get pair =
      if connection.named.pair = pair then some registry.connections.length
      else registry.get pair := by
  simp only [upsert, named, if_false, get]
  have kept : lookupBy Prod.fst pair
      (registry.agents.filter fun entry => entry.1 ≠ connection.named.pair) =
        if pair ≠ connection.named.pair then lookupBy Prod.fst pair registry.agents else none := by
    have filtered := @lookupBy_filter _ _ _ Prod.fst registry.agents pair
      fun other => decide (other ≠ connection.named.pair)
    simpa using filtered
  rw [lookupBy_append, lookupBy_cons, kept]
  by_cases same : connection.named.pair = pair
  · simp [same]
  · simp [same, Ne.symm same, lookupBy]

theorem get_delete (registry : Registry) (agentId deploymentId : Bytes) (pair : Pair) :
    (registry.delete agentId deploymentId).2.get pair =
      if removes agentId deploymentId pair then none else registry.get pair := by
  have kept := @lookupBy_filter _ _ _ Prod.fst registry.agents pair
    fun other => !removes agentId deploymentId other
  simp only [delete, get]
  rw [kept]
  cases removes agentId deploymentId pair <;> rfl

theorem sound_effect {call : Call} {response : Response call}
    (effect : system.effect call registry response next) (sound : registry.Sound) : next.Sound := by
  cases call with
  | upsert connection =>
    have result : (registry.upsert connection).2 = next := congrArg Prod.snd effect
    rw [← result]
    exact sound_upsert sound connection
  | close address =>
    cases effect
    exact ⟨sound.pairs, sound.distinct⟩
  | readFails address =>
    cases effect
    exact sound
  | require =>
    rcases effect with ⟨_, rfl⟩
    exact sound
  | send address =>
    cases effect
    exact sound
  | delete agentId deploymentId =>
    have result : (registry.delete agentId deploymentId).2 = next := congrArg Prod.snd effect
    rw [← result]
    constructor
    · intro entry member
      exact sound.pairs entry (List.mem_filter.mp member).1
    · exact sound.distinct.sublist ((List.filter_sublist ..).map Prod.fst)

def Connects (pair : Pair) (event : RegistryEvent) : Prop :=
  ∃ connection, event.call = .upsert connection ∧ connection.agentId ≠ [] ∧
    connection.named.pair = pair

def Requires (agentId deploymentId : Bytes) (event : RegistryEvent) : Prop :=
  event.call = .require agentId deploymentId

def target (registry : Registry) (agentId deploymentId : Bytes) (address : Nat) : Pair :=
  if deploymentId ≠ [] then (agentId, deploymentId)
  else
    match registry.connections[address]? with
    | some connection => connection.pair
    | none => (agentId, deploymentId)

abbrev roleOf (index : Nat) (events : List RegistryEvent) : Role :=
  SharedStore.known description .idle index events

/-- A read loop removes its registration while nobody has connected anew for the
pair since, and a relay removes one while nobody has connected for the pair
since it looked it up; without a deployment, no other one is registered. -/
def RemovesInTime (event : RegistryEvent) (earlier : List RegistryEvent) : Prop :=
  match event.call, roleOf event.thread earlier with
  | .delete _ _, .exited _ pair =>
    SharedStore.Undisturbed (Connects pair) (Connects pair) event.thread earlier
  | .delete _ _, .failed address agentId deploymentId =>
    let pair := event.before.target agentId deploymentId address
    SharedStore.Undisturbed (Requires agentId deploymentId) (Connects pair) event.thread
        earlier ∧
      (deploymentId = [] → ∀ entry ∈ event.before.ofAgent agentId, entry.1 = pair)
  | _, _ => True

/-! ## What is registered under a pair -/

theorem get_after {event : RegistryEvent} {pair : Pair}
    (effect : system.effect event.call event.before event.response event.after)
    (unconnected : ¬Connects pair event) : event.after.get pair = event.before.get pair ∨
      event.after.get pair = none ∧ ∃ agentId deploymentId,
        event.call = .delete agentId deploymentId ∧ removes agentId deploymentId pair := by
  rcases event with ⟨thread, call, response, before, after⟩
  cases call with
  | upsert connection =>
    have result : (before.upsert connection).2 = after := congrArg Prod.snd effect
    left
    rw [← result]
    by_cases named : connection.agentId = []
    · simp [upsert, named, get]
    · rw [get_upsert pair named, if_neg]
      intro same
      exact unconnected ⟨connection, rfl, named, same⟩
  | close address =>
    have result : before.close address = after := effect
    left
    rw [← result]
    rfl
  | readFails address => exact .inl (congrArg (fun registry => get registry pair) effect).symm
  | require =>
    exact .inl (congrArg (fun registry => get registry pair) effect.2).symm
  | send address => exact .inl (congrArg (fun registry => get registry pair) effect).symm
  | delete agentId deploymentId =>
    have result : (before.delete agentId deploymentId).2 = after := congrArg Prod.snd effect
    have removed := before.get_delete agentId deploymentId pair
    rw [result] at removed
    split at removed
    · next there => exact .inr ⟨removed, agentId, deploymentId, rfl, there⟩
    · exact .inl removed

def Own (registry : Registry) (pair : Pair) (address : Nat) : Prop :=
  ∀ other, registry.get pair = some other → other = address

theorem own_of_get (found : registry.get pair = some address) : registry.Own pair address := by
  intro other there
  rw [found] at there
  exact (Option.some.inj there).symm

theorem own_after (effect : system.effect event.call event.before event.response event.after)
    (unconnected : ¬Connects pair event) (own : event.before.Own pair address) :
    event.after.Own pair address := by
  intro other found
  rcases get_after effect unconnected with same | ⟨removed, _⟩
  · rw [same] at found
    exact own other found
  · rw [removed] at found
    cases found

theorem get_connect {registered : Nat × Option Nat} (named : connection.agentId ≠ [])
    (effect : system.effect (.upsert connection) registry registered next) :
    next.get connection.named.pair = some registered.1 := by
  have result : registry.upsert connection = (registered, next) := effect
  have address : registered.1 = registry.connections.length := by
    have first : (registry.upsert connection).1 = registered := congrArg Prod.fst result
    rw [← first]
    simp [upsert, named]
  have store : (registry.upsert connection).2 = next := congrArg Prod.snd result
  rw [← store, get_upsert _ named, if_pos rfl, address]

/-! ## Goroutines and their own connections -/

def Role.Serves (role : Role) (address : Nat) (pair : Pair) : Prop :=
  role = .serving address pair ∨ role = .exited address pair

def Registers (address : Nat) (pair : Pair) : (call : Call) → Response call → Prop
  | .upsert connection, registered =>
    connection.agentId ≠ [] ∧ connection.named.pair = pair ∧ registered.1 = address
  | _, _ => False

theorem serves_advance (allowed : role.Allows call)
    (serves : (role.advance call response).Serves address pair) :
    Registers address pair call response ∨
      role.Serves address pair ∧ ∀ connection, call ≠ .upsert connection := by
  cases call with
  | upsert connection =>
    left
    rcases serves with same | same
    · cases same
      exact ⟨allowed.2, rfl, rfl⟩
    · cases same
  | close other => exact .inr ⟨serves, nofun⟩
  | readFails other =>
    rcases allowed with ⟨others, rfl⟩
    right
    rcases serves with same | same
    · cases same
    · cases same
      exact ⟨.inl rfl, nofun⟩
  | require =>
    have idle : role = .idle := allowed
    rw [idle] at serves
    cases response with
    | none => rcases serves with same | same <;> cases same
    | some found => rcases serves with same | same <;> cases same
  | send other =>
    rcases allowed with ⟨agentId, deploymentId, rfl⟩
    cases response with
    | true => rcases serves with same | same <;> cases same
    | false => rcases serves with same | same <;> cases same
  | delete => rcases serves with same | same <;> cases same

/-- A goroutine that serves a connection finds no other under its pair. -/
def ServesOwn (pair : Pair) (role : Role) (registry : Registry) : Prop :=
  ∀ address, role.Serves address pair → registry.Own pair address

theorem servesOwn_advance (allowed : role.Allows event.call)
    (effect : system.effect event.call event.before event.response event.after)
    (before : Connects pair event ∨ ¬Connects pair event ∧ ServesOwn pair role event.before) :
    ServesOwn pair (role.advance event.call event.response) event.after := by
  intro address serves
  rcases event with ⟨thread, call, response, registry, next⟩
  rcases serves_advance allowed serves with registers | ⟨served, other⟩
  · cases call with
    | upsert connection =>
      rcases registers with ⟨named, rfl, rfl⟩
      exact own_of_get (get_connect named effect)
    | _ => cases registers
  · rcases before with ⟨connection, same, _⟩ | ⟨unconnected, before⟩
    · exact absurd same (other connection)
    · exact own_after effect unconnected (before address served)

theorem servesOwn_undisturbed (trace : SharedStore.Trace system description .idle {} events store)
    (undisturbed : SharedStore.Undisturbed (Connects pair) (Connects pair) thread events) :
    ServesOwn pair (roleOf thread events) store := by
  apply SharedStore.Trace.undisturbed system _ (fun _ => servesOwn_advance) _ trace undisturbed
  · intro address serves
    rcases serves with same | same <;> cases same
  · intro role event effect unconnected before address serves
    exact own_after effect unconnected (before address serves)

/-! ## Relays and the connections they found -/

def Role.Relays (role : Role) (address : Nat) (agentId deploymentId : Bytes) : Prop :=
  role = .found address agentId deploymentId ∨ role = .failed address agentId deploymentId

def Finds (address : Nat) (agentId deploymentId : Bytes) : (call : Call) → Response call → Prop
  | .require agent deployment, found =>
    agent = agentId ∧ deployment = deploymentId ∧ found = some address
  | _, _ => False

theorem relays_advance (allowed : role.Allows call)
    (relays : (role.advance call response).Relays address agentId deploymentId) :
    Finds address agentId deploymentId call response ∨ role.Relays address agentId deploymentId ∧
        ∀ agent deployment, call ≠ .require agent deployment := by
  cases call with
  | upsert connection => rcases relays with same | same <;> cases same
  | close other => exact .inr ⟨relays, nofun⟩
  | readFails other =>
    rcases allowed with ⟨others, rfl⟩
    rcases relays with same | same <;> cases same
  | require =>
    have idle : role = .idle := allowed
    rw [idle] at relays
    cases response with
    | none => rcases relays with same | same <;> cases same
    | some found =>
      rcases relays with same | same
      · cases same
        exact .inl ⟨rfl, rfl, rfl⟩
      · cases same
  | send other =>
    rcases allowed with ⟨agent, deployment, rfl⟩
    right
    cases response with
    | true => exact ⟨relays, nofun⟩
    | false =>
      rcases relays with same | same
      · cases same
      · cases same
        exact ⟨.inl rfl, nofun⟩
  | delete => rcases relays with same | same <;> cases same

theorem get_target (sound : registry.Sound)
    (found : registry.Selects agentId deploymentId (some address)) :
    registry.get (registry.target agentId deploymentId address) = some address := by
  rw [Selects] at found
  rw [target]
  split at found
  · next named =>
    rw [if_pos named]
    exact found.symm
  · next unnamed =>
    rw [if_neg unnamed]
    rcases found with ⟨entry, member, rfl, _⟩
    have registered := (List.mem_filter.mp member).1
    rcases sound.pairs entry registered with ⟨connection, there, pair⟩
    rw [there]
    simp only [pair]
    exact get_of_mem sound registered

theorem connections_effect {call : Call} {response : Response call}
    (effect : system.effect call registry response next) :
    registry.connections <+: next.connections := by
  cases call with
  | upsert connection =>
    have result : (registry.upsert connection).2 = next := congrArg Prod.snd effect
    rw [← result, upsert]
    split
    · exact List.prefix_append ..
    · exact List.prefix_append ..
  | close address =>
    have result : registry.close address = next := effect
    rw [← result]
    exact List.prefix_refl _
  | readFails address =>
    have result : registry = next := effect
    rw [result]
  | require => rw [effect.2]
  | send address =>
    have result : registry = next := effect
    rw [result]
  | delete agentId deploymentId =>
    have result : (registry.delete agentId deploymentId).2 = next := congrArg Prod.snd effect
    rw [← result]
    exact List.prefix_refl _

theorem target_effect {call : Call} {response : Response call}
    (effect : system.effect call registry response next)
    (made : address < registry.connections.length) :
    next.target agentId deploymentId address = registry.target agentId deploymentId address := by
  rcases connections_effect effect with ⟨added, longer⟩
  simp only [target]
  rw [← longer, List.getElem?_append_left made]

/-- A relay finds no other connection under the pair than the one it looked up,
when that is the pair meant. -/
def RelaysOwn (agentId deploymentId : Bytes) (pair : Pair) (role : Role)
    (registry : Registry) : Prop :=
  ∀ address, role.Relays address agentId deploymentId →
    address < registry.connections.length ∧
      (registry.target agentId deploymentId address = pair → registry.Own pair address)

theorem made_of_get {pair : Pair} (sound : registry.Sound)
    (found : registry.get pair = some address) : address < registry.connections.length := by
  rcases sound.pairs _ (mem_of_get found) with ⟨connection, there, _⟩
  exact (List.getElem?_eq_some_iff.mp there).1

theorem relaysOwn_after (effect : system.effect event.call event.before event.response event.after)
    (unconnected : ¬Connects pair event)
    (before : RelaysOwn agentId deploymentId pair role event.before) :
    RelaysOwn agentId deploymentId pair role event.after := by
  intro address relays
  rcases before address relays with ⟨made, own⟩
  constructor
  · exact Nat.lt_of_lt_of_le made (connections_effect effect).length_le
  · intro meant
    rw [target_effect effect made] at meant
    exact own_after effect unconnected (own meant)

theorem relaysOwn_advance (allowed : role.Allows event.call)
    (effect : system.effect event.call event.before event.response event.after)
    (sound : event.before.Sound) (before : Requires agentId deploymentId event ∨
      ¬Connects pair event ∧ RelaysOwn agentId deploymentId pair role event.before) :
    RelaysOwn agentId deploymentId pair (role.advance event.call event.response) event.after := by
  intro address relays
  rcases relays_advance allowed relays with finds | ⟨relayed, other⟩
  · rcases event with ⟨thread, call, response, registry, next⟩
    cases call with
    | require =>
      rcases finds with ⟨rfl, rfl, rfl⟩
      rcases effect with ⟨selected, same⟩
      have found := get_target sound selected
      have result : registry = next := same
      rw [← result]
      refine ⟨made_of_get sound found, ?_⟩
      intro meant
      rw [meant] at found
      exact own_of_get found
    | _ => cases finds
  · rcases before with required | ⟨unconnected, before⟩
    · exact absurd required (other agentId deploymentId)
    · exact relaysOwn_after effect unconnected before address relayed

theorem sound_trace {events : List RegistryEvent}
    (trace : SharedStore.Trace system description .idle {} events store) : store.Sound := by
  induction trace with
  | nil =>
    constructor
    · intro entry member
      cases member
    · exact List.nodup_nil
  | cons earlier allowed effect induction => exact sound_effect effect induction

theorem relaysOwn_undisturbed (trace : SharedStore.Trace system description .idle {} events store)
    (undisturbed : SharedStore.Undisturbed (Requires agentId deploymentId) (Connects pair) thread
      events) : RelaysOwn agentId deploymentId pair (roleOf thread events) store := by
  have restricted : SharedStore.Trace (system.restrict fun _ registry _ => registry.Sound)
      description .idle {} events store := by
    apply SharedStore.Trace.restrict system trace
    intro event member
    rcases trace.of_mem system member with ⟨earlier, upTo, _⟩
    exact sound_trace upTo
  apply SharedStore.Trace.undisturbed _ _ _ _ restricted undisturbed
  · intro address relays
    rcases relays with same | same <;> cases same
  · intro role event _ allowed effect before
    exact relaysOwn_advance allowed effect.1 effect.2 before
  · intro role event effect unconnected before
    exact relaysOwn_after effect.1 unconnected before

/-! ## Removals -/

/-- A removal in time removes only the connection that the goroutine has seen
fail. -/
theorem removed_own {response : List Nat}
    (trace : SharedStore.Trace system description .idle {} events store)
    (allowed : (roleOf thread events).Allows (.delete agentId deploymentId))
    (inTime : RemovesInTime ⟨thread, .delete agentId deploymentId, response, store, next⟩ events)
    (registered : store.get pair = some address) (removed : removes agentId deploymentId pair) :
    (∃ pair, roleOf thread events = .exited address pair) ∨
      ∃ agentId deploymentId, roleOf thread events = .failed address agentId deploymentId := by
  rcases allowed with ⟨named, served, exited⟩ | ⟨found, failed⟩
  · left
    simp only [RemovesInTime, exited] at inTime
    have meant : pair = (agentId, deploymentId) := by
      simpa [removes, named] using removed
    have own := servesOwn_undisturbed trace inTime served (.inr exited)
    rw [meant] at registered
    rw [own address registered]
    exact ⟨_, exited⟩
  · right
    simp only [RemovesInTime, failed] at inTime
    have own := (relaysOwn_undisturbed trace inTime.1 found (.inr failed)).2 rfl
    have meant : pair = store.target agentId deploymentId found := by
      rw [removes] at removed
      split at removed
      · next unnamed =>
        apply inTime.2 unnamed (pair, address)
        exact List.mem_filter.mpr ⟨mem_of_get registered, removed⟩
      · next named =>
        rw [target, if_pos named]
        exact of_decide_eq_true removed
    rw [meant] at registered
    rw [own address registered]
    exact ⟨_, _, failed⟩

def Exits (address : Nat) (event : RegistryEvent) : Prop :=
  event.call = .readFails address

def FailsSend (address : Nat) : RegistryEvent → Prop
  | ⟨_, .send target, sent, _, _⟩ => target = address ∧ sent = false
  | _ => False

instance (address : Nat) : DecidablePred (Exits address) := fun event =>
  inferInstanceAs (Decidable (event.call = .readFails address))

instance (address : Nat) : DecidablePred (FailsSend address)
  | ⟨_, .send target, sent, _, _⟩ =>
    @instDecidableAnd (target = address) (sent = false) inferInstance
      (instDecidableEqBool sent false)
  | ⟨_, .upsert _, _, _, _⟩ | ⟨_, .close _, _, _, _⟩ | ⟨_, .readFails _, _, _, _⟩
  | ⟨_, .require .., _, _, _⟩ | ⟨_, .delete .., _, _, _⟩ => inferInstanceAs (Decidable False)

def Witnessed (own : List RegistryEvent) (role : Role) : Prop :=
  (∀ address pair, role = .exited address pair → ∃ event ∈ own, Exits address event) ∧
    ∀ address agentId deploymentId, role = .failed address agentId deploymentId →
      ∃ event ∈ own, FailsSend address event

theorem witnessed_advance {own : List RegistryEvent} (witnessed : Witnessed own role)
    (allowed : role.Allows event.call) :
    Witnessed (event :: own) (role.advance event.call event.response) := by
  rcases event with ⟨thread, call, response, before, after⟩
  have older : Witnessed (⟨thread, call, response, before, after⟩ :: own) role := by
    constructor
    · intro address pair same
      rcases witnessed.1 address pair same with ⟨event, member, exits⟩
      exact ⟨event, List.mem_cons_of_mem _ member, exits⟩
    · intro address agentId deploymentId same
      rcases witnessed.2 address agentId deploymentId same with ⟨event, member, fails⟩
      exact ⟨event, List.mem_cons_of_mem _ member, fails⟩
  cases call with
  | upsert connection => exact ⟨nofun, nofun⟩
  | close address => exact older
  | readFails address =>
    rcases allowed with ⟨pair, rfl⟩
    refine ⟨?_, nofun⟩
    intro other others same
    cases same
    exact ⟨_, List.mem_cons_self .., rfl⟩
  | require =>
    cases response with
    | none => exact older
    | some found => exact ⟨nofun, nofun⟩
  | send address =>
    rcases allowed with ⟨agentId, deploymentId, rfl⟩
    cases response with
    | true => exact older
    | false =>
      refine ⟨nofun, ?_⟩
      intro other agent deployment same
      cases same
      exact ⟨_, List.mem_cons_self .., rfl, rfl⟩
  | delete => exact ⟨nofun, nofun⟩

theorem witnessed_idle : Witnessed [] .idle := by
  constructor
  · intro address pair same
    cases same
  · intro address agentId deploymentId same
    cases same

theorem witnessed_trace {store : Registry}
    (trace : SharedStore.Trace system description .idle {} events store) (thread : Nat) :
    Witnessed (SharedStore.eventsOf thread events) (roleOf thread events) :=
  SharedStore.Trace.own system Witnessed witnessed_idle witnessed_advance trace thread

/-- A registration that the event removes is one of a connection whose failure
the goroutine has seen. -/
def RemovesFailed (event : RegistryEvent) (earlier : List RegistryEvent) : Prop :=
  ∀ pair address, event.before.get pair = some address → event.after.get pair = none →
    ∃ own ∈ earlier, own.thread = event.thread ∧ (Exits address own ∨ FailsSend address own)

theorem removesFailed_of_inTime (trace : SharedStore.Trace system description .idle {} events store)
    (allowed : (roleOf thread events).Allows call) (effect : system.effect call store response next)
    (inTime : RemovesInTime ⟨thread, call, response, store, next⟩ events) :
    RemovesFailed ⟨thread, call, response, store, next⟩ events := by
  intro pair address registered gone
  have unconnected : ¬Connects pair ⟨thread, call, response, store, next⟩ := by
    rintro ⟨connection, same, named, rfl⟩
    cases same
    rw [get_connect named effect] at gone
    cases gone
  rcases @get_after ⟨thread, call, response, store, next⟩ pair effect unconnected with
    same | ⟨_, agentId, deploymentId, rfl, removed⟩
  · rw [same, registered] at gone
    cases gone
  · have witnessed := witnessed_trace trace thread
    rcases removed_own trace allowed inTime registered removed with
      ⟨served, exited⟩ | ⟨agent, deployment, failed⟩
    · rcases witnessed.1 address served exited with ⟨event, member, exits⟩
      have own := SharedStore.mem_eventsOf.mp member
      exact ⟨event, own.1, own.2, .inl exits⟩
    · rcases witnessed.2 address agent deployment failed with ⟨event, member, fails⟩
      have own := SharedStore.mem_eventsOf.mp member
      exact ⟨event, own.1, own.2, .inr fails⟩

theorem removesFailed_throughout {store : Registry}
    (trace : SharedStore.Trace system description .idle {} events store)
    (inTime : Throughout RemovesInTime events) : Throughout RemovesFailed events := by
  induction trace with
  | nil => trivial
  | cons earlier allowed effect induction =>
    exact ⟨removesFailed_of_inTime earlier allowed effect inTime.1, induction inTime.2⟩

def latestConnect (pair : Pair) : List RegistryEvent → Option Nat
  | [] => none
  | ⟨_, .upsert connection, registered, _, _⟩ :: earlier =>
    if connection.agentId ≠ [] ∧ connection.named.pair = pair then some registered.1
    else latestConnect pair earlier
  | _ :: earlier => latestConnect pair earlier

theorem latestConnect_cons {earlier : List RegistryEvent} (unconnected : ¬Connects pair event) :
    latestConnect pair (event :: earlier) = latestConnect pair earlier := by
  rcases event with ⟨thread, call, response, before, after⟩
  cases call with
  | upsert connection =>
    rw [latestConnect, if_neg]
    rintro ⟨named, same⟩
    exact unconnected ⟨connection, rfl, named, same⟩
  | _ => rfl

theorem get_latestConnect (trace : SharedStore.Trace system description .idle {} events store)
    (removals : Throughout RemovesFailed events) (latest : latestConnect pair events = some address)
    (live : ∀ event ∈ events, ¬Exits address event ∧ ¬FailsSend address event) :
    store.get pair = some address := by
  induction trace with
  | nil => cases latest
  | @cons events store next thread call response earlier allowed effect induction =>
    by_cases connects : Connects pair ⟨thread, call, response, store, next⟩
    · rcases connects with ⟨connection, same, named, rfl⟩
      cases same
      rw [latestConnect, if_pos ⟨named, rfl⟩] at latest
      rw [get_connect named effect]
      exact latest
    · rw [latestConnect_cons connects] at latest
      rw [List.forall_mem_cons] at live
      have registered := induction removals.2 latest live.2
      rcases @get_after ⟨thread, call, response, store, next⟩ pair effect connects with
        same | ⟨gone, _⟩
      · rw [← registered]
        exact same
      · rcases removals.1 pair address registered gone with ⟨own, member, _, exits | fails⟩
        · exact absurd exits (live.2 own member).1
        · exact absurd fails (live.2 own member).2

/-- In a run whose removals are in time, a registration is removed only by those
who saw its connection fail, and the latest connection of a pair is registered
until then. -/
theorem registry_keeps_live {events : List RegistryEvent}
    {state : SystemState Registry Operation Call Response}
    (run : system.Run { store := {} } events state)
    (inTime : Throughout RemovesInTime events) :
    Throughout RemovesFailed events ∧
      ∀ pair address, latestConnect pair events = some address →
        (∀ event ∈ events, ¬Exits address event ∧ ¬FailsSend address event) →
          state.store.get pair = some address := by
  have trace := SharedStore.Run.trace system program_follows run
  have removals := removesFailed_throughout trace inTime
  exact ⟨removals, fun pair address latest live => get_latestConnect trace removals latest live⟩

/-! ## An agent that reconnects -/

def samplePair : Pair := (ascii "a1", ascii "d1")

/-- The agent connects; then `rest`. -/
def sampleRun (rest : List (SharedStore.Move Operation Bool)) :
    List RegistryEvent × SystemState Registry Operation Call Response :=
  (.start (.connect samplePair.1 samplePair.2 1) :: .advance 0 true :: rest).foldl
    (system.record answer) ([], { store := {} })

theorem run_sampleRun (rest : List (SharedStore.Move Operation Bool)) :
    system.Run { store := {} } (sampleRun rest).1 (sampleRun rest).2 :=
  SharedStore.run_records system effect_answer .refl _

/-- The agent connects anew, which closes its first connection, whose read loop
ends and removes the second one. -/
theorem reconnected_agent_removed :
    ¬∀ (events : List RegistryEvent) (state : SystemState Registry Operation Call Response),
      system.Run { store := {} } events state →
        Throughout RemovesFailed events ∧
          ∀ pair address, latestConnect pair events = some address →
            (∀ event ∈ events, ¬Exits address event ∧ ¬FailsSend address event) →
              state.store.get pair = some address := by
  intro keeps
  have run := run_sampleRun [.start (.connect samplePair.1 samplePair.2 2), .advance 1 true,
    .advance 1 true, .advance 0 true, .advance 0 true, .advance 0 true]
  have registered := (keeps _ _ run).2 samplePair 1 (by decide) (by decide)
  exact absurd registered (by decide)

/-- The read loop of the first connection ends before the agent connects anew. -/
theorem registry_keeps_live_sample :
    (sampleRun [.advance 0 true, .advance 0 true, .advance 0 true,
      .start (.connect samplePair.1 samplePair.2 2), .advance 1 true]).2.store.get samplePair =
        some 1 := by
  apply (registry_keeps_live (run_sampleRun _) _).2
  · decide
  · decide
  · refine ⟨trivial, ?_, trivial, trivial, trivial, trivial⟩
    exact .inr ⟨nofun, .inr ⟨nofun, .inl ⟨rfl, _, rfl, by decide, by decide⟩⟩⟩

end AgentC.Broker.Registry
