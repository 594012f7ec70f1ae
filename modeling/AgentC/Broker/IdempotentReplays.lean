import AgentC.Broker.Idempotency

/-! # Replays and requests in progress

A key is completed and deleted by name, and the broker may find a row expired
that the database does not. As long as neither hits the row of another request,
a replay is of the same request, and one request is in progress for a key. -/

namespace AgentC.Broker.Idempotency

/-! ## What a request has done -/

inductive Role
  | idle
  | claimed (request : RelayRequest) (expiresAt : Int)
  | relayed (request : RelayRequest) (expiresAt : Int) (outcome : RelayOutcome)
  | ended
deriving DecidableEq, Repr

def Role.advance (role : Role) : (call : Call) → Response call → Role
  | .claim request expiresAt, some .created => .claimed request expiresAt
  | .relay _, outcome =>
    match role with
    | .claimed request expiresAt => .relayed request expiresAt outcome
    | _ => role
  | .complete .., true => .ended
  | .delete .., true => .ended
  | _, _ => role

def Role.Allows (role : Role) : Call → Prop
  | .claim .. => role = .idle
  | .relay request => role = .idle ∨ ∃ expiresAt, role = .claimed request expiresAt
  | .complete userSub key status headers body =>
    ∃ request expiresAt outcome, role = .relayed request expiresAt outcome ∧
      userSub = request.userSub ∧ key = request.idemKey ∧ status = outcome.agentStatus ∧
        headers = respHeaders request outcome ∧ body = outcome.body
  | .delete userSub key =>
    ∃ request expiresAt outcome, role = .relayed request expiresAt outcome ∧
      userSub = request.userSub ∧ key = request.idemKey
  | .now | .reply _ => True

def description : Description Role Call Response where
  advance := Role.advance
  allowed := Role.Allows

variable {config : Config}

variable {request : RelayRequest} {role : Role} {name : Name} {rows : Rows} {store next : Store}
variable {call : Call} {event : RelayEvent} {earlier : List RelayEvent} {userSub key : Bytes}
variable {row : IdempotencyRecord} {events : List RelayEvent} {thread : Nat}
variable {response : Response call}

theorem forward_follows
    (starts : role = .idle ∧ request.idemKey = [] ∨
      ∃ expiresAt, role = .claimed request expiresAt) :
    (forward config request).Follows description (fun _ _ => True) role := by
  have allowed : role.Allows (.relay request) := starts.imp And.left id
  refine Program.follows_call allowed fun outcome => ?_
  have replies : ∀ {role reply}, (Program.request (Call.reply reply) >>= fun _ =>
      (pure () : RelayProgram Unit)).Follows description (fun _ _ => True) role := by
    intro role reply
    exact Program.follows_call trivial fun _ => trivial
  rcases starts with ⟨rfl, unkeyed⟩ | ⟨expiresAt, rfl⟩
  · rw [unkeyed]
    apply Program.follows_ite
    · intro _
      exact replies
    · intro _
      exact replies
  · have settles : ∀ {call : Call}, Role.Allows (.relayed request expiresAt outcome) call →
        (Program.request call >>= fun _ => (pure () : RelayProgram Unit)).Follows description
          (fun _ _ => True) (.relayed request expiresAt outcome) := by
      intro call allowed
      exact Program.follows_call allowed fun _ => trivial
    apply Program.follows_ite
    · intro _
      apply Program.follows_ite
      · intro _
        exact Program.follows_call ⟨request, expiresAt, outcome, rfl, rfl, rfl⟩
          fun _ => replies
      · intro _
        exact replies
    · intro _
      refine Program.follows_call trivial fun _ => ?_
      apply Program.follows_ite
      · exact fun _ => trivial
      · intro _
        apply Program.follows_ite
        · intro _
          exact settles ⟨request, expiresAt, outcome, rfl, rfl, rfl, rfl, rfl, rfl⟩
        · intro _
          exact settles ⟨request, expiresAt, outcome, rfl, rfl, rfl⟩

theorem program_follows (config : Config) (request : RelayRequest) :
    (relayAuthorizedAgentHTTP config request).Follows description (fun _ _ => True) .idle := by
  apply Program.follows_ite
  · intro unkeyed
    exact forward_follows (.inl ⟨rfl, unkeyed⟩)
  · intro _
    refine Program.follows_call trivial fun now => ?_
    refine Program.follows_call rfl fun result => ?_
    rcases result with _ | result
    · exact Program.follows_call trivial fun _ => trivial
    · cases result with
      | created => exact forward_follows (.inr ⟨_, rfl⟩)
      | replay record => exact Program.follows_call trivial fun _ => trivial
      | inProgress => exact Program.follows_call trivial fun _ => trivial
      | conflict => exact Program.follows_call trivial fun _ => trivial

abbrev roleOf (thread : Nat) (events : List RelayEvent) : Role :=
  SharedStore.known description .idle thread events

/-! ## Requests in progress -/

def Role.Holds (role : Role) (request : RelayRequest) (expiresAt : Int) : Prop :=
  role = .claimed request expiresAt ∨ ∃ outcome, role = .relayed request expiresAt outcome

/-- The request was told that it created the key, has neither completed nor
deleted it, and by neither clock is it past its expiry. -/
def InProgress (name : Name) (thread : Nat) (events : List RelayEvent) (store : Store) : Prop :=
  ∃ request expiresAt, (roleOf thread events).Holds request expiresAt ∧ request.name = name ∧
    store.database ≤ expiresAt ∧ store.broker ≤ expiresAt

/-- The thread that was told last that it created the key. -/
def claimant (name : Name) : List RelayEvent → Option Nat
  | [] => none
  | ⟨thread, .claim request _, some .created, _, _⟩ :: earlier =>
    if request.name = name then some thread else claimant name earlier
  | _ :: earlier => claimant name earlier

def Relays (request : RelayRequest) (outcome : RelayOutcome) : RelayEvent → Prop
  | ⟨_, .relay relayed, response, _, _⟩ => relayed = request ∧ response = outcome
  | _ => False

def IdempotencyRecord.Returns (config : Config) (record : IdempotencyRecord)
    (request : RelayRequest) (outcome : RelayOutcome) : Prop :=
  record.responseStatus = outcome.agentStatus ∧
    record.responseHeaders = config.storedHeaders (respHeaders request outcome) ∧
      record.responseBody = outcome.body

def Answered (config : Config) (name : Name) (hash : Bytes) (record : IdempotencyRecord)
    (earlier : List RelayEvent) : Prop :=
  ∃ request outcome, (∃ event ∈ earlier, Relays request outcome event) ∧ request.name = name ∧
    config.hash request = hash ∧ record.Returns config request outcome

/-- A replay is of a request with the same hash. -/
def ReplaysSame (config : Config) (event : RelayEvent) (earlier : List RelayEvent) : Prop :=
  match event with
  | ⟨_, .claim request _, some (.replay record), _, _⟩ =>
    Answered config request.name (config.hash request) record earlier
  | _ => True

/-- The broker finds no row expired that the database keeps; a completion finds
a row of its own request hash, and a deletion one that its own claim made. -/
def HitsOwn (config : Config) (event : RelayEvent) (earlier : List RelayEvent) : Prop :=
  match event.call, roleOf event.thread earlier with
  | .claim request _, _ =>
    ∀ row, event.before.rows request.name = some row →
      event.after.database ≤ row.expiresAt → event.after.broker ≤ row.expiresAt
  | .complete .., .relayed request _ _ =>
    ∀ row, event.before.rows request.name = some row → row.requestSha256 = config.hash request
  | .delete .., .relayed request _ _ =>
    event.before.rows request.name = none ∨ claimant request.name earlier = some event.thread
  | _, _ => True

theorem deleteExpired_of_kept {database : Int}
    (kept : ∀ row, rows name = some row → database ≤ row.expiresAt) :
    deleteExpired database name rows = rows := by
  rw [deleteExpired]
  have same : ((rows name).filter fun row => ¬row.expiresAt < database) = rows name := by
    cases found : rows name with
    | none => rfl
    | some row =>
      have bound := kept row found
      simp only [Option.filter]
      rw [if_pos]
      simpa using bound
  rw [same]
  exact Function.update_eq_self name rows

def Untouched (config : Config) (request : RelayRequest) (rows : Rows)
    (answer : Except Bytes IdempotencyResult) : Prop :=
  answer ≠ .ok .created ∧ ∀ record, answer = .ok (.replay record) →
    rows request.name = some record ∧ record.completed = true ∧
      record.requestSha256 = config.hash request

theorem claim_cases {request : RelayRequest} {expiresAt database broker : Int} {rows : Rows}
    (agrees : ∀ row, rows request.name = some row → database ≤ row.expiresAt →
      broker ≤ row.expiresAt) :
    let claimed := claimIdempotency database broker (config.claim request expiresAt) rows
    Untouched config request rows claimed.1 ∧ claimed.2 = rows ∨
      claimed.1 = .ok .created ∧
        claimed.2 = Function.update rows request.name
          (some ((config.claim request expiresAt).record database broker)) ∧
        ∀ row, rows request.name = some row → row.expiresAt < database := by
  intro claimed
  have name : nameOf (config.claim request expiresAt).userSub
    (config.claim request expiresAt).key = request.name := rfl
  by_cases kept : ∃ row, rows request.name = some row ∧ database ≤ row.expiresAt
  · left
    rcases kept with ⟨row, found, bound⟩
    have same : deleteExpired database request.name rows = rows := by
      apply deleteExpired_of_kept
      intro other there
      rw [found] at there
      cases there
      exact bound
    have unexpired : ¬row.expiresAt < broker := not_lt.mpr (agrees row found bound)
    simp only [claimed, claimIdempotency, name, same, found, unexpired, if_false]
    split
    · exact ⟨⟨nofun, nofun⟩, rfl⟩
    split
    · exact ⟨⟨nofun, nofun⟩, rfl⟩
    split
    · exact ⟨⟨nofun, nofun⟩, rfl⟩
    next hash =>
      split
      · next completed =>
        refine ⟨⟨nofun, ?_⟩, rfl⟩
        intro record replayed
        cases replayed
        exact ⟨found, completed, not_not.mp hash⟩
      · exact ⟨⟨nofun, nofun⟩, rfl⟩
  · have expired : ∀ row, rows request.name = some row → row.expiresAt < database := by
      intro row found
      exact not_le.mp fun bound => kept ⟨row, found, bound⟩
    have gone : deleteExpired database request.name rows request.name = none := by
      rw [deleteExpired, Function.update_self]
      cases found : rows request.name with
      | none => rfl
      | some row =>
        simp only [Option.filter]
        rw [if_neg]
        simpa using expired row found
    simp only [claimed, claimIdempotency, name, gone]
    split
    · exact .inl ⟨⟨nofun, nofun⟩, rfl⟩
    split
    · exact .inl ⟨⟨nofun, nofun⟩, rfl⟩
    refine .inr ⟨rfl, ?_, expired⟩
    rw [deleteExpired, Function.update_idem]

theorem claim_effect {expiresAt : Int} {response : Option IdempotencyResult}
    (effect : (system config).effect (.claim request expiresAt) store response next)
    (agrees : ∀ row, store.rows request.name = some row → next.database ≤ row.expiresAt →
      next.broker ≤ row.expiresAt) : (next.rows = store.rows ∧ response ≠ some .created ∧
        ∀ record, response = some (.replay record) → store.rows request.name = some record ∧
          record.completed = true ∧ record.requestSha256 = config.hash request) ∨
      next.rows = Function.update store.rows request.name
          (some ((config.claim request expiresAt).record next.database next.broker)) ∧
        (response = none ∨ response = some .created) ∧
        ∀ row, store.rows request.name = some row → row.expiresAt < next.database := by
  rcases effect with ⟨_, _, ⟨failed, rows⟩ | ⟨result, answered, responded, rows⟩⟩
  · rcases rows with same | committed
    · left
      refine ⟨same, ?_, ?_⟩
      · rw [failed]
        exact nofun
      · rw [failed]
        exact nofun
    · rcases @claim_cases config request expiresAt _ _ _ agrees with
        ⟨_, same⟩ | ⟨_, inserted, expired⟩
      · left
        refine ⟨committed.trans same, ?_, ?_⟩
        · rw [failed]
          exact nofun
        · rw [failed]
          exact nofun
      · exact .inr ⟨committed.trans inserted, .inl failed, expired⟩
  · rcases @claim_cases config request expiresAt _ _ _ agrees with
      ⟨⟨uncreated, replays⟩, same⟩ | ⟨created, inserted, expired⟩
    · left
      refine ⟨rows.trans same, ?_, ?_⟩
      · intro created
        rw [responded] at created
        cases created
        exact uncreated answered
      · intro record replayed
        rw [responded] at replayed
        cases replayed
        exact replays record answered
    · right
      rw [answered] at created
      cases created
      exact ⟨rows.trans inserted, .inr responded, expired⟩

/-! ## Roles -/

def Creates (request : RelayRequest) (expiresAt : Int) : (call : Call) → Response call → Prop
  | .claim claimed expiry, result =>
    claimed = request ∧ expiry = expiresAt ∧ result = some .created
  | _, _ => False

def Settles : (call : Call) → Response call → Prop
  | .complete .., applied => applied = true
  | .delete .., applied => applied = true
  | _, _ => False

theorem holds_advance {expiresAt : Int} (allowed : role.Allows call)
    (holds : (role.advance call response).Holds request expiresAt) :
    Creates request expiresAt call response ∨
      role.Holds request expiresAt ∧ ¬Settles call response := by
  cases call with
  | now => exact .inr ⟨holds, id⟩
  | reply reply => exact .inr ⟨holds, id⟩
  | claim =>
    have idle : role = .idle := allowed
    rw [idle] at holds
    rcases response with _ | result
    · rcases holds with same | ⟨outcome, same⟩ <;> cases same
    · cases result with
      | created =>
        rcases holds with same | ⟨outcome, same⟩
        · cases same
          exact .inl ⟨rfl, rfl, rfl⟩
        · cases same
      | _ => rcases holds with same | ⟨outcome, same⟩ <;> cases same
  | relay relayed =>
    right
    refine ⟨?_, id⟩
    rcases allowed with rfl | ⟨expiry, rfl⟩
    · exact holds
    · rcases holds with same | ⟨outcome, same⟩
      · cases same
      · cases same
        exact .inl rfl
  | complete =>
    right
    cases response with
    | true => rcases holds with same | ⟨outcome, same⟩ <;> cases same
    | false => exact ⟨holds, nofun⟩
  | delete =>
    right
    cases response with
    | true => rcases holds with same | ⟨outcome, same⟩ <;> cases same
    | false => exact ⟨holds, nofun⟩

theorem claimant_cons
    (unclaimed : ∀ request expiresAt, Creates request expiresAt event.call event.response →
      request.name ≠ name) : claimant name (event :: earlier) = claimant name earlier := by
  rcases event with ⟨thread, call, response, before, after⟩
  cases call with
  | claim request expiresAt =>
    rcases response with _ | result
    · rfl
    · cases result with
      | created =>
        rw [claimant, if_neg]
        exact unclaimed request expiresAt ⟨rfl, rfl, rfl⟩
      | _ => rfl
  | _ => rfl

def HasRelayed (own : List RelayEvent) (role : Role) : Prop :=
  ∀ request expiresAt outcome, role = .relayed request expiresAt outcome →
    ∃ event ∈ own, Relays request outcome event

theorem hasRelayed_advance {own : List RelayEvent} (relayed : HasRelayed own role)
    (allowed : role.Allows event.call) :
    HasRelayed (event :: own) (role.advance event.call event.response) := by
  rcases event with ⟨thread, call, response, before, after⟩
  have older : HasRelayed (⟨thread, call, response, before, after⟩ :: own) role := by
    intro request expiresAt outcome same
    rcases relayed request expiresAt outcome same with ⟨event, member, relays⟩
    exact ⟨event, List.mem_cons_of_mem _ member, relays⟩
  cases call with
  | now => exact older
  | reply reply => exact older
  | claim =>
    rcases response with _ | result
    · exact older
    · cases result with
      | created => exact nofun
      | _ => exact older
  | relay request =>
    rcases allowed with rfl | ⟨expiry, rfl⟩
    · exact older
    · intro relayed expiresAt outcome same
      cases same
      exact ⟨_, List.mem_cons_self .., rfl, rfl⟩
  | complete =>
    cases response with
    | true => exact nofun
    | false => exact older
  | delete =>
    cases response with
    | true => exact nofun
    | false => exact older

/-! ## Rows of requests in progress -/

theorem clocks_effect {call : Call} {response : Response call}
    (effect : (system config).effect call store response next) :
    store.database ≤ next.database ∧ store.broker ≤ next.broker := by
  have committed : ∀ applied rows, store.database ≤ (store.commit applied rows).database ∧
      store.broker ≤ (store.commit applied rows).broker := by
    intro applied rows
    cases applied <;> exact ⟨le_refl _, le_refl _⟩
  cases call with
  | now =>
    rcases effect with ⟨later, rfl⟩
    exact ⟨le_refl _, later⟩
  | claim => exact ⟨effect.1, effect.2.1⟩
  | relay request =>
    have same : next = store := effect
    rw [same]
    exact ⟨le_refl _, le_refl _⟩
  | complete =>
    have result : next = store.commit _ _ := effect
    rw [result]
    exact committed _ _
  | delete =>
    have result : next = store.commit _ _ := effect
    rw [result]
    exact committed _ _
  | reply reply =>
    have same : next = store := effect
    rw [same]
    exact ⟨le_refl _, le_refl _⟩

variable {storedHeaders : Headers → Headers} {record : IdempotencyRecord}

theorem completeIdempotency_row {status : Int} {headers : Headers} {body : Bytes}
    (found : rows name = some row) :
    ∃ completed, completeIdempotency storedHeaders userSub key status headers body rows name =
      some completed ∧ completed.expiresAt = row.expiresAt := by
  rw [completeIdempotency]
  split
  · exact ⟨row, found, rfl⟩
  · by_cases same : name = nameOf userSub key
    · rw [same] at found
      rw [same, Function.update_self, found]
      exact ⟨_, rfl, rfl⟩
    · rw [Function.update_of_ne same]
      exact ⟨row, found, rfl⟩

theorem deleteIdempotency_row (other : nameOf userSub key ≠ name) :
    deleteIdempotency userSub key rows name = rows name := by
  rw [deleteIdempotency]
  split
  · rfl
  · exact Function.update_of_ne (Ne.symm other) _ _

/-- A request in progress was the last to create its key, and its row is there. -/
def Owned (events : List RelayEvent) (store : Store) : Prop :=
  ∀ thread request expiresAt, (roleOf thread events).Holds request expiresAt →
    store.database ≤ expiresAt → store.broker ≤ expiresAt →
      claimant request.name events = some thread ∧
        ∃ row, store.rows request.name = some row ∧ row.expiresAt = expiresAt

theorem owned_kept {other : Nat} (allowed : (roleOf thread events).Allows call)
    (effect : (system config).effect call store response next)
    (hits : HitsOwn config ⟨thread, call, response, store, next⟩ events)
    (unsettled : thread = other → ¬Settles call response)
    (claims : claimant request.name events = some other)
    (found : store.rows request.name = some row) (unexpired : next.database ≤ row.expiresAt) :
    claimant request.name (⟨thread, call, response, store, next⟩ :: events) = some other ∧
      ∃ kept, next.rows request.name = some kept ∧ kept.expiresAt = row.expiresAt := by
  cases call with
  | now =>
    rcases effect with ⟨_, rfl⟩
    exact ⟨claims, row, found, rfl⟩
  | relay relayed =>
    have same : next = store := effect
    rw [same]
    exact ⟨claims, row, found, rfl⟩
  | reply reply =>
    have same : next = store := effect
    rw [same]
    exact ⟨claims, row, found, rfl⟩
  | claim claimed expiry =>
    rcases claim_effect effect hits with ⟨same, uncreated, _⟩ | ⟨inserted, _, expired⟩
    · refine ⟨(claimant_cons ?_).trans claims, row, ?_, rfl⟩
      · rintro creating expiresAt ⟨_, _, created⟩
        exact absurd created uncreated
      · rw [same]
        exact found
    · have different : claimed.name ≠ request.name := by
        intro same
        have passed := expired row (same ▸ found)
        omega
      refine ⟨(claimant_cons ?_).trans claims, row, ?_, rfl⟩
      · rintro creating expiresAt ⟨rfl, _⟩
        exact different
      · rw [inserted, Function.update_of_ne (Ne.symm different)]
        exact found
  | complete =>
    have result : next = store.commit response _ := effect
    refine ⟨claims, ?_⟩
    rw [result]
    cases response with
    | true => exact completeIdempotency_row found
    | false => exact ⟨row, found, rfl⟩
  | delete =>
    have result : next = store.commit response _ := effect
    refine ⟨claims, ?_⟩
    rw [result]
    cases response with
    | false => exact ⟨row, found, rfl⟩
    | true =>
      rcases allowed with ⟨relayed, expiresAt, outcome, role, rfl, rfl⟩
      simp only [HitsOwn, role] at hits
      have different : relayed.name ≠ request.name := by
        intro same
        rw [same, found] at hits
        rcases hits with none | claimed
        · cases none
        · rw [claims] at claimed
          exact unsettled (Option.some.inj claimed).symm rfl
      exact ⟨row, (deleteIdempotency_row different).trans found, rfl⟩

theorem owned_step (allowed : (roleOf thread events).Allows call)
    (effect : (system config).effect call store response next)
    (hits : HitsOwn config ⟨thread, call, response, store, next⟩ events)
    (owned : Owned events store) :
    Owned (⟨thread, call, response, store, next⟩ :: events) next := by
  intro other request expiresAt holds database broker
  have held : thread = other ∧ Creates request expiresAt call response ∨
      (roleOf other events).Holds request expiresAt ∧
        (thread = other → ¬Settles call response) := by
    rw [roleOf, SharedStore.known] at holds
    split at holds
    · next same =>
      have same : thread = other := same
      subst same
      rcases holds_advance allowed holds with creates | ⟨held, unsettled⟩
      · exact .inl ⟨rfl, creates⟩
      · exact .inr ⟨held, fun _ => unsettled⟩
    · next different => exact .inr ⟨holds, fun same => absurd same different⟩
  rcases held with ⟨rfl, creates⟩ | ⟨held, unsettled⟩
  · cases call with
    | claim claimed expiry =>
      rcases creates with ⟨rfl, rfl, rfl⟩
      rcases claim_effect effect hits with ⟨_, uncreated, _⟩ | ⟨inserted, _, _⟩
      · exact absurd rfl uncreated
      · refine ⟨if_pos rfl, (config.claim claimed expiry).record next.database next.broker, ?_,
          rfl⟩
        rw [inserted, Function.update_self]
    | _ => cases creates
  · have later := clocks_effect effect
    rcases owned other request expiresAt held (later.1.trans database) (later.2.trans broker) with
      ⟨claims, row, found, rfl⟩
    exact owned_kept allowed effect hits unsettled claims found database

/-! ## Stored responses -/

theorem Answered.mono {hash : Bytes} (answered : Answered config name hash record earlier) :
    Answered config name hash record (event :: earlier) := by
  rcases answered with ⟨request, outcome, ⟨relayed, member, relays⟩, rest⟩
  exact ⟨request, outcome, ⟨relayed, List.mem_cons_of_mem event member, relays⟩, rest⟩

/-- Every stored response is of a request with the hash of its row. -/
def RowsAnswered (config : Config) (events : List RelayEvent) (store : Store) : Prop :=
  ∀ name row, store.rows name = some row → row.completed = true →
    Answered config name row.requestSha256 row events

theorem completeIdempotency_cases {status : Int} {headers : Headers} {body : Bytes}
    (found : completeIdempotency storedHeaders userSub key status headers body rows name =
      some row) : rows name = some row ∨
      name = nameOf userSub key ∧ ∃ stored, rows name = some stored ∧ row = { stored with
          completed := true
          responseStatus := status
          responseHeaders := storedHeaders headers
          responseBody := body } := by
  rw [completeIdempotency] at found
  split at found
  · exact .inl found
  · by_cases same : name = nameOf userSub key
    · right
      rw [same, Function.update_self, Option.map_eq_some_iff] at found
      rcases found with ⟨stored, there, rfl⟩
      exact ⟨same, stored, same ▸ there, rfl⟩
    · rw [Function.update_of_ne same] at found
      exact .inl found

theorem deleteIdempotency_some (found : deleteIdempotency userSub key rows name = some row) :
    rows name = some row := by
  rw [deleteIdempotency] at found
  split at found
  · exact found
  · by_cases same : name = nameOf userSub key
    · rw [same, Function.update_self] at found
      cases found
    · rw [Function.update_of_ne same] at found
      exact found

theorem rowsAnswered_step (allowed : (roleOf thread events).Allows call)
    (effect : (system config).effect call store response next)
    (hits : HitsOwn config ⟨thread, call, response, store, next⟩ events)
    (relayed : ∀ request expiresAt outcome, roleOf thread events = .relayed request expiresAt
      outcome → ∃ event ∈ events, Relays request outcome event)
    (answered : RowsAnswered config events store) :
    RowsAnswered config (⟨thread, call, response, store, next⟩ :: events) next := by
  have unchanged : next.rows = store.rows →
      RowsAnswered config (⟨thread, call, response, store, next⟩ :: events) next := by
    intro same name row found completed
    rw [same] at found
    exact (answered name row found completed).mono
  cases call with
  | now =>
    rcases effect with ⟨_, rfl⟩
    exact unchanged rfl
  | relay request => exact unchanged (congrArg Store.rows effect)
  | reply reply => exact unchanged (congrArg Store.rows effect)
  | claim request expiresAt =>
    rcases claim_effect effect hits with ⟨same, _⟩ | ⟨inserted, _⟩
    · exact unchanged same
    · intro name row found completed
      rw [inserted] at found
      by_cases same : name = request.name
      · rw [same, Function.update_self] at found
        cases found
        cases completed
      · rw [Function.update_of_ne same] at found
        exact (answered name row found completed).mono
  | complete =>
    have result : next = store.commit response _ := effect
    cases response with
    | false => exact unchanged (congrArg Store.rows result)
    | true =>
      intro name row found completed
      rw [result] at found
      rcases completeIdempotency_cases found with old | ⟨named, stored, there, rfl⟩
      · exact (answered name row old completed).mono
      · rcases allowed with ⟨request, expiresAt, outcome, role, rfl, rfl, rfl, rfl, rfl⟩
        simp only [HitsOwn, role] at hits
        have hash := hits stored (by rw [← there, named]; rfl)
        rcases relayed request expiresAt outcome role with ⟨event, member, relays⟩
        exact ⟨request, outcome, ⟨event, List.mem_cons_of_mem _ member, relays⟩, named.symm,
          hash.symm, rfl, rfl, rfl⟩
  | delete =>
    have result : next = store.commit response _ := effect
    cases response with
    | false => exact unchanged (congrArg Store.rows result)
    | true =>
      intro name row found completed
      rw [result] at found
      exact (answered name row (deleteIdempotency_some found) completed).mono

theorem replaysSame_of_hitsOwn (effect : (system config).effect call store response next)
    (hits : HitsOwn config ⟨thread, call, response, store, next⟩ events)
    (answered : RowsAnswered config events store) :
    ReplaysSame config ⟨thread, call, response, store, next⟩ events := by
  cases call with
  | claim request expiresAt =>
    rcases response with _ | result
    · trivial
    · cases result with
      | replay record =>
        rcases claim_effect effect hits with ⟨_, _, replays⟩ | ⟨_, responded, _⟩
        · rcases replays record rfl with ⟨found, completed, hash⟩
          have stored := answered request.name record found completed
          rw [hash] at stored
          exact stored
        · rcases responded with same | same <;> cases same
      | _ => trivial
  | _ => trivial

theorem hasRelayed_idle : HasRelayed [] .idle := by
  intro request expiresAt outcome same
  cases same

theorem trace_sound {database broker : Int}
    (trace : SharedStore.Trace (system config) description .idle { database, broker } events store)
    (hits : Throughout (HitsOwn config) events) :
    Owned events store ∧ RowsAnswered config events store ∧
      Throughout (ReplaysSame config) events := by
  induction trace with
  | nil =>
    refine ⟨?_, nofun, trivial⟩
    intro thread request expiresAt holds
    rcases holds with same | ⟨outcome, same⟩ <;> cases same
  | @cons events store next thread call response earlier allowed effect induction =>
    rcases induction hits.2 with ⟨owned, answered, replays⟩
    have relayed : ∀ request expiresAt outcome,
        roleOf thread events = .relayed request expiresAt outcome →
          ∃ event ∈ events, Relays request outcome event := by
      intro request expiresAt outcome role
      have own := SharedStore.Trace.own (system config) HasRelayed hasRelayed_idle
        hasRelayed_advance earlier thread
      rcases own request expiresAt outcome role with ⟨event, member, relays⟩
      exact ⟨event, (SharedStore.mem_eventsOf.mp member).1, relays⟩
    refine ⟨owned_step allowed effect hits.1 owned, ?_, ?_, replays⟩
    · exact rowsAnswered_step allowed effect hits.1 relayed answered
    · exact replaysSame_of_hitsOwn effect hits.1 answered

/-- In a run whose steps hit no other row, a replay is of a request with the same
hash, and at most one request is in progress for a user and a key. -/
theorem idempotency_holds (config : Config) (database broker : Int) (events : List RelayEvent)
    (state : SystemState Store RelayRequest Call Response)
    (run : (system config).Run { store := { database, broker } } events state)
    (hits : Throughout (HitsOwn config) events) :
    Throughout (ReplaysSame config) events ∧
      ∀ name left right, InProgress name left events state.store →
        InProgress name right events state.store → left = right := by
  have trace := SharedStore.Run.trace (system config) (program_follows config) run
  rcases trace_sound trace hits with ⟨owned, _, replays⟩
  refine ⟨replays, ?_⟩
  rintro name left right ⟨first, leftExpiry, leftHolds, rfl, leftDatabase, leftBroker⟩
    ⟨second, rightExpiry, rightHolds, same, rightDatabase, rightBroker⟩
  have leftClaims := (owned left first leftExpiry leftHolds leftDatabase leftBroker).1
  have rightClaims := (owned right second rightExpiry rightHolds rightDatabase rightBroker).1
  rw [same, leftClaims] at rightClaims
  exact Option.some.inj rightClaims

/-! ## A slow request and a broker ahead of its database -/

def sampleRequest (body : Bytes) : RelayRequest where
  userSub := ascii "u1"
  idemKey := ascii "k1"
  method := ascii "POST"
  agentPath := ascii "/api/v1/chat"
  rawQuery := []
  agentId := ascii "a1"
  deploymentId := ascii "d1"
  body

def slowRequest : RelayRequest := sampleRequest (ascii "a")

def laterRequest : RelayRequest := sampleRequest (ascii "b")

def sampleDigest (input : Bytes) : Bytes :=
  if input.getLast? = some 97 then
    ascii "5f0d1c7b072629803fd08610bf4e2b0599846530fe71c0f84bd1502f5996527f"
  else ascii "bbdb8c4ff27ed6f521357f81bedb5667e85ec5f37a9abd376ff4d512142fa881"

def sampleConfig : Config where
  ttl := 10
  maxBodyBytes := 1000
  digest := sampleDigest
  storedHeaders := id

def sampleRun (schedule : List (SharedStore.Move RelayRequest Choice)) :
    List RelayEvent × SystemState Store RelayRequest Call Response :=
  schedule.foldl ((system sampleConfig).record (answer sampleConfig))
    ([], { store := { database := 0, broker := 0 } })

theorem run_sampleRun (schedule : List (SharedStore.Move RelayRequest Choice)) :
    (system sampleConfig).Run { store := { database := 0, broker := 0 } } (sampleRun schedule).1
      (sampleRun schedule).2 :=
  SharedStore.run_records (system sampleConfig) (effect_answer sampleConfig) .refl _

def claims (thread : Nat) (database broker : Int) :
    List (SharedStore.Move RelayRequest Choice) :=
  [.advance thread { database, broker }, .advance thread { database, broker }]

/-- A request is slow; its key expires and a different request claims it; then
the slow one completes, and the different request is sent again. -/
def overtakenSchedule : List (SharedStore.Move RelayRequest Choice) :=
  .start slowRequest :: claims 0 0 0 ++ [.start laterRequest] ++ claims 1 11 11 ++
    [.advance 0 { outcome := { agentStatus := 200, body := ascii "from a" } }, .advance 0 {},
      .advance 0 {}, .start laterRequest] ++ claims 2 12 12

/-- The clock of the broker passes an expiry that the database has not reached. -/
def aheadSchedule : List (SharedStore.Move RelayRequest Choice) :=
  .start slowRequest :: claims 0 0 0 ++ [.start slowRequest] ++ claims 1 5 11 ++
    [.start slowRequest] ++ claims 2 5 11

def relaysHash (config : Config) (hash : Bytes) : RelayEvent → Bool
  | ⟨_, .relay request, _, _, _⟩ => config.hash request = hash
  | _ => false

theorem relaysHash_of_answered {hash : Bytes}
    (answered : Answered config name hash record earlier) :
    earlier.any (relaysHash config hash) = true := by
  rcases answered with ⟨request, outcome, ⟨event, member, relays⟩, _, rfl, _⟩
  rw [List.any_eq_true]
  refine ⟨event, member, ?_⟩
  rcases event with ⟨thread, call, response, before, after⟩
  cases call with
  | relay relayed =>
    rcases relays with ⟨rfl, _⟩
    exact decide_eq_true rfl
  | _ => cases relays

/-- The later request gets the response of the slow one, and two requests are in
progress when the broker removes the row that it then tells two of them to have
created. -/
theorem idempotency_fails :
    (∃ events state, (system sampleConfig).Run { store := { database := 0, broker := 0 } } events
        state ∧ ¬Throughout (ReplaysSame sampleConfig) events) ∧
      ∃ events state, (system sampleConfig).Run { store := { database := 0, broker := 0 } } events
        state ∧ ∃ name, InProgress name 1 events state.store ∧
          InProgress name 2 events state.store := by
  constructor
  · refine ⟨_, _, run_sampleRun overtakenSchedule, ?_⟩
    intro replays
    have answered : Answered sampleConfig laterRequest.name (sampleConfig.hash laterRequest) _
      (sampleRun overtakenSchedule).1.tail := replays.1
    have relayed := relaysHash_of_answered answered
    exact absurd relayed (by decide)
  · refine ⟨_, _, run_sampleRun aheadSchedule, slowRequest.name, ?_, ?_⟩
    · exact ⟨slowRequest, 21, .inl rfl, rfl, by decide, by decide⟩
    · exact ⟨slowRequest, 21, .inl rfl, rfl, by decide, by decide⟩

/-- The request completes before it is sent again. -/
def replayedSchedule : List (SharedStore.Move RelayRequest Choice) :=
  .start slowRequest :: claims 0 0 0 ++
    [.advance 0 { outcome := { agentStatus := 200, body := ascii "from a" } }, .advance 0 {},
      .advance 0 {}, .start slowRequest] ++ claims 1 1 1

theorem idempotency_holds_sample :
    Throughout (ReplaysSame sampleConfig) (sampleRun replayedSchedule).1 := by
  apply (idempotency_holds sampleConfig 0 0 _ _ (run_sampleRun replayedSchedule) _).1
  refine ⟨?_, trivial, ?_, trivial, trivial, ?_, trivial, trivial⟩
  · exact fun _ _ bound => bound
  · intro row found
    cases found
    rfl
  · exact fun _ _ bound => bound

end AgentC.Broker.Idempotency
