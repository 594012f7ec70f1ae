import AgentC.EdgeTasks.NodeIsolation
import AgentC.Foundation.Runs

/-! # Deliveries of one message

A message that is delivered several times at once. The inbox and the flag
`processed` are read and written in calls of their own around the side effects,
and a delivery that finds the message stored and not processed goes on. -/

namespace AgentC.EdgeTasks

open Program

/-! ## Events of a delivery -/

inductive Kind
  | inserts (msgId : Bytes) (outcome : Store.InboxOutcome)
  | reads (msgId : Bytes) (flag : Option Bool)
  | marks (msgId : Bytes) (stored : Bool)
  | responds (status : Nat)
  /-- A task event or a task row is written. -/
  | applies (stored : Bool)
  | other
deriving DecidableEq, Repr

def kindOf : (call : Call) → Response call → Kind
  | .insertEdgeInboxMessageWithSeqGuard row _, outcome => .inserts row.msgId outcome
  | .getEdgeInboxMessageProcessed msgId, flag => .reads msgId flag
  | .markEdgeInboxMessageProcessed msgId, stored => .marks msgId stored
  | .respond status, _ => .responds status
  | .insertEdgeTaskEvent _, stored => .applies stored
  | .upsertEdgeTask _, stored => .applies stored
  | _, _ => .other

abbrev MessageEvent := Event Store Call Response

def MessageEvent.kind (event : MessageEvent) : Kind :=
  kindOf event.call event.response

namespace Kind

/-- The message arrives in the inbox, or turns out to be there. -/
def delivers (msgId : Bytes) : Kind → Bool
  | .inserts inserted _ => inserted = msgId
  | _ => false

def letsThrough (msgId : Bytes) : Kind → Bool
  | .inserts inserted outcome => inserted = msgId ∧ outcome = .stored
  | .reads read flag => read = msgId ∧ flag ≠ some true
  | _ => false

def settles (msgId : Bytes) : Kind → Bool
  | .marks marked stored => marked = msgId ∧ stored
  | .responds status => 500 ≤ status
  | _ => false

def hasEffect : Kind → Bool
  | .applies stored => stored
  | _ => false

def succeeds : Kind → Bool
  | .responds status => status < 500
  | _ => false

end Kind

def Makes (thread : Nat) (kind : Kind → Bool) (events : List MessageEvent) : Prop :=
  ∃ event ∈ events, event.thread = thread ∧ kind event.kind = true

/-- A delivery of a message that applies side effects and is answered with a
status below 500. -/
structure Effective (msgId : Bytes) (thread : Nat) (events : List MessageEvent) : Prop where
  delivers : Makes thread (Kind.delivers msgId) events
  hasEffect : Makes thread Kind.hasEffect events
  succeeds : Makes thread Kind.succeeds events

/-- When a delivery reads the flag of a message, the read is answered, and every
other delivery that has gone on with the message has marked it or given it back. -/
def Kind.ReadSettled (event : MessageEvent) (earlier : List MessageEvent) : Kind → Prop
  | .reads msgId flag =>
    flag = event.before.getEdgeInboxMessageProcessed msgId ∧
      ∀ other ∈ earlier, other.thread ≠ event.thread → other.kind.letsThrough msgId = true →
        ∃ settling ∈ earlier, settling.thread = other.thread ∧
          settling.kind.settles msgId = true
  | _ => True

def FlagReadSettled (event : MessageEvent) (earlier : List MessageEvent) : Prop :=
  event.kind.ReadSettled event earlier

/-! ## Stages of a delivery -/

inductive Stage
  | arriving
  | deduped
  | processing
  | marked (stored : Bool)
  | answered (stored : Bool)
  | failed
  | refused
  | gone
deriving DecidableEq, Repr

namespace Stage

def arrived : Store.InboxOutcome → Stage
  | .stored => .processing
  | .deduped => .deduped
  | _ => .refused

/-- The delivery has gone on with the message, and has not given it back. -/
def counts : Stage → Bool
  | .processing => true
  | .marked _ => true
  | .answered _ => true
  | _ => false

def hasMark : Stage → Bool
  | .marked stored => stored
  | .answered stored => stored
  | _ => false

def settled : Stage → Bool
  | .failed => true
  | .gone => true
  | stage => stage.hasMark

def works : Stage → Bool
  | .failed => true
  | stage => stage.counts

def ends : Stage → Bool
  | .answered _ => true
  | .gone => true
  | _ => false

end Stage

structure Delivery where
  msgId : Option Bytes := none
  stage : Stage := .arriving
deriving DecidableEq, Repr

namespace Delivery

def advance (delivery : Delivery) (kind : Kind) : Delivery :=
  match delivery.stage, kind with
  | .arriving, .inserts msgId outcome => ⟨some msgId, .arrived outcome⟩
  | .arriving, .responds _ => { delivery with stage := .gone }
  | .deduped, .reads _ flag =>
    { delivery with stage := if flag = some true then .refused else .processing }
  | .processing, .marks _ stored => { delivery with stage := .marked stored }
  | .processing, .responds _ => { delivery with stage := .failed }
  | .marked stored, .responds _ => { delivery with stage := .answered stored }
  | .refused, .responds _ => { delivery with stage := .gone }
  | _, _ => delivery

def Allows (delivery : Delivery) (kind : Kind) : Prop :=
  match delivery.stage, kind with
  | .arriving, .inserts _ _ => True
  | .arriving, .responds _ => True
  | .arriving, .other => True
  | .deduped, .reads msgId _ => delivery.msgId = some msgId
  | .processing, .marks msgId _ => delivery.msgId = some msgId
  | .processing, .responds status => 500 ≤ status
  | .processing, .applies _ => True
  | .processing, .other => True
  | .marked _, .responds status => status < 500
  | .refused, .responds _ => True
  | _, _ => False

end Delivery

/-- How a delivery goes. -/
def deliveryConduct : Description Delivery Call Response where
  advance delivery call response := delivery.advance (kindOf call response)
  allowed delivery call := ∀ response, delivery.Allows (kindOf call response)

/-! ## The endpoint keeps to the conduct -/

variable {call : Call} {delivery : Delivery} {msgId : Bytes} {response : Response call}

theorem kindOf_of_ofHandler (handler : call.ofHandler = true) (response : Response call) :
    kindOf call response = .other ∨ ∃ stored, kindOf call response = .applies stored := by
  cases call with
  | upsertEdgeTask row => exact .inr ⟨response, rfl⟩
  | insertEdgeTaskEvent row => exact .inr ⟨response, rfl⟩
  | insertEdgeInboxMessageWithSeqGuard => exact nomatch handler
  | getEdgeInboxMessageProcessed msgId => exact nomatch handler
  | markEdgeInboxMessageProcessed msgId => exact nomatch handler
  | respond status => exact nomatch handler
  | _ => exact .inl rfl

section Follows

variable (config : EdgeConfig) (envelope : Envelope)

theorem processMessage_follows (now : Int) :
    (processMessage config envelope now).Follows deliveryConduct (fun _ _ => True)
      ⟨some envelope.msgId, .processing⟩ := by
  apply follows_bind
  have handles : (handleMessage config envelope now).Follows deliveryConduct
      (fun reached _ => reached = ⟨some envelope.msgId, .processing⟩ ∧ True)
      ⟨some envelope.msgId, .processing⟩ := by
    apply (ofHandler_handleMessage config envelope now).follows
    intro call handler
    have kinds := kindOf_of_ofHandler handler
    constructor
    · intro response
      rcases kinds response with same | ⟨stored, same⟩ <;> rw [same] <;> trivial
    · intro response
      show Delivery.advance _ (kindOf call response) = _
      rcases kinds response with same | ⟨stored, same⟩ <;> rw [same] <;> rfl
  apply handles.mono
  rintro reached status ⟨rfl, -⟩
  apply follows_bind
  rw [performWhen]
  split
  · next fine =>
    have fine : status < 500 := of_decide_eq_true fine
    refine follows_call (fun _ => rfl) fun stored => ?_
    exact ⟨fun _ => fine, fun _ => trivial⟩
  · next retry =>
    have bad : 500 ≤ status := Nat.le_of_not_lt fun fine => retry (decide_eq_true fine)
    exact ⟨fun _ => bad, fun _ => trivial⟩

theorem storeMessage_follows (now tsUtcMs : Int) :
    (storeMessage config envelope now tsUtcMs).Follows deliveryConduct (fun _ _ => True) {} := by
  have responds : ∀ (status : Nat) (delivery : Delivery), (∀ status,
      delivery.Allows (.responds status)) →
      (respond status).Follows deliveryConduct (fun _ _ => True) delivery :=
    fun status delivery allows => ⟨fun _ => allows status, fun _ => trivial⟩
  rw [storeMessage]
  split
  · exact responds _ _ fun _ => trivial
  · refine follows_call (fun _ => trivial) fun outcome => ?_
    cases outcome with
    | failed => exact responds _ _ fun _ => trivial
    | seqRejected => exact responds _ _ fun _ => trivial
    | stored => exact processMessage_follows config envelope now
    | deduped =>
      refine follows_call (fun _ => rfl) fun flag => ?_
      cases flag with
      | none => exact processMessage_follows config envelope now
      | some processed =>
        cases processed with
        | false => exact processMessage_follows config envelope now
        | true => exact responds _ _ fun _ => trivial

theorem handleEdgeMessage_follows :
    (handleEdgeMessage config envelope).Follows deliveryConduct (fun _ _ => True) {} := by
  rw [handleEdgeMessage]
  refine follows_call (fun _ => trivial) fun now => ?_
  apply follows_ite
  · intro _
    exact storeMessage_follows config envelope now _
  · intro _
    refine follows_call (fun _ => trivial) fun tsUtcMs => ?_
    exact storeMessage_follows config envelope now tsUtcMs

end Follows

inductive Delivery.Moves : Delivery → Kind → Delivery → Prop
  | arrives (old : Option Bytes) (msgId : Bytes) (outcome : Store.InboxOutcome) :
      Moves ⟨old, .arriving⟩ (.inserts msgId outcome) ⟨some msgId, .arrived outcome⟩
  | turnsAway (old : Option Bytes) (status : Nat) :
      Moves ⟨old, .arriving⟩ (.responds status) ⟨old, .gone⟩
  | waits (old : Option Bytes) : Moves ⟨old, .arriving⟩ .other ⟨old, .arriving⟩
  | skips (msgId : Bytes) : Moves ⟨some msgId, .deduped⟩ (.reads msgId (some true))
      ⟨some msgId, .refused⟩
  | resumes (msgId : Bytes) (flag : Option Bool) (unprocessed : flag ≠ some true) :
      Moves ⟨some msgId, .deduped⟩ (.reads msgId flag) ⟨some msgId, .processing⟩
  | marks (msgId : Bytes) (stored : Bool) :
      Moves ⟨some msgId, .processing⟩ (.marks msgId stored) ⟨some msgId, .marked stored⟩
  | fails (old : Option Bytes) (status : Nat) (retry : 500 ≤ status) :
      Moves ⟨old, .processing⟩ (.responds status) ⟨old, .failed⟩
  | applies (old : Option Bytes) (stored : Bool) :
      Moves ⟨old, .processing⟩ (.applies stored) ⟨old, .processing⟩
  | works (old : Option Bytes) : Moves ⟨old, .processing⟩ .other ⟨old, .processing⟩
  | answers (old : Option Bytes) (stored : Bool) (status : Nat) (fine : status < 500) :
      Moves ⟨old, .marked stored⟩ (.responds status) ⟨old, .answered stored⟩
  | leaves (old : Option Bytes) (status : Nat) :
      Moves ⟨old, .refused⟩ (.responds status) ⟨old, .gone⟩

variable {kind : Kind}

theorem Delivery.moves_of_allows (allows : delivery.Allows kind) :
    delivery.Moves kind (delivery.advance kind) := by
  rcases delivery with ⟨old, stage⟩
  cases stage with
  | arriving =>
    cases kind with
    | inserts msgId outcome => exact .arrives old msgId outcome
    | responds status => exact .turnsAway old status
    | other => exact .waits old
    | _ => exact allows.elim
  | deduped =>
    cases kind with
    | reads msgId flag =>
      cases (show old = some msgId from allows)
      by_cases processed : flag = some true
      · subst processed
        exact .skips msgId
      · rw [show advance ⟨some msgId, .deduped⟩ (.reads msgId flag) =
          ⟨some msgId, if flag = some true then .refused else .processing⟩ from rfl,
          if_neg processed]
        exact .resumes msgId flag processed
    | _ => exact allows.elim
  | processing =>
    cases kind with
    | marks msgId stored =>
      cases (show old = some msgId from allows)
      exact .marks msgId stored
    | responds status => exact .fails old status allows
    | applies stored => exact .applies old stored
    | other => exact .works old
    | _ => exact allows.elim
  | marked stored =>
    cases kind with
    | responds status => exact .answers old stored status allows
    | _ => exact allows.elim
  | refused =>
    cases kind with
    | responds status => exact .leaves old status
    | _ => exact allows.elim
  | answered stored => cases kind <;> exact allows.elim
  | failed => cases kind <;> exact allows.elim
  | gone => cases kind <;> exact allows.elim

/-- The stage of a delivery says what it has done. -/
structure Consistent (kinds : List Kind) (delivery : Delivery) : Prop where
  fresh : delivery.stage = .arriving → delivery.msgId = none
  delivered : ∀ msgId, kinds.any (Kind.delivers msgId) = true → delivery.msgId = some msgId
  through : delivery.stage.counts = true → ∃ msgId, delivery.msgId = some msgId ∧
    kinds.any (Kind.letsThrough msgId) = true
  settled : ∀ msgId, kinds.any (Kind.settles msgId) = true → delivery.stage.settled = true
  effects : kinds.any Kind.hasEffect = true → delivery.stage.works = true
  succeeded : kinds.any Kind.succeeds = true → delivery.stage.ends = true

theorem Consistent.moves {kinds : List Kind} {next : Delivery}
    (consistent : Consistent kinds delivery) (moves : delivery.Moves kind next) :
    Consistent (kind :: kinds) next := by
  rcases consistent with ⟨fresh, delivered, through, settled, effects, succeeded⟩
  -- a kind that a field does not mention leaves the search for it as it was
  cases moves with
  | arrives old msgId outcome =>
    cases (show old = none from fresh rfl)
    refine ⟨?_, ?_, ?_, ?_, ?_, ?_⟩
    · intro arriving
      cases outcome <;> exact nomatch arriving
    · intro sought any
      rcases (Bool.or_eq_true _ _).mp any with here | earlier
      · exact congrArg some (of_decide_eq_true here)
      · exact nomatch delivered sought earlier
    · intro counts
      cases outcome with
      | stored => exact ⟨msgId, rfl, (Bool.or_eq_true _ _).mpr (.inl (decide_eq_true ⟨rfl, rfl⟩))⟩
      | _ => exact nomatch counts
    · intro sought any
      exact nomatch settled sought any
    · intro any
      exact nomatch effects any
    · intro any
      exact nomatch succeeded any
  | turnsAway =>
    exact ⟨nofun, delivered, nofun, fun _ _ => rfl, effects, fun _ => rfl⟩
  | waits old => exact ⟨fresh, delivered, through, settled, effects, succeeded⟩
  | skips msgId =>
    exact ⟨nofun, delivered, nofun, fun _ any => (nomatch settled _ any), effects, succeeded⟩
  | resumes msgId flag unprocessed =>
    refine ⟨nofun, delivered, fun _ => ⟨msgId, rfl, ?_⟩, settled, fun _ => rfl, succeeded⟩
    exact (Bool.or_eq_true _ _).mpr (.inl (decide_eq_true ⟨rfl, unprocessed⟩))
  | marks =>
    refine ⟨nofun, delivered, through, ?_, fun _ => rfl, succeeded⟩
    intro sought any
    rcases (Bool.or_eq_true _ _).mp any with here | earlier
    · exact (of_decide_eq_true here).2
    · exact nomatch settled sought earlier
  | fails old status retry =>
    refine ⟨nofun, delivered, nofun, fun _ _ => rfl, fun _ => rfl, ?_⟩
    intro any
    rcases (Bool.or_eq_true _ _).mp any with here | earlier
    · exact absurd retry (Nat.not_le.mpr (of_decide_eq_true here))
    · exact nomatch succeeded earlier
  | applies => exact ⟨nofun, delivered, through, settled, fun _ => rfl, succeeded⟩
  | works old => exact ⟨nofun, delivered, through, settled, effects, succeeded⟩
  | answers old stored status fine =>
    refine ⟨nofun, delivered, through, ?_, fun _ => rfl, fun _ => rfl⟩
    intro sought any
    rcases (Bool.or_eq_true _ _).mp any with here | earlier
    · exact absurd fine (Nat.not_lt.mpr (of_decide_eq_true here))
    · exact settled sought earlier
  | leaves => exact ⟨nofun, delivered, nofun, fun _ _ => rfl, effects, fun _ => rfl⟩

/-! ## What a delivery knows about the inbox -/

def Store.messageFlag (store : Store) (msgId : Bytes) : Option Bool :=
  (lookupBy (·.msgId) msgId store.inbox).map (·.processed)

theorem Store.getEdgeInboxMessageProcessed_eq (store : Store) (named : msgId ≠ []) :
    store.getEdgeInboxMessageProcessed msgId = store.messageFlag msgId :=
  if_neg named

structure Store.InboxKept (store next : Store) : Prop where
  stored : ∀ msgId, (store.messageFlag msgId).isSome = true →
    (next.messageFlag msgId).isSome = true
  processed : ∀ msgId, store.messageFlag msgId = some true → next.messageFlag msgId = some true

variable {store next : Store}

theorem Store.InboxKept.of_eq (same : next.inbox = store.inbox) : store.InboxKept next := by
  constructor <;> intro msgId holds <;> rw [messageFlag, same] <;> exact holds

theorem Effect.inbox {response : Response call} (effect : Effect call store response next)
    (other : call.writes .inbox = false) : next.inbox = store.inbox := by
  apply effect.keeps
  intro table writes
  cases table with
  | inbox => exact nomatch writes.symm.trans other
  | _ => exact fun _ _ => rfl

theorem messageFlag_mark {stored : Bool}
    (effect : Effect (.markEdgeInboxMessageProcessed msgId) store stored next) :
    (∀ sought, next.messageFlag sought = store.messageFlag sought ∨
      next.messageFlag sought = some true) ∧
      (stored = true → next.messageFlag msgId = some true) := by
  have unchanged : ∀ sought, store.messageFlag sought = store.messageFlag sought ∨
      store.messageFlag sought = some true := fun _ => .inl rfl
  rcases effect with ⟨outside, answered⟩ | ⟨failed, same⟩
  · simp only [answer, Store.markEdgeInboxMessageProcessed] at answered
    split at answered
    · cases answered
      exact ⟨unchanged, by rintro ⟨⟩⟩
    · next present =>
      cases answered
      have flags : ∀ sought, (Store.messageFlag { store with
          inbox := store.inbox.map fun entry =>
            if entry.msgId = msgId then { entry with processed := true } else entry } sought) =
          (lookupBy (·.msgId) sought store.inbox).map fun entry =>
            if entry.msgId = msgId then true else entry.processed := by
        intro sought
        rw [Store.messageFlag, lookupBy_map, Option.map_map]
        · congr 1
          funext entry
          simp only [Function.comp_apply]
          split <;> rfl
        · intro entry
          split <;> rfl
      rw [not_or, Option.isNone_iff_eq_none] at present
      rcases Option.ne_none_iff_exists'.mp present.2 with ⟨entry, found⟩
      constructor
      · intro sought
        rw [flags, Store.messageFlag]
        cases there : lookupBy (·.msgId) sought store.inbox with
        | none => exact .inl rfl
        | some entry =>
          rw [Option.map_some, Option.map_some]
          split
          · exact .inr rfl
          · exact .inl rfl
      · intro _
        rw [flags, found, Option.map_some, if_pos (key_of_lookupBy found)]
  · cases failed
    rw [same]
    exact ⟨unchanged, by rintro ⟨⟩⟩

variable {outcome : Store.InboxOutcome}

variable {guard : Option EdgeInboxAuthSeqGuard} {row : EdgeInboxMessageRow}

theorem stored_of_deduped
    (effect : Effect (.insertEdgeInboxMessageWithSeqGuard row guard) store outcome next) :
    (outcome = .stored ∨ outcome = .deduped → row.msgId ≠ []) ∧
      (outcome = .deduped → (store.messageFlag row.msgId).isSome = true) := by
  rcases effect with ⟨outside, answered⟩ | ⟨failed, -⟩
  · simp only [answer, Store.insertEdgeInboxMessageWithSeqGuard] at answered
    split at answered
    · cases answered
      exact ⟨by rintro (⟨⟨⟩⟩ | ⟨⟨⟩⟩), by rintro ⟨⟩⟩
    · next complete =>
      have named : row.msgId ≠ [] := fun empty => complete (.inl empty)
      refine ⟨fun _ => named, ?_⟩
      intro deduped
      subst deduped
      split at answered
      · cases congrArg Prod.fst answered
      · split at answered
        · next present =>
          rw [Store.messageFlag, Option.isSome_map]
          exact present
        · split at answered
          · cases congrArg Prod.fst answered
          · split at answered <;> cases congrArg Prod.fst answered
  · cases failed
    exact ⟨by rintro (⟨⟨⟩⟩ | ⟨⟨⟩⟩), by rintro ⟨⟩⟩

theorem messageFlag_insert
    (effect : Effect (.insertEdgeInboxMessageWithSeqGuard row guard) store outcome next) :
    store.InboxKept next ∧ (outcome = .stored → store.messageFlag row.msgId = none ∧
      (next.messageFlag row.msgId).isSome = true) := by
  have performed : InboxStep.Performed ⟨row, guard, outcome, store, next⟩ := effect
  rcases performed.cases with ⟨-, missing, ⟨entry, named, grown⟩, -⟩ | ⟨unstored, same⟩
  · have flags : ∀ sought, next.messageFlag sought = (store.messageFlag sought).or
        (if entry.msgId = sought then some entry.processed else none) := by
      intro sought
      rw [Store.messageFlag, Store.messageFlag, show next.inbox = store.inbox ++ [entry] from grown,
        lookupBy_append, lookupBy_cons, Option.map_or]
      split <;> rfl
    have before : store.messageFlag row.msgId = none := by
      rw [Store.messageFlag, missing]
      rfl
    refine ⟨⟨?_, ?_⟩, fun _ => ⟨before, ?_⟩⟩
    · intro sought stored
      rw [flags, Option.isSome_or, stored]
      rfl
    · intro sought processed
      rw [flags, processed]
      rfl
    · rw [flags, before, if_pos named]
      rfl
  · have same : next = store := same
    subst same
    exact ⟨.of_eq rfl, fun stored => absurd stored unstored⟩

theorem Effect.inboxKept {call : Call} {response : Response call}
    (effect : Effect call store response next) : store.InboxKept next := by
  cases call with
  | insertEdgeInboxMessageWithSeqGuard => exact (messageFlag_insert effect).1
  | markEdgeInboxMessageProcessed msgId =>
    have flags := (messageFlag_mark effect).1
    constructor
    · intro sought stored
      rcases flags sought with same | processed
      · rw [same]
        exact stored
      · rw [processed]
        rfl
    · intro sought processed
      rcases flags sought with same | marked
      · exact same.trans processed
      · exact marked
  | _ => exact .of_eq (effect.inbox rfl)

/-- What a delivery that has gone on knows: the message is stored, and processed
if the delivery has marked it. -/
def KnowsInbox (delivery : Delivery) (store : Store) : Prop :=
  ∀ msgId, delivery.msgId = some msgId →
    (delivery.stage = .deduped ∨ delivery.stage.counts = true →
      msgId ≠ [] ∧ (store.messageFlag msgId).isSome = true) ∧
    (delivery.stage.hasMark = true → store.messageFlag msgId = some true)

theorem KnowsInbox.kept (knows : KnowsInbox delivery store) (kept : store.InboxKept next) :
    KnowsInbox delivery next := by
  intro msgId named
  rcases knows msgId named with ⟨stored, processed⟩
  constructor
  · intro there
    exact ⟨(stored there).1, kept.stored msgId (stored there).2⟩
  · intro marked
    exact kept.processed msgId (processed marked)

theorem KnowsInbox.moves {reached : Delivery} (knows : KnowsInbox delivery store)
    (moves : delivery.Moves kind reached) (kept : store.InboxKept next)
    (inserted : ∀ msgId outcome, kind = .inserts msgId outcome →
      outcome = .stored ∨ outcome = .deduped → msgId ≠ [] ∧ (next.messageFlag msgId).isSome = true)
    (marked : ∀ msgId, kind = .marks msgId true → next.messageFlag msgId = some true) :
    KnowsInbox reached next := by
  have knows := knows.kept kept
  cases moves with
  | arrives old msgId outcome =>
    rintro _ ⟨⟩
    have stored := inserted msgId outcome rfl
    cases outcome with
    | stored => exact ⟨fun _ => stored (.inl rfl), nofun⟩
    | deduped => exact ⟨fun _ => stored (.inr rfl), nofun⟩
    | failed => exact ⟨fun there => (nomatch there.resolve_left nofun), nofun⟩
    | seqRejected => exact ⟨fun there => (nomatch there.resolve_left nofun), nofun⟩
  | turnsAway =>
    exact fun _ _ => ⟨fun there => (nomatch there.resolve_left nofun), nofun⟩
  | waits old => exact knows
  | skips msgId => exact fun _ _ => ⟨fun there => (nomatch there.resolve_left nofun), nofun⟩
  | resumes =>
    intro sought named
    exact ⟨fun _ => (knows sought named).1 (.inl rfl), nofun⟩
  | marks msgId stored =>
    intro sought named
    refine ⟨fun _ => (knows sought named).1 (.inr rfl), ?_⟩
    intro hasMark
    cases (show stored = true from hasMark)
    cases named
    exact marked msgId rfl
  | fails =>
    exact fun _ _ => ⟨fun there => (nomatch there.resolve_left nofun), nofun⟩
  | applies => exact knows
  | works old => exact knows
  | answers =>
    intro sought named
    exact ⟨fun _ => (knows sought named).1 (.inr rfl), (knows sought named).2⟩
  | leaves =>
    exact fun _ _ => ⟨fun there => (nomatch there.resolve_left nofun), nofun⟩

theorem inserted_of_effect (effect : Effect call store response next)
    (kind : kindOf call response = .inserts msgId outcome) :
    (outcome = .stored ∨ outcome = .deduped → msgId ≠ [] ∧ (next.messageFlag msgId).isSome = true) ∧
      (outcome = .stored → store.messageFlag msgId = none) := by
  cases call with
  | insertEdgeInboxMessageWithSeqGuard =>
    cases kind
    have inserts := messageFlag_insert effect
    have dedupes := stored_of_deduped effect
    refine ⟨fun arrived => ⟨dedupes.1 arrived, ?_⟩, fun stored => (inserts.2 stored).1⟩
    rcases arrived with stored | deduped
    · exact (inserts.2 stored).2
    · exact inserts.1.stored _ (dedupes.2 deduped)
  | _ => exact nomatch kind

theorem marked_of_effect {store : Store} (effect : Effect call store response next)
    (kind : kindOf call response = .marks msgId true) : next.messageFlag msgId = some true := by
  cases call with
  | markEdgeInboxMessageProcessed marked =>
    cases kind
    exact (messageFlag_mark effect).2 rfl
  | _ => exact nomatch kind

theorem knowsInbox_advance (allowed : deliveryConduct.allowed delivery call)
    (effect : Effect call store response next) (knows : KnowsInbox delivery store) :
    KnowsInbox (deliveryConduct.advance delivery call response) next :=
  knows.moves (Delivery.moves_of_allows (allowed response)) effect.inboxKept
    (fun _ _ kind => (inserted_of_effect effect kind).1) fun _ kind => marked_of_effect effect kind

/-! ## Every run -/

section Runs

variable {config : EdgeConfig} {first store : Store} {events : List MessageEvent}

def deliveryOf (thread : Nat) (events : List MessageEvent) : Delivery :=
  SharedStore.known deliveryConduct {} thread events

abbrev DeliveryTrace (config : EdgeConfig) (first : Store) (events : List MessageEvent)
    (store : Store) : Prop :=
  SharedStore.Trace (nodeMessages config) deliveryConduct {} first events store

variable (thread : Nat)

theorem consistent_deliveryOf (trace : DeliveryTrace config first events store) (thread : Nat) :
    Consistent ((SharedStore.eventsOf thread events).map MessageEvent.kind) (deliveryOf thread events) := by
  apply SharedStore.Trace.own (nodeMessages config)
    (fun own delivery => Consistent (own.map MessageEvent.kind) delivery) _ _ trace thread
  · exact ⟨fun _ => rfl, nofun, nofun, nofun, nofun, nofun⟩
  · intro own delivery event consistent allowed
    exact consistent.moves (Delivery.moves_of_allows (allowed event.response))

theorem knowsInbox_deliveryOf (trace : DeliveryTrace config first events store) (thread : Nat) :
    KnowsInbox (deliveryOf thread events) store := by
  apply SharedStore.Trace.stable (nodeMessages config) _ _ _ trace thread
  · exact nofun
  · intro delivery event allowed effect knows
    exact knowsInbox_advance allowed effect knows
  · intro delivery event effect knows
    exact knows.kept effect.inboxKept

theorem makes_iff {thread : Nat} {kind : Kind → Bool} : Makes thread kind events ↔
      ((SharedStore.eventsOf thread events).map MessageEvent.kind).any kind = true := by
  simp only [Makes, List.any_map, List.any_eq_true, SharedStore.mem_eventsOf,
    Function.comp_apply, and_assoc]

def Counts (msgId : Bytes) (delivery : Delivery) : Prop :=
  delivery.msgId = some msgId ∧ delivery.stage.counts = true

theorem hasMark_of_settled {stage : Stage} (settled : stage.settled = true)
    (counts : stage.counts = true) : stage.hasMark = true := by
  cases stage with
  | failed => exact nomatch counts
  | gone => exact nomatch counts
  | _ => exact settled

/-- Another delivery that goes on with the message keeps this one from starting
to do so. -/
theorem counts_of_moves (trace : DeliveryTrace config first events store) {event : MessageEvent}
    (before : event.before = store) (effect : Effect event.call store event.response event.after)
    (settled : FlagReadSettled event events) {delivery reached : Delivery}
    (moves : delivery.Moves event.kind reached) {msgId : Bytes} {other : Nat}
    (different : other ≠ event.thread) (countsOther : Counts msgId (deliveryOf other events))
    (counts : Counts msgId reached) : Counts msgId delivery := by
  have stored := (knowsInbox_deliveryOf trace other msgId countsOther.1).1 (.inr countsOther.2)
  generalize shape : event.kind = kind at moves
  cases moves with
  | arrives old inserted outcome =>
    cases (show some inserted = some msgId from counts.1)
    cases outcome with
    | stored =>
      have missing := (inserted_of_effect effect shape).2 rfl
      rw [missing] at stored
      exact nomatch stored.2
    | _ => exact nomatch counts.2
  | resumes read flag unprocessed =>
    cases (show some read = some msgId from counts.1)
    rw [FlagReadSettled, shape] at settled
    rcases settled with ⟨answered, others⟩
    rw [before] at answered
    have consistent := consistent_deliveryOf trace other
    rcases consistent.through countsOther.2 with ⟨named, sameId, through⟩
    cases sameId.symm.trans countsOther.1
    rcases makes_iff.mpr through with ⟨letting, there, byOther, lets⟩
    rcases others letting there (byOther ▸ different) lets with ⟨settling, found, same, settles⟩
    have done := consistent.settled msgId
      (makes_iff.mp ⟨settling, found, same.trans byOther, settles⟩)
    have hasMark := hasMark_of_settled done countsOther.2
    have processed := (knowsInbox_deliveryOf trace other msgId countsOther.1).2 hasMark
    rw [store.getEdgeInboxMessageProcessed_eq stored.1, processed] at answered
    exact absurd answered unprocessed
  | marks => exact ⟨counts.1, rfl⟩
  | applies => exact counts
  | works old => exact counts
  | answers => exact ⟨counts.1, rfl⟩
  | _ => exact nomatch counts.2

theorem deliveryOf_cons (event : MessageEvent) (earlier : List MessageEvent) :
    deliveryOf thread (event :: earlier) =
      if event.thread = thread then (deliveryOf thread earlier).advance event.kind
      else deliveryOf thread earlier :=
  rfl

/-- No two deliveries of a message go on with it, as long as each read of its flag
finds the others settled. -/
theorem counts_unique (trace : DeliveryTrace config first events store)
    (settled : Throughout FlagReadSettled events) {left right : Nat}
    (countsLeft : Counts msgId (deliveryOf left events))
    (countsRight : Counts msgId (deliveryOf right events)) : left = right := by
  by_contra different
  induction trace with
  | nil => exact nomatch countsLeft.2
  | @cons events store next thread call response earlier allowed effect induction =>
    have moves := Delivery.moves_of_allows (allowed response)
    have keeps : ∀ other, other ≠ thread → Counts msgId (deliveryOf other events) →
        Counts msgId ((deliveryOf thread events).advance (kindOf call response)) →
          Counts msgId (deliveryOf thread events) := by
      intro other apart countsOther counts
      exact @counts_of_moves _ _ _ _ earlier ⟨thread, call, response, store, next⟩ rfl effect
        settled.1 _ _ moves msgId other apart countsOther counts
    rw [deliveryOf_cons] at countsLeft countsRight
    by_cases hereLeft : thread = left
    · subst hereLeft
      rw [if_pos rfl] at countsLeft
      rw [if_neg different] at countsRight
      exact induction settled.2 (keeps right (Ne.symm different) countsRight countsLeft) countsRight
    · rw [if_neg hereLeft] at countsLeft
      by_cases hereRight : thread = right
      · subst hereRight
        rw [if_pos rfl] at countsRight
        exact induction settled.2 countsLeft (keeps left different countsLeft countsRight)
      · rw [if_neg hereRight] at countsRight
        exact induction settled.2 countsLeft countsRight

/-- The side effects of a message are applied by one of its deliveries at most,
as long as each read of its flag finds the others settled. -/
theorem side_effects_at_most_once {state : SystemState Store Envelope Call Response}
    (run : (nodeMessages config).Run { store := first } events state)
    (settled : Throughout FlagReadSettled events) {msgId : Bytes} {left right : Nat}
    (effectiveLeft : Effective msgId left events) (effectiveRight : Effective msgId right events) :
    left = right := by
  have trace : DeliveryTrace config first events state.store :=
    SharedStore.Run.trace (nodeMessages config) (handleEdgeMessage_follows config) run
  have counts : ∀ thread, Effective msgId thread events →
      Counts msgId (deliveryOf thread events) := by
    intro thread effective
    have consistent := consistent_deliveryOf trace thread
    have works := consistent.effects (makes_iff.mp effective.hasEffect)
    have ends := consistent.succeeded (makes_iff.mp effective.succeeds)
    refine ⟨consistent.delivered msgId (makes_iff.mp effective.delivers), ?_⟩
    cases stage : (deliveryOf thread events).stage with
    | answered stored => rfl
    | gone =>
      rw [stage] at works
      exact nomatch works
    | _ =>
      rw [stage] at ends
      exact nomatch ends
  exact counts_unique trace settled (counts left effectiveLeft) (counts right effectiveRight)

end Runs

/-! ## Two deliveries -/

instance (event : MessageEvent) (earlier : List MessageEvent) :
    Decidable (FlagReadSettled event earlier) :=
  decideSettled event.kind
where
  decideSettled : (kind : Kind) → Decidable (kind.ReadSettled event earlier)
    | .reads _ _ => inferInstanceAs (Decidable (_ ∧ _))
    | .inserts _ _ => inferInstanceAs (Decidable True)
    | .marks _ _ => inferInstanceAs (Decidable True)
    | .responds _ => inferInstanceAs (Decidable True)
    | .applies _ => inferInstanceAs (Decidable True)
    | .other => inferInstanceAs (Decidable True)

instance (thread : Nat) (kind : Kind → Bool) (events : List MessageEvent) :
    Decidable (Makes thread kind events) :=
  inferInstanceAs (Decidable (∃ event ∈ events, _))

def sampleFailure : Envelope :=
  sampleMessage .taskFailed (ascii "node:a") [(ascii "error", .string (ascii "e"))]

/-- Deliveries of the message as a schedule says, every call answered. -/
def sampleDeliveries (schedule : List (SharedStore.Move Envelope Outside)) :
    List MessageEvent × SystemState Store Envelope Call Response :=
  schedule.foldl ((nodeMessages sampleConfig).record answer) ([], { store := { tasks := [sampleTask] } })

theorem run_sampleDeliveries (schedule : List (SharedStore.Move Envelope Outside)) :
    (nodeMessages sampleConfig).Run { store := { tasks := [sampleTask] } }
      (sampleDeliveries schedule).1 (sampleDeliveries schedule).2 :=
  SharedStore.run_records (nodeMessages sampleConfig) effect_answer .refl schedule

def sampleInTurn : List (SharedStore.Move Envelope Outside) :=
  [.start sampleFailure] ++ List.replicate 8 (.advance 0 {}) ++ [.start sampleFailure] ++
    List.replicate 4 (.advance 1 {})

theorem side_effects_at_most_once_sample :
    Effective (ascii "m") 0 (sampleDeliveries sampleInTurn).1 ∧
      ¬Effective (ascii "m") 1 (sampleDeliveries sampleInTurn).1 := by
  have first : Effective (ascii "m") 0 (sampleDeliveries sampleInTurn).1 :=
    ⟨by decide, by decide, by decide⟩
  refine ⟨first, fun second => ?_⟩
  exact absurd (side_effects_at_most_once (run_sampleDeliveries sampleInTurn) (by decide) first
    second) (by decide)

/-- The second delivery reads the flag before the first one has set it. -/
def sampleOverlap : List (SharedStore.Move Envelope Outside) :=
  [.start sampleFailure, .start sampleFailure, .advance 0 {}, .advance 0 {}] ++
    List.replicate 3 (.advance 1 {}) ++ List.replicate 6 (.advance 0 {}) ++
    List.replicate 6 (.advance 1 {})

theorem both_deliveries_apply :
    (nodeMessages sampleConfig).Run { store := { tasks := [sampleTask] } }
        (sampleDeliveries sampleOverlap).1 (sampleDeliveries sampleOverlap).2 ∧
      Effective (ascii "m") 0 (sampleDeliveries sampleOverlap).1 ∧
      Effective (ascii "m") 1 (sampleDeliveries sampleOverlap).1 :=
  ⟨run_sampleDeliveries sampleOverlap, ⟨by decide, by decide, by decide⟩,
    ⟨by decide, by decide, by decide⟩⟩

end AgentC.EdgeTasks
