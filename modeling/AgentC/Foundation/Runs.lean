import AgentC.Foundation.Interleaving

/-! # Runs with their events

A run of programs that share a store, recorded call by call. What a program may
call next is described by what it knows, which its calls and their responses
determine; a run of programs that keep to such a description is a trace of it. -/

namespace AgentC

/-- A call in a run: by which thread, and the store in front of it and behind it. -/
structure Event (Store Call : Type) (Response : Call → Type) where
  thread : Nat
  call : Call
  response : Response call
  before : Store
  after : Store

def Throughout {Store Call : Type} {Response : Call → Type}
    (required : Event Store Call Response → List (Event Store Call Response) → Prop) :
    List (Event Store Call Response) → Prop
  | [] => True
  | event :: earlier => required event earlier ∧ Throughout required earlier

instance {Store Call : Type} {Response : Call → Type}
    (required : Event Store Call Response → List (Event Store Call Response) → Prop)
    [∀ event earlier, Decidable (required event earlier)] :
    DecidablePred (Throughout required) :=
  decideThroughout
where
  decideThroughout : (events : List (Event Store Call Response)) →
      Decidable (Throughout required events)
    | [] => inferInstanceAs (Decidable True)
    | event :: earlier =>
      have := decideThroughout earlier
      inferInstanceAs (Decidable (required event earlier ∧ Throughout required earlier))

theorem Throughout.mono {Store Call : Type} {Response : Call → Type}
    {required weaker : Event Store Call Response → List (Event Store Call Response) → Prop}
    {events : List (Event Store Call Response)} (throughout : Throughout required events)
    (implied : ∀ event earlier, required event earlier → weaker event earlier) :
    Throughout weaker events := by
  induction events with
  | nil => trivial
  | cons event earlier induction =>
    exact ⟨implied event earlier throughout.1, induction throughout.2⟩

theorem Throughout.forall {Store Call : Type} {Response : Call → Type}
    {required : Event Store Call Response → Prop} {events : List (Event Store Call Response)}
    (throughout : Throughout (fun event _ => required event) events) :
    ∀ event ∈ events, required event := by
  induction events with
  | nil => exact fun _ member => nomatch member
  | cons event earlier induction =>
    exact List.forall_mem_cons.mpr ⟨throughout.1, induction throughout.2⟩

/-- How what a program knows grows with its calls, and what it may call next. -/
structure Description (Knowledge Call : Type) (Response : Call → Type) where
  advance : Knowledge → (call : Call) → Response call → Knowledge
  allowed : Knowledge → Call → Prop

/-! ## Programs that keep to a description -/

namespace Program

variable {Knowledge Call : Type} {Response : Call → Type} {α β : Type}
  (description : Description Knowledge Call Response)

/-- From what is known on, every call is allowed, whatever the responses are,
and what is known at the end satisfies `post` together with the value returned. -/
def Follows (post : Knowledge → α → Prop) : Knowledge → Program Call Response α → Prop
  | known, .done value => post known value
  | known, .call request next =>
    description.allowed known request ∧
      ∀ response, Follows post (description.advance known request response) (next response)

variable {description} {known : Knowledge}

theorem follows_pure {post : Knowledge → α → Prop} {value : α} (holds : post known value) :
    (pure value : Program Call Response α).Follows description post known :=
  holds

theorem follows_bind {post : Knowledge → β → Prop} {program : Program Call Response α}
    {rest : α → Program Call Response β}
    (first : program.Follows description
      (fun known value => (rest value).Follows description post known) known) :
    (program >>= rest).Follows description post known := by
  induction program generalizing known with
  | done value => exact first
  | call call next induction =>
    exact ⟨first.1, fun response => induction response (first.2 response)⟩

theorem follows_call {call : Call} {post : Knowledge → β → Prop}
    {rest : Response call → Program Call Response β} (allowed : description.allowed known call)
    (holds : ∀ response,
      (rest response).Follows description post (description.advance known call response)) :
    (request call >>= rest).Follows description post known :=
  follows_bind ⟨allowed, holds⟩

theorem follows_ite {condition : Prop} [Decidable condition] {post : Knowledge → α → Prop}
    {left right : Program Call Response α}
    (followsLeft : condition → left.Follows description post known)
    (followsRight : ¬condition → right.Follows description post known) :
    (if condition then left else right).Follows description post known := by
  split
  · next holds => exact followsLeft holds
  · next fails => exact followsRight fails

theorem Follows.mono {post weaker : Knowledge → α → Prop} {program : Program Call Response α}
    (follows : program.Follows description post known)
    (implied : ∀ known value, post known value → weaker known value) :
    program.Follows description weaker known := by
  induction program generalizing known with
  | done value => exact implied known value follows
  | call call next induction =>
    exact ⟨follows.1, fun response => induction response (follows.2 response)⟩

theorem follows_forM {Item : Type} {kept : Knowledge → Prop} {items : List Item}
    {body : Item → Program Call Response PUnit}
    (each : ∀ item ∈ items, ∀ known, kept known →
      (body item).Follows description (fun known _ => kept known) known) (start : kept known) :
    (items.forM body).Follows description (fun known _ => kept known) known := by
  induction items generalizing known with
  | nil => exact start
  | cons item items induction =>
    apply follows_bind
    apply (each item (List.mem_cons_self ..) known start).mono
    intro known _ stays
    exact induction (fun other member => each other (List.mem_cons_of_mem item member)) stays

theorem Satisfies.follows {promised : Call → Prop} {post : α → Prop}
    {program : Program Call Response α}
    (harmless : ∀ call, promised call → description.allowed known call ∧
      ∀ response, description.advance known call response = known)
    (satisfied : program.Satisfies (fun _ _ => True) promised post) :
    program.Follows description (fun reached value => reached = known ∧ post value) known := by
  induction program with
  | done value => exact ⟨rfl, satisfied⟩
  | call call next induction =>
    have allowed := harmless call satisfied.1
    refine ⟨allowed.1, fun response => ?_⟩
    rw [allowed.2 response]
    exact induction response (satisfied.2 response trivial)

theorem Satisfies.follows_always {promised : Call → Prop} {post : α → Prop}
    {program : Program Call Response α}
    (always : ∀ known call, promised call → description.allowed known call)
    (satisfied : program.Satisfies (fun _ _ => True) promised post) :
    program.Follows description (fun _ value => post value) known := by
  induction program generalizing known with
  | done value => exact satisfied
  | call call next induction =>
    exact ⟨always known call satisfied.1, fun response =>
      induction response (satisfied.2 response trivial)⟩

theorem Follows.simulated {Other : Type} {simulating : Description Other Call Response}
    {related : Knowledge → Other → Prop} {post : Knowledge → α → Prop}
    {program : Program Call Response α}
    (simulates : ∀ {known other call}, related known other → description.allowed known call →
      simulating.allowed other call ∧ ∀ response,
        related (description.advance known call response) (simulating.advance other call response))
    (follows : program.Follows description post known) {other : Other}
    (start : related known other) : program.Follows simulating (fun _ _ => True) other := by
  induction program generalizing known other with
  | done value => trivial
  | call call next induction =>
    have step := simulates start follows.1
    exact ⟨step.1, fun response => induction response (follows.2 response) (step.2 response)⟩

end Program

/-! ## Runs -/

namespace SharedStore

variable {Store Operation Call : Type} {Response : Call → Type}
  (system : SharedStore Store Operation Call Response)

/-- The runs from a state with their events, the latest event first. -/
inductive Run (first : SystemState Store Operation Call Response) :
    List (Event Store Call Response) → SystemState Store Operation Call Response → Prop
  | refl : Run first [] first
  | start {events : List (Event Store Call Response)}
      {state : SystemState Store Operation Call Response} (operation : Operation)
      (run : Run first events state) :
      Run first events
        { state with threads := state.threads ++ [⟨operation, system.program operation⟩] }
  | perform {events : List (Event Store Call Response)}
      {state : SystemState Store Operation Call Response} {index : Nat} {operation : Operation}
      {request : Call} {continuation : Response request → Program Call Response Unit}
      {response : Response request} {next : Store} (run : Run first events state)
      (found : state.threads[index]? = some ⟨operation, .call request continuation⟩)
      (effect : system.effect request state.store response next) :
      Run first (⟨index, request, response, state.store, next⟩ :: events)
        { store := next, threads := state.threads.set index ⟨operation, continuation response⟩ }

/-- Programs that keep their promises as long as an invariant of the store gives
them the responses they assume. -/
theorem Run.promised {invariant : Store → Prop}
    {assumed : (call : Call) → Response call → Prop} {promised : Call → Prop}
    (starts : ∀ operation,
      (system.program operation).Satisfies assumed promised fun _ => True)
    {first : Store} {events : List (Event Store Call Response)}
    {state : SystemState Store Operation Call Response}
    (run : system.Run { store := first } events state) (start : invariant first)
    (sound : ∀ event ∈ events, invariant event.before → promised event.call →
      system.effect event.call event.before event.response event.after →
        assumed event.call event.response ∧ invariant event.after) :
    (∀ event ∈ events, promised event.call) ∧ invariant state.store ∧
      ∀ thread ∈ state.threads,
        thread.remaining.Satisfies assumed promised fun _ => True := by
  induction run with
  | refl =>
    refine ⟨?_, start, ?_⟩
    · exact fun _ member => nomatch member
    · exact fun _ member => nomatch member
  | start operation run induction =>
    rcases induction sound with ⟨kept, holds, threads⟩
    refine ⟨kept, holds, fun thread member => ?_⟩
    rcases List.mem_append.mp member with old | new
    · exact threads thread old
    · rw [List.mem_singleton.mp new]
      exact starts operation
  | perform run found effect induction =>
    rw [List.forall_mem_cons] at sound
    rcases induction sound.2 with ⟨kept, holds, threads⟩
    have current := threads _ (List.mem_of_getElem? found)
    have next := sound.1 holds current.1 effect
    refine ⟨List.forall_mem_cons.mpr ⟨current.1, kept⟩, next.2, fun thread member => ?_⟩
    rcases List.mem_or_eq_of_mem_set member with old | new
    · exact threads thread old
    · rw [new]
      exact current.2 _ next.1

section Traces

variable {Knowledge : Type} (description : Description Knowledge Call Response)
  (initial : Knowledge)

def known (thread : Nat) : List (Event Store Call Response) → Knowledge
  | [] => initial
  | event :: earlier =>
    if event.thread = thread then
      description.advance (known thread earlier) event.call event.response
    else known thread earlier

/-- Events from a store on in which every call is allowed by what its thread
knows, and the store behind them. -/
inductive Trace (first : Store) : List (Event Store Call Response) → Store → Prop
  | nil : Trace first [] first
  | cons {events : List (Event Store Call Response)} {store next : Store} {thread : Nat}
      {call : Call} {response : Response call} (earlier : Trace first events store)
      (allowed : description.allowed (known description initial thread events) call)
      (effect : system.effect call store response next) :
      Trace first (⟨thread, call, response, store, next⟩ :: events) next

variable {description initial}

theorem Trace.earlier {first last : Store} {later events : List (Event Store Call Response)}
    (trace : Trace system description initial first (later ++ events) last) :
    ∃ store, Trace system description initial first events store := by
  induction later generalizing last with
  | nil => exact ⟨last, trace⟩
  | cons event later induction =>
    cases trace with
    | cons earlier allowed effect => exact induction earlier

/-- The store behind the latest of some events. -/
def storeBehind (first : Store) : List (Event Store Call Response) → Store
  | [] => first
  | event :: _ => event.after

theorem Trace.store_eq {first last : Store} {events : List (Event Store Call Response)}
    (trace : Trace system description initial first events last) :
    last = storeBehind first events := by
  cases trace with
  | nil => rfl
  | cons => rfl

theorem known_eq_initial {thread : Nat} {events : List (Event Store Call Response)}
    (absent : ∀ event ∈ events, event.thread ≠ thread) :
    known description initial thread events = initial := by
  induction events with
  | nil => rfl
  | cons event earlier induction =>
    rw [known, if_neg (absent event (List.mem_cons_self ..))]
    exact induction fun other member => absent other (List.mem_cons_of_mem event member)

theorem Run.follows {post : Knowledge → Unit → Prop}
    (programs : ∀ operation, (system.program operation).Follows description post initial)
    {first : Store} {events : List (Event Store Call Response)}
    {state : SystemState Store Operation Call Response}
    (run : system.Run { store := first } events state) :
    (∀ event ∈ events, event.thread < state.threads.length) ∧
      (∀ (index : Nat) (thread : Thread Operation Call Response),
        state.threads[index]? = some thread →
          thread.remaining.Follows description post
            (known description initial index events)) ∧
      Trace system description initial first events state.store := by
  induction run with
  | refl =>
    refine ⟨?_, ?_, .nil⟩
    · intro event member
      exact nomatch member
    · intro index thread found
      exact nomatch found
  | @start events state operation run induction =>
    rcases induction with ⟨bounded, follows, trace⟩
    refine ⟨?_, ?_, trace⟩
    · intro event member
      have earlier := bounded event member
      rw [List.length_append, List.length_singleton]
      omega
    · intro index thread found
      by_cases old : index < state.threads.length
      · rw [List.getElem?_append_left old] at found
        exact follows index thread found
      · rw [List.getElem?_append_right (Nat.le_of_not_lt old)] at found
        have position : index = state.threads.length := by
          have bound := (List.getElem?_eq_some_iff.mp found).1
          rw [List.length_singleton] at bound
          omega
        subst position
        rw [Nat.sub_self] at found
        cases found
        rw [known_eq_initial fun event member => Nat.ne_of_lt (bounded event member)]
        exact programs operation
  | @perform events state index operation request continuation response next run found effect
      induction =>
    rcases induction with ⟨bounded, follows, trace⟩
    have current := follows index _ found
    have bound := (List.getElem?_eq_some_iff.mp found).1
    refine ⟨?_, ?_, .cons trace current.1 effect⟩
    · intro event member
      rw [List.length_set]
      rcases List.mem_cons.mp member with new | old
      · rw [new]
        exact bound
      · exact bounded event old
    · intro other thread there
      rw [List.getElem?_set] at there
      rw [known]
      split at there
      · next same =>
        subst same
        cases there
        rw [if_pos rfl]
        exact current.2 response
      · next different =>
        rw [if_neg different]
        exact follows other thread there

theorem Run.trace {post : Knowledge → Unit → Prop}
    (programs : ∀ operation, (system.program operation).Follows description post initial)
    {first : Store} {events : List (Event Store Call Response)}
    {state : SystemState Store Operation Call Response}
    (run : system.Run { store := first } events state) :
    Trace system description initial first events state.store :=
  (Run.follows system programs run).2.2

def restrict (sound : (call : Call) → Store → Response call → Prop) :
    SharedStore Store Operation Call Response :=
  { system with
    effect := fun call store response next =>
      system.effect call store response next ∧ sound call store response }

theorem Trace.restrict {sound : (call : Call) → Store → Response call → Prop} {first : Store}
    {events : List (Event Store Call Response)} {store : Store}
    (trace : Trace system description initial first events store)
    (each : ∀ event ∈ events, sound event.call event.before event.response) :
    Trace (system.restrict sound) description initial first events store := by
  induction trace with
  | nil => exact .nil
  | cons earlier allowed effect induction =>
    rw [List.forall_mem_cons] at each
    exact .cons (induction each.2) allowed ⟨effect, each.1⟩

/-- Facts about the store, and about what a thread knows, that every allowed
call keeps hold along every trace. -/
theorem Trace.invariant {invariant : Store → Prop} {holds : Knowledge → Prop} {first : Store}
    {events : List (Event Store Call Response)} {store : Store}
    (sound : ∀ {known call response store next}, invariant store → holds known →
      description.allowed known call → system.effect call store response next →
        invariant next ∧ holds (description.advance known call response))
    (start : invariant first) (initially : holds initial)
    (trace : Trace system description initial first events store) :
    invariant store ∧ ∀ thread, holds (known description initial thread events) := by
  induction trace with
  | nil => exact ⟨start, fun _ => initially⟩
  | @cons events store next thread call response earlier allowed effect induction =>
    have kept := sound induction.1 (induction.2 thread) allowed effect
    refine ⟨kept.1, fun other => ?_⟩
    rw [known]
    split
    · next same =>
      rw [← same]
      exact kept.2
    · exact induction.2 other

theorem Trace.knowledge (holds : Knowledge → Prop) {first : Store}
    {events : List (Event Store Call Response)} {store : Store}
    (sound : ∀ {known call response store next}, holds known →
      description.allowed known call → system.effect call store response next →
        holds (description.advance known call response)) (initially : holds initial)
    (trace : Trace system description initial first events store) (thread : Nat) :
    holds (known description initial thread events) := by
  have kept : True ∧ ∀ thread, holds (known description initial thread events) := by
    apply Trace.invariant system _ trivial initially trace
    intro known call response store next _ before allowed effect
    exact ⟨trivial, sound before allowed effect⟩
  exact kept.2 thread

/-- Facts that the threads know about the store, and that keep them apart from
each other: it is enough that a call keeps them for its own thread and for any
thread that is apart from it. -/
theorem Trace.pairwise {invariant : Store → Prop} {fact : Knowledge → Store → Prop}
    {apart : Knowledge → Knowledge → Prop} {first : Store}
    {events : List (Event Store Call Response)} {store : Store}
    (symmetric : ∀ {left right}, apart left right → apart right left)
    (start : invariant first) (initially : fact initial first) (separate : apart initial initial)
    (sound : ∀ {known call response store next}, invariant store → fact known store →
      description.allowed known call → system.effect call store response next →
        invariant next ∧ fact (description.advance known call response) next ∧
          ∀ other, fact other store → apart known other →
            fact other next ∧ apart (description.advance known call response) other)
    (trace : Trace system description initial first events store) :
    invariant store ∧ (∀ thread, fact (known description initial thread events) store) ∧
      ∀ left right, left ≠ right → apart (known description initial left events)
          (known description initial right events) := by
  induction trace with
  | nil => exact ⟨start, fun _ => initially, fun _ _ _ => separate⟩
  | @cons events store next thread call response earlier allowed effect induction =>
    rcases induction with ⟨holds, facts, apart⟩
    have kept := sound holds (facts thread) allowed effect
    have others : ∀ other, thread ≠ other → _ := fun other different =>
      kept.2.2 _ (facts other) (apart thread other different)
    simp only [known]
    refine ⟨kept.1, ?_, ?_⟩
    · intro other
      by_cases same : thread = other
      · rw [if_pos same, ← same]
        exact kept.2.1
      · rw [if_neg same]
        exact (others other same).1
    · intro left right different
      by_cases leftSame : thread = left
      · have rightOther : thread ≠ right := fun same => different (leftSame.symm.trans same)
        rw [if_pos leftSame, if_neg rightOther, ← leftSame]
        exact (others right rightOther).2
      · rw [if_neg leftSame]
        by_cases rightSame : thread = right
        · rw [if_pos rightSame, ← rightSame]
          exact symmetric (others left leftSame).2
        · rw [if_neg rightSame]
          exact apart left right different

/-- Nothing gets lost: what is accounted for by the store is so after every
call, or its thread holds it, and what a thread holds it keeps or settles. -/
theorem Trace.accounted {Item : Type} {settled : Store → Item → Prop}
    {holds : Knowledge → Item → Prop} {first : Store}
    {events : List (Event Store Call Response)} {store : Store} (start : ∀ item, settled first item)
    (sound : ∀ {known call response store next item}, description.allowed known call →
      system.effect call store response next → settled store item ∨ holds known item →
        settled next item ∨ holds (description.advance known call response) item)
    (trace : Trace system description initial first events store) (item : Item) :
    settled store item ∨ ∃ thread, holds (known description initial thread events) item := by
  induction trace with
  | nil => exact .inl (start item)
  | @cons events store next thread call response earlier allowed effect induction =>
    have moved : settled store item ∨ holds (known description initial thread events) item →
        settled next item ∨ ∃ other, holds (known description initial other
          (⟨thread, call, response, store, next⟩ :: events)) item := by
      intro before
      rcases sound allowed effect before with settles | held
      · exact .inl settles
      · refine .inr ⟨thread, ?_⟩
        rw [known, if_pos rfl]
        exact held
    rcases induction with settles | ⟨holder, held⟩
    · exact moved (.inl settles)
    · by_cases same : thread = holder
      · exact moved (.inr (same ▸ held))
      · refine .inr ⟨holder, ?_⟩
        rw [known, if_neg same]
        exact held

theorem Trace.of_mem {first : Store} {events : List (Event Store Call Response)} {store : Store}
    (trace : Trace system description initial first events store)
    {event : Event Store Call Response} (member : event ∈ events) :
    ∃ earlier, Trace system description initial first earlier event.before ∧
      description.allowed (known description initial event.thread earlier) event.call ∧
      system.effect event.call event.before event.response event.after := by
  induction trace with
  | nil => cases member
  | cons earlier allowed effect induction =>
    rcases List.mem_cons.mp member with same | old
    · rw [same]
      exact ⟨_, earlier, allowed, effect⟩
    · exact induction old

theorem Trace.kept {kept : Store → Prop} {first : Store}
    {events : List (Event Store Call Response)} {store : Store}
    (keeps : ∀ {call response store next}, system.effect call store response next →
      kept store → kept next) (trace : Trace system description initial first events store)
    {event : Event Store Call Response} (member : event ∈ events) (behind : kept event.after) :
    kept store := by
  induction trace with
  | nil => cases member
  | cons earlier allowed effect induction =>
    rcases List.mem_cons.mp member with same | old
    · rw [same] at behind
      exact behind
    · exact keeps effect (induction old)

def eventsOf (thread : Nat) (events : List (Event Store Call Response)) :
    List (Event Store Call Response) :=
  events.filter fun event => event.thread = thread

theorem mem_eventsOf {thread : Nat} {event : Event Store Call Response}
    {events : List (Event Store Call Response)} :
    event ∈ eventsOf thread events ↔ event ∈ events ∧ event.thread = thread := by
  rw [eventsOf, List.mem_filter, decide_eq_true_iff]

theorem Trace.own (holds : List (Event Store Call Response) → Knowledge → Prop) {first : Store}
    {events : List (Event Store Call Response)} {store : Store} (start : holds [] initial)
    (grows : ∀ {own known} {event : Event Store Call Response}, holds own known →
      description.allowed known event.call →
        holds (event :: own) (description.advance known event.call event.response))
    (trace : Trace system description initial first events store) (thread : Nat) :
    holds (eventsOf thread events) (known description initial thread events) := by
  induction trace with
  | nil => exact start
  | @cons events store next other call response earlier allowed effect induction =>
    rw [known, eventsOf, List.filter_cons]
    by_cases same : other = thread
    · subst same
      rw [if_pos rfl, if_pos (decide_eq_true rfl)]
      exact grows induction allowed
    · rw [if_neg same, if_neg (by simpa using same)]
      exact induction

/-- Since the latest refreshing event of the thread, no event has disturbed. -/
def Undisturbed (refreshes disturbs : Event Store Call Response → Prop) (thread : Nat) :
    List (Event Store Call Response) → Prop
  | [] => True
  | event :: earlier =>
    event.thread = thread ∧ refreshes event ∨
      ¬disturbs event ∧ Undisturbed refreshes disturbs thread earlier

instance (refreshes disturbs : Event Store Call Response → Prop) [DecidablePred refreshes]
    [DecidablePred disturbs] (thread : Nat) :
    DecidablePred (Undisturbed refreshes disturbs thread) :=
  decideUndisturbed
where
  decideUndisturbed : (events : List (Event Store Call Response)) →
      Decidable (Undisturbed refreshes disturbs thread events)
    | [] => inferInstanceAs (Decidable True)
    | event :: earlier =>
      have := decideUndisturbed earlier
      inferInstanceAs (Decidable (event.thread = thread ∧ refreshes event ∨
        ¬disturbs event ∧ Undisturbed refreshes disturbs thread earlier))

/-- A fact about the store that a thread knows, that its refreshing calls
establish and that every call keeps unless it disturbs, holds as long as nothing
has disturbed. -/
theorem Trace.undisturbed {refreshes disturbs : Event Store Call Response → Prop}
    {fact : Knowledge → Store → Prop} {first : Store} {events : List (Event Store Call Response)}
    {store : Store} {thread : Nat} (start : fact initial first)
    (own : ∀ {known} {event : Event Store Call Response}, event.thread = thread →
      description.allowed known event.call →
      system.effect event.call event.before event.response event.after →
      refreshes event ∨ ¬disturbs event ∧ fact known event.before →
        fact (description.advance known event.call event.response) event.after)
    (others : ∀ {known} {event : Event Store Call Response},
      system.effect event.call event.before event.response event.after → ¬disturbs event →
      fact known event.before → fact known event.after)
    (trace : Trace system description initial first events store)
    (undisturbed : Undisturbed refreshes disturbs thread events) :
    fact (known description initial thread events) store := by
  induction trace with
  | nil => exact start
  | @cons events store next other call response earlier allowed effect induction =>
    rw [known]
    rcases undisturbed with ⟨same, refreshing⟩ | ⟨harmless, before⟩
    · subst same
      rw [if_pos rfl]
      exact @own _ ⟨other, call, response, store, next⟩ rfl allowed effect (.inl refreshing)
    · by_cases same : other = thread
      · subst same
        rw [if_pos rfl]
        exact @own _ ⟨other, call, response, store, next⟩ rfl allowed effect
          (.inr ⟨harmless, induction before⟩)
      · rw [if_neg same]
        exact @others _ ⟨other, call, response, store, next⟩ effect harmless (induction before)

theorem Trace.stable {fact : Knowledge → Store → Prop} {first : Store}
    {events : List (Event Store Call Response)} {store : Store} (start : fact initial first)
    (own : ∀ {known} {event : Event Store Call Response}, description.allowed known event.call →
      system.effect event.call event.before event.response event.after → fact known event.before →
        fact (description.advance known event.call event.response) event.after)
    (others : ∀ {known} {event : Event Store Call Response},
      system.effect event.call event.before event.response event.after →
      fact known event.before → fact known event.after)
    (trace : Trace system description initial first events store) (thread : Nat) :
    fact (known description initial thread events) store := by
  have undisturbed : Undisturbed (fun _ => False) (fun _ => False) thread events := by
    clear trace
    induction events with
    | nil => trivial
    | cons event earlier induction => exact .inr ⟨id, induction⟩
  apply Trace.undisturbed system start _ _ trace undisturbed
  · intro known event _ allowed effect before
    exact own allowed effect (before.resolve_left id).2
  · intro known event effect _ before
    exact others effect before

end Traces

/-! ## Recording a schedule -/

section Schedules

variable {Choice : Type} (answer : Choice → (call : Call) → Store → Response call × Store)

def record
    (recorded : List (Event Store Call Response) × SystemState Store Operation Call Response) :
    Move Operation Choice →
      List (Event Store Call Response) × SystemState Store Operation Call Response
  | .start operation =>
    (recorded.1,
      { recorded.2 with
        threads := recorded.2.threads ++ [⟨operation, system.program operation⟩] })
  | .advance index choice =>
    match recorded.2.threads[index]? with
    | some ⟨operation, .call request continuation⟩ =>
      let (response, store) := answer choice request recorded.2.store
      (⟨index, request, response, recorded.2.store, store⟩ :: recorded.1,
        { store, threads := recorded.2.threads.set index ⟨operation, continuation response⟩ })
    | _ => recorded

variable {answer}
  (answers : ∀ choice request store,
    system.effect request store (answer choice request store).1 (answer choice request store).2)

include answers in
theorem run_record {first : SystemState Store Operation Call Response}
    {recorded : List (Event Store Call Response) × SystemState Store Operation Call Response}
    (run : system.Run first recorded.1 recorded.2) (move : Move Operation Choice) :
    system.Run first (system.record answer recorded move).1
      (system.record answer recorded move).2 := by
  cases move with
  | start operation => exact .start operation run
  | advance index choice =>
    rw [record]
    split
    · next operation request continuation found =>
      exact .perform run found (answers choice request recorded.2.store)
    · exact run

include answers in
theorem run_records {first : SystemState Store Operation Call Response}
    {recorded : List (Event Store Call Response) × SystemState Store Operation Call Response}
    (run : system.Run first recorded.1 recorded.2) (schedule : List (Move Operation Choice)) :
    system.Run first (schedule.foldl (system.record answer) recorded).1
      (schedule.foldl (system.record answer) recorded).2 := by
  induction schedule generalizing recorded with
  | nil => exact run
  | cons move schedule induction => exact induction (system.run_record answers run move)

end Schedules

end SharedStore

/-! ## Programs that report what they return

The value that an operation returns is no call to the store, and a run does not
show it. With reports among its calls it is an event like the others. -/

inductive Reporting (Call Outcome : Type)
  | call (call : Call)
  | report (outcome : Outcome)

namespace Reporting

variable {Store Call Outcome Choice : Type} {Response : Call → Type}

def Answer (Response : Call → Type) : Reporting Call Outcome → Type
  | .call request => Response request
  | .report _ => Unit

/-- A report leaves the store as it is. -/
def effect (effect : (call : Call) → Store → Response call → Store → Prop) :
    (call : Reporting Call Outcome) → Store → Answer Response call → Store → Prop
  | .call request, store, response, next => effect request store response next
  | .report _, store, _, next => next = store

def answer (answer : Choice → (call : Call) → Store → Response call × Store) (choice : Choice) :
    (call : Reporting Call Outcome) → Store → Answer Response call × Store
  | .call request, store => answer choice request store
  | .report _, store => ((), store)

theorem effect_answer {effect : (call : Call) → Store → Response call → Store → Prop}
    {answer : Choice → (call : Call) → Store → Response call × Store}
    (answers : ∀ choice call store,
      effect call store (answer choice call store).1 (answer choice call store).2)
    (choice : Choice) (call : Reporting Call Outcome) (store : Store) :
    Reporting.effect effect call store (Reporting.answer answer choice call store).1
      (Reporting.answer answer choice call store).2 := by
  cases call with
  | call request => exact answers choice request store
  | report outcome => rfl

end Reporting

def Description.ofCalls {Knowledge Call Outcome : Type} {Response : Call → Type}
    (description : Description Knowledge (Reporting Call Outcome) (Reporting.Answer Response)) :
    Description Knowledge Call Response where
  advance known call response := description.advance known (.call call) response
  allowed known call := description.allowed known (.call call)

namespace Program

variable {Knowledge Call Outcome : Type} {Response : Call → Type} {α : Type}

def lift : Program Call Response α →
    Program (Reporting Call Outcome) (Reporting.Answer Response) α
  | .done value => .done value
  | .call request next => .call (.call request) fun response => (next response).lift

def reports (program : Program Call Response Outcome) :
    Program (Reporting Call Outcome) (Reporting.Answer Response) Unit :=
  program.lift >>= fun outcome => .call (.report outcome) fun _ => .done ()

variable {description : Description Knowledge (Reporting Call Outcome) (Reporting.Answer Response)}
  {known : Knowledge}

theorem Follows.lift {post : Knowledge → α → Prop} {program : Program Call Response α}
    (follows : program.Follows description.ofCalls post known) :
    program.lift.Follows description post known := by
  induction program generalizing known with
  | done value => exact follows
  | call call next induction =>
    exact ⟨follows.1, fun response => induction response (follows.2 response)⟩

theorem Follows.reports {program : Program Call Response Outcome}
    (follows : program.Follows description.ofCalls
      (fun known outcome => description.allowed known (.report outcome)) known) :
    program.reports.Follows description (fun _ _ => True) known := by
  apply follows_bind
  apply follows.lift.mono
  intro reached outcome allowed
  exact ⟨allowed, fun _ => trivial⟩

end Program

end AgentC
