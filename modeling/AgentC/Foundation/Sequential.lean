import AgentC.Foundation.Interleaving
import Mathlib.Order.Defs.PartialOrder

/-! # Programs that run on their own

What a program does to the store when no other program is under way: executions,
what a program ensures, and operations one after the other. -/

namespace AgentC

namespace Program

variable {Store Call : Type} {Response : Call → Type} {α β : Type}

section Executions

variable (effect : (call : Call) → Store → Response call → Store → Prop)

/-- A program makes its calls one after the other and returns a value. -/
inductive Executes : Program Call Response α → Store → α → Store → Prop
  | done (value : α) (store : Store) : Executes (.done value) store value store
  | call {request : Call} {next : Response request → Program Call Response α}
      {response : Response request} {store middle last : Store} {value : α}
      (performed : effect request store response middle)
      (rest : Executes (next response) middle value last) :
      Executes (.call request next) store value last

/-- From a store on, whatever the responses are, the value returned and the
store at the end satisfy `post`. -/
def Ensures (post : α → Store → Prop) : Program Call Response α → Store → Prop
  | .done value, store => post value store
  | .call request next, store =>
    ∀ response middle, effect request store response middle → (next response).Ensures post middle

variable {effect}

theorem Ensures.of_executes {post : α → Store → Prop} {program : Program Call Response α}
    {store last : Store} {value : α} (ensures : program.Ensures effect post store)
    (executes : program.Executes effect store value last) : post value last := by
  induction executes with
  | done => exact ensures
  | call performed _ induction => exact induction (ensures _ _ performed)

theorem executes_request {call : Call} {store next : Store} {response : Response call}
    (performed : effect call store response next) :
    (request call : Program Call Response _).Executes effect store response next :=
  .call performed (.done response next)

theorem Executes.bind {program : Program Call Response α} {rest : α → Program Call Response β}
    {store middle last : Store} {value : α} {result : β}
    (first : program.Executes effect store value middle)
    (second : (rest value).Executes effect middle result last) :
    (program >>= rest).Executes effect store result last := by
  induction first with
  | done => exact second
  | call performed _ induction => exact .call performed (induction second)

theorem ensures_bind {post : β → Store → Prop} {program : Program Call Response α}
    {rest : α → Program Call Response β} {store : Store}
    (first : program.Ensures effect (fun value middle => (rest value).Ensures effect post middle)
      store) : (program >>= rest).Ensures effect post store := by
  induction program generalizing store with
  | done value => exact first
  | call request next induction =>
    intro response middle performed
    exact induction response (first response middle performed)

theorem ensures_call {call : Call} {post : β → Store → Prop}
    {rest : Response call → Program Call Response β} {store : Store}
    (holds : ∀ response middle, effect call store response middle →
      (rest response).Ensures effect post middle) :
    (request call >>= rest).Ensures effect post store :=
  ensures_bind holds

theorem Ensures.mono {post weaker : α → Store → Prop} {program : Program Call Response α}
    {store : Store} (ensures : program.Ensures effect post store)
    (implied : ∀ value last, post value last → weaker value last) :
    program.Ensures effect weaker store := by
  induction program generalizing store with
  | done value => exact implied value store ensures
  | call request next induction =>
    intro response middle performed
    exact induction response (ensures response middle performed)

/-- Calls that keep an invariant of the store, and the value as promised. -/
theorem Satisfies.ensures (invariant : Store → Prop)
    {assumed : (call : Call) → Response call → Prop} {promised : Call → Prop} {post : α → Prop}
    {program : Program Call Response α} {store : Store}
    (sound : ∀ {call store response next}, invariant store → promised call →
      effect call store response next → assumed call response ∧ invariant next)
    (satisfied : program.Satisfies assumed promised post) (start : invariant store) :
    program.Ensures effect (fun value last => post value ∧ invariant last) store := by
  induction program generalizing store with
  | done value => exact ⟨satisfied, start⟩
  | call request next induction =>
    intro response middle performed
    have kept := sound start satisfied.1 performed
    exact induction response (satisfied.2 response kept.1) kept.2

end Executions

def execute (answer : (call : Call) → Store → Response call × Store) :
    Program Call Response α → Store → α × Store
  | .done value, store => (value, store)
  | .call request next, store =>
    (next (answer request store).1).execute answer (answer request store).2

theorem executes_execute {effect : (call : Call) → Store → Response call → Store → Prop}
    {answer : (call : Call) → Store → Response call × Store}
    (answers : ∀ call store, effect call store (answer call store).1 (answer call store).2)
    (program : Program Call Response α) (store : Store) :
    program.Executes effect store (program.execute answer store).1
      (program.execute answer store).2 := by
  induction program generalizing store with
  | done value => exact .done value store
  | call request next induction =>
    exact .call (answers request store) (induction _ _)

end Program

structure Performance (Store Operation : Type) where
  operation : Operation
  before : Store
  after : Store

namespace SharedStore

variable {Store Operation Call : Type} {Response : Call → Type}
  (system : SharedStore Store Operation Call Response)

def Performs (performance : Performance Store Operation) : Prop :=
  (system.program performance.operation).Executes system.effect performance.before ()
    performance.after

inductive Sequence : Store → List (Performance Store Operation) → Store → Prop
  | nil (store : Store) : Sequence store [] store
  | cons {performance : Performance Store Operation}
      {performances : List (Performance Store Operation)} {last : Store}
      (performs : system.Performs performance) (rest : Sequence performance.after performances last) :
      Sequence performance.before (performance :: performances) last

variable {performances : List (Performance Store Operation)}

theorem Sequence.forall {holds : Performance Store Operation → Prop}
    (each : ∀ performance, system.Performs performance → holds performance) {first last : Store}
    (sequence : system.Sequence first performances last) :
    ∀ performance ∈ performances, holds performance := by
  induction sequence with
  | nil store => exact fun _ member => nomatch member
  | cons performs _ induction =>
    intro performance member
    rcases List.mem_cons.mp member with here | there
    · rw [here]
      exact each _ performs
    · exact induction performance there

theorem Sequence.rises {View : Type} [Preorder View] {view : Store → Option View}
    {first last : Store} (sequence : system.Sequence first performances last)
    (each : ∀ performance ∈ performances, system.Performs performance →
      ∀ old, view performance.before = some old →
        ∃ new, view performance.after = some new ∧ old ≤ new) {start : View}
    (shown : view first = some start) :
    ∀ performance ∈ performances, ∃ old new, view performance.before = some old ∧
      view performance.after = some new ∧ start ≤ old ∧ old ≤ new := by
  induction sequence generalizing start with
  | nil store => exact fun _ member => nomatch member
  | cons performs _ induction =>
    rw [List.forall_mem_cons] at each ⊢
    rcases each.1 performs start shown with ⟨middle, reached, rises⟩
    constructor
    · exact ⟨start, middle, shown, reached, le_refl start, rises⟩
    · intro performance member
      rcases induction each.2 reached performance member with
        ⟨old, new, before, after, above, step⟩
      exact ⟨old, new, before, after, le_trans rises above, step⟩

end SharedStore

end AgentC
