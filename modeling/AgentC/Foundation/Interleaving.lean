import Mathlib.Logic.Relation

/-! # Programs that share a store

A program is a sequence of calls to a shared store; what it does next depends
on the responses. Each call is atomic, and between two calls of one program any
calls of the others may happen. -/

namespace AgentC

inductive Program (Call : Type) (Response : Call → Type) (α : Type)
  | done (value : α)
  | call (request : Call) (next : Response request → Program Call Response α)

namespace Program

variable {Call : Type} {Response : Call → Type} {α β : Type}

def bind (program : Program Call Response α) (rest : α → Program Call Response β) :
    Program Call Response β :=
  match program with
  | .done value => rest value
  | .call request next => .call request fun response => (next response).bind rest

instance : Monad (Program Call Response) where
  pure := .done
  bind := bind

def request (call : Call) : Program Call Response (Response call) :=
  .call call .done

/-! ## Rules for programs

`assumed` says which responses a program may rely on, `promised` which calls it
may make. -/

section Rules

variable (assumed : (call : Call) → Response call → Prop) (promised : Call → Prop)

/-- As long as the responses are as assumed, every call is as promised, and a
value returned satisfies `post`. -/
def Satisfies (post : α → Prop) : Program Call Response α → Prop
  | .done value => post value
  | .call request next =>
    promised request ∧ ∀ response, assumed request response → (next response).Satisfies post

variable {assumed promised}

variable {post : α → Prop} {program : Program Call Response α}

theorem satisfies_pure {value : α} (holds : post value) :
    (pure value : Program Call Response α).Satisfies assumed promised post :=
  holds

theorem satisfies_request {call : Call} {post : Response call → Prop} (allowed : promised call)
    (holds : ∀ response, assumed call response → post response) :
    (request call : Program Call Response _).Satisfies assumed promised post :=
  ⟨allowed, holds⟩

theorem satisfies_bind {post : β → Prop} {rest : α → Program Call Response β}
    (first : program.Satisfies assumed promised fun value =>
      (rest value).Satisfies assumed promised post) :
    (program >>= rest).Satisfies assumed promised post := by
  induction program with
  | done value => exact first
  | call call next induction =>
    exact ⟨first.1, fun response allowed => induction response (first.2 response allowed)⟩

theorem satisfies_then {post : β → Prop} {rest : α → Program Call Response β}
    (first : program.Satisfies assumed promised fun _ => True)
    (next : ∀ value, (rest value).Satisfies assumed promised post) :
    (program >>= rest).Satisfies assumed promised post := by
  induction program with
  | done value => exact next value
  | call call further induction =>
    exact ⟨first.1, fun response allowed => induction response (first.2 response allowed)⟩

theorem satisfies_ite {condition : Prop} [Decidable condition]
    {left right : Program Call Response α}
    (satisfiesLeft : condition → left.Satisfies assumed promised post)
    (satisfiesRight : ¬condition → right.Satisfies assumed promised post) :
    (if condition then left else right).Satisfies assumed promised post := by
  split
  · next holds => exact satisfiesLeft holds
  · next fails => exact satisfiesRight fails

theorem satisfies_call {call : Call} {post : β → Prop}
    {rest : Response call → Program Call Response β} (allowed : promised call)
    (holds : ∀ response, assumed call response → (rest response).Satisfies assumed promised post) :
    (request call >>= rest).Satisfies assumed promised post :=
  satisfies_bind (satisfies_request allowed holds)

theorem Satisfies.mono {weaker : α → Prop} (satisfied : program.Satisfies assumed promised post)
    (implied : ∀ value, post value → weaker value) : program.Satisfies assumed promised weaker := by
  induction program with
  | done value => exact implied value satisfied
  | call call next induction =>
    exact ⟨satisfied.1, fun response allowed => induction response (satisfied.2 response allowed)⟩

theorem Satisfies.weaken {fewer : (call : Call) → Response call → Prop} {more : Call → Prop}
    (satisfied : program.Satisfies assumed promised post)
    (assumes : ∀ call response, fewer call response → assumed call response)
    (promises : ∀ call, promised call → more call) : program.Satisfies fewer more post := by
  induction program with
  | done value => exact satisfied
  | call call next induction =>
    exact ⟨promises call satisfied.1, fun response allowed =>
      induction response (satisfied.2 response (assumes call response allowed))⟩

theorem satisfies_of_all (allowed : ∀ call, promised call)
    (program : Program Call Response α) :
    program.Satisfies assumed promised fun _ => True := by
  induction program with
  | done value => trivial
  | call call next induction => exact ⟨allowed call, fun response _ => induction response⟩

theorem satisfies_forM {Item : Type} {items : List Item}
    {body : Item → Program Call Response PUnit}
    (each : ∀ item ∈ items, (body item).Satisfies assumed promised fun _ => True) :
    (items.forM body).Satisfies assumed promised fun _ => True := by
  induction items with
  | nil => trivial
  | cons item items induction =>
    apply satisfies_bind
    apply (each item (List.mem_cons_self ..)).mono
    intro _ _
    exact induction fun other member => each other (List.mem_cons_of_mem item member)

end Rules

end Program

/-- A store with the effect of each call on it, and the operations whose
programs run on it. -/
structure SharedStore (Store Operation Call : Type) (Response : Call → Type) where
  effect : (call : Call) → Store → Response call → Store → Prop
  program : Operation → Program Call Response Unit

/-- An operation under way: the part of its program still to come. -/
structure Thread (Operation Call : Type) (Response : Call → Type) where
  operation : Operation
  remaining : Program Call Response Unit

structure SystemState (Store Operation Call : Type) (Response : Call → Type) where
  store : Store
  threads : List (Thread Operation Call Response) := []

namespace SharedStore

variable {Store Operation Call : Type} {Response : Call → Type}
  (system : SharedStore Store Operation Call Response)

/-- A new operation starts, or one under way makes its next call. -/
inductive Step :
    SystemState Store Operation Call Response → SystemState Store Operation Call Response → Prop
  | start (store : Store) (threads : List (Thread Operation Call Response))
      (operation : Operation) :
      Step { store, threads } { store, threads := threads ++ [⟨operation, system.program operation⟩] }
  | perform {store next : Store} {request : Call} {response : Response request}
      (front rest : List (Thread Operation Call Response)) (operation : Operation)
      (continuation : Response request → Program Call Response Unit)
      (effect : system.effect request store response next) :
      Step { store, threads := front ++ ⟨operation, .call request continuation⟩ :: rest }
        { store := next, threads := front ++ ⟨operation, continuation response⟩ :: rest }

def Reaches :
    SystemState Store Operation Call Response → SystemState Store Operation Call Response → Prop :=
  Relation.ReflTransGen system.Step

/-- An invariant of the store that every promised call keeps and that gives the
assumed responses, together with the programs under way, is kept by every run. -/
theorem invariant_reaches {invariant : Store → Prop}
    {assumed : (call : Call) → Response call → Prop} {promised : Operation → Call → Prop}
    (sound : ∀ {operation request store response next}, invariant store →
      promised operation request → system.effect request store response next →
        assumed request response ∧ invariant next)
    (starts : ∀ operation,
      (system.program operation).Satisfies assumed (promised operation) fun _ => True)
    {first last : SystemState Store Operation Call Response} (reached : system.Reaches first last)
    (start : invariant first.store ∧ ∀ thread ∈ first.threads,
      thread.remaining.Satisfies assumed (promised thread.operation) fun _ => True) :
    invariant last.store ∧ ∀ thread ∈ last.threads,
      thread.remaining.Satisfies assumed (promised thread.operation) fun _ => True := by
  induction reached with
  | refl => exact start
  | tail _ step induction =>
    cases step with
    | start store threads operation =>
      constructor
      · exact induction.1
      · intro thread member
        rcases List.mem_append.mp member with old | new
        · exact induction.2 thread old
        · rw [List.mem_singleton.mp new]
          exact starts operation
    | perform front rest operation continuation effect =>
      have current := induction.2 _ (List.mem_append_right front (List.mem_cons_self ..))
      have kept := sound induction.1 current.1 effect
      constructor
      · exact kept.2
      · intro thread member
        rcases List.mem_append.mp member with before | behind
        · exact induction.2 thread (List.mem_append_left _ before)
        · rcases List.mem_cons.mp behind with same | after
          · subst same
            exact current.2 _ kept.1
          · exact induction.2 thread
              (List.mem_append_right front (List.mem_cons_of_mem _ after))

/-- A move of a schedule: a new operation, or the next call of the thread with
an index, answered as a choice says. -/
inductive Move (Operation Choice : Type)
  | start (operation : Operation)
  | advance (index : Nat) (choice : Choice)

variable {Choice : Type}
  (answer : Choice → (call : Call) → Store → Response call × Store)

/-- A move for which there is no thread with a call to make does nothing. -/
def move (state : SystemState Store Operation Call Response) :
    Move Operation Choice → SystemState Store Operation Call Response
  | .start operation =>
    { state with threads := state.threads ++ [⟨operation, system.program operation⟩] }
  | .advance index choice =>
    match state.threads[index]? with
    | some ⟨operation, .call request continuation⟩ =>
      let (response, store) := answer choice request state.store
      { store, threads := state.threads.set index ⟨operation, continuation response⟩ }
    | _ => state

variable {answer}
  (answers : ∀ choice request store,
    system.effect request store (answer choice request store).1 (answer choice request store).2)

variable (state : SystemState Store Operation Call Response)

include answers in
theorem reaches_move (move : Move Operation Choice) :
    system.Reaches state (system.move answer state move) := by
  cases move with
  | start operation => exact .single (.start state.store state.threads operation)
  | advance index choice =>
    rw [SharedStore.move]
    split
    · next operation request continuation found =>
      have bound := (List.getElem?_eq_some_iff.mp found).1
      have there := (List.getElem?_eq_some_iff.mp found).2
      have parts : state.threads = state.threads.take index ++
          ⟨operation, .call request continuation⟩ :: state.threads.drop (index + 1) := by
        rw [← there, ← List.drop_eq_getElem_cons bound, List.take_append_drop]
      have replaced : ∀ thread, state.threads.set index thread =
          state.threads.take index ++ thread :: state.threads.drop (index + 1) := by
        intro thread
        exact List.set_eq_take_append_cons_drop.trans (if_pos bound)
      have step := Step.perform (state.threads.take index) (state.threads.drop (index + 1))
        operation continuation (answers choice request state.store)
      rw [← parts, ← replaced] at step
      exact .single step
    · exact .refl

include answers in
theorem reaches_moves (schedule : List (Move Operation Choice)) :
    system.Reaches state (schedule.foldl (system.move answer) state) := by
  induction schedule generalizing state with
  | nil => exact .refl
  | cons first schedule induction =>
    exact (system.reaches_move answers state first).trans (induction _)

end SharedStore

end AgentC
