import Mathlib.Logic.Basic
import Mathlib.Logic.Relation

/-! # Machines that read their input in pieces

A machine reads one symbol at a time and puts out any number of results. What
it does on a sequence of pieces is what it does on their concatenation. -/

namespace AgentC

structure Machine (State Input Output : Type) where
  step : State → Input → State × List Output

namespace Machine

variable {State Input Output : Type} (machine : Machine State Input Output)

def run (state : State) : List Input → State × List Output
  | [] => (state, [])
  | symbol :: rest =>
    let (next, outputs) := machine.step state symbol
    let (final, later) := run next rest
    (final, outputs ++ later)

@[simp]
theorem run_nil (state : State) : machine.run state [] = (state, []) :=
  rfl

theorem run_cons (state : State) (symbol : Input) (rest : List Input) :
    machine.run state (symbol :: rest) = ((machine.run (machine.step state symbol).1 rest).1,
        (machine.step state symbol).2 ++ (machine.run (machine.step state symbol).1 rest).2) :=
  rfl

theorem run_append (state : State) (front rest : List Input) : machine.run state (front ++ rest) =
      ((machine.run (machine.run state front).1 rest).1,
        (machine.run state front).2 ++ (machine.run (machine.run state front).1 rest).2) := by
  induction front generalizing state with
  | nil => rfl
  | cons symbol front induction =>
    rw [List.cons_append, run_cons, run_cons, induction, List.append_assoc]

theorem run_invariant (invariant : State → Prop)
    (kept : ∀ state symbol, invariant state → invariant (machine.step state symbol).1)
    {state : State} (start : invariant state) (input : List Input) :
    invariant (machine.run state input).1 := by
  induction input generalizing state with
  | nil => exact start
  | cons symbol input induction =>
    rw [run_cons]
    exact induction (kept state symbol start)

theorem run_gains {holds : State → Prop} {state : State} {input : List Input}
    (before : ¬holds state) (behind : holds (machine.run state input).1) :
    ∃ front symbol rest, input = front ++ symbol :: rest ∧ ¬holds (machine.run state front).1 ∧
      holds (machine.step (machine.run state front).1 symbol).1 := by
  induction input generalizing state with
  | nil => exact absurd behind before
  | cons symbol input induction =>
    by_cases now : holds (machine.step state symbol).1
    · exact ⟨[], symbol, input, rfl, before, now⟩
    · rcases induction now behind with ⟨front, later, rest, split, missing, gained⟩
      exact ⟨symbol :: front, later, rest, congrArg (symbol :: ·) split, missing, gained⟩

end Machine

abbrev Attempt (State Failure : Type) := ExceptT Failure (StateM State)

namespace Attempt

variable {State Failure Input : Type}

def outcome (action : Attempt State Failure Unit) (state : State) : Except Failure Unit × State :=
  StateT.run (ExceptT.run action) state

theorem outcome_pure (state : State) :
    outcome (pure () : Attempt State Failure Unit) state = (.ok (), state) :=
  rfl

theorem outcome_throw (failure : Failure) (state : State) :
    outcome (throw failure) state = (.error failure, state) :=
  rfl

theorem outcome_get (action : State → Attempt State Failure Unit) (state : State) :
    outcome (do action (← get)) state = outcome (action state) state :=
  rfl

theorem outcome_set (action : Attempt State Failure Unit) (state next : State) :
    outcome (do set next; action) state = outcome action next :=
  rfl

theorem outcome_bind (first second : Attempt State Failure Unit) (state : State) :
    outcome (do first; second) state =
      match outcome first state with
      | (.ok _, next) => outcome second next
      | (.error failure, next) => (.error failure, next) := by
  change outcome (first >>= fun _ => second) state = _
  simp only [outcome, ExceptT.run_bind, StateT.run_bind]
  rcases StateT.run (ExceptT.run first) state with ⟨result, next⟩
  cases result with
  | error failure => rfl
  | ok value => rfl

theorem outcome_forM_cons (action : Input → Attempt State Failure Unit) (input : Input)
    (rest : List Input) (state : State) :
    outcome (List.forM (input :: rest) action) state =
      match outcome (action input) state with
      | (.ok _, next) => outcome (List.forM rest action) next
      | (.error failure, next) => (.error failure, next) :=
  outcome_bind (action input) (List.forM rest action) state

theorem outcome_forM_append (action : Input → Attempt State Failure Unit)
    (front rest : List Input) (state : State) :
    outcome (List.forM (front ++ rest) action) state =
      match outcome (List.forM front action) state with
      | (.ok _, next) => outcome (List.forM rest action) next
      | (.error failure, next) => (.error failure, next) := by
  rw [← outcome_bind]
  exact congrArg (outcome · state) List.forM_append

def Achieves (relation : State → State → Prop) (action : Attempt State Failure Unit) : Prop :=
  ∀ before after, outcome action before = (.ok (), after) → relation before after

theorem achieves_pure {relation : State → State → Prop} (same : ∀ state, relation state state) :
    Achieves relation (pure () : Attempt State Failure Unit) := by
  intro before after done
  cases done
  exact same before

theorem Achieves.andThen {earlier later whole : State → State → Prop}
    {first second : Attempt State Failure Unit} (front : Achieves earlier first)
    (rest : Achieves later second)
    (composed : ∀ before middle after, earlier before middle → later middle after →
      whole before after) :
    Achieves whole (do first; second) := by
  intro before after done
  rw [outcome_bind] at done
  rcases reached : outcome first before with ⟨result, middle⟩
  rw [reached] at done
  cases result with
  | error failure => cases done
  | ok value => exact composed _ _ _ (front _ _ reached) (rest _ _ done)

theorem achieves_forM {relation : List Input → State → State → Prop}
    {each : Input → State → State → Prop} {action : Input → Attempt State Failure Unit}
    (achieved : ∀ input, Achieves (each input) (action input))
    (nil : ∀ state, relation [] state state)
    (cons : ∀ input rest before middle after, each input before middle →
      relation rest middle after → relation (input :: rest) before after)
    (inputs : List Input) : Achieves (relation inputs) (List.forM inputs action) := by
  induction inputs with
  | nil => exact achieves_pure nil
  | cons input rest induction => exact (achieved input).andThen induction (cons input rest)

/-- Every action is tried, whatever the ones before it reported. -/
def tryAll (action : Input → Attempt State Failure Unit) (state : State) :
    List Input → State
  | [] => state
  | input :: rest => tryAll action (outcome (action input) state).2 rest

theorem tryAll_eq_of_ok {action : Input → Attempt State Failure Unit} {inputs : List Input}
    {state : State} (succeeded : (outcome (List.forM inputs action) state).1 = .ok ()) :
    tryAll action state inputs = (outcome (List.forM inputs action) state).2 := by
  induction inputs generalizing state with
  | nil => rfl
  | cons input rest induction =>
    rw [outcome_forM_cons] at succeeded ⊢
    rw [tryAll]
    rcases first : outcome (action input) state with ⟨result, next⟩
    rw [first] at succeeded
    cases result with
    | error failure => exact nomatch succeeded
    | ok value => exact induction succeeded

end Attempt

/-! ## Loops that take turns

A loop takes turns until there is none to take. What every turn keeps is kept by the loop,
at every moment of it. -/

variable {State : Type}

/-- The loop of a turn. Every turn makes the state smaller. -/
def turnLoop (turn : State → Option State) (size : State → Nat)
    (smaller : ∀ state next, turn state = some next → size next < size state)
    (state : State) : State :=
  match _taken : turn state with
  | none => state
  | some next => turnLoop turn size smaller next
termination_by size state
decreasing_by exact smaller state next ‹_›

def TurnsTo (turn : State → Option State) : State → State → Prop :=
  Relation.ReflTransGen fun state next => turn state = some next

theorem TurnsTo.keeps {turn : State → Option State} {holds : State → Prop}
    (kept : ∀ state next, turn state = some next → holds state → holds next)
    {state final : State} (turns : TurnsTo turn state final) (start : holds state) :
    holds final := by
  induction turns with
  | refl => exact start
  | tail _ taken induction => exact kept _ _ taken induction

variable {turn : State → Option State} {size : State → Nat}
  {smaller : ∀ state next, turn state = some next → size next < size state}

theorem turnLoop_spec (state : State) : TurnsTo turn state (turnLoop turn size smaller state) ∧
      turn (turnLoop turn size smaller state) = none := by
  induction state using turnLoop.induct turn size smaller with
  | case1 state stopped =>
    rw [turnLoop]
    split
    · exact ⟨.refl, stopped⟩
    · next next taken =>
      rw [stopped] at taken
      cases taken
  | case2 state next taken induction =>
    rw [turnLoop]
    split
    · next stopped =>
      rw [stopped] at taken
      cases taken
    · next other same =>
      rw [same] at taken
      cases taken
      exact ⟨.head same induction.1, induction.2⟩

end AgentC
