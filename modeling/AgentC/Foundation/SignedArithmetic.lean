import AgentC.Foundation.Fallible
import Mathlib.Algebra.Order.Ring.Int

/-! # Signed arithmetic of a fixed width

Computations without a meaning as soon as the result of an operation does not fit in its
width, or an index is not in its array. As long as they have one, integer arithmetic gives
the same results. -/

namespace AgentC

/-- Why a computation has no meaning. -/
inductive Undefined
  | overflow
  | outOfBounds
  | endless
deriving DecidableEq, Repr

abbrev Defined (α : Type) := Except Undefined α

def InSigned (bits : Nat) (value : Int) : Prop :=
  -2 ^ (bits - 1) ≤ value ∧ value < 2 ^ (bits - 1)

instance (bits : Nat) (value : Int) : Decidable (InSigned bits value) :=
  inferInstanceAs (Decidable (_ ∧ _))

def signed (bits : Nat) (value : Int) : Defined Int :=
  if InSigned bits value then .ok value else .error .overflow

def writeAt {α : Type} (cells : List α) (index : Int) (value : α) : Defined (List α) :=
  if 0 ≤ index ∧ index < cells.length then .ok (cells.set index.toNat value)
  else .error .outOfBounds

/-- The computation has a meaning exactly when it is safe, and then the exact result. -/
structure Computes {α : Type} (computation : Defined α) (safe : Prop) (exact : α) : Prop where
  meaning : (∃ result, computation = .ok result) ↔ safe
  result : ∀ result, computation = .ok result → result = exact

namespace Computes

variable {α β : Type} {computation : Defined α} {safe : Prop} {exact : α}

theorem of_eq (same : computation = .ok exact) : Computes computation True exact where
  meaning := ⟨fun _ => trivial, fun _ => ⟨exact, same⟩⟩
  result := fun _ equal => Except.ok.inj (equal.symm.trans same)

theorem of_error {reason : Undefined} (same : computation = .error reason) :
    Computes computation False exact where
  meaning := ⟨fun ⟨_, equal⟩ => (nomatch same.symm.trans equal), nofun⟩
  result := fun _ equal => (nomatch same.symm.trans equal)

theorem pure (exact : α) : Computes (Pure.pure exact) True exact :=
  of_eq rfl

theorem congr (computes : Computes computation safe exact) {other : Prop} (same : safe ↔ other) :
    Computes computation other exact :=
  ⟨computes.meaning.trans same, computes.result⟩

theorem signed (bits : Nat) (value : Int) :
    Computes (AgentC.signed bits value) (InSigned bits value) value := by
  rw [AgentC.signed]
  split
  · next fits => exact (of_eq rfl).congr ⟨fun _ => fits, fun _ => trivial⟩
  · next wide => exact (of_error rfl).congr ⟨False.elim, fun fits => absurd fits wide⟩

theorem fits {bits : Nat} {value : Int} (inside : InSigned bits value) :
    Computes (AgentC.signed bits value) True value :=
  of_eq (if_pos inside)

theorem writeAt (cells : List α) (index : Int) (value : α) :
    Computes (AgentC.writeAt cells index value) (0 ≤ index ∧ index < cells.length)
      (cells.set index.toNat value) := by
  rw [AgentC.writeAt]
  split
  · next inside => exact (of_eq rfl).congr ⟨fun _ => inside, fun _ => trivial⟩
  · next outside => exact (of_error rfl).congr ⟨False.elim, fun inside => absurd inside outside⟩

theorem eq_ok (computes : Computes computation safe exact) (holds : safe) :
    computation = .ok exact := by
  rcases computes.meaning.mpr holds with ⟨result, equal⟩
  rw [equal, computes.result result equal]

theorem bind (first : Computes computation safe exact) {next : α → Defined β} {after : Prop}
    {final : β} (second : safe → Computes (next exact) after final) :
    Computes (computation >>= next) (safe ∧ after) final where
  meaning := by
    constructor
    · rintro ⟨result, equal⟩
      rcases bind_eq_ok.mp equal with ⟨value, computed, continued⟩
      have safely := first.meaning.mp ⟨value, computed⟩
      rw [first.result value computed] at continued
      exact ⟨safely, (second safely).meaning.mp ⟨result, continued⟩⟩
    · rintro ⟨safely, later⟩
      rcases (second safely).meaning.mpr later with ⟨result, continued⟩
      exact ⟨result, bind_eq_ok.mpr ⟨exact, first.eq_ok safely, continued⟩⟩
  result := by
    intro result equal
    rcases bind_eq_ok.mp equal with ⟨value, computed, continued⟩
    have safely := first.meaning.mp ⟨value, computed⟩
    rw [first.result value computed] at continued
    exact (second safely).result result continued

theorem then_safe (first : Computes computation True exact) {next : α → Defined β} {final : β}
    (second : Computes (next exact) True final) : Computes (computation >>= next) True final :=
  (first.bind fun _ => second).congr (and_self_iff)

variable {ε ι : Type}

variable {next : α → ExceptT ε Defined β}

theorem lift (first : Computes computation safe exact) {after : Prop} {final : Except ε β}
    (second : safe → Computes (next exact).run after final) :
    Computes (liftM computation >>= next).run (safe ∧ after) final := by
  have same : (liftM computation >>= next).run = computation >>= fun value => (next value).run := by
    cases computation <;> rfl
  rw [same]
  exact first.bind second

theorem andThen {computation : ExceptT ε Defined α} {exact : Except ε α}
    (first : Computes computation.run safe exact) {accepted : Prop}
    (reached : (∃ value, exact = .ok value) ↔ accepted) {exactNext : α → Except ε β} {after : Prop}
    (second : ∀ value, exact = .ok value → Computes (next value).run after (exactNext value)) :
    Computes (computation >>= next).run (safe ∧ (accepted → after)) (exact >>= exactNext) := by
  rw [ExceptT.run_bind]
  refine first.bind fun _ => ?_
  cases exact with
  | error failure =>
    apply (pure _).congr
    refine ⟨fun _ holds => ?_, fun _ => trivial⟩
    rcases reached.mpr holds with ⟨_, impossible⟩
    cases impossible
  | ok value =>
    have holds := reached.mp ⟨value, rfl⟩
    exact (second value rfl).congr ⟨fun safely _ => safely, fun later => later holds⟩

/-- Every input is safe, up to the first that is refused and with it. -/
def UpToRefused (safe accepts : ι → Prop) : List ι → Prop
  | [] => True
  | input :: rest => safe input ∧ (accepts input → UpToRefused safe accepts rest)

theorem foldlM {step : β → ι → ExceptT ε Defined β} {exactStep : β → ι → Except ε β}
    {holds : β → Prop} {safe accepts : ι → Prop} (computes : ∀ state input, holds state →
      Computes (step state input).run (safe input) (exactStep state input))
    (accepted : ∀ state input, holds state →
      ((∃ next, exactStep state input = .ok next) ↔ accepts input))
    (kept : ∀ state input next, holds state → exactStep state input = .ok next → holds next)
    (inputs : List ι) {state : β} (initially : holds state) :
    Computes (inputs.foldlM step state).run (UpToRefused safe accepts inputs)
      (inputs.foldlM exactStep state) := by
  induction inputs generalizing state with
  | nil => exact pure _
  | cons input rest induction =>
    rw [List.foldlM_cons, List.foldlM_cons, UpToRefused]
    exact (computes state input initially).andThen (accepted state input initially)
      fun next reached => induction (kept state input next initially reached)

end Computes

end AgentC
