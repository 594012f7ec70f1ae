import Mathlib.Logic.Basic

/-! # Computations that may fail -/

namespace AgentC

theorem bind_eq_ok {ε α β : Type} {first : Except ε α} {next : α → Except ε β} {result : β} :
    (first >>= next) = .ok result ↔ ∃ value, first = .ok value ∧ next value = .ok result := by
  cases first with
  | error failure =>
    constructor
    · intro equal
      exact nomatch equal
    · intro found
      rcases found with ⟨value, impossible, _⟩
      exact nomatch impossible
  | ok value =>
    constructor
    · intro equal
      exact ⟨value, rfl, equal⟩
    · intro found
      rcases found with ⟨other, same, equal⟩
      cases same
      exact equal

/-- A loop over inputs succeeds exactly when every input is accepted, if that does not depend
on the states that the loop goes through. -/
theorem exists_foldlM_eq_ok {ε σ ι : Type} {step : σ → ι → Except ε σ} {holds : σ → Prop}
    {accepts : ι → Prop} (accepted : ∀ state input, holds state →
      ((∃ next, step state input = .ok next) ↔ accepts input))
    (kept : ∀ state input next, holds state → step state input = .ok next → holds next)
    (inputs : List ι) {state : σ} (initially : holds state) :
    (∃ final, inputs.foldlM step state = .ok final) ↔ ∀ input ∈ inputs, accepts input := by
  induction inputs generalizing state with
  | nil => exact ⟨fun _ => nofun, fun _ => ⟨state, rfl⟩⟩
  | cons input rest induction =>
    rw [List.forall_mem_cons, ← accepted state input initially]
    simp only [List.foldlM_cons, bind_eq_ok]
    constructor
    · rintro ⟨final, next, stepped, looped⟩
      have later := kept state input next initially stepped
      exact ⟨⟨next, stepped⟩, (induction later).mp ⟨final, looped⟩⟩
    · rintro ⟨⟨next, stepped⟩, rest⟩
      have later := kept state input next initially stepped
      rcases (induction later).mpr rest with ⟨final, looped⟩
      exact ⟨final, next, stepped, looped⟩

end AgentC
