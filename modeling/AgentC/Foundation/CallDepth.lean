import Mathlib.Init

/-! # Counting active calls

A computation that knows how many calls of a function are active and notes their number
whenever another one begins. -/

namespace AgentC

def Watched (ε α : Type) : Type := Nat → Except ε α × List Nat

namespace Watched

variable {ε α β : Type}

def quiet (result : Except ε α) : Watched ε α := fun _ => (result, [])

/-- The computation is the body of a call. -/
def called (body : Watched ε α) : Watched ε α := fun active =>
  ((body (active + 1)).1, (active + 1) :: (body (active + 1)).2)

protected def bind (first : Watched ε α) (next : α → Watched ε β) : Watched ε β := fun active =>
  match (first active).1 with
  | .ok value => ((next value active).1, (first active).2 ++ (next value active).2)
  | .error error => (.error error, (first active).2)

instance : Monad (Watched ε) where
  pure value := quiet (.ok value)
  bind := Watched.bind

variable {first : Watched ε α} {next : α → Watched ε β} {active : Nat}

theorem pure_eq (value : α) : (pure value : Watched ε α) = quiet (.ok value) := rfl

theorem bind_ok {value : α} (done : (first active).1 = .ok value) : (first >>= next) active =
      ((next value active).1, (first active).2 ++ (next value active).2) := by
  change Watched.bind first next active = _
  rw [Watched.bind, done]

theorem bind_error {error : ε} (failed : (first active).1 = .error error) :
    (first >>= next) active = (.error error, (first active).2) := by
  change Watched.bind first next active = _
  rw [Watched.bind, failed]

theorem result_bind :
    ((first >>= next) active).1 = (first active).1 >>= fun value => (next value active).1 := by
  cases done : (first active).1 with
  | ok value => rw [bind_ok done]; rfl
  | error error => rw [bind_error done]; rfl

theorem result_bind_eq_ok {value : β} : ((first >>= next) active).1 = .ok value ↔
      ∃ middle, (first active).1 = .ok middle ∧ (next middle active).1 = .ok value := by
  cases done : (first active).1 with
  | ok middle => simp [bind_ok done]
  | error error => simp [bind_error done]

theorem mem_bind {count : Nat} : count ∈ ((first >>= next) active).2 ↔ count ∈ (first active).2 ∨
      ∃ middle, (first active).1 = .ok middle ∧ count ∈ (next middle active).2 := by
  cases done : (first active).1 with
  | ok middle => simp [bind_ok done]
  | error error => simp [bind_error done]

@[simp] theorem quiet_bind_ok (value : α) : (quiet (.ok value) >>= next) = next value := by
  funext active
  rw [bind_ok (show (quiet (.ok value) active).1 = .ok value from rfl)]
  rfl

@[simp] theorem quiet_bind_error (error : ε) :
    ((quiet (.error error) : Watched ε α) >>= next) = quiet (.error error) := by
  funext active
  exact bind_error rfl

@[simp] theorem result_quiet (result : Except ε α) : (quiet result active).1 = result := rfl

@[simp] theorem notes_quiet (result : Except ε α) : (quiet result active).2 = [] := rfl

@[simp] theorem result_called (body : Watched ε α) :
    (called body active).1 = (body (active + 1)).1 := rfl

theorem mem_called {body : Watched ε α} {count : Nat} :
    count ∈ (called body active).2 ↔ count = active + 1 ∨ count ∈ (body (active + 1)).2 :=
  List.mem_cons

/-- The rest decides the result, and its notes are among the notes of the whole. -/
def LeadsTo (active : Nat) (whole rest : Watched ε α) : Prop :=
  (whole active).1 = (rest active).1 ∧ (rest active).2 ⊆ (whole active).2

theorem LeadsTo.refl (whole : Watched ε α) : LeadsTo active whole whole :=
  ⟨rfl, List.Subset.refl _⟩

theorem LeadsTo.trans {whole middle rest : Watched ε α} (first : LeadsTo active whole middle)
    (second : LeadsTo active middle rest) : LeadsTo active whole rest :=
  ⟨first.1.trans second.1, List.Subset.trans second.2 first.2⟩

theorem leadsTo_of_ok {value : α} (done : (first active).1 = .ok value) :
    LeadsTo active (first >>= next) (next value) := by
  rw [LeadsTo, bind_ok done]
  exact ⟨rfl, List.subset_append_right ..⟩

def Agrees (left right : Watched ε α) : Prop :=
  ∀ active value, (left active).1 = .ok value → right active = left active

theorem Agrees.refl (left : Watched ε α) : Agrees left left := fun _ _ _ => rfl

theorem Agrees.quiet {left right : Except ε α}
    (same : ∀ value, left = .ok value → right = .ok value) : Agrees (quiet left) (quiet right) := by
  intro active value done
  have done : left = .ok value := done
  rw [done, same value done]

theorem Agrees.called {left right : Watched ε α} (agrees : Agrees left right) :
    Agrees (called left) (called right) := by
  intro active value done
  have same := agrees (active + 1) value done
  rw [Watched.called, Watched.called, same]

theorem Agrees.bind {left right : Watched ε α} {leftNext rightNext : α → Watched ε β}
    (agrees : Agrees left right) (nextAgrees : ∀ value, Agrees (leftNext value) (rightNext value)) :
    Agrees (left >>= leftNext) (right >>= rightNext) := by
  intro active value done
  rcases result_bind_eq_ok.mp done with ⟨middle, first, second⟩
  have same := agrees active middle first
  have rightFirst : (right active).1 = .ok middle := by rw [same]; exact first
  rw [bind_ok first, bind_ok rightFirst, same, nextAgrees middle active value second]

end Watched

end AgentC
