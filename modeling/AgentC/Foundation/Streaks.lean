import Mathlib.Data.List.TakeWhile

/-! # Streaks

How often the newest item of a log was repeated, kept as a mark of the item and
a count. A log has its newest item in front. -/

namespace AgentC

section Streaks

variable {Item Mark : Type}

def streak [DecidableEq Item] (item : Item) (log : List Item) : Nat :=
  (log.takeWhile fun other => other = item).length

variable {item : Item} {log : List Item}

section

variable [DecidableEq Item]

theorem streak_cons_self (item : Item) (log : List Item) :
    streak item (item :: log) = streak item log + 1 := by
  rw [streak, List.takeWhile_cons_of_pos (by simp), List.length_cons, streak]

theorem streak_cons_of_ne {other : Item} (different : other ≠ item) (log : List Item) :
    streak item (other :: log) = 0 := by
  rw [streak, List.takeWhile_cons_of_neg (by simpa using different), List.length_nil]

theorem le_streak_iff {count : Nat} :
    count ≤ streak item log ↔ List.replicate count item <+: log := by
  induction count generalizing log with
  | zero => simp
  | succ count induction =>
    cases log with
    | nil => simp [streak, List.replicate_succ]
    | cons newest log =>
      rw [List.replicate_succ, List.cons_prefix_cons]
      by_cases same : newest = item
      · rw [same, streak_cons_self, Nat.add_le_add_iff_right, induction]
        exact ⟨fun front => ⟨rfl, front⟩, And.right⟩
      · rw [streak_cons_of_ne same]
        exact ⟨nofun, fun front => absurd front.1.symm same⟩

end

/-- No item is repeated more than `limit` times in a row. -/
def StreaksWithin (limit : Nat) (log : List Item) : Prop :=
  ∀ item, ¬List.replicate (limit + 1) item <:+: log

theorem StreaksWithin.nil (limit : Nat) : StreaksWithin limit ([] : List Item) := by
  intro item repeated
  cases List.infix_nil.mp repeated

theorem StreaksWithin.cons [DecidableEq Item] {limit : Nat} {log : List Item} {item : Item}
    (within : StreaksWithin limit log) (below : streak item (item :: log) ≤ limit) :
    StreaksWithin limit (item :: log) := by
  intro other repeated
  rcases List.infix_cons_iff.mp repeated with newest | older
  · rw [← le_streak_iff] at newest
    by_cases same : item = other
    · rw [← same] at newest
      omega
    · rw [streak_cons_of_ne same] at newest
      omega
  · exact within other older

theorem StreaksWithin.reverse {limit : Nat} (within : StreaksWithin limit log) :
    StreaksWithin limit log.reverse := by
  intro item repeated
  rw [← List.reverse_replicate, List.reverse_infix] at repeated
  exact within item repeated

/-- The mark of the newest item, and how often it was repeated. -/
@[ext] structure StreakCounter (Mark : Type) where
  mark : Mark
  count : Nat

namespace StreakCounter

variable [DecidableEq Item] [DecidableEq Mark]

def add (mark : Mark) (counter : StreakCounter Mark) : StreakCounter Mark :=
  if mark = counter.mark then ⟨counter.mark, counter.count + 1⟩ else ⟨mark, 1⟩

/-- The counter after a log. An empty log has a mark of its own. -/
def after (markOf : Item → Mark) (idle : Mark) : List Item → StreakCounter Mark
  | [] => ⟨idle, 0⟩
  | item :: log => ⟨markOf item, streak item (item :: log)⟩

theorem add_after {markOf : Item → Mark} {idle : Mark} (marked : markOf item ≠ idle)
    (injective : ∀ other ∈ log, markOf other = markOf item → other = item) :
    (after markOf idle log).add (markOf item) = after markOf idle (item :: log) := by
  cases log with
  | nil =>
    have single : streak item [item] = 1 := streak_cons_self item []
    rw [after, add, if_neg marked, after, single]
  | cons newest log =>
    rw [after, add, after]
    by_cases same : newest = item
    · rw [same, if_pos rfl, streak_cons_self item (item :: log)]
    · have unlike : markOf item ≠ markOf newest := fun equal =>
        same (injective newest List.mem_cons_self equal.symm)
      rw [if_neg unlike, streak_cons_self item (newest :: log), streak_cons_of_ne same]

end StreakCounter

end Streaks

end AgentC
