import Mathlib.Data.List.Sort
import Mathlib.Data.List.Dedup

/-! # Counting votes

The values that are voted for with the numbers of their votes, and the value
that leads them: the one with the most votes, and of several such values the
first in an order of the values. Nothing depends on the order in which the
values are gone through. -/

namespace AgentC

section Leading

variable {α : Type} (before : α → α → Prop)

/-- The entry that comes before all of the entries. -/
structure Leads (entries : List α) (leader : α) : Prop where
  member : leader ∈ entries
  first : ∀ entry ∈ entries, before leader entry

variable {before}

theorem Leads.unique [Std.Antisymm before] {entries others : List α} {leader other : α}
    (leads : Leads before entries leader) (same : ∀ entry, entry ∈ entries ↔ entry ∈ others)
    (otherLeads : Leads before others other) : leader = other :=
  Std.Antisymm.antisymm leader other (leads.first other ((same other).mpr otherLeads.member))
    (otherLeads.first leader ((same leader).mp leads.member))

variable (before) [DecidableRel before]

def leading (best : Option α) (entry : α) : Option α :=
  match best with
  | none => some entry
  | some leader => if before leader entry then some leader else some entry

variable [IsTrans α before] [Std.Total before]

theorem leads_foldl_leading (first : α) (entries : List α) :
    ∃ leader, entries.foldl (leading before) (some first) = some leader ∧
      Leads before (first :: entries) leader := by
  induction entries generalizing first with
  | nil =>
    refine ⟨first, rfl, List.mem_singleton_self first, fun entry member => ?_⟩
    rw [List.mem_singleton.mp member]
    exact (Std.Total.total first first).elim id id
  | cons entry entries induction =>
    rw [List.foldl_cons, leading]
    split
    next ahead =>
      rcases induction first with ⟨leader, found, leads⟩
      refine ⟨leader, found, ?_, ?_⟩
      · rcases List.mem_cons.mp leads.member with same | later
        · exact same ▸ List.mem_cons_self ..
        · exact List.mem_cons_of_mem _ (List.mem_cons_of_mem _ later)
      · have aheadOfEntry : before leader entry :=
          IsTrans.trans leader first entry (leads.first first (List.mem_cons_self ..)) ahead
        intro other member
        rcases List.mem_cons.mp member with same | later
        · exact same ▸ leads.first first (List.mem_cons_self ..)
        · rcases List.mem_cons.mp later with same | last
          · exact same ▸ aheadOfEntry
          · exact leads.first other (List.mem_cons_of_mem _ last)
    next behind =>
      rcases induction entry with ⟨leader, found, leads⟩
      have ahead : before entry first := (Std.Total.total first entry).resolve_left behind
      refine ⟨leader, found, List.mem_cons_of_mem _ leads.member, fun other member => ?_⟩
      rcases List.mem_cons.mp member with same | later
      · subst same
        exact IsTrans.trans leader entry other (leads.first entry (List.mem_cons_self ..)) ahead
      · exact leads.first other later

end Leading

section Ranking

variable {Value : Type} (before : Value → Value → Prop)

/-- More votes first, and the values with the same number of votes in their order. -/
def Outranks (left right : Value × Nat) : Prop :=
  right.2 < left.2 ∨ left.2 = right.2 ∧ before left.1 right.1

instance [DecidableRel before] : DecidableRel (Outranks before) :=
  fun left right => inferInstanceAs
    (Decidable (right.2 < left.2 ∨ left.2 = right.2 ∧ before left.1 right.1))

instance [IsTrans Value before] : IsTrans (Value × Nat) (Outranks before) where
  trans left middle right first second := by
    rcases first with more | ⟨same, ahead⟩
    · rcases second with moreAgain | ⟨sameAgain, _⟩
      · exact .inl (moreAgain.trans more)
      · exact .inl (sameAgain ▸ more)
    · rcases second with more | ⟨sameAgain, aheadAgain⟩
      · exact .inl (same ▸ more)
      · exact .inr ⟨same.trans sameAgain,
          IsTrans.trans left.1 middle.1 right.1 ahead aheadAgain⟩

instance [Std.Antisymm before] : Std.Antisymm (Outranks before) where
  antisymm left right first second := by
    rcases first with more | ⟨same, ahead⟩
    · rcases second with less | ⟨same, _⟩ <;> omega
    · rcases second with less | ⟨_, behind⟩
      · omega
      · exact Prod.ext (Std.Antisymm.antisymm left.1 right.1 ahead behind) same

instance [Std.Total before] : Std.Total (Outranks before) where
  total left right := by
    rcases Nat.lt_trichotomy left.2 right.2 with less | same | more
    · exact .inr (.inl less)
    · rcases Std.Total.total (r := before) left.1 right.1 with ahead | behind
      · exact .inl (.inr ⟨same, ahead⟩)
      · exact .inr (.inr ⟨same.symm, behind⟩)
    · exact .inl (.inl more)

variable [DecidableEq Value] [BEq Value]

/-- Each value with the number of its votes. -/
def tally (votes : List Value) : List (Value × Nat) :=
  votes.dedup.map fun value => (value, votes.count value)

variable [LawfulBEq Value] {votes : List Value}

omit [LawfulBEq Value] in
theorem mem_tally {entry : Value × Nat} :
    entry ∈ tally votes ↔ entry.1 ∈ votes ∧ entry.2 = votes.count entry.1 := by
  rw [tally, List.mem_map]
  constructor
  · rintro ⟨value, member, rfl⟩
    exact ⟨List.mem_dedup.mp member, rfl⟩
  · rintro ⟨member, count⟩
    exact ⟨entry.1, List.mem_dedup.mpr member, Prod.ext rfl count.symm⟩

theorem count_pos_of_mem_tally {entry : Value × Nat} (member : entry ∈ tally votes) :
    0 < entry.2 := by
  rcases mem_tally.mp member with ⟨voted, count⟩
  rw [count]
  exact List.count_pos_iff.mpr voted

end Ranking

theorem insertionSort_eq_of_perm {α : Type} {before : α → α → Prop} [DecidableRel before]
    [IsTrans α before] [Std.Antisymm before] [Std.Total before] {entries others : List α}
    (same : entries.Perm others) : entries.insertionSort before = others.insertionSort before :=
  ((List.perm_insertionSort before entries).trans
    (same.trans (List.perm_insertionSort before others).symm)).eq_of_pairwise'
      (List.pairwise_insertionSort before entries) (List.pairwise_insertionSort before others)

end AgentC
