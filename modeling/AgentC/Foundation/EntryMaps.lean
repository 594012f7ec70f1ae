import Mathlib.Data.List.Nodup
import Mathlib.Data.List.Sort

/-! # Maps as lists of entries

A map is the list of its entries in the order of their keys. A loop over the entries, in any
order, may give each entry another value or remove it: every entry is then changed on its own. -/

namespace AgentC.EntryMap

variable {κ α β : Type}

def keys (entries : List (κ × α)) : List κ :=
  entries.map Prod.fst

@[simp] theorem keys_cons (entry : κ × α) (rest : List (κ × α)) :
    keys (entry :: rest) = entry.1 :: keys rest := rfl

variable {γ : Type} {key : κ} {entries : List (κ × α)} (change : κ → α → γ)

theorem keys_map (entries : List (κ × α)) :
    keys (entries.map fun entry => (entry.1, change entry.1 entry.2)) = keys entries := by
  rw [keys, List.map_map]
  rfl

section Inserting

variable {le : κ → κ → Prop} [DecidableRel le]

theorem keys_orderedInsert (key : κ) (value : α) (entries : List (κ × α)) :
    keys (entries.orderedInsert (fun left right => le left.1 right.1) (key, value)) =
      (keys entries).orderedInsert le key := by
  induction entries with
  | nil => rfl
  | cons entry rest induction =>
    rw [List.orderedInsert_cons, keys_cons, List.orderedInsert_cons]
    split
    · rfl
    · rw [keys_cons, induction]

theorem map_orderedInsert (key : κ) (value : α) (entries : List (κ × α)) :
    (entries.orderedInsert (fun left right => le left.1 right.1) (key, value)).map
        (fun entry => (entry.1, change entry.1 entry.2)) =
      (entries.map fun entry => (entry.1, change entry.1 entry.2)).orderedInsert
        (fun left right => le left.1 right.1) (key, change key value) := by
  induction entries with
  | nil => rfl
  | cons entry rest induction =>
    rw [List.orderedInsert_cons, List.map_cons, List.orderedInsert_cons]
    split
    · rfl
    · rw [List.map_cons, induction]

end Inserting

variable [DecidableEq κ]

def update (key : κ) (value : Option α) (entries : List (κ × α)) : List (κ × α) :=
  entries.filterMap fun entry => if entry.1 = key then value.map (Prod.mk key) else some entry

def assign (le : κ → κ → Prop) [DecidableRel le] (key : κ) (value : α)
    (entries : List (κ × α)) : List (κ × α) :=
  if key ∈ keys entries then update key (some value) entries
  else entries.orderedInsert (fun left right => le left.1 right.1) (key, value)

def assignAll (le : κ → κ → Prop) [DecidableRel le] (members : List (κ × α)) : List (κ × α) :=
  members.foldl (fun entries member => assign le member.1 member.2 entries) []

def delete (key : κ) (entries : List (κ × α)) : List (κ × α) :=
  update key none entries

theorem update_of_notMem (missing : key ∉ keys entries) (value : Option α) :
    update key value entries = entries := by
  induction entries with
  | nil => rfl
  | cons entry rest induction =>
    rw [keys_cons, List.mem_cons, not_or] at missing
    rw [update, List.filterMap_cons, if_neg fun same => missing.1 same.symm]
    exact congrArg _ (induction missing.2)

theorem update_append (key : κ) (value : Option α) (front rest : List (κ × α)) :
    update key value (front ++ rest) = update key value front ++ update key value rest :=
  List.filterMap_append

theorem update_cons_self (key : κ) (value : Option α) (old : α) (rest : List (κ × α)) :
    update key value ((key, old) :: rest) =
      (value.map (Prod.mk key)).toList ++ update key value rest := by
  rw [update, List.filterMap_cons, if_pos rfl]
  cases value <;> rfl

theorem update_cons_of_ne {entry : κ × α} (other : entry.1 ≠ key) (value : Option α)
    (rest : List (κ × α)) : update key value (entry :: rest) = entry :: update key value rest := by
  rw [update, List.filterMap_cons, if_neg other]
  rfl

theorem keys_update_some (key : κ) (value : α) (entries : List (κ × α)) :
    keys (update key (some value) entries) = keys entries := by
  induction entries with
  | nil => rfl
  | cons entry rest induction =>
    by_cases here : entry.1 = key
    · rcases entry with ⟨name, old⟩
      cases here
      rw [update_cons_self, keys_cons, ← induction]
      rfl
    · rw [update_cons_of_ne here, keys_cons, keys_cons, induction]

theorem mem_keys_update_of_ne {other : κ} (different : other ≠ key) (value : Option α)
    (entries : List (κ × α)) : other ∈ keys (update key value entries) ↔ other ∈ keys entries := by
  induction entries with
  | nil => exact Iff.rfl
  | cons entry rest induction =>
    by_cases here : entry.1 = key
    · rcases entry with ⟨name, old⟩
      cases here
      rw [update_cons_self, keys_cons, List.mem_cons, or_iff_right different, ← induction]
      cases value with
      | none => exact Iff.rfl
      | some value => exact List.mem_cons.trans (or_iff_right different)
    · rw [update_cons_of_ne here, keys_cons, keys_cons, List.mem_cons, List.mem_cons, induction]

theorem update_comm {other : κ} (different : key ≠ other) (value changed : Option α)
    (entries : List (κ × α)) : update key value (update other changed entries) =
      update other changed (update key value entries) := by
  simp only [update, List.filterMap_filterMap]
  congr 1
  funext entry
  by_cases here : entry.1 = key
  · have there : entry.1 ≠ other := here ▸ different
    rw [if_pos here, if_neg there, Option.bind_some, if_pos here]
    cases value <;> simp [different]
  · rw [if_neg here, Option.bind_some]
    by_cases there : entry.1 = other
    · rw [if_pos there]
      cases changed <;> simp [different.symm]
    · rw [if_neg there, Option.bind_some, if_neg here]

theorem map_update (key : κ) (value : Option α) (entries : List (κ × α)) :
    (update key value entries).map (fun entry => (entry.1, change entry.1 entry.2)) =
      update key (value.map (change key))
        (entries.map fun entry => (entry.1, change entry.1 entry.2)) := by
  simp only [update, List.map_filterMap, List.filterMap_map]
  congr 1
  funext entry
  simp only [Function.comp_apply]
  split
  · cases value <;> rfl
  · rfl

variable {le : κ → κ → Prop} [DecidableRel le]

theorem assign_of_mem (present : key ∈ keys entries) (value : α) :
    assign le key value entries = update key (some value) entries :=
  if_pos present

theorem nodup_assign (distinct : (keys entries).Nodup) (key : κ) (value : α) :
    (keys (assign le key value entries)).Nodup := by
  rw [assign]
  split
  · rw [keys_update_some]
    exact distinct
  · next missing =>
    rw [keys_orderedInsert]
    exact ((List.perm_orderedInsert le key _).nodup_iff).mpr
      (List.nodup_cons.mpr ⟨missing, distinct⟩)

theorem mem_assign {value : α} {entry : κ × α} (member : entry ∈ assign le key value entries) :
    entry = (key, value) ∨ entry ∈ entries := by
  rw [assign] at member
  split at member
  · rcases List.mem_filterMap.mp member with ⟨old, inEntries, becomes⟩
    split at becomes
    · cases becomes
      exact .inl rfl
    · cases becomes
      exact .inr inEntries
  · exact (List.mem_orderedInsert _).mp member

theorem map_assign (key : κ) (value : α) (entries : List (κ × α)) :
    (assign le key value entries).map (fun entry => (entry.1, change entry.1 entry.2)) =
      assign le key (change key value)
        (entries.map fun entry => (entry.1, change entry.1 entry.2)) := by
  rw [assign, assign, keys_map]
  split
  · exact map_update change key (some value) entries
  · exact map_orderedInsert change key value entries

variable {members : List (κ × α)} {outcome : κ × β → Option α} {order : List (κ × β)}

theorem assignAll_induction (holds : List (κ × α) → Prop) (start : holds [])
    (kept : ∀ member ∈ members, ∀ entries, holds entries →
      holds (assign le member.1 member.2 entries)) : holds (assignAll le members) := by
  rw [assignAll]
  generalize ([] : List (κ × α)) = entries at start ⊢
  induction members generalizing entries with
  | nil => exact start
  | cons member rest induction =>
    rw [List.forall_mem_cons] at kept
    exact induction kept.2 _ (kept.1 entries start)

theorem nodup_assignAll (members : List (κ × α)) : (keys (assignAll le members)).Nodup :=
  assignAll_induction (fun entries => (keys entries).Nodup) List.nodup_nil
    fun member _ _ distinct => nodup_assign distinct member.1 member.2

theorem mem_assignAll : ∀ entry ∈ assignAll le members, entry ∈ members := by
  refine assignAll_induction (fun entries => ∀ entry ∈ entries, entry ∈ members) nofun ?_
  intro member inMembers entries fromMembers entry inEntries
  rcases mem_assign inEntries with same | before
  · rw [same]
    exact inMembers
  · exact fromMembers entry before

theorem map_assignAll (members : List (κ × α)) :
    (assignAll le members).map (fun entry => (entry.1, change entry.1 entry.2)) =
      assignAll le (members.map fun member => (member.1, change member.1 member.2)) := by
  rw [assignAll, assignAll, List.foldl_map]
  have start : ([] : List (κ × α)).map (fun entry => (entry.1, change entry.1 entry.2)) = [] := rfl
  rw [← start]
  generalize ([] : List (κ × α)) = entries
  induction members generalizing entries with
  | nil => rfl
  | cons member rest induction =>
    rw [List.foldl_cons, List.foldl_cons, induction, map_assign]

/-- In every turn of a loop the entry that it is at is given another value or removed. -/
def Turns (turn : List (κ × α) → κ × β → List (κ × α)) (outcome : κ × β → Option α) : Prop :=
  ∀ entries visited, visited.1 ∈ keys entries →
    turn entries visited = update visited.1 (outcome visited) entries

variable {turn : List (κ × α) → κ × β → List (κ × α)}

theorem foldl_turns_eq (turns : Turns turn outcome) (distinct : (keys order).Nodup)
    (present : ∀ visited ∈ order, visited.1 ∈ keys entries) :
    order.foldl turn entries =
      order.foldl (fun entries visited => update visited.1 (outcome visited) entries) entries := by
  induction order generalizing entries with
  | nil => rfl
  | cons visited rest induction =>
    rcases List.forall_mem_cons.mp present with ⟨now, later⟩
    rcases List.nodup_cons.mp distinct with ⟨new, distinct⟩
    rw [List.foldl_cons, List.foldl_cons, turns entries visited now]
    apply induction distinct
    intro other member
    have different : other.1 ≠ visited.1 := fun same =>
      new (same ▸ List.mem_map_of_mem member)
    exact (mem_keys_update_of_ne different _ _).mpr (later other member)

theorem foldl_update_eq (outcome : κ × β → Option α) {visits : List (κ × β)}
    {done entries : List (κ × α)} (same : keys visits = keys entries)
    (distinct : (keys entries).Nodup) (behind : ∀ key ∈ keys entries, key ∉ keys done) :
    visits.foldl (fun entries visited => update visited.1 (outcome visited) entries)
        (done ++ entries) =
      done ++ visits.filterMap fun visited => (outcome visited).map (Prod.mk visited.1) := by
  induction visits generalizing entries done with
  | nil =>
    have none : entries = [] := List.map_eq_nil_iff.mp same.symm
    rw [none]
    rfl
  | cons visited visits induction =>
    cases entries with
    | nil => cases same
    | cons entry rest =>
      rcases entry with ⟨key, old⟩
      rw [keys_cons, keys_cons, List.cons.injEq] at same
      rw [keys_cons, List.nodup_cons] at distinct
      rw [keys_cons, List.forall_mem_cons] at behind
      have turned : update visited.1 (outcome visited) (done ++ (key, old) :: rest) =
          (done ++ ((outcome visited).map (Prod.mk visited.1)).toList) ++ rest := by
        rw [same.1, update_append, update_of_notMem behind.1, update_cons_self,
          update_of_notMem distinct.1, List.append_assoc]
      rw [List.foldl_cons, turned, induction same.2 distinct.2, List.append_assoc]
      · congr 1
        rw [List.filterMap_cons]
        cases outcome visited <;> rfl
      · intro other member
        rw [keys, List.map_append, List.mem_append, not_or]
        refine ⟨behind.2 other member, fun inside => ?_⟩
        rcases List.mem_map.mp inside with ⟨added, fromTurn, rfl⟩
        rcases Option.map_eq_some_iff.mp (Option.mem_toList.mp fromTurn) with ⟨value, _, rfl⟩
        exact distinct.1 (same.1 ▸ member)

theorem foldl_turns (turns : Turns turn outcome) {visits : List (κ × β)}
    (permuted : order.Perm visits) (same : keys visits = keys entries)
    (distinct : (keys entries).Nodup) :
    order.foldl turn entries =
      visits.filterMap fun visited => (outcome visited).map (Prod.mk visited.1) := by
  have visitedOnce : (keys order).Nodup :=
    ((permuted.map Prod.fst).nodup_iff).mpr (show (keys visits).Nodup from same ▸ distinct)
  have present : ∀ visited ∈ order, visited.1 ∈ keys entries := by
    intro visited member
    rw [← same]
    exact List.mem_map_of_mem (permuted.mem_iff.mp member)
  have start := @foldl_update_eq κ α β _ outcome visits [] entries same distinct
    fun _ _ => List.not_mem_nil
  rw [foldl_turns_eq turns visitedOnce present, permuted.foldl_eq']
  · exact start
  · intro left leftMember right rightMember entries
    by_cases equal : left = right
    · rw [equal]
    · apply update_comm
      intro key
      exact equal (List.inj_on_of_nodup_map visitedOnce rightMember leftMember key).symm

end AgentC.EntryMap
