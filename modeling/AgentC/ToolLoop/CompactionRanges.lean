import AgentC.ToolLoop.Answered

/-! # The three parts of a transcript

Compaction cuts a transcript into its leading system messages, a range that it drops and the
messages that it keeps, and only the range in the middle is replaced. -/

namespace AgentC.ToolLoop

/-- `tl_compact_in_place` with any budget. -/
def tlCompactInPlace (options : Options) (maxCharsBudget : Nat) (messages : List Message) :
    Except Status (List Message × CompactionReport) :=
  if maxCharsBudget = 0 then .error .invalidArgument
  else .ok (compactInPlace options maxCharsBudget messages)

def leadingRun (messages : List Message) : List Message :=
  messages.takeWhile isPinnedSystem

def droppedMessages (options : Options) (messages : List Message) : List Message :=
  (messages.take (dropRange options messages).2).drop (dropRange options messages).1

def keptMessages (options : Options) (messages : List Message) : List Message :=
  messages.drop (dropRange options messages).2

variable (messages : List Message)

theorem toolRunStart_le (pinned index : Nat) : toolRunStart messages pinned index ≤ index := by
  induction index with
  | zero => exact Nat.le_refl 0
  | succ =>
    rw [toolRunStart]
    split
    · omega
    · exact Nat.le_refl _

theorem suffixStart_bounds (messages : List Message) (keepLast : Nat) {pinned : Nat} :
    pinned ≤ suffixStart messages keepLast pinned ∧
      suffixStart messages keepLast pinned ≤ max pinned (messages.length - keepLast) := by
  have wanted : ∃ start, pinned ≤ start ∧ start ≤ max pinned (messages.length - keepLast) ∧
      (let wanted := if messages.length > keepLast then messages.length - keepLast else pinned
        if wanted < pinned then pinned else wanted) = start := by
    refine ⟨_, ?_, ?_, rfl⟩
    · dsimp only
      split <;> split <;> omega
    · dsimp only
      split <;> split <;> omega
  rcases wanted with ⟨start, behind, near, same⟩
  rw [suffixStart]
  dsimp only at same ⊢
  rw [same]
  have first := toolRunStart_le messages pinned start
  have firstBehind := @le_toolRunStart messages _ _ behind
  split
  · split
    · next assistant =>
      simp only [gt_iff_lt, Bool.and_eq_true, decide_eq_true_eq] at assistant
      omega
    · omega
  · omega

variable (options : Options)

theorem dropRange_bounds (messages : List Message) :
    (dropRange options messages).1 = (leadingRun messages).length ∧
      (dropRange options messages).1 ≤ (dropRange options messages).2 ∧
      (dropRange options messages).2 ≤ messages.length ∧
      min options.keepLast (messages.length - (leadingRun messages).length) ≤
        messages.length - (dropRange options messages).2 := by
  have run : pinnedSystemPrefixCount messages = (leadingRun messages).length :=
    pinnedSystemPrefixCount_eq messages
  have shorter : (leadingRun messages).length ≤ messages.length :=
    (List.takeWhile_sublist _).length_le
  have bounds := @suffixStart_bounds messages options.keepLast (leadingRun messages).length
  simp only [dropRange, run, true_and]
  split <;> omega

section

variable (options : Options) (messages : List Message)

theorem take_dropRange : messages.take (dropRange options messages).1 = leadingRun messages :=
  take_pinnedSystemPrefixCount messages

theorem parts : leadingRun messages ++ (droppedMessages options messages ++
    keptMessages options messages) = messages := by
  have bounds := dropRange_bounds options messages
  have front : (messages.take (dropRange options messages).2).take (dropRange options messages).1 =
      leadingRun messages := by
    rw [List.take_take, Nat.min_eq_left bounds.2.1, take_dropRange]
  rw [← List.append_assoc, ← front, droppedMessages, List.take_append_drop, keptMessages,
    List.take_append_drop]

theorem length_keptMessages :
    min options.keepLast (messages.length - (leadingRun messages).length) ≤
      (keptMessages options messages).length := by
  have bounds := dropRange_bounds options messages
  rw [keptMessages, List.length_drop]
  exact bounds.2.2.2

theorem length_droppedMessages : (droppedMessages options messages).length =
    (dropRange options messages).2 - (dropRange options messages).1 := by
  have bounds := dropRange_bounds options messages
  rw [droppedMessages, List.length_drop, List.length_take, Nat.min_eq_left bounds.2.2.1]

def replacement : List Message :=
  insertedSummary options messages (dropRange options messages).1 (dropRange options messages).2

/-- Compaction does nothing, or replaces the range that it drops. -/
theorem compactInPlace_parts (budget : Nat) :
    (compactInPlace options budget messages).1 =
      if budget < estimatedCharsList messages ∧ droppedMessages options messages ≠ [] then
        leadingRun messages ++ (replacement options messages ++ keptMessages options messages)
      else messages := by
  have length := length_droppedMessages options messages
  simp only [compactInPlace]
  split
  · next small => rw [if_neg fun both => absurd both.1 (Nat.not_lt.mpr small)]
  · next large =>
    split
    · next nothing =>
      have none : droppedMessages options messages = [] := by
        rw [← List.length_eq_zero_iff]
        omega
      rw [if_neg fun both => both.2 none]
    · next something =>
      have some : droppedMessages options messages ≠ [] := by
        rw [← List.length_pos_iff]
        omega
      rw [if_pos ⟨Nat.not_le.mp large, some⟩, take_dropRange, List.append_assoc]
      rfl

end

theorem estimatedCharsList_append (front rest : List Message) :
    estimatedCharsList (front ++ rest) = estimatedCharsList front + estimatedCharsList rest := by
  rw [estimatedCharsList, List.map_append, List.sum_append]
  rfl

theorem estimatedCharsList_parts (messages : List Message) : estimatedCharsList messages =
      estimatedCharsList (leadingRun messages) +
        (estimatedCharsList (droppedMessages options messages) +
          estimatedCharsList (keptMessages options messages)) := by
  rw [← estimatedCharsList_append, ← estimatedCharsList_append, parts]

theorem estimatedCharsList_compactInPlace (budget : Nat) (messages : List Message) :
    estimatedCharsList (compactInPlace options budget messages).1 =
      if budget < estimatedCharsList messages ∧ droppedMessages options messages ≠ [] then
        estimatedCharsList (leadingRun messages) +
          (estimatedCharsList (replacement options messages) +
            estimatedCharsList (keptMessages options messages))
      else estimatedCharsList messages := by
  rw [compactInPlace_parts]
  split
  · rw [estimatedCharsList_append, estimatedCharsList_append]
  · rfl

end AgentC.ToolLoop
