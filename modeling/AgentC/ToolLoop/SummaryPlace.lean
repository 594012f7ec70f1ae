import AgentC.ToolLoop.CompactionRanges

/-! # The place of the compaction summary

However often a transcript grows and is compacted, it has one summary at most, directly behind
its leading system messages. -/

namespace AgentC.ToolLoop

/-- How a transcript changes. -/
inductive TranscriptStep
  | push (message : Message)
  | compact (options : Options) (budget : Nat)

/-- A compaction without a budget is refused. -/
def TranscriptStep.apply : TranscriptStep → List Message → List Message
  | .push message, messages => messages ++ [message]
  | .compact options budget, messages =>
    if budget = 0 then messages else (compactInPlace options budget messages).1

def applySteps (steps : List TranscriptStep) (messages : List Message) : List Message :=
  steps.foldl (fun messages step => step.apply messages) messages

/-- Only a middle part is replaced, and it ends in front of the last messages. -/
def KeepsEnds (options : Options) (before after : List Message) : Prop :=
  ∃ middle replaced kept,
    before = leadingRun before ++ (middle ++ kept) ∧
      after = leadingRun before ++ (replaced ++ kept) ∧
      min options.keepLast (before.length - (leadingRun before).length) ≤ kept.length

/-- A summary is the first message behind the leading system messages. -/
def SummaryInFront (messages : List Message) : Prop :=
  ∀ message ∈ (messages.dropWhile isPinnedSystem).tail,
    messageIsCompactionSummarySystem message = false

theorem leadingRun_append_dropWhile (messages : List Message) :
    leadingRun messages ++ messages.dropWhile isPinnedSystem = messages :=
  List.takeWhile_append_dropWhile

variable (options : Options)

theorem dropWhile_parts (messages : List Message) : messages.dropWhile isPinnedSystem =
      droppedMessages options messages ++ keptMessages options messages := by
  have whole := (leadingRun_append_dropWhile messages).trans (parts options messages).symm
  exact List.append_cancel_left whole

theorem dropWhile_leadingRun_append (messages rest : List Message) :
    (leadingRun messages ++ rest).dropWhile isPinnedSystem = rest.dropWhile isPinnedSystem := by
  apply List.dropWhile_append_of_pos
  intro message member
  exact List.all_eq_true.mp List.all_takeWhile message member

variable {messages : List Message}

theorem summaryInFront_push (inFront : SummaryInFront messages) {message : Message}
    (plain : messageIsCompactionSummarySystem message = false) :
    SummaryInFront (messages ++ [message]) := by
  intro found member
  rw [List.dropWhile_append] at member
  split at member
  · have short := List.dropWhile_suffix isPinnedSystem (l := [message])
    have few := short.length_le
    cases shape : [message].dropWhile isPinnedSystem with
    | nil =>
      rw [shape] at member
      cases member
    | cons first rest =>
      rw [shape] at member few
      simp only [List.length_cons, List.length_nil] at few
      have none : rest = [] := List.length_eq_zero_iff.mp (by omega)
      rw [none] at member
      cases member
  · next filled =>
    rw [List.tail_append_of_ne_nil (by simpa using filled)] at member
    rcases List.mem_append.mp member with old | new
    · exact inFront found old
    · rw [List.mem_singleton.mp new]
      exact plain

theorem isPinnedSystem_summary (summary : Bytes) :
    isPinnedSystem (compactionSummaryMessage summary) = false := by
  rfl

/-- A compaction sweeps the old summary into the range that it drops. -/
theorem summaryInFront_compact (inFront : SummaryInFront messages) (options : Options)
    (budget : Nat) : SummaryInFront (compactInPlace options budget messages).1 := by
  rw [compactInPlace_parts]
  split
  · next both =>
    have kept : ∀ message ∈ keptMessages options messages,
        messageIsCompactionSummarySystem message = false := by
      intro message member
      apply inFront
      rw [dropWhile_parts options, List.tail_append_of_ne_nil both.2]
      exact List.mem_append_right _ member
    intro message member
    rw [dropWhile_leadingRun_append, replacement, insertedSummary] at member
    split at member
    · rw [List.singleton_append, List.dropWhile_cons, isPinnedSystem_summary] at member
      exact kept message member
    · rw [List.nil_append] at member
      exact kept message ((List.dropWhile_suffix _).subset (List.mem_of_mem_tail member))
  · exact inFront

theorem keepsEnds_compact (budget : Nat) (messages : List Message) :
    KeepsEnds options messages ((TranscriptStep.compact options budget).apply messages) := by
  have long := length_keptMessages options messages
  have whole := (parts options messages).symm
  rw [TranscriptStep.apply]
  split
  · exact ⟨_, _, _, whole, whole, long⟩
  · rw [compactInPlace_parts]
    split
    · exact ⟨_, _, _, whole, rfl, long⟩
    · exact ⟨_, _, _, whole, whole, long⟩

theorem summaryInFront_steps (steps : List TranscriptStep) (inFront : SummaryInFront messages)
    (pushed : ∀ message, .push message ∈ steps → messageIsCompactionSummarySystem message = false) :
    SummaryInFront (applySteps steps messages) := by
  induction steps generalizing messages with
  | nil => exact inFront
  | cons step rest induction =>
    apply induction _ fun message member => pushed message (List.mem_cons_of_mem _ member)
    cases step with
    | push message =>
      exact summaryInFront_push inFront (pushed message (List.mem_cons_self ..))
    | compact options budget =>
      simp only [TranscriptStep.apply]
      split
      · exact inFront
      · exact summaryInFront_compact inFront options budget

theorem notSummary_of_leadingRun {message : Message} (member : message ∈ leadingRun messages) :
    messageIsCompactionSummarySystem message = false := by
  have pinned := List.all_eq_true.mp List.all_takeWhile message member
  simp only [isPinnedSystem, Bool.and_eq_true, Bool.not_eq_true'] at pinned
  exact pinned.2

theorem SummaryInFront.place (inFront : SummaryInFront messages) :
    messages.countP messageIsCompactionSummarySystem ≤ 1 ∧
      ∀ index message, messages[index]? = some message →
        messageIsCompactionSummarySystem message = true → index = (leadingRun messages).length := by
  have whole := leadingRun_append_dropWhile messages
  have none : (leadingRun messages).countP messageIsCompactionSummarySystem = 0 := by
    rw [List.countP_eq_zero]
    intro message member
    rw [notSummary_of_leadingRun member]
    decide
  constructor
  · rw [← whole, List.countP_append, none, Nat.zero_add]
    cases shape : messages.dropWhile isPinnedSystem with
    | nil => exact Nat.zero_le 1
    | cons first rest =>
      rw [SummaryInFront, shape, List.tail_cons] at inFront
      have noMore : rest.countP messageIsCompactionSummarySystem = 0 := by
        rw [List.countP_eq_zero]
        intro message member
        rw [inFront message member]
        decide
      rw [List.countP_cons, noMore]
      split <;> omega
  · intro index message found summary
    rw [← whole, List.getElem?_append] at found
    split at found
    · have pinned := notSummary_of_leadingRun (List.mem_of_getElem? found)
      rw [pinned] at summary
      cases summary
    · next behind =>
      by_contra other
      have later : index - (leadingRun messages).length ≠ 0 := by omega
      rcases Nat.exists_eq_succ_of_ne_zero later with ⟨place, same⟩
      rw [same, ← List.getElem?_tail] at found
      rw [inFront message (List.mem_of_getElem? found)] at summary
      cases summary

/-- From a transcript without summaries on, whatever is pushed and however it is compacted,
there is one summary at most and it stands behind the leading system messages; each compaction
keeps those and the last messages. -/
theorem summary_keeps_place (seed : List Message) (steps : List TranscriptStep)
    (fresh : ∀ message ∈ seed, messageIsCompactionSummarySystem message = false)
    (pushed : ∀ message, .push message ∈ steps →
      messageIsCompactionSummarySystem message = false) :
    ((applySteps steps seed).countP messageIsCompactionSummarySystem ≤ 1 ∧
        ∀ index message, (applySteps steps seed)[index]? = some message →
          messageIsCompactionSummarySystem message = true →
            index = (leadingRun (applySteps steps seed)).length) ∧
      ∀ options budget messages,
        KeepsEnds options messages ((TranscriptStep.compact options budget).apply messages) := by
  have start : SummaryInFront seed := by
    intro message member
    exact fresh message ((List.dropWhile_suffix _).subset (List.mem_of_mem_tail member))
  exact ⟨(summaryInFront_steps steps start pushed).place, keepsEnds_compact⟩

/-- The second compaction replaces the summary of the first. -/
theorem summary_keeps_place_sample :
    let steps : List TranscriptStep :=
      [.push (plainMessage .user (ascii "one")), .push (plainMessage .user (ascii "two")),
        .compact { model := [], keepLastMessages := 1, insertCompactionSummary := true } 1,
        .push (plainMessage .user (ascii "three")),
        .compact { model := [], keepLastMessages := 1, insertCompactionSummary := true } 1]
    (applySteps steps [plainMessage .system (ascii "be brief")]).length = 3 ∧
      (applySteps steps [plainMessage .system (ascii "be brief")]).countP
        messageIsCompactionSummarySystem ≤ 1 := by
  have place := summary_keeps_place [plainMessage .system (ascii "be brief")]
    [.push (plainMessage .user (ascii "one")), .push (plainMessage .user (ascii "two")),
      .compact { model := [], keepLastMessages := 1, insertCompactionSummary := true } 1,
      .push (plainMessage .user (ascii "three")),
      .compact { model := [], keepLastMessages := 1, insertCompactionSummary := true } 1]
    (by decide +kernel) (by
      intro message member
      simp only [List.mem_cons, TranscriptStep.push.injEq, reduceCtorEq, List.not_mem_nil,
        or_false, false_or] at member
      rcases member with first | second | third
      · rw [first]
        decide +kernel
      · rw [second]
        decide +kernel
      · rw [third]
        decide +kernel)
  exact ⟨by decide +kernel, place.1.1⟩

end AgentC.ToolLoop
