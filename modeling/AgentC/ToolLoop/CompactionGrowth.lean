import AgentC.Foundation.Decimals
import AgentC.ToolLoop.CompactionRanges

/-! # When compaction makes a transcript longer

A summary that is inserted counts with the name it carries. It may be longer than the messages
that it stands for, and it has a limit of its own. -/

namespace AgentC.ToolLoop

def summaryLineLength (options : Options) (index : Nat) (message : Message) : Nat :=
  let snippet := (summarySnippet message.content options.summarySnippetChars).length
  (decimal (index + 1)).length + 3 + message.role.text.length +
    if snippet = 0 then 0 else snippet + 2

def shownMessages (options : Options) (dropped : List Message) : List Message :=
  dropped.drop (dropped.length - min options.summaryPreviewItems dropped.length)

/-- The length of the summary of dropped messages, before it is cut. -/
def wholeSummaryLength (options : Options) (dropped : List Message) : Nat :=
  (ascii "Previous conversation truncated (").length + (decimal dropped.length).length +
    (ascii " earlier messages omitted) to stay within the model context window.").length +
    ((shownMessages options dropped).zipIdx.map fun (message, index) =>
      summaryLineLength options index message).sum

/-- What an inserted summary adds to the estimate: the fixed share of a message, the name and
the text, cut to the configured length. A summary that is cut to one byte is not inserted. -/
def summaryChars (options : Options) (dropped : List Message) : Nat :=
  if options.insertCompactionSummary = true ∧ options.summaryMaxChars ≠ 1 then
    12 + compactionSummaryName.length +
      if options.summaryMaxChars = 0 then wholeSummaryLength options dropped
      else min options.summaryMaxChars (wholeSummaryLength options dropped)
  else 0

variable (options : Options)

theorem length_summaryLine (index : Nat) (message : Message) :
    (summaryLine options index message).length = summaryLineLength options index message := by
  rw [summaryLine, summaryLineLength]
  generalize summarySnippet message.content options.summarySnippetChars = snippet
  have separator : (ascii ". ").length = 2 := rfl
  cases snippet with
  | nil =>
    simp only [List.length_append, List.isEmpty_nil, if_true, List.length_nil,
      List.length_singleton, separator]
    omega
  | cons =>
    have colon : (ascii ": ").length = 2 := rfl
    simp only [List.length_append, List.isEmpty_cons, Bool.false_eq_true, if_false,
      List.length_cons, List.length_nil, separator, colon, Nat.succ_ne_zero]
    omega

def summaryText (options : Options) (dropped : List Message) : Bytes :=
  summaryHeader dropped.length ++
    ((shownMessages options dropped).zipIdx.map fun (message, index) =>
      summaryLine options index message).flatten

theorem endsLine_append {front : Bytes} {lines : List Bytes} (ended : front.getLast? = some 10)
    (all : ∀ line ∈ lines, line.getLast? = some 10) :
    (front ++ lines.flatten).getLast? = some 10 := by
  induction lines generalizing front with
  | nil =>
    rw [List.flatten_nil, List.append_nil]
    exact ended
  | cons line rest induction =>
    rw [List.flatten_cons, ← List.append_assoc]
    apply induction _ fun other member => all other (List.mem_cons_of_mem _ member)
    rw [List.getLast?_append, all line (List.mem_cons_self ..)]
    rfl

variable (dropped : List Message)

theorem summaryText_ends : (summaryText options dropped).getLast? = some 10 := by
  apply endsLine_append
  · rw [summaryHeader, List.getLast?_concat]
  · intro line member
    rcases List.mem_map.mp member with ⟨⟨shown, index⟩, _, same⟩
    rw [← same]
    exact List.getLast?_concat

theorem length_summaryText : (dropTrailingNewline (summaryText options dropped)).length =
      wholeSummaryLength options dropped := by
  rw [dropTrailingNewline, if_pos (summaryText_ends options dropped), List.length_dropLast,
    summaryText, List.length_append, List.length_flatten, List.map_map, summaryHeader]
  simp only [List.length_append, List.length_singleton, Function.comp_def, length_summaryLine,
    wholeSummaryLength]
  omega

theorem head_summaryText :
    ∃ rest, dropTrailingNewline (summaryText options dropped) = 80 :: 114 :: rest := by
  have start : ∃ rest, summaryText options dropped = 80 :: 114 :: 101 :: rest := ⟨_, rfl⟩
  rcases start with ⟨rest, text⟩
  rw [dropTrailingNewline, if_pos (summaryText_ends options dropped), text]
  exact ⟨(101 :: rest).dropLast, rfl⟩

theorem length_clipSummary (maxChars : Nat) (text : Bytes) :
    (clipSummary maxChars text).length =
      if maxChars = 0 then text.length else min maxChars text.length := by
  rw [clipSummary]
  split
  · next cut =>
    simp only [gt_iff_lt, Bool.and_eq_true, decide_eq_true_eq] at cut
    rw [if_neg (by omega), List.length_append, List.length_take, List.length_singleton]
    omega
  · next whole =>
    simp only [gt_iff_lt, Bool.and_eq_true, decide_eq_true_eq, not_and] at whole
    split
    · rfl
    · have short := whole (by omega)
      omega

/-- Only a summary that is cut to one byte cannot be seen. -/
theorem summaryIsVisible_clip : summaryIsVisible (clipSummary options.summaryMaxChars
        (dropTrailingNewline (summaryText options dropped))) =
      decide (options.summaryMaxChars ≠ 1) := by
  rcases head_summaryText options dropped with ⟨rest, text⟩
  have shown : ∀ more, summaryIsVisible (80 :: more) = true := fun _ => rfl
  rw [text, clipSummary]
  cases maxChars : options.summaryMaxChars with
  | zero => exact shown _
  | succ further =>
    cases further with
    | zero =>
      have long : 1 < (80 :: 114 :: rest).length := by
        simp only [List.length_cons]
        omega
      simp only [long, decide_true]
      rfl
    | succ further =>
      rw [decide_eq_true (by omega)]
      split
      · exact shown _
      · exact shown _

theorem estimatedCharsList_replacement (messages : List Message) :
    estimatedCharsList (replacement options messages) =
      summaryChars options (droppedMessages options messages) := by
  have text : buildCompactionSummary options messages (dropRange options messages).1
      (dropRange options messages).2 =
        clipSummary options.summaryMaxChars (dropTrailingNewline
          (summaryText options (droppedMessages options messages))) := rfl
  rw [replacement, insertedSummary, text, summaryIsVisible_clip, summaryChars]
  by_cases inserted : options.insertCompactionSummary = true ∧ options.summaryMaxChars ≠ 1
  · have both : (options.insertCompactionSummary && decide (options.summaryMaxChars ≠ 1)) = true := by
      rw [Bool.and_eq_true, decide_eq_true_eq]
      exact inserted
    rw [if_pos inserted, if_pos both]
    simp only [estimatedCharsList, estimatedCharsMessage, List.map_singleton, List.sum_singleton,
      compactionSummaryMessage, List.length_nil, List.map_nil, List.sum_nil, length_clipSummary,
      length_summaryText]
    omega
  · have notBoth : ¬(options.insertCompactionSummary && decide (options.summaryMaxChars ≠ 1)) =
        true := by
      rw [Bool.and_eq_true, decide_eq_true_eq]
      exact inserted
    rw [if_neg inserted, if_neg notBoth]
    rfl

/-- The summary is longer than what it stands for. -/
def SummaryOutweighs (options : Options) (budget : Nat) (messages : List Message) : Prop :=
  budget < estimatedCharsList messages ∧ droppedMessages options messages ≠ [] ∧
    estimatedCharsList (droppedMessages options messages) <
      summaryChars options (droppedMessages options messages)

/-- A compaction makes a transcript no longer, except with a summary that outweighs the dropped
messages. -/
theorem compactInPlace_le_iff {options : Options} {budget : Nat} {messages after : List Message}
    {report : CompactionReport}
    (compacted : tlCompactInPlace options budget messages = .ok (after, report)) :
    estimatedCharsList after ≤ estimatedCharsList messages ↔
      ¬SummaryOutweighs options budget messages := by
  have before := estimatedCharsList_parts options messages
  have size := estimatedCharsList_compactInPlace options budget messages
  rw [tlCompactInPlace] at compacted
  split at compacted
  · cases compacted
  · have result := congrArg Prod.fst (Except.ok.inj compacted)
    rw [result, estimatedCharsList_replacement] at size
    rw [size, SummaryOutweighs]
    by_cases replaced : budget < estimatedCharsList messages ∧ droppedMessages options messages ≠ []
    · rw [if_pos replaced]
      constructor
      · intro shorter outweighs
        have heavy := outweighs.2.2
        omega
      · intro light
        by_contra longer
        exact light ⟨replaced.1, replaced.2, by omega⟩
    · rw [if_neg replaced]
      exact ⟨fun _ outweighs => replaced ⟨outweighs.1, outweighs.2.1⟩, fun _ => Nat.le_refl _⟩

def growthOptions : Options where
  model := []
  keepLastMessages := 1
  insertCompactionSummary := true

def growthMessages : List Message :=
  [plainMessage .user (ascii "hi"), plainMessage .assistant (ascii "hello"),
    plainMessage .user (ascii "bye")]

/-- Two short messages are dropped for a summary that is longer. -/
theorem compaction_grows :
    (tlCompactInPlace growthOptions 20 growthMessages).map
        (fun result => estimatedCharsList result.1) = .ok 156 ∧
      estimatedCharsList growthMessages = 46 := by
  decide +kernel

theorem compactInPlace_le_iff_sample :
    estimatedCharsList (compactInPlace growthOptions 20 growthMessages).1 ≤
        estimatedCharsList growthMessages ↔
      ¬SummaryOutweighs growthOptions 20 growthMessages :=
  @compactInPlace_le_iff growthOptions 20 growthMessages _
    (compactInPlace growthOptions 20 growthMessages).2 rfl

/-! ## The limit of a summary

A summary that is too long is cut, and the last byte that is left is overwritten with the
terminator although the recorded length still counts it. -/

/-- `tl_build_compaction_summary`: no text for a range that is empty or not inside the list. -/
def tlBuildCompactionSummary (options : Options) (messages : List Message)
    (dropBegin dropEnd : Nat) : Bytes :=
  if dropEnd ≤ dropBegin ∨ messages.length < dropEnd then []
  else buildCompactionSummary options messages dropBegin dropEnd

/-- No longer than the limit, without a zero byte, and the front of the text that there is
without a limit. -/
structure RespectsLimit (options : Options) (messages : List Message)
    (dropBegin dropEnd : Nat) : Prop where
  short : options.summaryMaxChars ≠ 0 →
    (tlBuildCompactionSummary options messages dropBegin dropEnd).length ≤ options.summaryMaxChars
  noZero : 0 ∉ tlBuildCompactionSummary options messages dropBegin dropEnd
  front : tlBuildCompactionSummary options messages dropBegin dropEnd <+:
    tlBuildCompactionSummary { options with summaryMaxChars := 0 } messages dropBegin dropEnd

theorem zero_notMem_cString (text : Bytes) : 0 ∉ cString text := by
  intro member
  have kept := List.mem_takeWhile_imp member
  exact absurd kept (by decide)

theorem zero_notMem_decimal (value : Nat) : 0 ∉ decimal value := by
  intro member
  exact absurd (allIn_decimal value 0 member) (by decide)

theorem zero_notMem_trimBoth {drop : UInt8 → Bool} {text : Bytes} (clear : 0 ∉ text) :
    0 ∉ trimBoth drop text := by
  rw [trimBoth, List.mem_reverse]
  intro member
  have inside := List.mem_reverse.mp ((List.dropWhile_suffix drop).mem member)
  exact clear ((List.dropWhile_suffix drop).mem inside)

theorem zero_notMem_summarySnippet (content : Bytes) (maxSnippet : Nat) :
    0 ∉ summarySnippet content maxSnippet := by
  rw [summarySnippet]
  split
  · rw [List.mem_append, not_or]
    exact ⟨zero_notMem_trimBoth (zero_notMem_cString _), by decide⟩
  · exact zero_notMem_trimBoth (zero_notMem_cString _)

theorem zero_notMem_summaryLine (index : Nat) (message : Message) :
    0 ∉ summaryLine options index message := by
  have snippet := zero_notMem_summarySnippet message.content options.summarySnippetChars
  have role : 0 ∉ message.role.text := by cases message.role <;> decide
  have dot : 0 ∉ ascii ". " := by decide
  have colon : 0 ∉ ascii ": " := by decide
  have number := zero_notMem_decimal (index + 1)
  rw [summaryLine]
  split <;> simp_all

theorem zero_notMem_summaryText : 0 ∉ summaryText options dropped := by
  have front : 0 ∉ ascii "Previous conversation truncated (" := by decide
  have back : 0 ∉ ascii " earlier messages omitted) to stay within the model context window." := by
    decide
  have number := zero_notMem_decimal dropped.length
  rw [summaryText, summaryHeader]
  simp only [List.mem_append, List.mem_flatten, List.mem_map, not_or, not_exists, not_and,
    List.mem_singleton]
  refine ⟨⟨⟨⟨front, number⟩, back⟩, by decide⟩, ?_⟩
  rintro _ ⟨⟨message, index⟩, _, rfl⟩
  exact zero_notMem_summaryLine options index message

theorem zero_notMem_dropTrailingNewline {text : Bytes} (clear : 0 ∉ text) :
    0 ∉ dropTrailingNewline text := by
  rw [dropTrailingNewline]
  split
  · exact fun member => clear (List.mem_of_mem_dropLast member)
  · exact clear

section Limit

variable (options : Options) (messages : List Message) (dropBegin dropEnd : Nat)

theorem tlBuildCompactionSummary_inside (inside : ¬(dropEnd ≤ dropBegin ∨ messages.length < dropEnd)) :
    tlBuildCompactionSummary options messages dropBegin dropEnd =
      clipSummary options.summaryMaxChars (dropTrailingNewline
        (summaryText options ((messages.take dropEnd).drop dropBegin))) := by
  rw [tlBuildCompactionSummary, if_neg inside]
  rfl

/-- A summary respects its limit exactly when nothing has to be cut. -/
theorem summary_respects_limit_iff :
    RespectsLimit options messages dropBegin dropEnd ↔
      (dropEnd ≤ dropBegin ∨ messages.length < dropEnd) ∨ options.summaryMaxChars = 0 ∨
        wholeSummaryLength options ((messages.take dropEnd).drop dropBegin) ≤
          options.summaryMaxChars := by
  by_cases outside : dropEnd ≤ dropBegin ∨ messages.length < dropEnd
  · have empty : ∀ options, tlBuildCompactionSummary options messages dropBegin dropEnd = [] :=
      fun _ => if_pos outside
    refine ⟨fun _ => .inl outside, fun _ => ⟨fun _ => ?_, ?_, ?_⟩⟩
    · rw [empty]
      exact Nat.zero_le _
    · rw [empty]
      exact List.not_mem_nil
    · rw [empty]
      exact List.nil_prefix
  · have whole := length_summaryText options ((messages.take dropEnd).drop dropBegin)
    have clear := zero_notMem_dropTrailingNewline
      (zero_notMem_summaryText options ((messages.take dropEnd).drop dropBegin))
    have built := tlBuildCompactionSummary_inside options messages dropBegin dropEnd outside
    have unlimited := tlBuildCompactionSummary_inside { options with summaryMaxChars := 0 }
      messages dropBegin dropEnd outside
    rw [or_iff_right outside]
    by_cases cut : options.summaryMaxChars > 0 ∧ wholeSummaryLength options
        ((messages.take dropEnd).drop dropBegin) > options.summaryMaxChars
    · constructor
      · intro respects
        have noZero := respects.noZero
        rw [built, clipSummary, whole, if_pos (by simpa using cut)] at noZero
        exact absurd (List.mem_append_right _ (List.mem_singleton.mpr rfl)) noZero
      · intro fits
        omega
    · rw [clipSummary, whole, if_neg (by simpa using cut)] at built
      refine ⟨fun _ => by omega, fun _ => ⟨fun limited => ?_, ?_, ?_⟩⟩
      · rw [built, whole]
        omega
      · rw [built]
        exact clear
      · rw [built, unlimited]
        exact List.prefix_refl _

end Limit

def cutOptions : Options where
  model := []
  summaryMaxChars := 8

/-- Of a summary cut to eight bytes seven are left, with a zero byte behind them. -/
theorem cut_summary_ends_with_zero :
    tlBuildCompactionSummary cutOptions growthMessages 0 1 = ascii "Previou" ++ [0] ∧
      ¬RespectsLimit cutOptions growthMessages 0 1 := by
  have built : tlBuildCompactionSummary cutOptions growthMessages 0 1 = ascii "Previou" ++ [0] := by
    decide +kernel
  refine ⟨built, fun respects => ?_⟩
  have noZero := respects.noZero
  rw [built] at noZero
  exact absurd noZero (by decide)

end AgentC.ToolLoop
