import AgentC.Sessions.Session
import Mathlib.Algebra.BigOperators.Group.List.Basic
import Mathlib.Data.List.GetD
import Mathlib.Data.List.InsertIdx

/-! # What the compaction of a session leaves

Messages are dropped in a fixed order: first those between the leading messages and the
last ones, then the leading messages behind the first. -/

namespace AgentC.Sessions

open AgentC.ToolLoop (Role)

/-- The parts of a message list from which compaction drops in different ways. -/
structure Regions (α : Type) where
  first : List α
  leading : List α
  middle : List α
  last : List α

variable {keepLast : Nat}

namespace Regions

variable {α : Type}

/-- The first messages and the last ones are never dropped, the leading ones only when the
middle is empty. -/
def ofList (whole : List α) (first leading keepLast : Nat) : Regions α :=
  let lastStart := whole.length - keepLast
  { first := whole.take (min first lastStart)
    leading := (whole.take (min leading lastStart)).drop (min first lastStart)
    middle := (whole.take lastStart).drop (min leading lastStart)
    last := whole.drop lastStart }

def without (regions : Regions α) (fromLeading fromMiddle : Nat) : List α :=
  regions.first ++ (regions.leading.drop fromLeading ++
    (regions.middle.drop fromMiddle ++ regions.last))

variable (regions : Regions α) (fromLeading fromMiddle : Nat)

theorem without_sublist : (regions.without fromLeading fromMiddle).Sublist (regions.without 0 0) :=
  (List.Sublist.refl _).append
    ((List.drop_sublist ..).append ((List.drop_sublist ..).append (List.Sublist.refl _)))

theorem last_suffix : regions.last <:+ regions.without fromLeading fromMiddle :=
  List.suffix_append_of_suffix (List.suffix_append_of_suffix (List.suffix_append ..))

section

variable {whole : List α} {first leading : Nat} (ordered : first ≤ leading) (keepLast : Nat)

include ordered

theorem ofList_without : (ofList whole first leading keepLast).without 0 0 = whole := by
  have front : ∀ {start stop : Nat}, start ≤ stop →
      whole.take start ++ (whole.take stop).drop start = whole.take stop := by
    intro start stop within
    have shorter : (whole.take stop).take start = whole.take start := by
      rw [List.take_take, Nat.min_eq_left within]
    rw [← shorter]
    exact List.take_append_drop ..
  simp only [without, ofList, List.drop_zero]
  rw [← List.append_assoc, front (by omega), ← List.append_assoc, front (by omega)]
  exact List.take_append_drop ..

omit ordered in
theorem ofList_lengths : (ofList whole first leading keepLast).first.length =
        min first (whole.length - keepLast) ∧ (ofList whole first leading keepLast).leading.length =
        min leading (whole.length - keepLast) - min first (whole.length - keepLast) ∧
      (ofList whole first leading keepLast).middle.length =
        (whole.length - keepLast) - min leading (whole.length - keepLast) ∧
      (ofList whole first leading keepLast).last.length =
        whole.length - (whole.length - keepLast) := by
  simp only [ofList, List.length_take, List.length_drop, and_true]
  omega

/-- A region is as long as it was asked to be, or the regions behind it up to the last
messages are empty. -/
theorem ofList_filled (few : keepLast ≤ whole.length) :
    ((ofList whole first leading keepLast).first.length = first ∨
        (ofList whole first leading keepLast).leading.length = 0 ∧
          (ofList whole first leading keepLast).middle.length = 0 ∧
          (ofList whole first leading keepLast).first.length < first) ∧
      ((ofList whole first leading keepLast).first.length +
            (ofList whole first leading keepLast).leading.length = leading ∨
        (ofList whole first leading keepLast).middle.length = 0 ∧
          (ofList whole first leading keepLast).first.length +
            (ofList whole first leading keepLast).leading.length < leading) ∧
      (ofList whole first leading keepLast).last.length = keepLast := by
  rcases @ofList_lengths _ whole first leading keepLast with ⟨front, behind, between, ending⟩
  rw [front, behind, between, ending]
  generalize start : whole.length - keepLast = lastStart
  rcases Nat.le_total leading lastStart with within | beyond
  · rw [Nat.min_eq_left within, Nat.min_eq_left (ordered.trans within)]
    omega
  · rw [Nat.min_eq_right beyond]
    rcases Nat.le_total first lastStart with inside | outside
    · rw [Nat.min_eq_left inside]
      omega
    · rw [Nat.min_eq_right outside]
      omega

end

theorem without_length : (regions.without fromLeading fromMiddle).length =
      regions.first.length + ((regions.leading.length - fromLeading) +
        ((regions.middle.length - fromMiddle) + regions.last.length)) := by
  simp only [without, List.length_append, List.length_drop]

theorem eraseIdx_middle {fromMiddle : Nat} (more : fromMiddle < regions.middle.length) :
    (regions.without 0 fromMiddle).eraseIdx (regions.first.length + regions.leading.length) =
      regions.without 0 (fromMiddle + 1) := by
  rw [without, List.eraseIdx_append_of_length_le (Nat.le_add_right ..), Nat.add_sub_cancel_left,
    List.drop_zero, List.eraseIdx_append_of_length_le (Nat.le_refl _), Nat.sub_self,
    List.drop_eq_getElem_cons more]
  rfl

theorem eraseIdx_leading {fromLeading : Nat} (more : fromLeading < regions.leading.length) :
    (regions.without fromLeading fromMiddle).eraseIdx regions.first.length =
      regions.without (fromLeading + 1) fromMiddle := by
  rw [without, List.eraseIdx_append_of_length_le (Nat.le_refl _), Nat.sub_self,
    List.drop_eq_getElem_cons more]
  rfl

def DroppedInOrder (regions : Regions α) (left : List α) (dropped : Nat) : Prop :=
  ∃ fromLeading fromMiddle,
    fromLeading ≤ regions.leading.length ∧ fromMiddle ≤ regions.middle.length ∧
      (fromLeading = 0 ∨ fromMiddle = regions.middle.length) ∧
      left = regions.without fromLeading fromMiddle ∧ dropped = fromLeading + fromMiddle

theorem DroppedInOrder.head {whole left : List α} {first leading dropped : Nat}
    (inOrder : (ofList whole first leading keepLast).DroppedInOrder left dropped)
    (ordered : first ≤ leading) (positive : 0 < first) : left.head? = whole.head? := by
  have lengths := @ofList_lengths _ whole first leading keepLast
  rcases inOrder with ⟨fromLeading, fromMiddle, leadingLe, middleLe, order, same, _⟩
  rcases Nat.eq_zero_or_pos (whole.length - keepLast) with none | some
  · have noLeading : fromLeading = 0 := by omega
    have noMiddle : fromMiddle = 0 := by omega
    rw [same, noLeading, noMiddle, ofList_without ordered]
  · have shown : 0 < min first (whole.length - keepLast) := by omega
    have filled : (ofList whole first leading keepLast).first.head? = whole.head? := by
      rw [ofList, List.head?_take, if_neg (by omega)]
    cases shape : (ofList whole first leading keepLast).first with
    | nil =>
      rw [shape] at lengths
      rw [List.length_nil] at lengths
      omega
    | cons =>
      rw [same, without, shape, ← filled, shape]
      rfl

end Regions

namespace Session

variable {prefixPref prefixMin index : Nat}

theorem dropIndex_cases {count : Nat} (few : keepLast ≤ count)
    (found : dropIndex prefixPref prefixMin keepLast count = some index) :
    (index = prefixPref ∧ prefixPref < count - keepLast) ∨
      (index = prefixMin ∧ count - keepLast ≤ prefixPref ∧ prefixMin < count - keepLast) := by
  rw [dropIndex, if_neg (Nat.not_lt.mpr few)] at found
  grind

theorem dropIndex_eq_none {count : Nat} (few : keepLast ≤ count)
    (missing : dropIndex prefixPref prefixMin keepLast count = none) :
    count - keepLast ≤ prefixPref ∧ count - keepLast ≤ prefixMin := by
  rw [dropIndex, if_neg (Nat.not_lt.mpr few)] at missing
  grind

section

variable {whole left : List Message} {prefixPref prefixMin keepLast dropped : Nat}
  (ordered : prefixMin ≤ prefixPref) (few : keepLast ≤ whole.length)
  (inOrder : (Regions.ofList whole prefixMin prefixPref keepLast).DroppedInOrder left dropped)

include ordered few inOrder

theorem droppedInOrder_eraseIdx
    (found : dropIndex prefixPref prefixMin keepLast left.length = some index) :
    (Regions.ofList whole prefixMin prefixPref keepLast).DroppedInOrder (left.eraseIdx index)
      (dropped + 1) := by
  have filled := Regions.ofList_filled ordered keepLast few
  rcases inOrder with ⟨fromLeading, fromMiddle, leadingLe, middleLe, order, same, count⟩
  have size := congrArg List.length same
  rw [Regions.without_length] at size
  rcases dropIndex_cases (by omega) found with ⟨here, before⟩ | ⟨here, behind, before⟩
  · have none : fromLeading = 0 := by omega
    have more : fromMiddle < (Regions.ofList whole prefixMin prefixPref keepLast).middle.length := by
      omega
    have place : index = (Regions.ofList whole prefixMin prefixPref keepLast).first.length +
        (Regions.ofList whole prefixMin prefixPref keepLast).leading.length := by omega
    refine ⟨0, fromMiddle + 1, Nat.zero_le _, more, .inl rfl, ?_, by omega⟩
    rw [same, none, place, Regions.eraseIdx_middle _ more]
  · have more : fromLeading <
        (Regions.ofList whole prefixMin prefixPref keepLast).leading.length := by omega
    have place : index =
        (Regions.ofList whole prefixMin prefixPref keepLast).first.length := by omega
    refine ⟨fromLeading + 1, fromMiddle, more, middleLe, .inr (by omega), ?_, by omega⟩
    rw [same, place, Regions.eraseIdx_leading _ _ more]

theorem droppedInOrder_least (missing : dropIndex prefixPref prefixMin keepLast left.length = none) :
    left = (Regions.ofList whole prefixMin prefixPref keepLast).first ++
      (Regions.ofList whole prefixMin prefixPref keepLast).last := by
  have filled := Regions.ofList_filled ordered keepLast few
  rcases inOrder with ⟨fromLeading, fromMiddle, leadingLe, middleLe, order, same, count⟩
  have size := congrArg List.length same
  rw [Regions.without_length] at size
  have stopped := dropIndex_eq_none (by omega) missing
  rw [same, Regions.without, List.drop_eq_nil_of_le (by omega), List.nil_append,
    List.drop_eq_nil_of_le (by omega), List.nil_append]

end

theorem estimatedChars_eraseIdx {messages : List Message} (inside : index < messages.length) :
    (messages.getD index clearedMessage).estimatedChars + estimatedChars (messages.eraseIdx index) =
      estimatedChars messages := by
  have mapped : index < (messages.map Message.estimatedChars).length := by
    rw [List.length_map]
    exact inside
  rw [List.getD_eq_getElem _ _ inside, estimatedChars, ← List.eraseIdx_map]
  have total := List.add_sum_eraseIdx mapped (fun _ _ => AddCommute.all ..)
  rw [List.getElem_map] at total
  exact total

/-- What is known at every moment of the loop. -/
structure Moment (whole : List Message) (prefixPref prefixMin keepLast : Nat)
    (state : Compacting) : Prop where
  order : (Regions.ofList whole prefixMin prefixPref keepLast).DroppedInOrder
    state.session.messages state.dropped
  chars : state.currentChars = estimatedChars state.session.messages

theorem Moment.turn {whole : List Message} {maxChars : Nat} (ordered : prefixMin ≤ prefixPref)
    (few : keepLast ≤ whole.length) (state next : Compacting)
    (taken : compactTurn maxChars prefixPref prefixMin keepLast state = some next)
    (moment : Moment whole prefixPref prefixMin keepLast state) :
    Moment whole prefixPref prefixMin keepLast next := by
  rcases compactTurn_eq_some taken with ⟨index, found, inside, same⟩
  have left : next.session.messages = state.session.messages.eraseIdx index := by
    rw [same, Compacting.dropMessage, dropRange_one inside]
  have total := estimatedChars_eraseIdx inside
  constructor
  · rw [left, same]
    exact droppedInOrder_eraseIdx ordered few moment.order found
  · rw [left, same, Compacting.dropMessage, moment.chars]
    dsimp only
    rw [if_pos (by omega)]
    omega

theorem compactTurn_eq_none {maxChars : Nat} {state : Compacting}
    (stopped : compactTurn maxChars prefixPref prefixMin keepLast state = none) :
    state.session.messages = [] ∨ state.currentChars ≤ maxChars ∨
      dropIndex prefixPref prefixMin keepLast state.session.messages.length = none := by
  rw [compactTurn] at stopped
  split at stopped
  · exact .inr (.inr (Option.map_eq_none_iff.mp stopped))
  · next small =>
    rcases Nat.eq_zero_or_pos state.session.messages.length with empty | filled
    · exact .inl (List.length_eq_zero_iff.mp empty)
    · exact .inr (.inl (by omega))

def pinnedMin (session : Session) : Nat :=
  if session.hasPinnableFirstSystemMessage then 1 else 0

def withSummary (session : Session) (summary : Bytes) : List Message :=
  if wantSummary summary then
    session.messages.insertIdx session.countPinnedSystemPrefix
      { role := .system, content := cString summary }
  else session.messages

def leadingCount (session : Session) (summary : Bytes) : Nat :=
  session.countPinnedSystemPrefix + if wantSummary summary then 1 else 0

def regions (session : Session) (keepLast : Nat) (summary : Bytes) : Regions Message :=
  Regions.ofList (session.withSummary summary) session.pinnedMin (session.leadingCount summary)
    keepLast

theorem pinnedMin_le (session : Session) (summary : Bytes) :
    session.pinnedMin ≤ session.leadingCount summary := by
  rw [pinnedMin, leadingCount]
  split
  · next pinnable =>
    have positive := countPinnedSystemPrefix_pos pinnable
    omega
  · exact Nat.zero_le _

variable {session : Session}

theorem withSummary_head (pinnable : session.hasPinnableFirstSystemMessage = true)
    (summary : Bytes) : (session.withSummary summary).head? = session.messages.head? := by
  rw [withSummary]
  split
  · have positive := countPinnedSystemPrefix_pos pinnable
    have inside := countPinnedSystemPrefix_le session
    rw [List.head?_eq_getElem?, List.head?_eq_getElem?, List.getElem?_insertIdx_of_lt positive]
  · rfl

def compactionTurn (session : Session) (maxChars keepLast : Nat) (summary : Bytes) :
    Compacting → Option Compacting :=
  compactTurn maxChars (session.leadingCount summary) session.pinnedMin
    (min keepLast (session.withSummary summary).length)

/-- What the compaction of a session with a summary has done. -/
structure Compacted (session : Session) (maxChars keepLast : Nat) (summary : Bytes)
    (report : CompactReport) (result : Session) : Prop where
  sublist : result.messages.Sublist (session.withSummary summary)
  lastKept :
    (session.withSummary summary).drop ((session.withSummary summary).length - keepLast) <:+
      result.messages
  firstKept :
    session.hasPinnableFirstSystemMessage = true →
      result.messages.head? = session.messages.head?
  chars : report.afterChars = estimatedChars result.messages
  count : result.messages.length + report.droppedMessages = (session.withSummary summary).length
  enough : report.afterChars ≤ maxChars ∨
    result.messages =
      (session.regions keepLast summary).first ++ (session.regions keepLast summary).last
  order : ∃ start : Compacting,
    start.session.messages = session.withSummary summary ∧
      TurnsTo (session.compactionTurn maxChars keepLast summary) start
        ⟨result, report.afterChars, report.droppedMessages⟩ ∧
      ∀ moment, TurnsTo (session.compactionTurn maxChars keepLast summary) start moment →
        (session.regions keepLast summary).DroppedInOrder moment.session.messages moment.dropped

section

variable {session : Session} {maxChars keepLast : Nat} {summary : Bytes}

theorem regions_without : (session.regions keepLast summary).without 0 0 =
    session.withSummary summary :=
  Regions.ofList_without (pinnedMin_le session summary) keepLast

theorem regions_last : (session.regions keepLast summary).last =
    (session.withSummary summary).drop ((session.withSummary summary).length - keepLast) :=
  rfl

theorem regions_clipped :
    Regions.ofList (session.withSummary summary) session.pinnedMin (session.leadingCount summary)
      (min keepLast (session.withSummary summary).length) = session.regions keepLast summary := by
  have start : (session.withSummary summary).length -
      min keepLast (session.withSummary summary).length =
      (session.withSummary summary).length - keepLast := by omega
  rw [regions, Regions.ofList, start]
  rfl

theorem compacted_of_moment {start final : Compacting} {report : CompactReport}
    (whole : start.session.messages = session.withSummary summary)
    (turns : TurnsTo (session.compactionTurn maxChars keepLast summary) start final)
    (stopped : final.currentChars ≤ maxChars ∨
      session.compactionTurn maxChars keepLast summary final = none)
    (chars : start.currentChars = estimatedChars (session.withSummary summary))
    (fresh : start.dropped = 0) (after : report.afterChars = final.currentChars)
    (count : report.droppedMessages = final.dropped) :
    session.Compacted maxChars keepLast summary report final.session := by
  have ordered := pinnedMin_le session summary
  have few : min keepLast (session.withSummary summary).length ≤
    (session.withSummary summary).length := Nat.min_le_right ..
  have begun : Moment (session.withSummary summary) (session.leadingCount summary)
      session.pinnedMin (min keepLast (session.withSummary summary).length) start := by
    refine ⟨⟨0, 0, Nat.zero_le _, Nat.zero_le _, .inl rfl, ?_, fresh⟩, ?_⟩
    · rw [regions_clipped, regions_without, whole]
    · rw [chars, whole]
  have always : ∀ moment, TurnsTo (session.compactionTurn maxChars keepLast summary) start moment →
      Moment (session.withSummary summary) (session.leadingCount summary) session.pinnedMin
        (min keepLast (session.withSummary summary).length) moment :=
    fun moment reached => reached.keeps (Moment.turn ordered few) begun
  have ended := always final turns
  have inOrder := ended.order
  rw [regions_clipped] at inOrder
  rcases inOrder with ⟨fromLeading, fromMiddle, leadingLe, middleLe, order, same, dropped⟩
  constructor
  case sublist =>
    rw [same, ← regions_without]
    exact Regions.without_sublist ..
  case lastKept =>
    rw [same, ← regions_last]
    exact Regions.last_suffix ..
  case firstKept =>
    intro pinnable
    have one : session.pinnedMin = 1 := if_pos pinnable
    have ended := ended.order
    rw [regions_clipped] at ended
    rw [← withSummary_head pinnable summary]
    exact ended.head ordered (by omega)
  case chars => rw [after, ended.chars]
  case count =>
    have total := congrArg List.length (@regions_without session keepLast summary)
    rw [Regions.without_length] at total
    rw [same, Regions.without_length, count, dropped, ← total]
    omega
  case enough =>
    rcases stopped with small | stopped
    · exact .inl (after ▸ small)
    · rcases compactTurn_eq_none stopped with empty | small | missing
      · left
        rw [after, ended.chars, empty]
        exact Nat.zero_le _
      · exact .inl (after ▸ small)
      · right
        rw [← regions_clipped]
        exact droppedInOrder_least ordered few ended.order missing
  case order =>
    refine ⟨start, whole, ?_, ?_⟩
    · rw [after, count]
      exact turns
    · intro moment reached
      have inOrder := (always moment reached).order
      rw [regions_clipped] at inOrder
      exact inOrder

end

theorem compacted_compactInserted {start : Session} {summary : Bytes}
    (whole : start.messages = session.withSummary summary) (maxChars keepLast : Nat)
    (report : CompactReport) (fresh : report.droppedMessages = 0) :
    session.Compacted maxChars keepLast summary
      (start.compactInserted maxChars keepLast session.pinned session.pinnedMin
        (wantSummary summary) report (estimatedChars (session.withSummary summary))).1
      (start.compactInserted maxChars keepLast session.pinned session.pinnedMin
        (wantSummary summary) report (estimatedChars (session.withSummary summary))).2 := by
  let begun : Compacting := ⟨start, estimatedChars (session.withSummary summary), 0⟩
  rw [compactInserted]
  split
  · next small =>
    have turns : TurnsTo (session.compactionTurn maxChars keepLast summary) begun begun := .refl
    exact compacted_of_moment whole turns (.inl small) rfl rfl rfl fresh
  · have window : (if keepLast > start.messages.length then start.messages.length else keepLast) =
        min keepLast (session.withSummary summary).length := by
      rw [whole]
      split <;> omega
    have spec : TurnsTo (session.compactionTurn maxChars keepLast summary) begun
          (compactLoop maxChars (session.leadingCount summary) session.pinnedMin
            (min keepLast (session.withSummary summary).length) begun) ∧
        session.compactionTurn maxChars keepLast summary
          (compactLoop maxChars (session.leadingCount summary) session.pinnedMin
            (min keepLast (session.withSummary summary).length) begun) = none :=
      turnLoop_spec begun
    rw [window, pinned_eq]
    exact compacted_of_moment whole spec.1 (.inr spec.2) rfl rfl rfl rfl

theorem insertMessage_of_plenty {heap : Heap} (plenty : ∀ call, heap.succeeds call = true)
    (inside : index ≤ session.messages.length) (role : Role) (content : Bytes) :
    ∃ inserted next, session.insertMessage index role content heap = (.ok, inserted, next) ∧
      inserted.messages =
        session.messages.insertIdx index { role, content := cString content } := by
  rcases reserve_of_plenty plenty session (session.messages.length + 1) with
    ⟨grown, afterReserve, reserved, more⟩
  rcases malloc_of_plenty more with ⟨next, allocated, _⟩
  rw [insertMessage, if_neg (Nat.not_lt.mpr inside), reserved]
  simp only [allocated, Bool.not_true, Bool.false_eq_true, if_false]
  exact ⟨_, next, rfl, rfl⟩

theorem estimatedChars_insertIdx {messages : List Message} (inside : index ≤ messages.length)
    (message : Message) : estimatedChars (messages.insertIdx index message) =
      estimatedChars messages +
        ((messages.insertIdx index message).getD index clearedMessage).estimatedChars := by
  have present : index < (messages.insertIdx index message).length := by
    rw [List.length_insertIdx_of_le_length inside]
    omega
  have total := estimatedChars_eraseIdx present
  rw [List.eraseIdx_insertIdx_self] at total
  omega

/-- The compaction of a session drops messages in order, and no more than it has to. -/
theorem compactCharBudget_compacted (session : Session) (maxChars keepLast : Nat)
    (summary : Bytes) (heap : Heap) (positive : 0 < maxChars)
    (plenty : ∀ call, heap.succeeds call = true) :
    ∃ report result next,
      session.compactCharBudget maxChars keepLast summary heap = (.ok report, result, next) ∧
        session.Compacted maxChars keepLast summary report result := by
  let report : CompactReport :=
    { beforeChars := estimatedChars session.messages
      afterChars := estimatedChars session.messages }
  have inside := countPinnedSystemPrefix_le session
  rw [← pinned_eq] at inside
  rw [compactCharBudget, if_neg (by omega)]
  cases wanted : wantSummary summary with
  | true =>
    rcases insertMessage_of_plenty plenty inside .system summary with
      ⟨inserted, next, inserting, messages⟩
    have whole : inserted.messages = session.withSummary summary := by
      rw [messages, withSummary, if_pos wanted, pinned_eq]
    have chars : estimatedChars session.messages +
        (inserted.messages.getD session.pinned clearedMessage).estimatedChars =
        estimatedChars (session.withSummary summary) := by
      rw [messages, ← estimatedChars_insertIdx inside, ← messages, whole]
    have compacted := compacted_compactInserted whole maxChars keepLast
      { report with insertedSummary := true } rfl
    rw [wanted, ← chars] at compacted
    simp only [inserting, if_true]
    exact ⟨_, _, _, rfl, compacted⟩
  | false =>
    have whole : session.messages = session.withSummary summary := by
      rw [withSummary, wanted]
      rfl
    have compacted := compacted_compactInserted whole maxChars keepLast report rfl
    rw [wanted, ← whole] at compacted
    exact ⟨_, _, _, rfl, compacted⟩

theorem compactCharBudget_compacted_sample :
    ∃ report result next,
      compactCharBudget
          ⟨[{ role := .system, content := ascii "be brief" },
            { role := .user, content := ascii "hello" },
            { role := .assistant, content := ascii "hi" }], 8, by decide⟩
          60 1 (ascii "AGENT_SESSION_SUMMARY: greetings") plentiful = (.ok report, result, next) ∧
        Compacted
          ⟨[{ role := .system, content := ascii "be brief" },
            { role := .user, content := ascii "hello" },
            { role := .assistant, content := ascii "hi" }], 8, by decide⟩
          60 1 (ascii "AGENT_SESSION_SUMMARY: greetings") report result :=
  compactCharBudget_compacted _ 60 1 _ plentiful (by decide) fun _ => rfl

end Session

end AgentC.Sessions
