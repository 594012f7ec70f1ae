import AgentC.Foundation.Machine
import AgentC.ToolLoop.Transcript

/-! # Sessions

`core/src/agent_session.c`: the message list of a conversation. Every operation is given
the heap it allocates from. A string argument is a C string; strings that the session
owns are the bytes of their length. -/

namespace AgentC.Sessions

open AgentC.ToolLoop (Role)

structure Heap where
  succeeds : Nat → Bool
  calls : Nat

/-- `agent_malloc` -/
def Heap.malloc (heap : Heap) : Bool × Heap :=
  (heap.succeeds heap.calls, { heap with calls := heap.calls + 1 })

def plentiful : Heap where
  succeeds _ := true
  calls := 0

inductive PartType
  | text
  | imageUrl
  | audioUrl
  | videoUrl
  | binary
deriving DecidableEq, Repr

structure Part where
  type : PartType
  text : Bytes := []
  url : Bytes := []
  bytes : Bytes := []
  mime : Bytes := []
deriving DecidableEq, Repr

structure Message where
  role : Role
  content : Bytes
  parts : List Part := []
deriving DecidableEq, Repr

structure Session where
  messages : List Message
  cap : Nat
  room : messages.length ≤ cap

/-- `agent_session_create` -/
def create : Session where
  messages := []
  cap := 0
  room := Nat.le_refl 0

namespace Session

def growCap (newCap needCap : Nat) : Nat :=
  if 0 < newCap ∧ newCap < needCap then growCap (newCap * 2) needCap else newCap
termination_by needCap - newCap

theorem le_growCap_need {newCap : Nat} (positive : 0 < newCap) (needCap : Nat) :
    needCap ≤ growCap newCap needCap := by
  induction newCap using growCap.induct needCap with
  | case1 newCap more induction =>
    rw [growCap, if_pos more]
    exact induction (by omega)
  | case2 newCap enough =>
    rw [growCap, if_neg enough]
    omega

/-- A session with the same messages in which there is room for so many. -/
def WithRoom (session : Session) (needCap : Nat) : Type :=
  { grown : Session // grown.messages = session.messages ∧ needCap ≤ grown.cap }

/-- `agent_session_reserve`: nothing is returned when the memory is refused. -/
def reserve (session : Session) (needCap : Nat) (heap : Heap) :
    Option (session.WithRoom needCap) × Heap :=
  if enough : needCap ≤ session.cap then (some ⟨session, rfl, enough⟩, heap)
  else
    let newCap := growCap (if session.cap = 0 then 8 else session.cap) needCap
    let (allocated, heap) := heap.malloc
    if !allocated then (none, heap)
    else
      have large : needCap ≤ newCap := le_growCap_need (by split <;> omega) needCap
      have room : session.messages.length ≤ newCap := by
        have room := session.room
        omega
      (some ⟨{ session with cap := newCap, room }, rfl, large⟩, heap)

def addMessage (session : Session) (role : Role) (content : Bytes) (heap : Heap) :
    Status × Session × Heap :=
  match session.reserve (session.messages.length + 1) heap with
  | (none, heap) => (.oom, session, heap)
  | (some grown, heap) =>
    let (copied, heap) := heap.malloc
    if !copied then (.oom, grown.val, heap)
    else
      let message : Message := { role, content := cString content }
      (.ok,
        { messages := session.messages ++ [message]
          cap := grown.val.cap
          room := by
            rw [List.length_append]
            exact grown.property.2 },
        heap)

section

variable {heap : Heap} (plenty : ∀ call, heap.succeeds call = true)

include plenty

theorem malloc_of_plenty : ∃ next, heap.malloc = (true, next) ∧ ∀ call, next.succeeds call = true := by
  refine ⟨{ heap with calls := heap.calls + 1 }, ?_, plenty⟩
  rw [Heap.malloc, plenty]

theorem reserve_of_plenty (session : Session) (needCap : Nat) :
    ∃ grown next, session.reserve needCap heap = (some grown, next) ∧
      ∀ call, next.succeeds call = true := by
  rw [reserve]
  split
  · exact ⟨_, heap, rfl, plenty⟩
  · rcases malloc_of_plenty plenty with ⟨next, allocated, more⟩
    simp only [allocated, Bool.not_true, Bool.false_eq_true, if_false]
    exact ⟨_, next, rfl, more⟩

theorem addMessage_of_plenty (session : Session) (role : Role) (content : Bytes) :
    ∃ added next, session.addMessage role content heap = (.ok, added, next) ∧
      added.messages = session.messages ++ [{ role, content := cString content }] := by
  rcases reserve_of_plenty plenty session (session.messages.length + 1) with
    ⟨grown, afterReserve, reserved, more⟩
  rcases malloc_of_plenty more with ⟨next, allocated, _⟩
  simp only [addMessage, reserved, allocated, Bool.not_true, Bool.false_eq_true, if_false]
  exact ⟨_, next, rfl, rfl⟩

end

end Session

def Message.estimatedChars (message : Message) : Nat :=
  16 + message.content.length +
    (message.parts.map fun part => 8 + part.bytes.length + part.url.length).sum

/-- The loop of `agent_session_estimated_chars`. -/
def estimatedChars (messages : List Message) : Nat :=
  (messages.map Message.estimatedChars).sum

def summaryPrefix : Bytes := ascii "AGENT_SESSION_SUMMARY:"

def Message.isSummaryMarker (message : Message) : Bool :=
  message.role = .system && (cString message.content).take summaryPrefix.length == summaryPrefix

/-- A system message that is no summary of the host. -/
def Message.isPinnable (message : Message) : Bool :=
  message.role = .system && !message.isSummaryMarker

namespace Session

def hasPinnableFirstSystemMessage (session : Session) : Bool :=
  session.messages.head?.any Message.isPinnable

def countPinnedSystemPrefix (session : Session) : Nat :=
  (session.messages.takeWhile Message.isPinnable).length

def clearedMessage : Message where
  role := .system
  content := []

/-- `agent_session_insert_message`. The slot is made, cleared and counted before the copy
of the content is allocated. -/
def insertMessage (session : Session) (index : Nat) (role : Role) (content : Bytes)
    (heap : Heap) : Status × Session × Heap :=
  if index > session.messages.length then (.bounds, session, heap)
  else
    match session.reserve (session.messages.length + 1) heap with
    | (none, heap) => (.oom, session, heap)
    | (some grown, heap) =>
      let withMessage (message : Message) : Session :=
        { messages := session.messages.insertIdx index message
          cap := grown.val.cap
          room := (List.length_insertIdx_le_succ ..).trans grown.property.2 }
      let (copied, heap) := heap.malloc
      if !copied then (.oom, withMessage clearedMessage, heap)
      else (.ok, withMessage { role, content := cString content }, heap)

def dropRange (session : Session) (start endExclusive : Nat) : Session where
  messages :=
    if start ≥ endExclusive ∨ endExclusive > session.messages.length then session.messages
    else session.messages.take start ++ session.messages.drop endExclusive
  cap := session.cap
  room := by
    have room := session.room
    split
    · exact room
    · rw [List.length_append, List.length_take, List.length_drop]
      omega

theorem dropRange_one {session : Session} {index : Nat} (inside : index < session.messages.length) :
    (session.dropRange index (index + 1)).messages = session.messages.eraseIdx index := by
  have proper : ¬(index ≥ index + 1 ∨ index + 1 > session.messages.length) := by omega
  simp only [dropRange, if_neg proper, List.eraseIdx_eq_take_drop_succ]

def dropIndex (prefixPref prefixMin keepLast count : Nat) : Option Nat :=
  let currentKeepLast := if keepLast > count then count else keepLast
  let suffixStart := count - currentKeepLast
  if prefixPref < suffixStart then some prefixPref
  else if prefixMin < suffixStart then some prefixMin
  else none

theorem dropIndex_lt {prefixPref prefixMin keepLast count index : Nat}
    (found : dropIndex prefixPref prefixMin keepLast count = some index) : index < count := by
  rw [dropIndex] at found
  split at found
  · split at found
    · cases found
      omega
    · split at found
      · cases found
        omega
      · cases found
  · split at found
    · cases found
      omega
    · split at found
      · cases found
        omega
      · cases found

/-- What the loop of `agent_session_compact_char_budget` changes. -/
structure Compacting where
  session : Session
  currentChars : Nat
  dropped : Nat

/-- The end of the body of that loop: one message is dropped. -/
def Compacting.dropMessage (state : Compacting) (index : Nat) : Compacting :=
  let droppedChars := (state.session.messages.getD index clearedMessage).estimatedChars
  let session := state.session.dropRange index (index + 1)
  { session
    currentChars :=
      if state.currentChars ≥ droppedChars then state.currentChars - droppedChars
      else estimatedChars session.messages
    dropped := state.dropped + 1 }

def compactTurn (maxChars prefixPref prefixMin keepLast : Nat) (state : Compacting) :
    Option Compacting :=
  if 0 < state.session.messages.length ∧ state.currentChars > maxChars then
    (dropIndex prefixPref prefixMin keepLast state.session.messages.length).map
      state.dropMessage
  else none

theorem compactTurn_eq_some {maxChars prefixPref prefixMin keepLast : Nat} {state next : Compacting}
    (taken : compactTurn maxChars prefixPref prefixMin keepLast state = some next) :
    ∃ index, dropIndex prefixPref prefixMin keepLast state.session.messages.length = some index ∧
      index < state.session.messages.length ∧ next = state.dropMessage index := by
  rw [compactTurn] at taken
  split at taken
  · rcases Option.map_eq_some_iff.mp taken with ⟨index, found, same⟩
    exact ⟨index, found, dropIndex_lt found, same.symm⟩
  · cases taken

theorem compactTurn_smaller (maxChars prefixPref prefixMin keepLast : Nat) (state next : Compacting)
    (taken : compactTurn maxChars prefixPref prefixMin keepLast state = some next) :
    next.session.messages.length < state.session.messages.length := by
  rcases compactTurn_eq_some taken with ⟨index, _, inside, same⟩
  rw [same, Compacting.dropMessage, dropRange_one inside, List.length_eraseIdx_of_lt inside]
  omega

/-- The loop of `agent_session_compact_char_budget`. -/
def compactLoop (maxChars prefixPref prefixMin keepLast : Nat) : Compacting → Compacting :=
  turnLoop (compactTurn maxChars prefixPref prefixMin keepLast)
    (fun state => state.session.messages.length)
    (compactTurn_smaller maxChars prefixPref prefixMin keepLast)

structure CompactReport where
  beforeChars : Nat
  afterChars : Nat
  droppedMessages : Nat := 0
  insertedSummary : Bool := false
deriving DecidableEq, Repr

/-- `summary_or_null` is there and not empty. A null pointer is modelled by an empty text. -/
def wantSummary (summary : Bytes) : Bool := !(cString summary).isEmpty

/-- The variable `pinned`. -/
def pinned (session : Session) : Nat :=
  let counted := session.countPinnedSystemPrefix
  if counted = 0 && session.hasPinnableFirstSystemMessage then 1 else counted

theorem countPinnedSystemPrefix_pos {session : Session}
    (pinnable : session.hasPinnableFirstSystemMessage = true) :
    0 < session.countPinnedSystemPrefix := by
  rw [hasPinnableFirstSystemMessage] at pinnable
  rw [countPinnedSystemPrefix]
  cases shape : session.messages with
  | nil =>
    rw [shape] at pinnable
    cases pinnable
  | cons first rest =>
    rw [shape] at pinnable
    have leads : first.isPinnable = true := pinnable
    rw [List.takeWhile_cons, leads]
    exact Nat.succ_pos _

theorem pinned_eq (session : Session) : session.pinned = session.countPinnedSystemPrefix := by
  rw [pinned]
  split
  · next both =>
    rw [Bool.and_eq_true, decide_eq_true_eq] at both
    have positive := countPinnedSystemPrefix_pos both.2
    omega
  · rfl

theorem countPinnedSystemPrefix_le (session : Session) :
    session.countPinnedSystemPrefix ≤ session.messages.length :=
  (List.takeWhile_sublist _).length_le

/-- The rest of `agent_session_compact_char_budget` when the summary is in its place. -/
def compactInserted (session : Session) (maxChars keepLast pinned pinnedMin : Nat)
    (inserted : Bool) (report : CompactReport) (currentChars : Nat) : CompactReport × Session :=
  if currentChars ≤ maxChars then ({ report with afterChars := currentChars }, session)
  else
    let keepLast :=
      if keepLast > session.messages.length then session.messages.length else keepLast
    let final :=
      compactLoop maxChars (pinned + if inserted then 1 else 0) pinnedMin keepLast
        { session, currentChars, dropped := 0 }
    ({ report with droppedMessages := final.dropped, afterChars := final.currentChars },
      final.session)

def compactCharBudget (session : Session) (maxChars keepLastMessages : Nat) (summary : Bytes)
    (heap : Heap) : Except Status CompactReport × Session × Heap :=
  if maxChars = 0 then (.error .invalidArgument, session, heap)
  else
    let currentChars := estimatedChars session.messages
    let pinnedMin := if session.hasPinnableFirstSystemMessage then 1 else 0
    let report : CompactReport := { beforeChars := currentChars, afterChars := currentChars }
    if wantSummary summary then
      match session.insertMessage session.pinned .system summary heap with
      | (.ok, next, heap) =>
        let inserted := next.messages.getD session.pinned clearedMessage
        let (report, next) :=
          next.compactInserted maxChars keepLastMessages session.pinned pinnedMin true
            { report with insertedSummary := true } (currentChars + inserted.estimatedChars)
        (.ok report, next, heap)
      | (status, next, heap) => (.error status, next, heap)
    else
      let (report, next) :=
        session.compactInserted maxChars keepLastMessages session.pinned pinnedMin false report
          currentChars
      (.ok report, next, heap)

end Session

end AgentC.Sessions
