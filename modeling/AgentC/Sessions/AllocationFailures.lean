import AgentC.Sessions.Session
import Mathlib.Data.List.InsertIdx

/-! # Sessions when memory is refused

An addition that fails leaves the messages alone. A compaction that fails does so unless the
copy of its summary is refused: the slot for it is counted by then. -/

namespace AgentC.Sessions

open AgentC.ToolLoop (Role)

inductive Operation
  | addMessage (role : Role) (content : Bytes)
  | compactCharBudget (maxChars keepLastMessages : Nat) (summary : Bytes)

namespace Operation

def perform : Operation → Session → Heap → Status × Session
  | .addMessage role content, session, heap =>
    ((session.addMessage role content heap).1, (session.addMessage role content heap).2.1)
  | .compactCharBudget maxChars keepLastMessages summary, session, heap =>
    (match (session.compactCharBudget maxChars keepLastMessages summary heap).1 with
      | .ok _ => .ok
      | .error status => status,
      (session.compactCharBudget maxChars keepLastMessages summary heap).2.1)

def roomCalls (session : Session) : Nat :=
  if session.messages.length + 1 ≤ session.cap then 0 else 1

/-- The heap gives room for one more message and then refuses a copy. -/
def RoomButNoCopy (session : Session) (heap : Heap) : Prop :=
  (roomCalls session = 1 → heap.succeeds heap.calls = true) ∧
    heap.succeeds (heap.calls + roomCalls session) = false

def SummaryRefused (session : Session) (heap : Heap) : Operation → Prop
  | .addMessage _ _ => False
  | .compactCharBudget maxChars _ summary =>
    maxChars ≠ 0 ∧ Session.wantSummary summary = true ∧ RoomButNoCopy session heap

end Operation

variable {session : Session} {heap : Heap}

namespace Session

theorem reserve_one (session : Session) (heap : Heap) :
    (session.reserve (session.messages.length + 1) heap).2 =
        { heap with calls := heap.calls + Operation.roomCalls session } ∧
      ((session.reserve (session.messages.length + 1) heap).1 = none ↔
        Operation.roomCalls session = 1 ∧ heap.succeeds heap.calls = false) := by
  rw [reserve, Operation.roomCalls]
  split
  · simp
  · cases given : heap.succeeds heap.calls <;> simp [Heap.malloc, given]

theorem addMessage_failed {role : Role} {content : Bytes}
    (failed : (session.addMessage role content heap).1 ≠ .ok) :
    (session.addMessage role content heap).2.1.messages = session.messages := by
  rw [addMessage] at failed ⊢
  split at failed
  · rfl
  · next grown next reserved =>
    simp only at failed ⊢
    split at failed
    · next refused =>
      rw [if_pos refused]
      exact grown.property.1
    · exact absurd rfl failed

section

variable {session : Session} {index : Nat} (inside : index ≤ session.messages.length)
  (role : Role) (content : Bytes) {heap : Heap}

include inside

theorem insertMessage_refused (refused : Operation.RoomButNoCopy session heap) :
    (session.insertMessage index role content heap).1 = .oom ∧
      (session.insertMessage index role content heap).2.1.messages =
        session.messages.insertIdx index clearedMessage := by
  have room := reserve_one session heap
  rw [insertMessage, if_neg (Nat.not_lt.mpr inside)]
  split
  · next reserved =>
    rw [reserved] at room
    have both := room.2.mp rfl
    rw [refused.1 both.1] at both
    cases both.2
  · next grown next reserved =>
    rw [reserved] at room
    have noCopy : next.succeeds next.calls = false := by
      have called : next = _ := room.1
      rw [called]
      exact refused.2
    simp [Heap.malloc, noCopy]

theorem insertMessage_failed (copied : ¬Operation.RoomButNoCopy session heap)
    (failed : (session.insertMessage index role content heap).1 ≠ .ok) :
    (session.insertMessage index role content heap).2.1.messages = session.messages := by
  have room := reserve_one session heap
  rw [insertMessage, if_neg (Nat.not_lt.mpr inside)] at failed ⊢
  split at failed
  · rfl
  · next grown next reserved =>
    rw [reserved] at room
    have given : next.succeeds next.calls = true := by
      rw [← Bool.not_eq_false]
      intro refused
      have called : next = _ := room.1
      rw [called] at refused
      refine copied ⟨?_, refused⟩
      intro one
      rw [← Bool.not_eq_false]
      intro none
      exact nomatch room.2.mpr ⟨one, none⟩
    simp [Heap.malloc, given] at failed

end

theorem pinned_le (session : Session) : session.pinned ≤ session.messages.length :=
  pinned_eq session ▸ countPinnedSystemPrefix_le session

theorem compactCharBudget_of_wanted {session : Session} {maxChars : Nat} (positive : maxChars ≠ 0)
    {summary : Bytes} (wanted : wantSummary summary = true) (keepLast : Nat) (heap : Heap) :
    ((session.insertMessage session.pinned .system summary heap).1 = .ok →
        ∃ report, (session.compactCharBudget maxChars keepLast summary heap).1 = .ok report) ∧
      ((session.insertMessage session.pinned .system summary heap).1 ≠ .ok →
        (session.compactCharBudget maxChars keepLast summary heap).1 =
            .error (session.insertMessage session.pinned .system summary heap).1 ∧
          (session.compactCharBudget maxChars keepLast summary heap).2.1 =
            (session.insertMessage session.pinned .system summary heap).2.1) := by
  rw [compactCharBudget, if_neg positive]
  simp only [wanted, if_true]
  split
  · next inserting =>
    rw [inserting]
    exact ⟨fun _ => ⟨_, rfl⟩, fun failed => absurd rfl failed⟩
  · next other inserting =>
    rw [inserting]
    exact ⟨fun ok => absurd ok other, fun _ => ⟨rfl, rfl⟩⟩

end Session

namespace Operation

theorem compaction_failed {maxChars keepLast : Nat} {summary : Bytes}
    (failed : ((compactCharBudget maxChars keepLast summary).perform session heap).1 ≠ .ok)
    (copied : ¬(compactCharBudget maxChars keepLast summary).SummaryRefused session heap) :
    ((compactCharBudget maxChars keepLast summary).perform session heap).2.messages =
      session.messages := by
  rw [perform] at failed ⊢
  by_cases positive : maxChars ≠ 0
  · cases wanted : Session.wantSummary summary with
    | true =>
      have inserted :=
        @Session.compactCharBudget_of_wanted session _ positive _ wanted keepLast heap
      by_cases ok : (session.insertMessage session.pinned .system summary heap).1 = .ok
      · rcases inserted.1 ok with ⟨report, same⟩
        simp [same] at failed
      · have notRefused : ¬RoomButNoCopy session heap :=
          fun refused => copied ⟨positive, wanted, refused⟩
        dsimp only
        rw [(inserted.2 ok).2]
        exact Session.insertMessage_failed (Session.pinned_le session) .system summary notRefused
          ok
    | false => simp [Session.compactCharBudget, positive, wanted] at failed
  · simp [Session.compactCharBudget, not_not.mp positive]

theorem compaction_refused {maxChars keepLast : Nat} {summary : Bytes}
    (refused : (compactCharBudget maxChars keepLast summary).SummaryRefused session heap) :
    ((compactCharBudget maxChars keepLast summary).perform session heap).1 = .oom ∧
      ((compactCharBudget maxChars keepLast summary).perform session heap).2.messages =
        session.messages.insertIdx session.pinned Session.clearedMessage := by
  rcases refused with ⟨positive, wanted, refused⟩
  have result := Session.insertMessage_refused (Session.pinned_le session) .system summary refused
  have failed : (session.insertMessage session.pinned .system summary heap).1 ≠ .ok := by
    rw [result.1]
    decide
  have compaction :=
    (Session.compactCharBudget_of_wanted positive wanted keepLast heap).2 failed
  simp only [perform]
  rw [compaction.1, compaction.2, result.1]
  exact ⟨rfl, result.2⟩

/-- A call that fails leaves the messages as they were, unless it is a compaction whose
summary is refused. -/
theorem unchanged_iff (operation : Operation) (session : Session) (heap : Heap) :
    ((operation.perform session heap).1 ≠ .ok →
        (operation.perform session heap).2.messages = session.messages) ↔
      ¬operation.SummaryRefused session heap := by
  cases operation with
  | addMessage =>
    exact ⟨fun _ refused => refused, fun _ failed => Session.addMessage_failed failed⟩
  | compactCharBudget =>
    constructor
    · intro unchanged refused
      have result := compaction_refused refused
      have same := unchanged (by rw [result.1]; decide)
      rw [result.2] at same
      have longer := congrArg List.length same
      rw [List.length_insertIdx_of_le_length (Session.pinned_le session)] at longer
      omega
    · intro copied failed
      exact compaction_failed failed copied

/-- There is room for the summary, but its copy is refused: an empty message stays. -/
theorem phantom_message :
    (perform (.compactCharBudget 100 1 (ascii "AGENT_SESSION_SUMMARY: talk"))
        ⟨[{ role := .user, content := ascii "hello" }], 8, by decide⟩ ⟨fun _ => false, 0⟩).1 =
          .oom ∧
      (perform (.compactCharBudget 100 1 (ascii "AGENT_SESSION_SUMMARY: talk"))
        ⟨[{ role := .user, content := ascii "hello" }], 8, by decide⟩
        ⟨fun _ => false, 0⟩).2.messages =
          [{ role := .system, content := [] }, { role := .user, content := ascii "hello" }] := by
  decide +kernel

end Operation

end AgentC.Sessions
