import AgentC.Broker.TaskWorkers

/-! # Every task once

However the workers take turns, every task is relayed once, and the call
returns the rows of their answers. -/

namespace AgentC.Broker.AgentTasks

open Idempotency (RelayOutcome)

variable {Item : Type} {index : Nat} {row : AgentTaskResult} {items : List Item}

theorem sum_map_set_add {old : Item} (found : items[index]? = some old) (new : Item)
    (size : Item → Nat) :
    ((items.set index new).map size).sum + size old = (items.map size).sum + size new := by
  induction items generalizing index with
  | nil => exact nomatch found
  | cons item items induction =>
    cases index with
    | zero =>
      cases found
      simp only [List.set_cons_zero, List.map_cons, List.sum_cons]
      omega
    | succ index =>
      have later := induction found
      simp only [List.set_cons_succ, List.map_cons, List.sum_cons]
      omega

theorem countP_set_add {old : Item} (found : items[index]? = some old) (new : Item)
    (counted : Item → Bool) : (items.set index new).countP counted + (counted old).toNat =
      items.countP counted + (counted new).toNat := by
  rcases List.getElem?_eq_some_iff.mp found with ⟨inside, same⟩
  have present := @List.boole_getElem_le_countP Item counted items index inside
  rw [List.countP_set inside]
  rw [same] at present ⊢
  cases before : counted old <;> rw [before] at present <;> cases counted new <;>
    simp only [if_true, if_false, Bool.false_eq_true, Bool.toNat_true, Bool.toNat_false]
      at present ⊢ <;> omega

section Turns

variable {setting : Setting} {state next : State} {events new : List Event}

/-- What the goroutines can do. -/
inductive Turn (setting : Setting) (state : State) : State → List Event → Prop
  | spawn (room : state.workers.length < setting.concurrency) :
      Turn setting state { state with workers := state.workers ++ [.ready] } []
  | receive (started : setting.concurrency ≤ state.workers.length)
      (waits : state.received < setting.concurrency) (sent : state.done ≠ 0) :
      Turn setting state
        { state with done := state.done - 1, received := state.received + 1 } []
  | finish (started : setting.concurrency ≤ state.workers.length)
      (collected : setting.concurrency ≤ state.received) (running : state.returned = none) :
      Turn setting state { state with returned := some state.out } []
  | claim {index : Nat} (found : state.workers[index]? = some .ready) :
      Turn setting state
        { state.setWorker index (.claimed state.next.toNat) with next := state.next + 1 } []
  | leave {index position : Nat} (found : state.workers[index]? = some (.claimed position))
      (outside : setting.tasks.length ≤ position) :
      Turn setting state (state.setWorker index .leaving) []
  | relay {index position : Nat} {task : AgentTaskPrepared}
      (found : state.workers[index]? = some (.claimed position))
      (given : setting.tasks[position]? = some task) :
      Turn setting state (state.setWorker index (.relaying position task))
        [.relayed position (setting.relayedTask task)]
  | answer {index position : Nat} {task : AgentTaskPrepared}
      (found : state.workers[index]? = some (.relaying position task)) (outcome : RelayOutcome)
      (ms : Int) :
      Turn setting state (state.setWorker index (.answered position (setting.row task outcome ms)))
        [.answered position outcome ms]
  | write {index position : Nat} {row : AgentTaskResult}
      (found : state.workers[index]? = some (.answered position row)) :
      Turn setting state
        { state.setWorker index .ready with out := state.out.set position row }
        [.written position]
  | send {index : Nat} (found : state.workers[index]? = some .leaving)
      (room : state.done < setting.concurrency) :
      Turn setting state { state.setWorker index .gone with done := state.done + 1 } []

theorem turn_of_callerStep (stepped : setting.callerStep state = some (next, new)) :
    Turn setting state next new := by
  rw [Setting.callerStep] at stepped
  split at stepped
  · next room =>
    cases stepped
    exact .spawn room
  · next started =>
    split at stepped
    · next waits =>
      split at stepped
      · exact nomatch stepped
      · next sent =>
        cases stepped
        exact .receive (Nat.le_of_not_lt started) waits sent
    · next collected =>
      cases running : state.returned with
      | none =>
        rw [running] at stepped
        cases stepped
        exact .finish (Nat.le_of_not_lt started) (Nat.le_of_not_lt collected) running
      | some results =>
        rw [running] at stepped
        exact nomatch stepped

theorem turn_of_workerStep {outcome : RelayOutcome} {ms : Int}
    (stepped : setting.workerStep state index outcome ms = some (next, new)) :
    Turn setting state next new := by
  rw [Setting.workerStep] at stepped
  cases found : state.workers[index]? with
  | none =>
    rw [found] at stepped
    exact nomatch stepped
  | some worker =>
    rw [found] at stepped
    cases worker with
    | ready =>
      cases stepped
      rw [show state.next + 1 - 1 = state.next by simp]
      exact .claim found
    | claimed position =>
      dsimp only at stepped
      cases given : setting.tasks[position]? with
      | none =>
        rw [given] at stepped
        cases stepped
        exact .leave found (List.getElem?_eq_none_iff.mp given)
      | some task =>
        rw [given] at stepped
        cases stepped
        exact .relay found given
    | relaying =>
      cases stepped
      exact .answer found outcome ms
    | answered =>
      cases stepped
      exact .write found
    | leaving =>
      dsimp only at stepped
      split at stepped
      · next room =>
        cases stepped
        exact .send found room
      · exact nomatch stepped
    | gone => exact nomatch stepped

theorem turn_of_step {move : Move} (stepped : setting.step state move = some (next, new)) :
    Turn setting state next new := by
  cases move with
  | caller => exact turn_of_callerStep stepped
  | worker => exact turn_of_workerStep stepped

end Turns

/-! ## Counts -/

namespace Worker

def claims (position : Nat) : Worker → Bool
  | .claimed other => other = position
  | _ => false

def relays (position : Nat) : Worker → Bool
  | .relaying other _ => other = position
  | _ => false

def answers (position : Nat) : Worker → Bool
  | .answered other _ => other = position
  | _ => false

def isPast (count : Nat) : Worker → Bool
  | .claimed position => count ≤ position
  | .leaving => true
  | .gone => true
  | _ => false

def isGone : Worker → Bool
  | .gone => true
  | _ => false

end Worker

namespace Event

def relays (position : Nat) : Event → Bool
  | .relayed other _ => other = position
  | _ => false

def answers (position : Nat) : Event → Bool
  | .answered other _ _ => other = position
  | _ => false

def writes (position : Nat) : Event → Bool
  | .written other => other = position
  | _ => false

end Event

/-- Every position in front of the counter is with one worker or done, every
other one with none. -/
structure Counted (setting : Setting) (next : Nat) (workers : List Worker) (events : List Event) :
    Prop where
  claimed : ∀ position < setting.tasks.length,
    workers.countP (Worker.claims position) + events.countP (Event.relays position) =
      (decide (position < next)).toNat
  relayed : ∀ position, workers.countP (Worker.relays position) +
    events.countP (Event.answers position) = events.countP (Event.relays position)
  answered : ∀ position, workers.countP (Worker.answers position) +
    events.countP (Event.writes position) = events.countP (Event.answers position)
  counter : next ≤ setting.tasks.length + workers.countP (Worker.isPast setting.tasks.length)
  staff : workers.length ≤ setting.concurrency

/-- A worker moves on without a position being lost or counted twice. -/
structure Balanced (setting : Setting) (next later : Nat) (old new : Worker)
    (happened : List Event) : Prop where
  claimed : ∀ position < setting.tasks.length,
    (Worker.claims position new).toNat + happened.countP (Event.relays position) +
      (decide (position < next)).toNat =
        (Worker.claims position old).toNat + (decide (position < later)).toNat
  relayed : ∀ position,
    (Worker.relays position new).toNat + happened.countP (Event.answers position) =
      (Worker.relays position old).toNat + happened.countP (Event.relays position)
  answered : ∀ position,
    (Worker.answers position new).toNat + happened.countP (Event.writes position) =
      (Worker.answers position old).toNat + happened.countP (Event.answers position)
  counter : later ≤ setting.tasks.length ∨
    later + (Worker.isPast setting.tasks.length old).toNat ≤
      next + (Worker.isPast setting.tasks.length new).toNat

variable {position : Nat}

section Counts

variable {setting : Setting} {next later index : Nat} {workers : List Worker} {old new : Worker}
  {events happened : List Event}

theorem concurrency_le (setting : Setting) : setting.concurrency ≤ 16 := by
  rw [Setting.concurrency]
  omega

theorem one_le_concurrency (setting : Setting) : 1 ≤ setting.concurrency := by
  rw [Setting.concurrency]
  omega

theorem counted_initial (setting : Setting) : Counted setting 0 [] [] where
  claimed := fun _ _ => rfl
  relayed := fun _ => rfl
  answered := fun _ => rfl
  counter := Nat.zero_le _
  staff := Nat.zero_le _

theorem Counted.next_lt (counted : Counted setting next workers events)
    (fewer : setting.tasks.length < 2 ^ 31) : next + 1 < 2 ^ 32 := by
  have past : workers.countP (Worker.isPast setting.tasks.length) ≤ workers.length :=
    List.countP_le_length
  have counter := counted.counter
  have staff := counted.staff
  have most := concurrency_le setting
  omega

theorem Counted.toNat_next {state : State}
    (counted : Counted setting state.next.toNat state.workers events)
    (fewer : setting.tasks.length < 2 ^ 31) : (state.next + 1).toNat = state.next.toNat + 1 := by
  rw [UInt32.toNat_add, UInt32.toNat_one, Nat.mod_eq_of_lt (counted.next_lt fewer)]

theorem Counted.move (counted : Counted setting next workers events)
    (found : workers[index]? = some old) (balanced : Balanced setting next later old new happened) :
    Counted setting later (workers.set index new) (events ++ happened) where
  claimed := fun position below => by
    have before := counted.claimed position below
    have change := countP_set_add found new (Worker.claims position)
    have balance := balanced.claimed position below
    rw [List.countP_append]
    omega
  relayed := fun position => by
    have before := counted.relayed position
    have change := countP_set_add found new (Worker.relays position)
    have balance := balanced.relayed position
    rw [List.countP_append, List.countP_append]
    omega
  answered := fun position => by
    have before := counted.answered position
    have change := countP_set_add found new (Worker.answers position)
    have balance := balanced.answered position
    rw [List.countP_append, List.countP_append]
    omega
  counter := by
    have before := counted.counter
    have change := countP_set_add found new (Worker.isPast setting.tasks.length)
    rcases balanced.counter with inside | balance
    · omega
    · omega
  staff := by
    rw [List.length_set]
    exact counted.staff

theorem Counted.spawn (counted : Counted setting next workers events)
    (room : workers.length < setting.concurrency) :
    Counted setting next (workers ++ [.ready]) events where
  claimed := by simpa [Worker.claims] using counted.claimed
  relayed := by simpa [Worker.relays] using counted.relayed
  answered := by simpa [Worker.answers] using counted.answered
  counter := by simpa [Worker.isPast] using counted.counter
  staff := by simpa using room

theorem toNat_decide {statement : Prop} [Decidable statement] :
    (decide statement).toNat = if statement then 1 else 0 := by
  by_cases holds : statement
  · simp [holds]
  · simp [holds]

theorem balanced_claim : Balanced setting next (next + 1) .ready (.claimed next) [] where
  claimed := fun position _ => by
    simp only [Worker.claims, toNat_decide, Bool.toNat_false, List.countP_nil]
    split <;> split <;> split <;> omega
  relayed := fun _ => rfl
  answered := fun _ => rfl
  counter := by
    by_cases inside : next + 1 ≤ setting.tasks.length
    · exact .inl inside
    · right
      have outside : setting.tasks.length ≤ next := by omega
      simp [Worker.isPast, outside]

theorem balanced_leave (outside : setting.tasks.length ≤ position) :
    Balanced setting next next (.claimed position) .leaving [] where
  claimed := fun other below => by
    have elsewhere : ¬position = other := by omega
    simp [Worker.claims, elsewhere]
  relayed := fun _ => rfl
  answered := fun _ => rfl
  counter := by simp [Worker.isPast, outside]

theorem balanced_relay {task : AgentTaskPrepared} {request : RelayedTask}
    (inside : position < setting.tasks.length) :
    Balanced setting next next (.claimed position) (.relaying position task)
      [.relayed position request] where
  claimed := fun other _ => by simp [Worker.claims, Event.relays, toNat_decide]
  relayed := fun other => by simp [Worker.relays, Event.relays, Event.answers, toNat_decide]
  answered := fun other => by simp [Worker.answers, Event.writes, Event.answers]
  counter := by simp [Worker.isPast, inside]

theorem balanced_answer {task : AgentTaskPrepared} {outcome : RelayOutcome} {ms : Int} :
    Balanced setting next next (.relaying position task) (.answered position row)
      [.answered position outcome ms] where
  claimed := fun other _ => by simp [Worker.claims, Event.relays]
  relayed := fun other => by simp [Worker.relays, Event.relays, Event.answers, toNat_decide]
  answered := fun other => by simp [Worker.answers, Event.writes, Event.answers, toNat_decide]
  counter := by simp [Worker.isPast]

theorem balanced_write :
    Balanced setting next next (.answered position row) .ready [.written position] where
  claimed := fun other _ => by simp [Worker.claims, Event.relays]
  relayed := fun other => by simp [Worker.relays, Event.relays, Event.answers]
  answered := fun other => by simp [Worker.answers, Event.writes, Event.answers, toNat_decide]
  counter := by simp [Worker.isPast]

theorem balanced_send : Balanced setting next next .leaving .gone [] where
  claimed := fun _ _ => rfl
  relayed := fun _ => rfl
  answered := fun _ => rfl
  counter := by simp [Worker.isPast]

end Counts

/-- No position is lost or counted twice, whoever moves. -/
theorem Counted.turn {setting : Setting} {state next : State} {events new : List Event}
    (fewer : setting.tasks.length < 2 ^ 31) (turn : Turn setting state next new)
    (counted : Counted setting state.next.toNat state.workers events) :
    Counted setting next.next.toNat next.workers (events ++ new) := by
  cases turn with
  | spawn room =>
    rw [List.append_nil]
    exact counted.spawn room
  | receive =>
    rw [List.append_nil]
    exact counted
  | finish =>
    rw [List.append_nil]
    exact counted
  | claim found =>
    rw [counted.toNat_next fewer]
    exact counted.move found balanced_claim
  | leave found outside => exact counted.move found (balanced_leave outside)
  | relay found given =>
    exact counted.move found (balanced_relay (List.getElem?_eq_some_iff.mp given).1)
  | answer found outcome ms => exact counted.move found balanced_answer
  | write found => exact counted.move found balanced_write
  | send found room => exact counted.move found balanced_send

/-! ## Coming to an end -/

/-- What the call has seen of the workers. -/
structure Staffed (setting : Setting) (state : State) : Prop where
  drawn : ∀ position, .claimed position ∈ state.workers → position < state.next.toNat
  past : .leaving ∈ state.workers ∨ .gone ∈ state.workers →
    setting.tasks.length ≤ state.next.toNat
  finished : state.done + state.received = state.workers.countP Worker.isGone
  returned : ∀ results, state.returned = some results →
    setting.concurrency ≤ state.received ∧ results = state.out

variable {worker : Worker}

section Staff

variable {setting : Setting} {state next : State} {events new : List Event}

theorem staffed_initial (setting : Setting) : Staffed setting setting.initial where
  drawn := fun _ member => nomatch member
  past := fun member => member.elim nofun nofun
  finished := rfl
  returned := fun _ impossible => nomatch impossible

theorem Staffed.all_gone (staffed : Staffed setting state)
    (counted : Counted setting state.next.toNat state.workers events)
    (collected : setting.concurrency ≤ state.received) :
    ∀ worker ∈ state.workers, worker.isGone = true := by
  apply List.countP_eq_length.mp
  have finished := staffed.finished
  have staff := counted.staff
  have most : state.workers.countP Worker.isGone ≤ state.workers.length := List.countP_le_length
  omega

theorem Staffed.running (staffed : Staffed setting state)
    (counted : Counted setting state.next.toNat state.workers events)
    (found : state.workers[index]? = some worker) (moving : worker.isGone = false) :
    state.returned = none := by
  apply Option.eq_none_iff_forall_ne_some.mpr
  intro results returned
  have gone := staffed.all_gone counted (staffed.returned results returned).1 worker
    (List.mem_of_getElem? found)
  exact Bool.false_ne_true (moving.symm.trans gone)

theorem Staffed.move {later : State} {old : Worker} (staffed : Staffed setting state)
    (counted : Counted setting state.next.toNat state.workers events)
    (found : state.workers[index]? = some old) (moving : old.isGone = false)
    (workers : later.workers = state.workers.set index worker)
    (returned : later.returned = state.returned) (onward : state.next.toNat ≤ later.next.toNat)
    (drawn : ∀ position, worker = .claimed position → position < later.next.toNat)
    (past : worker = .leaving ∨ worker = .gone → setting.tasks.length ≤ later.next.toNat)
    (finished : later.done + later.received = state.done + state.received + worker.isGone.toNat) :
    Staffed setting later where
  drawn := fun position member => by
    rw [workers] at member
    rcases List.mem_or_eq_of_mem_set member with before | here
    · exact Nat.lt_of_lt_of_le (staffed.drawn position before) onward
    · exact drawn position here.symm
  past := fun member => by
    have cases : worker = .leaving ∨ worker = .gone ∨
        .leaving ∈ state.workers ∨ .gone ∈ state.workers := by
      rw [workers] at member
      rcases member with leaving | gone
      · rcases List.mem_or_eq_of_mem_set leaving with before | here
        · exact .inr (.inr (.inl before))
        · exact .inl here.symm
      · rcases List.mem_or_eq_of_mem_set gone with before | here
        · exact .inr (.inr (.inr before))
        · exact .inr (.inl here.symm)
    rcases cases with here | here | before
    · exact past (.inl here)
    · exact past (.inr here)
    · exact Nat.le_trans (staffed.past before) onward
  finished := by
    have change := countP_set_add found worker Worker.isGone
    rw [moving, Bool.toNat_false] at change
    have before := staffed.finished
    rw [workers]
    omega
  returned := fun results found' => by
    rw [returned, staffed.running counted found moving] at found'
    exact nomatch found'

theorem Staffed.turn (fewer : setting.tasks.length < 2 ^ 31) (turn : Turn setting state next new)
    (counted : Counted setting state.next.toNat state.workers events)
    (staffed : Staffed setting state) : Staffed setting next := by
  cases turn with
  | spawn room =>
    refine ⟨?_, ?_, ?_, staffed.returned⟩
    · simpa using staffed.drawn
    · simpa using staffed.past
    · simpa [Worker.isGone] using staffed.finished
  | receive =>
    refine ⟨staffed.drawn, staffed.past, ?_, ?_⟩
    · have finished := staffed.finished
      dsimp only
      omega
    · intro results returned
      rcases staffed.returned results returned with ⟨collected, same⟩
      exact ⟨Nat.le_succ_of_le collected, same⟩
  | finish started collected running =>
    refine ⟨staffed.drawn, staffed.past, staffed.finished, ?_⟩
    intro results returned
    cases returned
    exact ⟨collected, rfl⟩
  | claim found =>
    have incremented := counted.toNat_next fewer
    refine staffed.move counted found rfl rfl rfl ?_ ?_ ?_ ?_
    · exact Nat.le_of_lt (incremented ▸ Nat.lt_succ_self _)
    · intro position same
      cases same
      exact incremented ▸ Nat.lt_succ_self _
    · rintro (impossible | impossible)
      · exact nomatch impossible
      · exact nomatch impossible
    · rfl
  | leave found outside =>
    have below := staffed.drawn _ (List.mem_of_getElem? found)
    refine staffed.move counted found rfl rfl rfl (Nat.le_refl _) nofun ?_ ?_
    · intro _
      exact Nat.le_of_lt (Nat.lt_of_le_of_lt outside below)
    · rfl
  | relay found given =>
    exact staffed.move counted found rfl rfl rfl (Nat.le_refl _) nofun (by simp) rfl
  | answer found outcome ms =>
    exact staffed.move counted found rfl rfl rfl (Nat.le_refl _) nofun (by simp) rfl
  | write found =>
    exact staffed.move counted found rfl rfl rfl (Nat.le_refl _) nofun (by simp) rfl
  | send found room =>
    have past := staffed.past (.inl (List.mem_of_getElem? found))
    refine staffed.move counted found rfl rfl rfl (Nat.le_refl _) nofun (fun _ => past) ?_
    exact Nat.add_right_comm ..

end Staff

/-! ## What is recorded -/

def Answers (setting : Setting) (events : List Event) (position : Nat) (row : AgentTaskResult) :
    Prop :=
  ∃ task outcome ms, setting.tasks[position]? = some task ∧
    .answered position outcome ms ∈ events ∧ row = setting.row task outcome ms

theorem Answers.mono {setting : Setting} {events : List Event}
    (answers : Answers setting events position row) (new : List Event) :
    Answers setting (events ++ new) position row := by
  rcases answers with ⟨task, outcome, ms, given, happened, rowOf⟩
  exact ⟨task, outcome, ms, given, List.mem_append_left new happened, rowOf⟩

/-- Requests, rows and results belong to the tasks of their positions. -/
structure Recorded (setting : Setting) (state : State) (events : List Event) : Prop where
  requests : ∀ position request, .relayed position request ∈ events →
    ∃ task, setting.tasks[position]? = some task ∧ request = setting.relayedTask task
  holding : ∀ position task, .relaying position task ∈ state.workers →
    setting.tasks[position]? = some task
  rows : ∀ position row, .answered position row ∈ state.workers →
    Answers setting events position row
  size : state.out.length = setting.tasks.length
  written : ∀ position, .written position ∈ events →
    ∃ row, state.out[position]? = some row ∧ Answers setting events position row

section Records

variable {setting : Setting} {state next : State} {events new : List Event}

theorem recorded_initial (setting : Setting) : Recorded setting setting.initial [] where
  requests := fun _ _ impossible => nomatch impossible
  holding := fun _ _ impossible => nomatch impossible
  rows := fun _ _ impossible => nomatch impossible
  size := List.length_replicate
  written := fun _ impossible => nomatch impossible

theorem Recorded.move {later : State} (recorded : Recorded setting state events)
    (workers : later.workers = state.workers.set index worker)
    (requests : ∀ position request, .relayed position request ∈ new →
      ∃ task, setting.tasks[position]? = some task ∧ request = setting.relayedTask task)
    (holding : ∀ position task, worker = .relaying position task →
      setting.tasks[position]? = some task)
    (rows : ∀ position row, worker = .answered position row →
      Answers setting (events ++ new) position row)
    (size : later.out.length = setting.tasks.length)
    (written : ∀ position, .written position ∈ events ++ new →
      ∃ row, later.out[position]? = some row ∧ Answers setting (events ++ new) position row) :
    Recorded setting later (events ++ new) where
  requests := fun position request member => by
    rcases List.mem_append.mp member with before | here
    · exact recorded.requests position request before
    · exact requests position request here
  holding := fun position task member => by
    rw [workers] at member
    rcases List.mem_or_eq_of_mem_set member with before | here
    · exact recorded.holding position task before
    · exact holding position task here.symm
  rows := fun position row member => by
    rw [workers] at member
    rcases List.mem_or_eq_of_mem_set member with before | here
    · exact (recorded.rows position row before).mono new
    · exact rows position row here.symm
  size := size
  written := written

theorem Recorded.kept (recorded : Recorded setting state events)
    (none : ∀ position, .written position ∉ new) (position : Nat)
    (member : .written position ∈ events ++ new) :
    ∃ row, state.out[position]? = some row ∧ Answers setting (events ++ new) position row := by
  rcases List.mem_append.mp member with before | here
  · rcases recorded.written position before with ⟨row, stored, answers⟩
    exact ⟨row, stored, answers.mono new⟩
  · exact absurd here (none position)

theorem Recorded.turn (turn : Turn setting state next new)
    (recorded : Recorded setting state events) : Recorded setting next (events ++ new) := by
  cases turn with
  | spawn room =>
    rw [List.append_nil]
    refine ⟨recorded.requests, ?_, ?_, recorded.size, recorded.written⟩
    · simpa using recorded.holding
    · simpa using recorded.rows
  | receive =>
    rw [List.append_nil]
    exact ⟨recorded.requests, recorded.holding, recorded.rows, recorded.size, recorded.written⟩
  | finish =>
    rw [List.append_nil]
    exact ⟨recorded.requests, recorded.holding, recorded.rows, recorded.size, recorded.written⟩
  | claim found =>
    exact recorded.move rfl (by simp) nofun nofun recorded.size (recorded.kept (by simp))
  | leave =>
    exact recorded.move rfl (by simp) nofun nofun recorded.size (recorded.kept (by simp))
  | relay found given =>
    refine recorded.move rfl ?_ ?_ nofun recorded.size (recorded.kept (by simp))
    · intro position request member
      cases List.mem_singleton.mp member
      exact ⟨_, given, rfl⟩
    · intro position task same
      cases same
      exact given
  | answer found outcome ms =>
    refine recorded.move rfl (by simp) nofun ?_ recorded.size (recorded.kept (by simp))
    intro position row same
    cases same
    have given := recorded.holding _ _ (List.mem_of_getElem? found)
    exact ⟨_, outcome, ms, given, List.mem_append_right _ (List.mem_singleton_self _), rfl⟩
  | @write index position row found =>
    have answers := (recorded.rows _ _ (List.mem_of_getElem? found)).mono [.written position]
    refine recorded.move rfl (by simp) nofun nofun ?_ ?_
    · exact List.length_set.trans recorded.size
    · intro other member
      by_cases here : position = other
      · subst here
        refine ⟨row, List.getElem?_set_self ?_, answers⟩
        rcases answers with ⟨task, _, _, given, _⟩
        rw [recorded.size]
        exact (List.getElem?_eq_some_iff.mp given).1
      · have before : .written other ∈ events := by simpa [Ne.symm here] using member
        rcases recorded.written other before with ⟨stored, found, answersOther⟩
        refine ⟨stored, ?_, answersOther.mono _⟩
        exact (List.getElem?_set_ne here).trans found
  | send =>
    exact recorded.move rfl (by simp) nofun nofun recorded.size (recorded.kept (by simp))

end Records

/-! ## The whole call -/

/-- What holds behind every sequence of moves. -/
structure Consistent (setting : Setting) (state : State) (events : List Event) : Prop where
  counted : Counted setting state.next.toNat state.workers events
  staffed : Staffed setting state
  recorded : Recorded setting state events

/-- The results of a call: every task was relayed once, as it is, was answered
once, and has the row of the answer. -/
structure Complete (setting : Setting) (events : List Event) (results : List AgentTaskResult) :
    Prop where
  size : results.length = setting.tasks.length
  relayed : ∀ position task, setting.tasks[position]? = some task →
    events.filter (Event.relays position) = [.relayed position (setting.relayedTask task)]
  answered : ∀ position task, setting.tasks[position]? = some task → ∃ outcome ms,
    events.filter (Event.answers position) = [.answered position outcome ms] ∧
      results[position]? = some (setting.row task outcome ms)
  named : ∀ (position : Nat) (task : AgentTaskPrepared), setting.tasks[position]? = some task →
    ∃ row : AgentTaskResult, results[position]? = some row ∧ row.taskId = task.taskId ∧
      row.agentId = task.agentId ∧ row.deploymentId = task.deploymentId

section Calls

variable {setting : Setting} {state next : State} {events new : List Event}

theorem consistent_initial (setting : Setting) : Consistent setting setting.initial [] :=
  ⟨counted_initial setting, staffed_initial setting, recorded_initial setting⟩

theorem Consistent.turn (fewer : setting.tasks.length < 2 ^ 31)
    (turn : Turn setting state next new) (consistent : Consistent setting state events) :
    Consistent setting next (events ++ new) :=
  ⟨consistent.counted.turn fewer turn, consistent.staffed.turn fewer turn consistent.counted,
    consistent.recorded.turn turn⟩

theorem filter_eq_singleton {selected : Item → Bool} (one : items.countP selected = 1) :
    ∃ item ∈ items, selected item = true ∧ items.filter selected = [item] := by
  rw [List.countP_eq_length_filter] at one
  rcases List.length_eq_one_iff.mp one with ⟨item, single⟩
  have member : item ∈ items.filter selected := by
    rw [single]
    exact List.mem_singleton_self item
  rw [List.mem_filter] at member
  exact ⟨item, member.1, member.2, single⟩

theorem Consistent.counts (consistent : Consistent setting state events)
    (collected : setting.concurrency ≤ state.received) (below : position < setting.tasks.length) :
    events.countP (Event.relays position) = 1 ∧ events.countP (Event.answers position) = 1 ∧
      events.countP (Event.writes position) = 1 := by
  have gone := consistent.staffed.all_gone consistent.counted collected
  have absent : ∀ counted : Worker → Bool, counted .gone = false →
      state.workers.countP counted = 0 := by
    intro counted goneNot
    apply List.countP_eq_zero.mpr
    intro worker member selected
    have here := gone worker member
    cases worker with
    | gone => exact Bool.false_ne_true (goneNot.symm.trans selected)
    | _ => exact nomatch here
  have past : setting.tasks.length ≤ state.next.toNat := by
    have some : 0 < state.workers.countP Worker.isGone := by
      have finished := consistent.staffed.finished
      have one := one_le_concurrency setting
      omega
    rcases List.countP_pos_iff.mp some with ⟨worker, member, here⟩
    cases worker with
    | gone => exact consistent.staffed.past (.inr member)
    | _ => exact nomatch here
  have claimed := consistent.counted.claimed position below
  have relayed := consistent.counted.relayed position
  have answered := consistent.counted.answered position
  rw [absent _ rfl, decide_eq_true (Nat.lt_of_lt_of_le below past), Bool.toNat_true] at claimed
  rw [absent _ rfl] at relayed answered
  omega

theorem Consistent.relays_le_one (consistent : Consistent setting state events)
    (position : Nat) : events.countP (Event.relays position) ≤ 1 := by
  by_cases below : position < setting.tasks.length
  · have claimed := consistent.counted.claimed position below
    have most := Bool.toNat_le (decide (position < state.next.toNat))
    omega
  · suffices none : events.countP (Event.relays position) = 0 by omega
    apply List.countP_eq_zero.mpr
    intro event member relays
    cases event with
    | relayed other request =>
      rcases consistent.recorded.requests other request member with ⟨task, given, _⟩
      cases of_decide_eq_true relays
      exact below (List.getElem?_eq_some_iff.mp given).1
    | _ => exact nomatch relays

theorem row_names_task (setting : Setting) (task : AgentTaskPrepared) (outcome : RelayOutcome)
    (ms : Int) : (setting.row task outcome ms).taskId = task.taskId ∧
      (setting.row task outcome ms).agentId = task.agentId ∧
      (setting.row task outcome ms).deploymentId = task.deploymentId := by
  rw [Setting.row]
  split
  · exact ⟨rfl, rfl, rfl⟩
  · cases setting.unmarshal outcome.body <;> exact ⟨rfl, rfl, rfl⟩

theorem Consistent.complete (consistent : Consistent setting state events)
    {results : List AgentTaskResult} (returned : state.returned = some results) :
    Complete setting events results := by
  rcases consistent.staffed.returned results returned with ⟨collected, resultsOf⟩
  subst resultsOf
  have answered : ∀ position task, setting.tasks[position]? = some task → ∃ outcome ms,
      events.filter (Event.answers position) = [.answered position outcome ms] ∧
        state.out[position]? = some (setting.row task outcome ms) := by
    intro position task given
    have below := (List.getElem?_eq_some_iff.mp given).1
    rcases filter_eq_singleton (consistent.counts collected below).2.1 with
      ⟨event, member, selected, single⟩
    rcases filter_eq_singleton (consistent.counts collected below).2.2 with
      ⟨written, happened, writes, _⟩
    cases written with
    | written other =>
      cases of_decide_eq_true writes
      rcases consistent.recorded.written position happened with
        ⟨row, stored, ⟨_, outcome, ms, same, answered, rowOf⟩⟩
      cases given.symm.trans same
      have here : .answered position outcome ms ∈
          events.filter (Event.answers position) :=
        List.mem_filter.mpr ⟨answered, decide_eq_true rfl⟩
      rw [single, List.mem_singleton] at here
      refine ⟨outcome, ms, ?_, ?_⟩
      · rw [single, here]
      · rw [stored, rowOf]
    | _ => exact nomatch writes
  refine ⟨consistent.recorded.size, ?_, answered, ?_⟩
  · intro position task given
    have below := (List.getElem?_eq_some_iff.mp given).1
    rcases filter_eq_singleton (consistent.counts collected below).1 with
      ⟨event, member, selected, single⟩
    rw [single]
    cases event with
    | relayed other request =>
      cases of_decide_eq_true selected
      rcases consistent.recorded.requests position request member with ⟨_, same, requestOf⟩
      cases given.symm.trans same
      rw [requestOf]
    | _ => exact nomatch selected
  · intro position task given
    rcases answered position task given with ⟨outcome, ms, _, stored⟩
    exact ⟨_, stored, row_names_task setting task outcome ms⟩

/-! ## Returning -/

def Worker.remaining (count : Nat) : Worker → Nat
  | .ready => 3
  | .claimed position => if position < count then 6 else 2
  | .relaying _ _ => 5
  | .answered _ _ => 4
  | .leaving => 1
  | .gone => 0

/-- A bound on the moves that are left. -/
def Setting.remaining (setting : Setting) (state : State) : Nat :=
  4 * (setting.tasks.length - state.next.toNat) +
    (state.workers.map (Worker.remaining setting.tasks.length)).sum +
    4 * (setting.concurrency - state.workers.length) +
    (setting.concurrency - state.received) + state.returned.isNone.toNat

theorem Consistent.decreases (fewer : setting.tasks.length < 2 ^ 31)
    (consistent : Consistent setting state events) (turn : Turn setting state next new) :
    setting.remaining next < setting.remaining state := by
  cases turn with
  | spawn room =>
    simp [Setting.remaining, Worker.remaining]
    omega
  | receive =>
    simp only [Setting.remaining]
    omega
  | finish started collected running =>
    simp [Setting.remaining, running]
  | claim found =>
    have incremented := consistent.counted.toNat_next fewer
    have change := sum_map_set_add found (.claimed state.next.toNat)
      (Worker.remaining setting.tasks.length)
    simp only [Setting.remaining, State.setWorker, incremented, List.length_set,
      Worker.remaining] at change ⊢
    split at change <;> omega
  | leave found outside =>
    have change := sum_map_set_add found .leaving (Worker.remaining setting.tasks.length)
    simp only [Setting.remaining, State.setWorker, List.length_set, Worker.remaining,
      Nat.not_lt.mpr outside, if_false] at change ⊢
    omega
  | @relay _ position task found given =>
    have inside := (List.getElem?_eq_some_iff.mp given).1
    have change := sum_map_set_add found (.relaying position task)
      (Worker.remaining setting.tasks.length)
    simp only [Setting.remaining, State.setWorker, List.length_set, Worker.remaining, inside,
      if_true] at change ⊢
    omega
  | @answer _ position task found outcome ms =>
    have change := sum_map_set_add found (.answered position (setting.row task outcome ms))
      (Worker.remaining setting.tasks.length)
    simp only [Setting.remaining, State.setWorker, List.length_set, Worker.remaining]
      at change ⊢
    omega
  | write found =>
    have change := sum_map_set_add found .ready (Worker.remaining setting.tasks.length)
    simp only [Setting.remaining, State.setWorker, List.length_set, Worker.remaining]
      at change ⊢
    omega
  | send found room =>
    have change := sum_map_set_add found .gone (Worker.remaining setting.tasks.length)
    simp only [Setting.remaining, State.setWorker, List.length_set, Worker.remaining]
      at change ⊢
    omega

/-- Some goroutine can move until the call has returned. -/
theorem Consistent.can_move (consistent : Consistent setting state events)
    (running : state.returned = none) : ∃ move, (setting.step state move).isSome = true := by
  by_cases started : state.workers.length < setting.concurrency
  · refine ⟨.caller, ?_⟩
    simp [Setting.step, Setting.callerStep, started]
  · by_cases waits : state.received < setting.concurrency
    · by_cases sent : state.done = 0
      · have finished := consistent.staffed.finished
        have some : ∃ worker ∈ state.workers, worker.isGone = false := by
          by_contra none
          simp only [not_exists, not_and, Bool.not_eq_false] at none
          have all := List.countP_eq_length.mpr none
          omega
        rcases some with ⟨worker, member, moving⟩
        rcases List.mem_iff_getElem?.mp member with ⟨index, found⟩
        refine ⟨.worker index {} 0, ?_⟩
        rw [Setting.step, Setting.workerStep, found]
        cases worker with
        | claimed position => cases given : setting.tasks[position]? <;> simp [given]
        | leaving =>
          have room : state.done < setting.concurrency := by
            rw [sent]
            exact one_le_concurrency setting
          simp [room]
        | gone => exact nomatch moving
        | _ => rfl
      · refine ⟨.caller, ?_⟩
        simp [Setting.step, Setting.callerStep, started, waits, sent]
    · refine ⟨.caller, ?_⟩
      simp [Setting.step, Setting.callerStep, started, waits, running]

theorem Consistent.execute (fewer : setting.tasks.length < 2 ^ 31) {moves : List Move}
    {final : State} {history : List Event} (consistent : Consistent setting state events)
    (ran : setting.execute moves state events = some (final, history)) :
    Consistent setting final history ∧
      moves.length + setting.remaining final ≤ setting.remaining state := by
  induction moves generalizing state events with
  | nil =>
    cases ran
    exact ⟨consistent, Nat.le_of_eq (Nat.zero_add _)⟩
  | cons move moves induction =>
    rw [Setting.execute] at ran
    split at ran
    · exact nomatch ran
    · next next new stepped =>
      have turn := turn_of_step stepped
      rcases induction (consistent.turn fewer turn) ran with ⟨behind, bound⟩
      have less := consistent.decreases fewer turn
      rw [List.length_cons]
      exact ⟨behind, by omega⟩

/-- Whatever the order of the goroutines' moves: no task is relayed twice, the
call returns only complete results when all workers are gone, it can always go on
until it returns, and it does so within a bounded number of moves. -/
theorem tasks_run_once (fewer : setting.tasks.length < 2 ^ 31) {moves : List Move}
    (ran : setting.execute moves setting.initial [] = some (state, events)) :
    (∀ position, events.countP (Event.relays position) ≤ 1) ∧
      (∀ results, state.returned = some results →
        Complete setting events results ∧ ∀ worker ∈ state.workers, worker.isGone = true) ∧
      (state.returned = none → ∃ move, (setting.step state move).isSome = true) ∧
      moves.length ≤ setting.remaining setting.initial := by
  rcases (consistent_initial setting).execute fewer ran with ⟨consistent, bound⟩
  refine ⟨consistent.relays_le_one, ?_, consistent.can_move, by omega⟩
  intro results returned
  have collected := (consistent.staffed.returned results returned).1
  exact ⟨consistent.complete returned, consistent.staffed.all_gone consistent.counted collected⟩

end Calls

def sampleTask (taskId : Bytes) : AgentTaskPrepared where
  taskId := taskId
  agentId := ascii "a"
  deploymentId := ascii "d"
  method := ascii "POST"
  path := ascii "/api/v1/run"
  query := []
  headers := []
  body := []

def sampleSetting : Setting where
  letters := LowerCase.asciiOnly
  unmarshal := fun _ => none
  sub := ascii "alice"
  tasks := [sampleTask (ascii "t")]
  maxConcurrency := 4
  timeoutMs := 0
  traceId := []

def sampleMoves : List Move :=
  .caller :: List.replicate 7 (.worker 0 {} 5) ++ [.caller, .caller]

theorem tasks_run_once_sample :
    ∃ state events results,
      sampleSetting.execute sampleMoves sampleSetting.initial [] = some (state, events) ∧
        state.returned = some results ∧ Complete sampleSetting events results := by
  refine ⟨_, _, _, rfl, rfl, ?_⟩
  exact ((@tasks_run_once sampleSetting _ _ (by decide) sampleMoves rfl).2.1 _ rfl).1

end AgentC.Broker.AgentTasks
