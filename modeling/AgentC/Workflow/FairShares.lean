import AgentC.Foundation.RoundRobin
import AgentC.Workflow.FairQueue

/-! # Shares of the sessions

The policy `drr` adds the weight of every session to its deficit at every call,
and the one session that gets a task pays one for it. A session with runnable
tasks is therefore always eligible: the sessions take turns as the cursor goes
round, whatever their weights. -/

namespace AgentC.Workflow

open RoundRobin

section Runs

variable (options : FairQueueOptions) (queue : FairQueue) (calls : Nat → PickCall)

def queueAt : Nat → FairQueue
  | 0 => queue
  | turn + 1 => (drrPick options (queueAt turn) (calls turn)).2

def pickedAt (turn : Nat) : Option Bytes :=
  (drrPick options (queueAt options queue calls turn) (calls turn)).1.map Pick.session

def picks (session : Bytes) (turns : Nat) : Nat :=
  Nat.count (fun turn => pickedAt options queue calls turn = some session) turns

/-- A call that finds the sessions, each with its weight and a runnable task. -/
structure Steady (sessions : List Bytes) (weight : Bytes → Int) (call : PickCall) : Prop where
  listed : call.sessions.Perm sessions
  weighted : ∀ session ∈ sessions, call.weight options session = weight session
  runnable : ∀ session ∈ sessions, ∃ row ∈ call.bucket session, (call.tryPick row).isSome

/-- The tasks that any two sessions get stay in the ratio of their weights, up
to a bound. -/
def SharesWithin (bound : Int) (sessions : List Bytes) (weight : Bytes → Int) : Prop :=
  ∀ turns, ∀ first ∈ sessions, ∀ second ∈ sessions,
    |picks options queue calls first turns * weight second -
      picks options queue calls second turns * weight first| < bound

end Runs

/-- No session is worth more turns than another, and the sessions fill a round
of the cursor. -/
def EvenTurns (sessions : List Bytes) (weight : Bytes → Int) : Prop :=
  ∀ first ∈ sessions, ∀ second ∈ sessions,
    weight first = weight second ∧ sessions.length ∣ 2 ^ 64

instance (sessions : List Bytes) (weight : Bytes → Int) : Decidable (EvenTurns sessions weight) :=
  inferInstanceAs (Decidable (∀ _ ∈ sessions, ∀ _ ∈ sessions, _))

/-- What the shares differ by at most when the turns are even: the debts that a
daemon starts with last for a million turns. -/
def evenTurnsBound : Int := 1024 * 1000002

variable {session : Bytes}

section Call

variable {options : FairQueueOptions} {queue : FairQueue} {call : PickCall} {level : Int}

/-- The sessions are loaded, with deficits that are not below the level. -/
structure Settled (sessions : List Bytes) (level : Int) (queue : FairQueue) : Prop where
  loaded : ∀ session ∈ sessions, queue.Loaded session
  deficit : ∀ session ∈ sessions, level ≤ queue.deficit session

theorem settled_funded
    (above : ∀ session ∈ call.sessions, level ≤ (queue.load call).deficit session) :
    Settled call.sessions (min 1 (level + 1)) (queue.funded options call) where
  loaded := by
    intro session active
    have pruned : ((queue.load call).prune call).Loaded session :=
      (FairQueue.prune_keeps active).2 (FairQueue.loaded_foldl_loadSession (.inl active))
    rw [FairQueue.Loaded] at pruned ⊢
    simpa only [FairQueue.funded] using pruned
  deficit := by
    intro session active
    have before := above session active
    have raised : min 1 ((queue.load call).deficit session + 1) ≤
        (queue.funded options call).deficit session := FairQueue.le_deficit_funded active
    omega

theorem FairQueue.Loaded.withDeficits (loaded : queue.Loaded session) (deficits : Deficits) :
    ({ queue with drrDeficitBySession := deficits } : FairQueue).Loaded session :=
  loaded

theorem taskCost_of_unit (unit : options.costModel = .unit) (row : WorkflowRow)
    (task : WorkflowTaskRow) : call.taskCost options row task = 1 := by
  simp only [PickCall.taskCost, unit]

theorem settled_drrPick (unit : options.costModel = .unit)
    (above : ∀ session ∈ call.sessions, level ≤ (queue.load call).deficit session) :
    Settled call.sessions (min 0 (level + 1)) (drrPick options queue call).2 := by
  have funded : Settled call.sessions (min 1 (level + 1)) (queue.funded options call) :=
    settled_funded above
  rcases FairQueue.drrPick_cases options queue call with
    ⟨empty, -⟩ | ⟨-, same⟩ | ⟨-, pick, -, eligible, same⟩
  · rw [empty]
    exact ⟨nofun, nofun⟩
  · rw [same]
    constructor
    · exact funded.loaded
    · intro session active
      have before := funded.deficit session active
      change min 0 (level + 1) ≤ (queue.funded options call).deficit session
      omega
  · rw [same, taskCost_of_unit unit]
    constructor
    · exact fun session active => (funded.loaded session active).withDeficits _
    · intro session active
      change min 0 (level + 1) ≤ Deficits.of (Deficits.charge _ pick.session (max 1 1)) session
      by_cases here : session = pick.session
      · have paid : clampDeficit ((queue.funded options call).deficit pick.session - 1) ≤
            ((queue.funded options call).drrDeficitBySession.charge pick.session
              (max 1 1)).of pick.session := Deficits.le_of_charge_self (by decide)
        rw [clampDeficit] at paid
        rw [here]
        omega
      · have before := funded.deficit session active
        rw [FairQueue.deficit] at before
        rw [Deficits.of_charge_of_ne here]
        omega

theorem Settled.perm {sessions others : List Bytes} (settled : Settled sessions level queue)
    (same : sessions.Perm others) : Settled others level queue where
  loaded := fun session member => settled.loaded session (same.mem_iff.mpr member)
  deficit := fun session member => settled.deficit session (same.mem_iff.mpr member)

theorem Settled.load (settled : Settled call.sessions level queue) : queue.load call = queue :=
  FairQueue.foldl_loadSession_of_loaded settled.loaded

theorem attempts_of_eligible {cursor : UInt64} {deficits : Deficits} {rest : List Bytes}
    (order : call.sessions.rotate (cursor.toNat % call.sessions.length) = session :: rest)
    (eligible : 1 ≤ deficits.of session) :
    ∃ later, call.attempts cursor deficits =
      ((call.bucket session).map fun row => (session, row)) ++ later := by
  rw [PickCall.attempts, order, List.flatMap_cons, if_neg (Int.not_lt.mpr eligible)]
  exact ⟨_, rfl⟩

theorem firstPick_bucket (later : List (Bytes × WorkflowRow))
    (runnable : ∃ row ∈ call.bucket session, (call.tryPick row).isSome) :
    ∃ row task, call.firstPick (((call.bucket session).map fun row => (session, row)) ++ later) =
      some (session, row, task) := by
  rw [PickCall.firstPick, List.findSome?_append]
  cases first : ((call.bucket session).map fun row => (session, row)).findSome? fun attempt =>
      (call.tryPick attempt.2).map fun task => (attempt.1, attempt.2, task) with
  | none =>
    rcases runnable with ⟨row, inBucket, claims⟩
    have failed := List.findSome?_eq_none_iff.mp first (session, row)
      (List.mem_map.mpr ⟨row, inBucket, rfl⟩)
    rw [Option.map_eq_none_iff] at failed
    simp [failed] at claims
  | some found =>
    rcases List.exists_of_findSome?_eq_some first with ⟨attempt, tried, claimed⟩
    rcases Option.map_eq_some_iff.mp claimed with ⟨task, -, same⟩
    rcases List.mem_map.mp tried with ⟨row, -, pair⟩
    rw [← same, ← pair]
    exact ⟨row, task, rfl⟩

/-- When every session is eligible and has a runnable task, the session at the
cursor gets its turn. -/
theorem session_drrPick
    (eligible : ∀ session ∈ call.sessions, 1 ≤ (queue.funded options call).deficit session)
    (runnable : ∀ session ∈ call.sessions, ∃ row ∈ call.bucket session, (call.tryPick row).isSome) :
    (drrPick options queue call).1.map Pick.session =
      call.sessions[queue.rrCursor.toNat % call.sessions.length]? := by
  by_cases empty : call.sessions = []
  · rw [drrPick, if_pos empty, empty]
    rfl
  · have inside : queue.rrCursor.toNat % call.sessions.length < call.sessions.length :=
      Nat.mod_lt _ (List.length_pos_of_ne_nil empty)
    have front := List.head?_rotate inside
    rw [← front, drrPick, if_neg empty]
    cases order : call.sessions.rotate (queue.rrCursor.toNat % call.sessions.length) with
    | nil => exact absurd (List.rotate_eq_nil_iff.mp order) empty
    | cons session rest =>
      have active : session ∈ call.sessions := by
        apply List.mem_rotate.mp
        rw [order]
        exact List.mem_cons_self ..
      rcases attempts_of_eligible order (eligible session active) with ⟨later, first⟩
      rcases firstPick_bucket later (runnable session active) with ⟨row, task, claimed⟩
      simp only [first, claimed]
      rfl

theorem rrCursor_drrPick (listed : call.sessions ≠ []) :
    (drrPick options queue call).2.rrCursor = queue.rrCursor + 1 := by
  rcases FairQueue.drrPick_cases options queue call with
    ⟨empty, -⟩ | ⟨-, same⟩ | ⟨-, pick, -, -, same⟩
  · exact absurd empty listed
  · rw [same]
    rfl
  · rw [same]
    rfl

end Call

section Turns

variable {options : FairQueueOptions} {queue : FairQueue} {calls : Nat → PickCall}
  {sessions : List Bytes} {weight : Bytes → Int}
  (unit : options.costModel = .unit) (bounded : queue.Bounded)
  (steady : ∀ turn, Steady options sessions weight (calls turn))
  (inOrder : ∀ turn, (calls turn).sessions = sessions)

include unit bounded steady in
theorem settled_queueAt (turn : Nat) :
    Settled sessions (min 0 ((turn : Int) - 999999)) (queueAt options queue calls (turn + 1)) := by
  induction turn with
  | zero =>
    have settled : Settled (calls 0).sessions (min 0 (-1000000 + 1))
        (queueAt options queue calls 1) :=
      settled_drrPick unit fun session _ => bounded.load session
    exact settled.perm (steady 0).listed
  | succ turn induction =>
    have before := induction.perm (steady (turn + 1)).listed.symm
    have settled : Settled (calls (turn + 1)).sessions (min 0 (min 0 ((turn : Int) - 999999) + 1))
        (queueAt options queue calls (turn + 2)) := by
      apply settled_drrPick unit
      rw [before.load]
      exact before.deficit
    have level : min 0 (min 0 ((turn : Int) - 999999) + 1) =
        min 0 (((turn + 1 : Nat) : Int) - 999999) := by omega
    rw [← level]
    exact settled.perm (steady (turn + 1)).listed

include unit bounded steady in
theorem eligible_queueAt (turn : Nat) : ∀ session ∈ (calls (turn + 1000000)).sessions,
      1 ≤ ((queueAt options queue calls (turn + 1000000)).funded options
        (calls (turn + 1000000))).deficit session := by
  have late : Settled sessions (min 0 (((turn + 999999 : Nat) : Int) - 999999))
      (queueAt options queue calls (turn + 1000000)) :=
    settled_queueAt unit bounded steady (turn + 999999)
  have settled := late.perm (steady (turn + 1000000)).listed.symm
  intro session active
  have above : ∀ session ∈ (calls (turn + 1000000)).sessions,
      0 ≤ ((queueAt options queue calls (turn + 1000000)).load
        (calls (turn + 1000000))).deficit session := by
    intro session active
    have kept := settled.deficit session active
    rw [settled.load]
    omega
  exact (settled_funded above).deficit session active

include steady in
theorem rrCursor_queueAt (listed : sessions ≠ []) (turn : Nat) :
    (queueAt options queue calls turn).rrCursor.toNat = (queue.rrCursor.toNat + turn) % 2 ^ 64 := by
  induction turn with
  | zero => exact (Nat.mod_eq_of_lt queue.rrCursor.toNat_lt).symm
  | succ turn induction =>
    have some_listed : (calls turn).sessions ≠ [] := by
      intro empty
      have same := (steady turn).listed
      rw [empty] at same
      exact listed same.nil_eq.symm
    rw [queueAt, rrCursor_drrPick some_listed, UInt64.toNat_add, induction, ← Nat.add_assoc,
      Nat.mod_add_mod]
    rfl

include unit bounded steady in
theorem pickedAt_late (listed : sessions ≠ []) (turn : Nat) :
    pickedAt options queue calls (turn + 1000000) =
      (calls (turn + 1000000)).sessions[(queue.rrCursor.toNat + (turn + 1000000)) % 2 ^ 64 %
        sessions.length]? := by
  have runnable : ∀ session ∈ (calls (turn + 1000000)).sessions,
      ∃ row ∈ (calls (turn + 1000000)).bucket session,
        ((calls (turn + 1000000)).tryPick row).isSome := by
    intro session active
    exact (steady (turn + 1000000)).runnable session
      ((steady (turn + 1000000)).listed.mem_iff.mp active)
  rw [pickedAt, session_drrPick (eligible_queueAt unit bounded steady turn) runnable,
    rrCursor_queueAt steady listed, (steady (turn + 1000000)).listed.length_eq]

variable {place : Nat}

include unit bounded steady inOrder in
theorem pickedAt_iff (inside : place < sessions.length) (turn : Nat) :
    pickedAt options queue calls (turn + 1000000) = some sessions[place] ↔
      OnTurn (2 ^ 64) sessions.length place (queue.rrCursor.toNat + (turn + 1000000)) := by
  have listed : sessions ≠ [] := List.ne_nil_of_length_pos (Nat.zero_lt_of_lt inside)
  have distinct : sessions.Nodup := inOrder 0 ▸ (calls 0).nodup_sessions
  have pointed : (queue.rrCursor.toNat + (turn + 1000000)) % 2 ^ 64 % sessions.length <
      sessions.length := Nat.mod_lt _ (Nat.zero_lt_of_lt inside)
  rw [pickedAt_late unit bounded steady listed, inOrder, OnTurn, List.getElem?_eq_getElem pointed,
    Option.some_inj, distinct.getElem_inj_iff]

include unit bounded steady inOrder in
theorem picks_late (inside : place < sessions.length) (turns : Nat) :
    picks options queue calls sessions[place] (1000000 + turns) =
      picks options queue calls sessions[place] 1000000 +
        Nat.count (fun turn => OnTurn (2 ^ 64) sessions.length place
          (queue.rrCursor.toNat + 1000000 + turn)) turns := by
  rw [picks, Nat.count_add]
  congr 1
  apply count_congr
  intro turn _
  rw [Nat.add_comm 1000000 turn, pickedAt_iff unit bounded steady inOrder inside]
  rw [Nat.add_assoc, Nat.add_comm 1000000 turn]

include steady in
theorem weight_bounds (member : session ∈ sessions) :
    1 ≤ weight session ∧ weight session ≤ 1024 := by
  rw [← (steady 0).weighted session member]
  exact ⟨(calls 0).one_le_weight options session, (calls 0).weight_le options session⟩

include unit bounded steady inOrder in
theorem picks_le_of_dvd (divides : sessions.length ∣ 2 ^ 64) {first second : Bytes}
    (firstMember : first ∈ sessions) (secondMember : second ∈ sessions) (turns : Nat) :
    picks options queue calls first turns ≤ picks options queue calls second turns + 1000001 := by
  rcases List.getElem_of_mem firstMember with ⟨place, inside, rfl⟩
  rcases List.getElem_of_mem secondMember with ⟨other, otherInside, rfl⟩
  by_cases early : turns ≤ 1000000
  · have counted : picks options queue calls sessions[place] turns ≤ turns := Nat.count_le _
    omega
  · have start : picks options queue calls sessions[place] 1000000 ≤ 1000000 := Nat.count_le _
    have upper := (count_of_dvd divides inside (queue.rrCursor.toNat + 1000000)
      (turns - 1000000)).2
    have lower := (count_of_dvd divides otherInside (queue.rrCursor.toNat + 1000000)
      (turns - 1000000)).1
    have split : turns = 1000000 + (turns - 1000000) := by omega
    rw [split, picks_late unit bounded steady inOrder inside,
      picks_late unit bounded steady inOrder otherInside]
    omega

include unit bounded steady inOrder in
theorem sharesWithin_of_evenTurns (even : EvenTurns sessions weight) :
    SharesWithin options queue calls evenTurnsBound sessions weight := by
  intro turns first firstMember second secondMember
  rcases even first firstMember second secondMember with ⟨same, divides⟩
  have ahead := picks_le_of_dvd unit bounded steady inOrder divides firstMember secondMember turns
  have behind := picks_le_of_dvd unit bounded steady inOrder divides secondMember firstMember turns
  have bounds := weight_bounds steady secondMember
  rw [same, ← Int.sub_mul, abs_mul, abs_of_nonneg (by omega : 0 ≤ weight second)]
  have apart : |(picks options queue calls first turns : Int) -
      picks options queue calls second turns| ≤ 1000001 := by
    rw [abs_le]
    omega
  calc |(picks options queue calls first turns : Int) - picks options queue calls second turns| *
          weight second
      ≤ 1000001 * 1024 := mul_le_mul apart bounds.2 (by omega) (by decide)
    _ < evenTurnsBound := by decide

def roundTurns (places place : Nat) : Nat :=
  2 ^ 64 / places + if place < 2 ^ 64 % places then 1 else 0

include unit bounded steady inOrder in
/-- Shares that stay proportional are so in every round. -/
theorem roundTurns_proportional {bound : Int}
    (within : SharesWithin options queue calls bound sessions weight) {other : Nat}
    (inside : place < sessions.length) (otherInside : other < sessions.length) :
    (roundTurns sessions.length place : Int) * weight sessions[other] =
      roundTurns sessions.length other * weight sessions[place] := by
  have steps : ∀ rounds : Nat,
      |((picks options queue calls sessions[place] 1000000 : Int) * weight sessions[other] -
          picks options queue calls sessions[other] 1000000 * weight sessions[place]) +
        rounds * (roundTurns sessions.length place * weight sessions[other] -
          roundTurns sessions.length other * weight sessions[place])| < bound := by
    intro rounds
    have late := within (1000000 + rounds * 2 ^ 64) sessions[place] (List.getElem_mem inside)
      sessions[other] (List.getElem_mem otherInside)
    rw [picks_late unit bounded steady inOrder inside,
      picks_late unit bounded steady inOrder otherInside, count_rounds inside,
      count_rounds otherInside, ← roundTurns, ← roundTurns, Nat.cast_add, Nat.cast_add,
      Nat.cast_mul, Nat.cast_mul] at late
    have regrouped : ∀ startLeft startRight left right weightLeft weightRight rounds : Int,
        (startLeft * weightRight - startRight * weightLeft) +
            rounds * (left * weightRight - right * weightLeft) =
          (startLeft + rounds * left) * weightRight -
            (startRight + rounds * right) * weightLeft := by
      intros
      ring
    rw [regrouped]
    exact late
  exact Int.sub_eq_zero.mp (growth_eq_zero steps)

include unit bounded steady inOrder in
/-- The cursor's last round is cut short when the sessions do not fill it, and
no small weights make up for the turn that the last session then misses. -/
theorem dvd_of_sharesWithin {bound : Int}
    (within : SharesWithin options queue calls bound sessions weight) (listed : sessions ≠ []) :
    sessions.length ∣ 2 ^ 64 := by
  by_contra cut
  have positive := List.length_pos_of_ne_nil listed
  have few : sessions.length ≤ 1024 := inOrder 0 ▸ (calls 0).length_sessions_le
  have lastInside : sessions.length - 1 < sessions.length := by omega
  have rest : 0 < 2 ^ 64 % sessions.length := by
    rw [Nat.dvd_iff_mod_eq_zero] at cut
    omega
  have below := Nat.mod_lt (2 ^ 64) positive
  have firstTurns : roundTurns sessions.length 0 = 2 ^ 64 / sessions.length + 1 := by
    rw [roundTurns, if_pos rest]
  have lastTurns : roundTurns sessions.length (sessions.length - 1) = 2 ^ 64 / sessions.length := by
    rw [roundTurns, if_neg (by omega), Nat.add_zero]
  have many : 2 ^ 54 ≤ 2 ^ 64 / sessions.length := by
    calc 2 ^ 54 = 2 ^ 64 / 1024 := by decide
      _ ≤ 2 ^ 64 / sessions.length := Nat.div_le_div_left few positive
  have bounds := weight_bounds steady (List.getElem_mem lastInside)
  have proportional :=
    roundTurns_proportional unit bounded steady inOrder within positive lastInside
  rw [firstTurns, lastTurns] at proportional
  exact succ_mul_ne (by omega) (by omega) proportional

include unit bounded steady inOrder in
theorem evenTurns_of_sharesWithin {bound : Int}
    (within : SharesWithin options queue calls bound sessions weight) :
    EvenTurns sessions weight := by
  intro first firstMember second secondMember
  have divides : sessions.length ∣ 2 ^ 64 :=
    dvd_of_sharesWithin unit bounded steady inOrder within (List.ne_nil_of_mem firstMember)
  rcases List.getElem_of_mem firstMember with ⟨place, inside, rfl⟩
  rcases List.getElem_of_mem secondMember with ⟨other, otherInside, rfl⟩
  have proportional :=
    roundTurns_proportional unit bounded steady inOrder within inside otherInside
  have positive : 0 < 2 ^ 64 / sessions.length :=
    Nat.div_pos (Nat.le_of_dvd (by decide) divides) (Nat.zero_lt_of_lt inside)
  simp only [roundTurns, Nat.mod_eq_zero_of_dvd divides, Nat.not_lt_zero, if_false,
    Nat.add_zero] at proportional
  constructor
  · exact (Int.eq_of_mul_eq_mul_left (by omega) proportional).symm
  · exact divides

end Turns

/-- In a run that keeps the sessions in one order, the shares follow the weights
only where there is nothing to weigh. -/
theorem drr_shares_weighted_iff {options : FairQueueOptions} {queue : FairQueue}
    {calls : Nat → PickCall} {sessions : List Bytes} {weight : Bytes → Int}
    (unit : options.costModel = .unit) (reachable : FairQueue.Reachable options queue)
    (steady : ∀ turn, Steady options sessions weight (calls turn))
    (inOrder : ∀ turn, (calls turn).sessions = sessions) :
    (EvenTurns sessions weight ↔
        ∃ bound, SharesWithin options queue calls bound sessions weight) ∧
      (EvenTurns sessions weight →
        SharesWithin options queue calls evenTurnsBound sessions weight) := by
  have enough : EvenTurns sessions weight →
      SharesWithin options queue calls evenTurnsBound sessions weight :=
    sharesWithin_of_evenTurns unit reachable.bounded steady inOrder
  constructor
  · constructor
    · intro even
      exact ⟨evenTurnsBound, enough even⟩
    · rintro ⟨bound, within⟩
      exact evenTurns_of_sharesWithin unit reachable.bounded steady inOrder within
  · exact enough

def sampleFairQueueOptions : FairQueueOptions where
  specSessionWeight := fun specJson =>
    if specJson = ascii "\x7b\"session_weight\":2\x7d" then some 2 else none
  workflowLimits := fun _ => {}
  simpleCost := fun _ => 1
  telemetryCost := fun _ => 0

def samplePickCall (specJson : Bytes) : PickCall where
  queued := [
    { workflowId := ascii "w1", sessionId := ascii "sess_A", createdUnixMs := 1, specJson },
    { workflowId := ascii "w2", sessionId := ascii "sess_B", createdUnixMs := 2 }]
  running := []
  queued_length_le := by simp
  running_length_le := by simp
  tryPick := fun row => some { workflowId := row.workflowId, taskId := ascii "T" }
  storedDeficit := fun _ => none
  usageTotals := fun _ => none

def samplePickSessions : List Bytes :=
  [ascii "sid:sess_A", ascii "sid:sess_B"]

def heavierFirst (session : Bytes) : Int :=
  if session = ascii "sid:sess_A" then 2 else 1

def heavierCall : PickCall :=
  samplePickCall (ascii "\x7b\"session_weight\":2\x7d")

theorem steady_heavierCall :
    Steady sampleFairQueueOptions samplePickSessions heavierFirst heavierCall where
  listed := by decide
  weighted := by decide
  runnable := by decide

/-- Two sessions of one weight take turns, and the shares stay together. -/
theorem drr_shares_weighted_iff_sample :
    EvenTurns samplePickSessions (fun _ => 1) ∧
      SharesWithin sampleFairQueueOptions {} (fun _ => samplePickCall []) evenTurnsBound
        samplePickSessions (fun _ => 1) := by
  have even : EvenTurns samplePickSessions (fun _ => 1) := by decide
  have steady : Steady sampleFairQueueOptions samplePickSessions (fun _ => 1)
      (samplePickCall []) := ⟨by decide, by decide, by decide⟩
  exact ⟨even, (drr_shares_weighted_iff rfl .start (fun _ => steady)
    (fun _ => by decide)).2 even⟩

/-- A session of weight two gets no more turns than one of weight one. -/
theorem heavier_session_gets_no_more :
    FairQueue.Reachable sampleFairQueueOptions {} ∧
      (∀ turn : Nat, Steady sampleFairQueueOptions samplePickSessions heavierFirst
        ((fun _ => heavierCall) turn)) ∧
      ∀ bound, ¬SharesWithin sampleFairQueueOptions {} (fun _ => heavierCall) bound
        samplePickSessions heavierFirst := by
  have reachable : FairQueue.Reachable sampleFairQueueOptions {} := .start
  refine ⟨reachable, fun _ => steady_heavierCall, ?_⟩
  intro bound within
  have even : EvenTurns samplePickSessions heavierFirst :=
    evenTurns_of_sharesWithin rfl reachable.bounded (fun _ => steady_heavierCall)
      (fun _ => by decide) within
  exact absurd even (by decide)

end AgentC.Workflow
