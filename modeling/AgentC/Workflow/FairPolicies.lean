import AgentC.Workflow.FairShares

/-! # Fair queue policies

The policies `scan_rr` and `wrr` of `pick_and_claim_one` beside `drr`: which
session buckets each of them tries, and when they find work that a plain scan
would find. -/

namespace AgentC.Workflow

def PickCall.scanAttempts (call : PickCall) (cursor : UInt64) : List (Bytes × WorkflowRow) :=
  (call.sessions.rotate (cursor.toNat % call.sessions.length)).flatMap fun session =>
    (call.bucket session).map fun row => (session, row)

/-- A pick that charges nothing and is not stored. -/
def unchargedPick (found : Bytes × WorkflowRow × WorkflowTaskRow) : Pick where
  session := found.1
  workflow := found.2.1
  task := found.2.2
  persisted := none

/-- `pick_and_claim_one` under the policy `scan_rr`. -/
def scanPick (queue : FairQueue) (call : PickCall) : Option Pick × FairQueue :=
  if call.sessions = [] then (none, queue)
  else
    ((call.firstPick (call.scanAttempts queue.rrCursor)).map unchargedPick,
      { queue with rrCursor := queue.rrCursor + 1 })

/-- The options of the policy `wrr` as the constructor of the engine leaves them. -/
structure WrrOptions extends FairQueueOptions where
  maxScheduleLen : Nat := 1024
  sixteen_le_maxScheduleLen : 16 ≤ maxScheduleLen := by decide
  maxScheduleLen_le : maxScheduleLen ≤ 65536 := by decide

/-- `max_weight_eff`: what a session may weigh so that all sessions fit into the
schedule. -/
def WrrOptions.maxWeightEff (options : WrrOptions) (sessions : Nat) : Int :=
  min options.maxSessionWeight (max 1 (options.maxScheduleLen / sessions : Nat))

/-- The options with the weights limited by `max_weight_eff`. -/
def WrrOptions.limited (options : WrrOptions) (sessions : Nat) : FairQueueOptions :=
  { options.toFairQueueOptions with
    maxSessionWeight := options.maxWeightEff sessions
    one_le_maxSessionWeight :=
      le_min options.one_le_maxSessionWeight (le_max_left ..)
    maxSessionWeight_le := le_trans (min_le_left ..) options.maxSessionWeight_le }

/-- A session is pushed as often as it weighs, until the schedule is full. -/
def expandSchedule (maxLen : Nat) (weight : Bytes → Int) (schedule : List Bytes) :
    List Bytes → List Bytes
  | [] => schedule
  | session :: rest =>
    let pushed := schedule ++
      List.replicate (min (weight session).toNat (maxLen - schedule.length)) session
    if maxLen ≤ pushed.length then pushed else expandSchedule maxLen weight pushed rest

def PickCall.wrrWeight (call : PickCall) (options : WrrOptions) (session : Bytes) : Int :=
  largestWeight (options.limited call.sessions.length) 1 (call.bucket session)

def PickCall.schedule (call : PickCall) (options : WrrOptions) : List Bytes :=
  expandSchedule options.maxScheduleLen (call.wrrWeight options) [] call.sessions

def PickCall.wrrAttempts (call : PickCall) (options : WrrOptions) (cursor : UInt64) :
    List (Bytes × WorkflowRow) :=
  let schedule := call.schedule options
  (schedule.rotate (cursor.toNat % schedule.length)).flatMap fun session =>
    (call.bucket session).map fun row => (session, row)

/-- `pick_and_claim_one` under the policy `wrr`. -/
def wrrPick (options : WrrOptions) (queue : FairQueue) (call : PickCall) :
    Option Pick × FairQueue :=
  if call.sessions = [] then (none, queue)
  else
    ((call.firstPick (call.wrrAttempts options queue.rrCursor)).map unchargedPick,
      { queue with rrCursor := queue.rrCursor + 1 })

theorem sessionWeight_le (options : FairQueueOptions) (row : WorkflowRow) :
    sessionWeight options row ≤ options.maxSessionWeight := by
  have least := options.one_le_maxSessionWeight
  rw [sessionWeight]
  split
  · exact least
  · split
    · exact least
    · split
      · exact least
      · omega

theorem largestWeight_bounds {options : FairQueueOptions} {rows : List WorkflowRow} {weight : Int}
    (positive : 1 ≤ weight) (small : weight ≤ options.maxSessionWeight) :
    1 ≤ largestWeight options weight rows ∧
      largestWeight options weight rows ≤ options.maxSessionWeight := by
  induction rows generalizing weight with
  | nil => exact ⟨positive, small⟩
  | cons row rows induction =>
    have limited := sessionWeight_le options row
    have larger : 1 ≤ max weight (sessionWeight options row) := by omega
    have largerSmall : max weight (sessionWeight options row) ≤ options.maxSessionWeight := by
      omega
    simp only [largestWeight]
    split
    · exact ⟨larger, largerSmall⟩
    · exact induction larger largerSmall

theorem PickCall.wrrWeight_bounds (call : PickCall) (options : WrrOptions) (session : Bytes) :
    1 ≤ call.wrrWeight options session ∧
      call.wrrWeight options session ≤ options.maxWeightEff call.sessions.length :=
  @largestWeight_bounds (options.limited call.sessions.length) (call.bucket session) 1
    (Int.le_refl 1) (options.limited call.sessions.length).one_le_maxSessionWeight

variable {session : Bytes} {call : PickCall} {cursor : UInt64} {attempt : Bytes × WorkflowRow}
variable {queue : FairQueue} {options : FairQueueOptions}

theorem mem_expandSchedule {maxLen largest : Nat} {weight : Bytes → Int}
    {schedule sessions : List Bytes} (positive : ∀ session, 1 ≤ weight session)
    (small : ∀ session, weight session ≤ largest) (largestPositive : 1 ≤ largest)
    (room : schedule.length + sessions.length * largest ≤ maxLen)
    (member : session ∈ schedule ∨ session ∈ sessions) :
    session ∈ expandSchedule maxLen weight schedule sessions := by
  induction sessions generalizing schedule with
  | nil =>
    rcases member with placed | waiting
    · exact placed
    · exact nomatch waiting
  | cons first rest induction =>
    have firstPositive := positive first
    have firstSmall := small first
    rw [List.length_cons, Nat.add_one_mul] at room
    have uncut : min (weight first).toNat (maxLen - schedule.length) = (weight first).toNat := by
      omega
    have firstPlaced : first ∈ List.replicate (weight first).toNat first :=
      List.mem_replicate.mpr ⟨by omega, rfl⟩
    simp only [expandSchedule, uncut, List.length_append, List.length_replicate]
    split
    · rename_i full
      have last : rest = [] := by
        apply List.eq_nil_of_length_eq_zero
        have used : rest.length * largest = 0 := by omega
        rcases Nat.mul_eq_zero.mp used with none | none
        · exact none
        · omega
      subst last
      rcases member with placed | waiting
      · exact List.mem_append_left _ placed
      · rw [List.mem_singleton.mp waiting]
        exact List.mem_append_right _ firstPlaced
    · apply induction
      · rw [List.length_append, List.length_replicate]
        omega
      · rcases member with placed | waiting
        · exact .inl (List.mem_append_left _ placed)
        · rcases List.mem_cons.mp waiting with here | later
          · rw [here]
            exact .inl (List.mem_append_right _ firstPlaced)
          · exact .inr later

theorem PickCall.mem_schedule {options : WrrOptions}
    (fits : call.sessions.length ≤ options.maxScheduleLen) (listed : session ∈ call.sessions) :
    session ∈ call.schedule options := by
  have some : 0 < call.sessions.length := List.length_pos_of_mem listed
  have share : 1 ≤ options.maxScheduleLen / call.sessions.length :=
    Nat.div_pos fits some
  have limited : options.maxWeightEff call.sessions.length ≤
      (options.maxScheduleLen / call.sessions.length : Nat) := by
    rw [WrrOptions.maxWeightEff]
    omega
  apply mem_expandSchedule (fun session => (call.wrrWeight_bounds options session).1)
    (fun session => le_trans (call.wrrWeight_bounds options session).2 limited) share
  · rw [List.length_nil, Nat.zero_add]
    exact Nat.mul_div_le ..
  · exact .inr listed

theorem mem_scanAttempts : attempt ∈ call.scanAttempts cursor ↔
      attempt.1 ∈ call.sessions ∧ attempt.2 ∈ call.bucket attempt.1 := by
  rw [PickCall.scanAttempts, List.mem_flatMap]
  constructor
  · rintro ⟨session, listed, inBucket⟩
    rcases List.mem_map.mp inBucket with ⟨row, rowMember, rfl⟩
    exact ⟨List.mem_rotate.mp listed, rowMember⟩
  · rintro ⟨listed, rowMember⟩
    exact ⟨attempt.1, List.mem_rotate.mpr listed, List.mem_map.mpr ⟨attempt.2, rowMember, rfl⟩⟩

theorem mem_wrrAttempts {options : WrrOptions} (placed : attempt.1 ∈ call.schedule options)
    (rowMember : attempt.2 ∈ call.bucket attempt.1) :
    attempt ∈ call.wrrAttempts options cursor := by
  rw [PickCall.wrrAttempts]
  apply List.mem_flatMap.mpr
  exact ⟨attempt.1, List.mem_rotate.mpr placed, List.mem_map.mpr ⟨attempt.2, rowMember, rfl⟩⟩

theorem mem_attempts {deficits : Deficits} (listed : attempt.1 ∈ call.sessions)
    (rowMember : attempt.2 ∈ call.bucket attempt.1) (eligible : 1 ≤ deficits.of attempt.1) :
    attempt ∈ call.attempts cursor deficits := by
  apply List.mem_flatMap.mpr
  refine ⟨attempt.1, List.mem_rotate.mpr listed, ?_⟩
  rw [if_neg (Int.not_lt.mpr eligible)]
  exact List.mem_map.mpr ⟨attempt.2, rowMember, rfl⟩

theorem firstPick_isSome_of_subset {fewer more : List (Bytes × WorkflowRow)}
    (covered : ∀ attempt ∈ fewer, attempt ∈ more) (claims : (call.firstPick fewer).isSome) :
    (call.firstPick more).isSome := by
  rw [PickCall.firstPick, List.findSome?_isSome_iff] at claims ⊢
  rcases claims with ⟨attempt, tried, claimed⟩
  exact ⟨attempt, covered attempt tried, claimed⟩

theorem scanPick_isSome (claims : (scanPick queue call).1.isSome) :
    call.sessions ≠ [] ∧ (call.firstPick (call.scanAttempts queue.rrCursor)).isSome := by
  rw [scanPick] at claims
  split at claims
  · exact nomatch claims
  · rename_i listed
    exact ⟨listed, by simpa using claims⟩

theorem wrrPick_isSome {options : WrrOptions}
    (covered : ∀ attempt ∈ call.scanAttempts queue.rrCursor,
      attempt ∈ call.wrrAttempts options queue.rrCursor) (claims : (scanPick queue call).1.isSome) :
    (wrrPick options queue call).1.isSome := by
  rcases scanPick_isSome claims with ⟨listed, found⟩
  rw [wrrPick, if_neg listed]
  simpa using firstPick_isSome_of_subset covered found

theorem drrPick_isSome (covered : ∀ attempt ∈ call.scanAttempts queue.rrCursor,
      attempt ∈ call.attempts queue.rrCursor (queue.funded options call).drrDeficitBySession)
    (claims : (scanPick queue call).1.isSome) : (drrPick options queue call).1.isSome := by
  rcases scanPick_isSome claims with ⟨listed, found⟩
  have tried := firstPick_isSome_of_subset covered found
  rcases Option.isSome_iff_exists.mp tried with ⟨pick, first⟩
  rw [drrPick, if_neg listed]
  simp only [first, Option.isSome_some]

/-- No session that the database knows is in debt. -/
def PickCall.NoStoredDebt (call : PickCall) : Prop :=
  ∀ sessionId deficit, call.storedDeficit sessionId = some deficit → 0 ≤ deficit

/-- The queues of a process that finds no stored debt. -/
inductive FairQueue.DebtFree (options : FairQueueOptions) : FairQueue → Prop
  | start : DebtFree options {}
  | call {queue : FairQueue} {call : PickCall} (noDebt : call.NoStoredDebt) :
      DebtFree options queue → DebtFree options (drrPick options queue call).2

theorem clampDeficit_nonneg {deficit : Int} (nonneg : 0 ≤ deficit) : 0 ≤ clampDeficit deficit := by
  rw [clampDeficit]
  omega

theorem above_load_of_noStoredDebt (above : queue.Above 0) (noDebt : call.NoStoredDebt) :
    (queue.load call).Above 0 := by
  apply above.load
  intro sessionId stored found
  exact clampDeficit_nonneg (noDebt sessionId stored found)

theorem above_drrPick_of_unit (unit : options.costModel = .unit) (above : queue.Above 0)
    (noDebt : call.NoStoredDebt) : (drrPick options queue call).2.Above 0 := by
  apply FairQueue.Above.drrPick (Int.le_refl 0) (above_load_of_noStoredDebt above noDebt)
  intro row task deficit eligible
  have cost : call.taskCost options row task = 1 := by
    simp only [PickCall.taskCost, unit]
  rw [cost]
  exact clampDeficit_nonneg (by omega)

/-- With unit costs, debt does not come from the picks themselves. -/
theorem FairQueue.DebtFree.above (unit : options.costModel = .unit)
    (debtFree : DebtFree options queue) : queue.Above 0 := by
  induction debtFree with
  | start =>
    intro session
    exact Int.le_refl 0
  | call noDebt _ induction => exact above_drrPick_of_unit unit induction noDebt

theorem drrPick_persisted {pick : Pick} {row : WorkflowFairqSessionRow}
    (picked : (drrPick options queue call).1 = some pick) (stored : pick.persisted = some row) :
    row.deficit = (drrPick options queue call).2.deficit pick.session := by
  rw [drrPick] at picked ⊢
  split at picked
  · cases picked
  · rename_i listed
    rw [if_neg listed]
    cases first : call.firstPick
        (call.attempts queue.rrCursor (queue.funded options call).drrDeficitBySession) with
    | none =>
      simp only [first] at picked
      cases picked
    | some found =>
      simp only [first, Option.some.injEq] at picked ⊢
      subst picked
      simp only at stored
      split at stored
      · cases stored
      · cases stored
        rfl

/-- The deficit of a session and its weight suffice for a try. -/
def FairQueue.Funded (options : FairQueueOptions) (queue : FairQueue) (call : PickCall)
    (session : Bytes) : Prop :=
  1 ≤ (queue.load call).deficit session + call.weight options session

theorem FairQueue.Funded.eligible (funded : queue.Funded options call session)
    (listed : session ∈ call.sessions) :
    1 ≤ (queue.funded options call).drrDeficitBySession.of session := by
  have raised : (queue.funded options call).deficit session =
      saturatingAdd ((queue.load call).deficit session) (call.weight options session) :=
    FairQueue.deficit_funded listed
  have positive := call.one_le_weight options session
  rw [FairQueue.Funded] at funded
  change 1 ≤ (queue.funded options call).deficit session
  rw [raised, saturatingAdd, int64Max]
  split
  · omega
  · split <;> omega

/-- A schedule that is long enough for all sessions, and sessions without too
much debt, make `wrr` and `drr` try every bucket that a scan tries. Unit costs
alone never lead to debt. -/
theorem fairPolicies_cover_scan (options : WrrOptions) (queue : FairQueue) (call : PickCall) :
    (call.sessions.length ≤ options.maxScheduleLen →
      (∀ attempt ∈ call.scanAttempts queue.rrCursor,
        attempt ∈ call.wrrAttempts options queue.rrCursor) ∧
      ((scanPick queue call).1.isSome → (wrrPick options queue call).1.isSome)) ∧
    (options.costModel = .unit →
      (∀ attempt ∈ call.scanAttempts queue.rrCursor,
        queue.Funded options.toFairQueueOptions call attempt.1 →
          attempt ∈ call.attempts queue.rrCursor
            (queue.funded options.toFairQueueOptions call).drrDeficitBySession) ∧
      ((∀ session ∈ call.sessions, queue.Funded options.toFairQueueOptions call session) →
        (scanPick queue call).1.isSome →
          (drrPick options.toFairQueueOptions queue call).1.isSome) ∧
      (FairQueue.DebtFree options.toFairQueueOptions queue → call.NoStoredDebt →
        (∀ session ∈ call.sessions, queue.Funded options.toFairQueueOptions call session) ∧
        ∀ pick row, (drrPick options.toFairQueueOptions queue call).1 = some pick →
          pick.persisted = some row → 0 ≤ row.deficit)) := by
  constructor
  · intro fits
    have covered : ∀ attempt ∈ call.scanAttempts queue.rrCursor,
        attempt ∈ call.wrrAttempts options queue.rrCursor := by
      intro attempt tried
      rcases mem_scanAttempts.mp tried with ⟨listed, rowMember⟩
      exact mem_wrrAttempts (PickCall.mem_schedule fits listed) rowMember
    exact ⟨covered, wrrPick_isSome covered⟩
  · intro unit
    have covered : ∀ attempt ∈ call.scanAttempts queue.rrCursor,
        queue.Funded options.toFairQueueOptions call attempt.1 →
          attempt ∈ call.attempts queue.rrCursor
            (queue.funded options.toFairQueueOptions call).drrDeficitBySession := by
      intro attempt tried funded
      rcases mem_scanAttempts.mp tried with ⟨listed, rowMember⟩
      exact mem_attempts listed rowMember (funded.eligible listed)
    refine ⟨covered, ?_, ?_⟩
    · intro funded
      apply drrPick_isSome
      intro attempt tried
      exact covered attempt tried (funded attempt.1 (mem_scanAttempts.mp tried).1)
    · intro debtFree noDebt
      have above := debtFree.above unit
      constructor
      · intro session _
        have loaded := above_load_of_noStoredDebt above noDebt session
        have positive := call.one_le_weight options.toFairQueueOptions session
        rw [FairQueue.Funded]
        omega
      · intro pick row picked stored
        rw [drrPick_persisted picked stored]
        exact above_drrPick_of_unit unit above noDebt pick.session

def sampleWrrOptions : WrrOptions where
  toFairQueueOptions := sampleFairQueueOptions
  maxScheduleLen := 16

/-- Two sessions have room in the schedule, and no debt: both policies find the
task that the scan finds. -/
theorem fairPolicies_cover_scan_sample :
    (wrrPick sampleWrrOptions {} heavierCall).1.isSome ∧
      (drrPick sampleFairQueueOptions {} heavierCall).1.isSome := by
  have covers := fairPolicies_cover_scan sampleWrrOptions {} heavierCall
  have noDebt : heavierCall.NoStoredDebt := by
    intro sessionId deficit found
    exact nomatch found
  constructor
  · exact (covers.1 (by decide)).2 (by decide)
  · exact (covers.2 rfl).2.1 ((covers.2 rfl).2.2 .start noDebt).1 (by decide)

/-- Seventeen sessions with a workflow each, of which only the youngest has a
task to claim. -/
def crowdedCall : PickCall where
  queued := (List.range 17).map fun number => {
    workflowId := [UInt8.ofNat number]
    sessionId := [UInt8.ofNat number]
    createdUnixMs := number }
  running := []
  queued_length_le := by simp
  running_length_le := by decide
  tryPick := fun row =>
    if row.createdUnixMs = 16 then some { workflowId := row.workflowId, taskId := ascii "T" }
    else none
  storedDeficit := fun _ => none
  usageTotals := fun _ => none

/-- Two sessions, both in debt since an earlier process. -/
def indebtedCall : PickCall :=
  { heavierCall with storedDeficit := fun _ => some (-5) }

/-- A schedule of sixteen places has none for the seventeenth session, and
stored debt keeps `drr` from trying any session. -/
theorem wrr_and_drr_miss_work :
    ((scanPick {} crowdedCall).1.isSome ∧ (wrrPick sampleWrrOptions {} crowdedCall).1 = none) ∧
      (scanPick {} indebtedCall).1.isSome ∧
        (drrPick sampleFairQueueOptions {} indebtedCall).1 = none := by
  decide

end AgentC.Workflow
