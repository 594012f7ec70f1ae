import AgentC.Workflow.Engine
import Mathlib.Data.List.AList
import Mathlib.Data.List.Rotate

/-! # Fair queue

The scheduling policy `drr` of `pick_and_claim_one` in
`daemon/src/workflow_engine_pick.cpp`: the workflows of a listing are put into
one bucket for each session, a cursor chooses the bucket that is tried first,
and a bucket is tried only with a positive deficit. One worker makes the calls;
what the database and a try on a workflow answer is given with each call. -/

namespace AgentC.Workflow

inductive CostModel
  | unit
  | simpleV1
  | telemetryV1
  | budgetPressureV1
deriving DecidableEq, Repr

/-- The options of the fair queue as the constructor of the engine leaves them,
and what it takes from JSON texts. -/
structure FairQueueOptions where
  maxSessionWeight : Int := 16
  one_le_maxSessionWeight : 1 ≤ maxSessionWeight := by decide
  maxSessionWeight_le : maxSessionWeight ≤ 1024 := by decide
  costModel : CostModel := .unit
  /-- The integer `session_weight` of a specification, if it has one. -/
  specSessionWeight : Bytes → Option Int
  /-- `workflow_limits_best_effort` on the specification. -/
  workflowLimits : Bytes → WorkflowLimits
  /-- `workflow_fairq_estimate_task_cost_simple_v1` up to 32. -/
  simpleCost : Bytes → Int
  /-- `workflow_fairq_estimate_task_cost_telemetry_v1` up to 32. -/
  telemetryCost : Bytes → Int

/-- One call of `pick_and_claim_one`, with the answers it gets. -/
structure PickCall where
  nowUnixMs : Int := 0
  queued : List WorkflowRow
  running : List WorkflowRow
  queued_length_le : queued.length ≤ 512
  running_length_le : running.length ≤ 512
  /-- The task that `try_pick_in_workflow` claims. -/
  tryPick : WorkflowRow → Option WorkflowTaskRow
  /-- The deficit that `get_workflow_fairq_session` finds. -/
  storedDeficit : Bytes → Option Int
  /-- `get_workflow_usage_totals` -/
  usageTotals : Bytes → Option Usage

def statusRank : Status → Nat
  | .running => 2
  | .queued => 1
  | _ => 0

/-- Whether the scan comes to one workflow before another. -/
def workflowBefore (left right : WorkflowRow) : Bool :=
  if left.priority.getD 0 ≠ right.priority.getD 0 then
    right.priority.getD 0 < left.priority.getD 0
  else if statusRank left.status ≠ statusRank right.status then
    statusRank right.status < statusRank left.status
  else if left.createdUnixMs ≠ right.createdUnixMs then left.createdUnixMs < right.createdUnixMs
  else ¬lexLE right.workflowId left.workflowId

def PickCall.workflows (call : PickCall) : List WorkflowRow :=
  ((dedupWorkflows (call.queued ++ call.running)).filter fun row =>
    row.workflowId ≠ []).insertionSort fun left right => workflowBefore right left = false

def sessionBucketKey (row : WorkflowRow) : Bytes :=
  if row.sessionId ≠ [] then ascii "sid:" ++ row.sessionId else ascii "wf:" ++ row.workflowId

def sessionBuckets : List WorkflowRow → List Bytes
  | [] => []
  | row :: rest =>
    sessionBucketKey row :: (sessionBuckets rest).filter fun key => key ≠ sessionBucketKey row

def PickCall.sessions (call : PickCall) : List Bytes :=
  sessionBuckets call.workflows

def PickCall.bucket (call : PickCall) (session : Bytes) : List WorkflowRow :=
  call.workflows.filter fun row => sessionBucketKey row = session

/-- `persist_session_id_from_bucket`: only the buckets of sessions are stored. -/
def persistSessionId (bucketKey : Bytes) : Bytes :=
  if bucketKey.take 4 = ascii "sid:" then bucketKey.drop 4 else []

section Policy

variable (options : FairQueueOptions)

/-- `workflow_session_weight_best_effort` -/
def sessionWeight (row : WorkflowRow) : Int :=
  if row.sessionId = [] then 1
  else
    match options.specSessionWeight row.specJson with
    | none => 1
    | some weight => if weight ≤ 0 then 1 else max 1 (min options.maxSessionWeight weight)

/-- The largest weight among the workflows of a bucket; the loop stops at the
largest that is allowed. -/
def largestWeight : Int → List WorkflowRow → Int
  | weight, [] => weight
  | weight, row :: rest =>
    let larger := max weight (sessionWeight options row)
    if options.maxSessionWeight ≤ larger then larger else largestWeight larger rest

/-- `weight_by_session` -/
def PickCall.weight (call : PickCall) (session : Bytes) : Int :=
  max 1 (min options.maxSessionWeight (largestWeight options 1 (call.bucket session)))

def budgetPressureDimensionBump (limit used : Int) : Int :=
  if limit ≤ 0 then 0
  else if limit ≤ max 0 used then 8
  else
    let remaining := max 0 (limit - max 0 used)
    let remainingBp := if int64Max / 10000 < remaining then 10000 else remaining * 10000 / limit
    if remainingBp ≤ 1000 then 6
    else if remainingBp ≤ 2000 then 4
    else if remainingBp ≤ 5000 then 1
    else 0

/-- `workflow_fairq_estimate_budget_pressure_cost_bump_v1` up to 16. -/
def budgetPressureCostBump (limits : WorkflowLimits) (used : Usage) : Int :=
  max 0 (min 16
    (budgetPressureDimensionBump limits.maxToolCallsTotal used.toolCallsTotal +
      budgetPressureDimensionBump limits.maxStepsTotal used.stepsExecuted +
      budgetPressureDimensionBump limits.maxElapsedMsTotal used.elapsedMs +
      budgetPressureDimensionBump limits.maxTotalTokens used.totalTokens))

def PickCall.budgetPressureBump (call : PickCall) (row : WorkflowRow) : Int :=
  let limits := options.workflowLimits row.specJson
  if limits.maxToolCallsTotal ≤ 0 ∧ limits.maxStepsTotal ≤ 0 ∧ limits.maxElapsedMsTotal ≤ 0 ∧
      limits.maxTotalTokens ≤ 0 then 0
  else
    match call.usageTotals row.workflowId with
    | none => 0
    | some used => budgetPressureCostBump limits used

/-- What a task costs its session, before the lower limit of one. -/
def PickCall.taskCost (call : PickCall) (row : WorkflowRow) (task : WorkflowTaskRow) : Int :=
  let observed :=
    if 0 < options.telemetryCost task.resultJson then options.telemetryCost task.resultJson
    else options.simpleCost task.requestJson
  match options.costModel with
  | .unit => 1
  | .simpleV1 => options.simpleCost task.requestJson
  | .telemetryV1 => observed
  | .budgetPressureV1 => min 32 (observed + call.budgetPressureBump options row)

abbrev Deficits := AList fun _ : Bytes => Int

/-- `get_deficit` -/
def Deficits.of (deficits : Deficits) (session : Bytes) : Int :=
  (deficits.lookup session).getD 0

def clampDeficit (deficit : Int) : Int :=
  max (-1000000) (min 1000000 deficit)

/-- Every session of a call gets its weight as quantum. -/
def Deficits.fund (deficits : Deficits) (weight : Bytes → Int) (sessions : List Bytes) : Deficits :=
  sessions.foldl (fun deficits session =>
    deficits.insert session (saturatingAdd (deficits.of session) (weight session))) deficits

/-- `charge_deficit` -/
def Deficits.charge (deficits : Deficits) (session : Bytes) (cost : Int) : Deficits :=
  if cost ≤ 0 then deficits
  else
    match deficits.lookup session with
    | none => deficits
    | some deficit => deficits.insert session (clampDeficit (deficit - cost))

structure FairQueue where
  rrCursor : UInt64 := 0
  drrDeficitBySession : Deficits := ∅
  drrLoadedSessions : List Bytes := []

namespace FairQueue

/-- A session that this process has not seen is loaded, once. -/
def loadSession (call : PickCall) (queue : FairQueue) (session : Bytes) : FairQueue :=
  let sessionId := persistSessionId session
  if sessionId = [] ∨ sessionId ∈ queue.drrLoadedSessions then queue
  else
    { queue with
      drrLoadedSessions := sessionId :: queue.drrLoadedSessions
      drrDeficitBySession :=
        match call.storedDeficit sessionId with
        | none => queue.drrDeficitBySession
        | some deficit => queue.drrDeficitBySession.insert session (clampDeficit deficit) }

def load (queue : FairQueue) (call : PickCall) : FairQueue :=
  call.sessions.foldl (loadSession call) queue

def forget (queue : FairQueue) (session : Bytes) : FairQueue :=
  { queue with
    drrDeficitBySession := queue.drrDeficitBySession.erase session
    drrLoadedSessions :=
      if persistSessionId session = [] then queue.drrLoadedSessions
      else queue.drrLoadedSessions.filter fun sessionId => sessionId ≠ persistSessionId session }

/-- A map that has grown large keeps the sessions of the call only. -/
def prune (queue : FairQueue) (call : PickCall) : FairQueue :=
  if 2048 < queue.drrDeficitBySession.keys.length then
    let inactive := queue.drrDeficitBySession.keys.filter fun session => session ∉ call.sessions
    inactive.foldl forget queue
  else queue

/-- The queue when the sessions are tried: `fetch_add` has counted the cursor
up, and every session has got its quantum. -/
def funded (queue : FairQueue) (call : PickCall) : FairQueue :=
  let pruned := (queue.load call).prune call
  { pruned with
    rrCursor := queue.rrCursor + 1
    drrDeficitBySession :=
      pruned.drrDeficitBySession.fund (call.weight options) call.sessions }

end FairQueue

/-- The row that `upsert_workflow_fairq_session` writes. -/
structure WorkflowFairqSessionRow where
  sessionId : Bytes
  deficit : Int := 0
  weight : Int := 1
  updatedUnixMs : Int := 0
deriving DecidableEq, Repr

structure Pick where
  session : Bytes
  workflow : WorkflowRow
  task : WorkflowTaskRow
  persisted : Option WorkflowFairqSessionRow
deriving DecidableEq, Repr

/-- The tries of a call in their order: the sessions from the cursor on, as far
as their deficits allow, and the workflows of each. -/
def PickCall.attempts (call : PickCall) (cursor : UInt64) (deficits : Deficits) :
    List (Bytes × WorkflowRow) :=
  (call.sessions.rotate (cursor.toNat % call.sessions.length)).flatMap fun session =>
    if deficits.of session < 1 then [] else (call.bucket session).map fun row => (session, row)

def PickCall.firstPick (call : PickCall) (attempts : List (Bytes × WorkflowRow)) :
    Option (Bytes × WorkflowRow × WorkflowTaskRow) :=
  attempts.findSome? fun attempt =>
    (call.tryPick attempt.2).map fun task => (attempt.1, attempt.2, task)

/-- `pick_and_claim_one` under the policy `drr`. -/
def drrPick (queue : FairQueue) (call : PickCall) : Option Pick × FairQueue :=
  if call.sessions = [] then (none, queue)
  else
    let funded := queue.funded options call
    match call.firstPick (call.attempts queue.rrCursor funded.drrDeficitBySession) with
    | none => (none, funded)
    | some (session, row, task) =>
      let charged := funded.drrDeficitBySession.charge session
        (max 1 (call.taskCost options row task))
      let sessionId := persistSessionId session
      (some {
        session
        workflow := row
        task
        persisted :=
          if sessionId = [] then none
          else some {
            sessionId
            deficit := charged.of session
            weight := call.weight options session
            updatedUnixMs := call.nowUnixMs } },
        { funded with drrDeficitBySession := charged })

/-- The queues that the calls of one process lead to. -/
inductive FairQueue.Reachable : FairQueue → Prop
  | start : Reachable {}
  | call {queue : FairQueue} (call : PickCall) :
      Reachable queue → Reachable (drrPick options queue call).2

variable (rows : List WorkflowRow)

theorem length_dedupWorkflows_le : (dedupWorkflows rows).length ≤ rows.length := by
  induction rows with
  | nil => exact Nat.le_refl 0
  | cons row rows induction =>
    have kept := List.length_filter_le
      (fun other : WorkflowRow => other.workflowId ≠ row.workflowId) (dedupWorkflows rows)
    simp only [dedupWorkflows, List.length_cons]
    omega

theorem length_sessionBuckets_le : (sessionBuckets rows).length ≤ rows.length := by
  induction rows with
  | nil => exact Nat.le_refl 0
  | cons row rows induction =>
    have kept := List.length_filter_le (fun key : Bytes => key ≠ sessionBucketKey row)
      (sessionBuckets rows)
    simp only [sessionBuckets, List.length_cons]
    omega

theorem nodup_sessionBuckets : (sessionBuckets rows).Nodup := by
  induction rows with
  | nil => exact List.nodup_nil
  | cons row rows induction =>
    rw [sessionBuckets, List.nodup_cons]
    constructor
    · simp
    · exact induction.filter _

namespace PickCall

variable (call : PickCall)

theorem nodup_sessions : call.sessions.Nodup :=
  nodup_sessionBuckets _

theorem length_sessions_le : call.sessions.length ≤ 1024 := by
  have listed := length_dedupWorkflows_le (call.queued ++ call.running)
  have kept := List.length_filter_le (fun row : WorkflowRow => row.workflowId ≠ [])
    (dedupWorkflows (call.queued ++ call.running))
  have buckets := length_sessionBuckets_le call.workflows
  have queued := call.queued_length_le
  have running := call.running_length_le
  rw [workflows, List.length_insertionSort] at buckets
  rw [List.length_append] at listed
  rw [sessions, workflows]
  omega

theorem one_le_weight (session : Bytes) : 1 ≤ call.weight options session :=
  le_max_left ..

theorem weight_le (session : Bytes) : call.weight options session ≤ 1024 := by
  apply max_le
  · decide
  · exact le_trans (min_le_left ..) options.maxSessionWeight_le

end PickCall

variable {sessions : List Bytes}

namespace Deficits

variable {deficits : Deficits} {session other : Bytes} {deficit cost : Int}

@[simp]
theorem of_insert_self : of (deficits.insert session deficit) session = deficit := by
  simp [of]

theorem of_insert_of_ne (different : other ≠ session) :
    of (deficits.insert session deficit) other = deficits.of other := by
  simp [of, AList.lookup_insert_ne different]

theorem of_fund {weight : Bytes → Int} (distinct : sessions.Nodup) :
    (deficits.fund weight sessions).of other =
      if other ∈ sessions then saturatingAdd (deficits.of other) (weight other)
      else deficits.of other := by
  induction sessions generalizing deficits with
  | nil => rfl
  | cons session sessions induction =>
    rcases List.nodup_cons.mp distinct with ⟨absent, rest⟩
    rw [fund, List.foldl_cons, ← fund, induction rest]
    by_cases same : other = session
    · subst same
      simp [absent]
    · simp [same, of_insert_of_ne same]

theorem of_charge_of_ne (different : other ≠ session) :
    (deficits.charge session cost).of other = deficits.of other := by
  rw [charge]
  split
  · rfl
  · cases deficits.lookup session with
    | none => rfl
    | some deficit => exact of_insert_of_ne different

theorem le_of_charge_self (positive : 0 < cost) :
    clampDeficit (deficits.of session - cost) ≤ (deficits.charge session cost).of session := by
  rw [charge, if_neg (Int.not_le.mpr positive), of]
  cases held : deficits.lookup session with
  | none =>
    rw [of, held, clampDeficit]
    simp only [Option.getD_none]
    omega
  | some deficit =>
    simp only [Option.getD_some, of_insert_self]
    exact Int.le_refl _

end Deficits

theorem persistSessionId_injective {left right : Bytes} (stored : persistSessionId left ≠ [])
    (same : persistSessionId left = persistSessionId right) : left = right := by
  simp only [persistSessionId] at stored same
  split at stored
  · rename_i front
    rw [if_pos front] at same
    split at same
    · rename_i otherFront
      rw [← List.take_append_drop 4 left, ← List.take_append_drop 4 right, front, otherFront, same]
    · exact absurd same stored
  · exact absurd rfl stored

namespace FairQueue

variable {options} {queue : FairQueue} {call : PickCall}

def deficit (queue : FairQueue) (session : Bytes) : Int :=
  queue.drrDeficitBySession.of session

def Loaded (queue : FairQueue) (session : Bytes) : Prop :=
  persistSessionId session = [] ∨ persistSessionId session ∈ queue.drrLoadedSessions

theorem loadSession_cases (queue : FairQueue) (call : PickCall) (session : Bytes) :
    (queue.loadSession call session = queue ∧ queue.Loaded session) ∨
      ((queue.loadSession call session).drrLoadedSessions =
          persistSessionId session :: queue.drrLoadedSessions ∧
        ((queue.loadSession call session).drrDeficitBySession = queue.drrDeficitBySession ∨
          ∃ stored, call.storedDeficit (persistSessionId session) = some stored ∧
            (queue.loadSession call session).drrDeficitBySession =
              queue.drrDeficitBySession.insert session (clampDeficit stored))) := by
  rw [loadSession]
  split
  · rename_i loaded
    exact .inl ⟨rfl, loaded⟩
  · right
    constructor
    · rfl
    · cases call.storedDeficit (persistSessionId session) with
      | none => exact .inl rfl
      | some stored => exact .inr ⟨stored, rfl, rfl⟩

variable {session : Bytes}

theorem Loaded.loadSession (loaded : queue.Loaded session) (next : Bytes) :
    (queue.loadSession call next).Loaded session := by
  rcases loadSession_cases queue call next with ⟨same, -⟩ | ⟨added, -⟩
  · rw [same]
    exact loaded
  · rcases loaded with unstored | listed
    · exact .inl unstored
    · right
      rw [added]
      exact List.mem_cons_of_mem _ listed

theorem loaded_loadSession (session : Bytes) : (queue.loadSession call session).Loaded session := by
  rcases loadSession_cases queue call session with ⟨same, loaded⟩ | ⟨added, -⟩
  · rw [same]
    exact loaded
  · right
    rw [added]
    exact List.mem_cons_self ..

theorem loaded_foldl_loadSession (loads : session ∈ sessions ∨ queue.Loaded session) :
    (sessions.foldl (loadSession call) queue).Loaded session := by
  induction sessions generalizing queue with
  | nil =>
    rcases loads with member | loaded
    · exact nomatch member
    · exact loaded
  | cons first rest induction =>
    rw [List.foldl_cons]
    apply induction
    rcases loads with member | loaded
    · rcases List.mem_cons.mp member with same | later
      · rw [same]
        exact .inr (loaded_loadSession first)
      · exact .inl later
    · exact .inr (loaded.loadSession first)

theorem foldl_loadSession_of_loaded (loaded : ∀ session ∈ sessions, queue.Loaded session) :
    sessions.foldl (loadSession call) queue = queue := by
  induction sessions with
  | nil => rfl
  | cons first rest induction =>
    have skipped : queue.loadSession call first = queue :=
      if_pos (loaded first (List.mem_cons_self ..))
    rw [List.foldl_cons, skipped]
    exact induction fun session member => loaded session (List.mem_cons_of_mem first member)

theorem deficit_forget_of_ne {other : Bytes} (different : other ≠ session) :
    (queue.forget session).deficit other = queue.deficit other := by
  rw [deficit, Deficits.of, forget, AList.lookup_erase_ne different]
  rfl

theorem Loaded.forget {other : Bytes} (loaded : queue.Loaded other) (different : other ≠ session) :
    (queue.forget session).Loaded other := by
  rcases loaded with unstored | listed
  · exact .inl unstored
  · rw [Loaded, FairQueue.forget]
    split
    · exact .inr listed
    · rename_i stored
      by_cases same : persistSessionId other = persistSessionId session
      · exact absurd (persistSessionId_injective stored same.symm) different.symm
      · exact .inr (List.mem_filter.mpr ⟨listed, decide_eq_true same⟩)

theorem prune_keeps (active : session ∈ call.sessions) :
    (queue.prune call).deficit session = queue.deficit session ∧
      (queue.Loaded session → (queue.prune call).Loaded session) := by
  rw [prune]
  split
  · apply List.foldlRecOn _ _ (motive := fun pruned : FairQueue =>
      pruned.deficit session = queue.deficit session ∧
        (queue.Loaded session → pruned.Loaded session))
    · exact ⟨rfl, id⟩
    · intro pruned kept other forgotten
      have different : session ≠ other := by
        intro same
        have outside := (List.mem_filter.mp forgotten).2
        rw [← same] at outside
        exact of_decide_eq_true outside active
      constructor
      · rw [deficit_forget_of_ne different, kept.1]
      · intro loaded
        exact (kept.2 loaded).forget different
  · exact ⟨rfl, id⟩

/-- No session is deeper in debt than the clamps allow. -/
def Bounded (queue : FairQueue) : Prop :=
  ∀ session, -1000000 ≤ queue.deficit session

theorem le_clampDeficit (deficit : Int) : -1000000 ≤ clampDeficit deficit :=
  le_max_left ..

def Above (floor : Int) (queue : FairQueue) : Prop :=
  ∀ session, floor ≤ queue.deficit session

section Floors

variable {floor : Int}

theorem Above.loadSession (above : queue.Above floor)
    (loads : ∀ sessionId stored, call.storedDeficit sessionId = some stored →
      floor ≤ clampDeficit stored) (session : Bytes) :
    (queue.loadSession call session).Above floor := by
  intro other
  rcases loadSession_cases queue call session with
    ⟨same, -⟩ | ⟨-, unchanged | ⟨stored, found, changed⟩⟩
  · rw [same]
    exact above other
  · rw [deficit, unchanged]
    exact above other
  · rw [deficit, changed]
    by_cases here : other = session
    · rw [here, Deficits.of_insert_self]
      exact loads _ stored found
    · rw [Deficits.of_insert_of_ne here]
      exact above other

theorem Above.load (above : queue.Above floor)
    (loads : ∀ sessionId stored, call.storedDeficit sessionId = some stored →
      floor ≤ clampDeficit stored) : (queue.load call).Above floor := by
  apply List.foldlRecOn _ _ above
  intro loaded kept session _
  exact kept.loadSession loads session

theorem Above.prune (nonpositive : floor ≤ 0) (above : queue.Above floor) :
    (queue.prune call).Above floor := by
  rw [FairQueue.prune]
  split
  · apply List.foldlRecOn _ _ above
    intro pruned kept session _ other
    by_cases here : other = session
    · subst here
      simpa [deficit, Deficits.of, forget] using nonpositive
    · rw [deficit_forget_of_ne here]
      exact kept other
  · exact above

end Floors

theorem Bounded.load (bounded : queue.Bounded) : (queue.load call).Bounded :=
  Above.load bounded fun _ stored _ => le_clampDeficit stored

theorem le_saturatingAdd {left right : Int} (positive : 1 ≤ right) :
    min 1 (left + 1) ≤ saturatingAdd left right := by
  rw [saturatingAdd, int64Max]
  split
  · omega
  · split <;> omega

theorem deficit_funded (active : session ∈ call.sessions) :
    (queue.funded options call).deficit session =
      saturatingAdd ((queue.load call).deficit session) (call.weight options session) := by
  rw [deficit, funded, Deficits.of_fund call.nodup_sessions, if_pos active]
  exact congrArg (saturatingAdd · _) (prune_keeps active).1

theorem le_deficit_funded (active : session ∈ call.sessions) :
    min 1 ((queue.load call).deficit session + 1) ≤
      (queue.funded options call).deficit session := by
  rw [deficit_funded active]
  exact le_saturatingAdd (call.one_le_weight options session)

theorem Above.funded {floor : Int} (nonpositive : floor ≤ 0)
    (above : (queue.load call).Above floor) : (queue.funded options call).Above floor := by
  intro session
  by_cases active : session ∈ call.sessions
  · have loaded := above session
    have raised : min 1 ((queue.load call).deficit session + 1) ≤
        (queue.funded options call).deficit session := le_deficit_funded active
    omega
  · rw [deficit, FairQueue.funded, Deficits.of_fund call.nodup_sessions, if_neg active]
    exact above.prune nonpositive session

theorem drrPick_cases (options : FairQueueOptions) (queue : FairQueue) (call : PickCall) :
    (call.sessions = [] ∧ drrPick options queue call = (none, queue)) ∨
      (call.sessions ≠ [] ∧ drrPick options queue call = (none, queue.funded options call)) ∨
      (call.sessions ≠ [] ∧ ∃ pick, (drrPick options queue call).1 = some pick ∧
        1 ≤ (queue.funded options call).deficit pick.session ∧ (drrPick options queue call).2 =
          { queue.funded options call with
            drrDeficitBySession :=
              (queue.funded options call).drrDeficitBySession.charge pick.session
                (max 1 (call.taskCost options pick.workflow pick.task)) }) := by
  by_cases empty : call.sessions = []
  · exact .inl ⟨empty, if_pos empty⟩
  · right
    rw [drrPick, if_neg empty]
    cases first : call.firstPick
        (call.attempts queue.rrCursor (queue.funded options call).drrDeficitBySession) with
    | none => exact .inl ⟨empty, by simp only [first]⟩
    | some found =>
      rcases found with ⟨session, row, task⟩
      right
      simp only [first]
      refine ⟨empty, _, rfl, ?_, rfl⟩
      rcases List.exists_of_findSome?_eq_some first with ⟨attempt, tried, claimed⟩
      rcases Option.map_eq_some_iff.mp claimed with ⟨claimedTask, -, same⟩
      rcases List.mem_flatMap.mp tried with ⟨tryingSession, -, inBucket⟩
      split at inBucket
      · exact nomatch inBucket
      · rename_i eligible
        rcases List.mem_map.mp inBucket with ⟨triedRow, -, pair⟩
        have sessionSame : tryingSession = session := by
          rw [← pair] at same
          exact congrArg Prod.fst same
        rw [← sessionSame]
        exact Int.not_lt.mp eligible

theorem Above.drrPick {floor : Int} (nonpositive : floor ≤ 0)
    (above : (queue.load call).Above floor) (charges : ∀ row task deficit, 1 ≤ deficit →
      floor ≤ clampDeficit (deficit - max 1 (call.taskCost options row task))) :
    (drrPick options queue call).2.Above floor := by
  have funded : (queue.funded options call).Above floor := above.funded nonpositive
  rcases drrPick_cases options queue call with
    ⟨empty, same⟩ | ⟨-, same⟩ | ⟨-, pick, -, eligible, same⟩
  · have unloaded : queue.load call = queue := by
      rw [FairQueue.load, empty, List.foldl_nil]
    rw [same, ← unloaded]
    exact above
  · rw [same]
    exact funded
  · rw [same]
    intro session
    by_cases here : session = pick.session
    · rw [here]
      exact le_trans (charges pick.workflow pick.task _ eligible)
        (Deficits.le_of_charge_self (by omega))
    · rw [deficit, Deficits.of_charge_of_ne here]
      exact funded session

theorem Bounded.drrPick (bounded : queue.Bounded) (call : PickCall) :
    (drrPick options queue call).2.Bounded :=
  Above.drrPick (by decide) bounded.load fun _ _ _ _ => le_clampDeficit _

theorem Reachable.bounded (reachable : Reachable options queue) : queue.Bounded := by
  induction reachable with
  | start =>
    intro session
    simp [deficit, Deficits.of]
  | call call _ induction => exact induction.drrPick call

end FairQueue

end Policy

end AgentC.Workflow
