import AgentC.Foundation.Bytes
import AgentC.Foundation.KeyedTable

/-! # The jobs table

The `jobs` table and the calls of `daemon/src/agent_db_jobs.cpp` that write it.
Each call holds the database lock, so it is one function from the table to its
result and the table behind it; a call that fails in the database changes
nothing and is left out. -/

namespace AgentC.Jobs

/-- A row of the table, or a copy of one that the daemon holds. A text that is
empty stands for `NULL` too: no statement tells them apart. -/
structure JobRow where
  jobId : Bytes
  sessionId : Bytes := []
  traceId : Bytes := []
  requestJson : Bytes := []
  /-- Not set when `none`. -/
  priority : Option Int := none
  createdUnixMs : Int := 0
  updatedUnixMs : Int := 0
  status : Bytes := []
  cancelRequested : Bool := false
  error : Bytes := []
  stopReason : Bytes := []
  resultJson : Bytes := []
  lastHeartbeatUnixMs : Int := 0
deriving DecidableEq, Repr

/-- Rows with the primary key that the schema declares. -/
structure JobsTable where
  rows : List JobRow
  primaryKey : (rows.map JobRow.jobId).Nodup

namespace JobRow

def queued : Bytes := ascii "queued"

def running : Bytes := ascii "running"

def interrupted : Bytes := ascii "interrupted"

def terminalStatuses : List Bytes :=
  [ascii "done", ascii "error", ascii "cancelled", interrupted]

def IsTerminal (row : JobRow) : Prop :=
  row.status ∈ terminalStatuses

instance (row : JobRow) : Decidable row.IsTerminal :=
  inferInstanceAs (Decidable (_ ∈ _))

/-- Not finished as far as the recovery statements see it. -/
def inFlight (row : JobRow) : Bool :=
  row.status = queued || row.status = running

/-- `updated_unix_ms` or the given time where that is positive, else the clock's. -/
def timeOr (clock given : Int) : Int :=
  if 0 < given then given else clock

/-- The values bound to the insert statement. -/
def bound (clock : Int) (row : JobRow) : JobRow :=
  { row with
    updatedUnixMs := timeOr clock row.updatedUnixMs
    createdUnixMs :=
      if 0 < row.createdUnixMs then row.createdUnixMs else timeOr clock row.updatedUnixMs
    status := if row.status = [] then queued else row.status }

def textOr (stored new : Bytes) : Bytes :=
  if new = [] then stored else new

/-- The assignments of the insert statement to a stored row. -/
def merge (stored excluded : JobRow) : JobRow where
  jobId := stored.jobId
  sessionId := textOr stored.sessionId excluded.sessionId
  traceId := textOr stored.traceId excluded.traceId
  requestJson := textOr stored.requestJson excluded.requestJson
  priority := excluded.priority.or stored.priority
  createdUnixMs := stored.createdUnixMs
  updatedUnixMs := excluded.updatedUnixMs
  status := if stored.IsTerminal then stored.status else excluded.status
  cancelRequested := stored.cancelRequested || excluded.cancelRequested
  error := textOr stored.error excluded.error
  stopReason := textOr stored.stopReason excluded.stopReason
  resultJson := textOr stored.resultJson excluded.resultJson
  lastHeartbeatUnixMs :=
    if excluded.lastHeartbeatUnixMs > stored.lastHeartbeatUnixMs then excluded.lastHeartbeatUnixMs
    else stored.lastHeartbeatUnixMs

def claimable (jobId : Bytes) (row : JobRow) : Bool :=
  row.jobId = jobId && row.status = queued && !row.cancelRequested

def claimed (now : Int) (row : JobRow) : JobRow :=
  { row with status := running, updatedUnixMs := now, lastHeartbeatUnixMs := now }

def markedInterrupted (now : Int) (reason : Bytes) (row : JobRow) : JobRow :=
  { row with
    updatedUnixMs := now
    status := interrupted
    error := if row.error = [] then ascii "interrupted by restart" else row.error
    stopReason := reason }

def requeued (now : Int) (row : JobRow) : JobRow :=
  { row with status := queued, updatedUnixMs := now }

def notResumable (now : Int) (row : JobRow) : JobRow :=
  { row with
    status := interrupted
    updatedUnixMs := now
    error :=
      if row.error = [] then ascii "missing request_json; cannot resume" else row.error
    stopReason := if row.stopReason = [] then ascii "missing_request_json" else row.stopReason }

variable (now : Int) (row : JobRow)

theorem jobId_claimed : (claimed now row).jobId = row.jobId :=
  rfl

theorem jobId_markedInterrupted (reason : Bytes) (row : JobRow) :
    (markedInterrupted now reason row).jobId = row.jobId :=
  rfl

theorem jobId_requeued : (requeued now row).jobId = row.jobId :=
  rfl

theorem jobId_notResumable : (notResumable now row).jobId = row.jobId :=
  rfl

theorem jobId_merge (stored excluded : JobRow) (_ : stored.jobId = excluded.jobId) :
    (merge stored excluded).jobId = stored.jobId :=
  rfl

end JobRow

namespace JobsTable

/-- `AgentDb::get_job` -/
def getJob (table : JobsTable) (jobId : Bytes) : Option JobRow :=
  lookupBy JobRow.jobId jobId table.rows

/-- `UPDATE jobs SET … WHERE …`, for assignments that leave the key alone. -/
def update (table : JobsTable) (selected : JobRow → Bool) (change : JobRow → JobRow)
    (keeps : ∀ row, (change row).jobId = row.jobId) : JobsTable where
  rows := table.rows.map fun row => if selected row then change row else row
  primaryKey := by
    rw [map_key_map]
    · exact table.primaryKey
    · intro row
      split
      · exact keeps row
      · rfl

def upsertJob (clock : Int) (row : JobRow) (table : JobsTable) : Bool × JobsTable :=
  if row.jobId = [] then (false, table)
  else
    (true,
      { rows := upsertBy JobRow.jobId JobRow.merge (row.bound clock) table.rows
        primaryKey := nodup_upsertBy JobRow.jobId_merge table.primaryKey })

/-- `AgentDb::claim_job`: whether the statement changed a row. -/
def claimJob (clock : Int) (jobId : Bytes) (nowUnixMs : Int) (table : JobsTable) :
    Bool × JobsTable :=
  if jobId = [] then (false, table)
  else
    (table.rows.any (JobRow.claimable jobId),
      table.update (JobRow.claimable jobId) (JobRow.claimed (JobRow.timeOr clock nowUnixMs))
        (JobRow.jobId_claimed _))

def markInflightJobsInterrupted (clock nowUnixMs : Int) (reason : Bytes) (table : JobsTable) :
    Bool × JobsTable :=
  (true,
    table.update JobRow.inFlight
      (JobRow.markedInterrupted (JobRow.timeOr clock nowUnixMs)
        (if reason = [] then ascii "daemon_restart" else reason))
      (JobRow.jobId_markedInterrupted _ _))

/-- `AgentDb::recover_inflight_jobs_resumable`: both statements in one
transaction. -/
def recoverInflightJobsResumable (clock nowUnixMs : Int) (table : JobsTable) :
    Bool × JobsTable :=
  let now := JobRow.timeOr clock nowUnixMs
  let restarted := table.update (fun row => row.status = JobRow.running) (JobRow.requeued now)
    (JobRow.jobId_requeued now)
  (true,
    restarted.update (fun row => row.inFlight && row.requestJson = []) (JobRow.notResumable now)
      (JobRow.jobId_notResumable now))

end JobsTable

/-- A call on the table, with what the clock shows if the call reads it. -/
inductive JobCall
  | upsertJob (clock : Int) (row : JobRow)
  | claimJob (clock : Int) (jobId : Bytes) (nowUnixMs : Int)
  | markInflightJobsInterrupted (clock nowUnixMs : Int) (reason : Bytes)
  | recoverInflightJobsResumable (clock nowUnixMs : Int)
deriving DecidableEq, Repr

def JobCall.answer (table : JobsTable) : JobCall → Bool × JobsTable
  | .upsertJob clock row => table.upsertJob clock row
  | .claimJob clock jobId nowUnixMs => table.claimJob clock jobId nowUnixMs
  | .markInflightJobsInterrupted clock nowUnixMs reason =>
    table.markInflightJobsInterrupted clock nowUnixMs reason
  | .recoverInflightJobsResumable clock nowUnixMs =>
    table.recoverInflightJobsResumable clock nowUnixMs

namespace JobsTable

theorem getJob_update (table : JobsTable) {selected : JobRow → Bool} {change : JobRow → JobRow}
    (keeps : ∀ row, (change row).jobId = row.jobId) (jobId : Bytes) :
    (table.update selected change keeps).getJob jobId =
      (table.getJob jobId).map fun row => if selected row then change row else row := by
  apply lookupBy_map
  intro row
  split
  · exact keeps row
  · rfl

theorem getJob_upsertJob (table : JobsTable) (clock : Int) (row : JobRow) (jobId : Bytes) :
    (table.upsertJob clock row).2.getJob jobId =
      if row.jobId = jobId ∧ jobId ≠ [] then
        some (((table.getJob jobId).map fun stored => stored.merge (row.bound clock)).getD
          (row.bound clock))
      else table.getJob jobId := by
  rw [upsertJob]
  by_cases unnamed : row.jobId = []
  · rw [if_pos unnamed, if_neg fun same => same.2 (same.1.symm.trans unnamed)]
  · rw [if_neg unnamed]
    by_cases own : row.jobId = jobId
    · have named : jobId ≠ [] := own ▸ unnamed
      rw [if_pos ⟨own, named⟩, ← own]
      exact @lookupBy_upsertBy_self _ _ _ JobRow.jobId JobRow.merge (row.bound clock) table.rows
        JobRow.jobId_merge
    · rw [if_neg fun same => own same.1]
      exact lookupBy_upsertBy_of_ne JobRow.jobId_merge fun same => own same.symm

theorem claimJob_eq_true_iff {table : JobsTable} {clock nowUnixMs : Int} {jobId : Bytes} :
    (table.claimJob clock jobId nowUnixMs).1 = true ↔
      jobId ≠ [] ∧ ∃ row, table.getJob jobId = some row ∧ row.status = JobRow.queued ∧
        row.cancelRequested = false := by
  rw [claimJob]
  split
  · next unnamed => exact ⟨nofun, fun found => absurd unnamed found.1⟩
  · next named =>
    simp only [List.any_eq_true, JobRow.claimable, Bool.and_eq_true, decide_eq_true_eq,
      Bool.not_eq_true']
    constructor
    · rintro ⟨row, member, ⟨own, queued⟩, wanted⟩
      have found := lookupBy_of_mem table.primaryKey member
      rw [own] at found
      exact ⟨named, row, found, queued, wanted⟩
    · rintro ⟨_, row, found, queued, wanted⟩
      exact ⟨row, mem_of_lookupBy found, ⟨key_of_lookupBy found, queued⟩, wanted⟩

end JobsTable

end AgentC.Jobs
