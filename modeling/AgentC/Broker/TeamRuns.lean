import AgentC.Foundation.GoStrings
import AgentC.Json.Values

/-! # Team runs and the jobs of their members

The stored payload of a team run and how a status poll brings it up to date:
`reconcileTeamRunJobs` of `broker/internal/broker/team_run_async.go` and the
helpers of `team_run_helpers.go` that read the metadata of the team. A stored
payload is read back before every use, so no number in it is an `int64`. -/

namespace AgentC.Broker.TeamRuns

open Json

def objects : Option Tree → List Tree
  | some (.array items) => items.filter Tree.isObject
  | _ => []

theorem isObject_of_mem_objects {found : Option Tree} {entry : Tree} (member : entry ∈ objects found) :
    entry.isObject = true := by
  cases found with
  | none => cases member
  | some tree =>
    cases tree with
    | array items => exact (List.mem_filter.mp member).2
    | _ => cases member

def teamRunMemberJobsFromMeta (teamMeta : Tree) : List Tree :=
  objects (teamMeta.member (ascii "member_jobs"))

def teamRunDispatchErrorCount (teamMeta : Tree) : Nat :=
  match teamMeta.member (ascii "dispatch_errors") with
  | some (.array items) => items.length
  | _ => 0

structure MemberJobSummary where
  total : Nat
  queued : Nat
  running : Nat
  done : Nat
  error : Nat
  cancelled : Nat
  interrupted : Nat
  unknown : Nat
  ok : Nat
  failed : Nat
  dispatchErrors : Nat
deriving DecidableEq, Repr

variable (letters : LowerCase)

def jobStatus (item : Tree) : Bytes :=
  letters.lower (trimSpace (item.text (ascii "status")))

def jobFailed (item : Tree) : Bool :=
  trimSpace (item.text (ascii "dispatch_error")) ≠ [] ||
    trimSpace (item.text (ascii "error")) ≠ [] ||
    item.boolMember (ascii "ok") = some false ||
    jobStatus letters item ∈ [ascii "error", ascii "cancelled", ascii "interrupted"]

def teamRunMemberJobSummary (teamMeta : Tree) : Option MemberJobSummary :=
  let items := teamRunMemberJobsFromMeta teamMeta
  let counted (status : Bytes) := items.countP fun item => jobStatus letters item = status
  if items = [] then none
  else
    some {
      total := items.length
      queued := counted (ascii "queued")
      running := counted (ascii "running")
      done := counted (ascii "done")
      error := counted (ascii "error")
      cancelled := counted (ascii "cancelled")
      interrupted := counted (ascii "interrupted")
      unknown := items.countP fun item => jobStatus letters item ∉
        [ascii "queued", ascii "running", ascii "done", ascii "error", ascii "cancelled",
          ascii "interrupted"]
      ok := items.countP fun item => item.boolMember (ascii "ok") = some true
      failed := items.countP (jobFailed letters)
      dispatchErrors := teamRunDispatchErrorCount teamMeta }

/-- What a poll meets for one member: the access check (nothing if it fails),
the outcome of the relay, and the object that its body holds, if it does. -/
structure JobAnswer where
  access : Option Bool := some true
  brokerStatus : Int := 0
  err : Bytes := []
  agentStatus : Int := 200
  body : Option Tree := none

structure Flags where
  running : Bool := false
  failed : Bool := false
  cancelled : Bool := false
  changed : Bool := false
deriving DecidableEq, Repr

def setText (entry : Tree) (key value : Bytes) : Tree :=
  entry.setMember key (.string value)

def reportedStatus (payload : Tree) : Bytes :=
  let status := letters.lower (trimSpace (payload.text (ascii "status")))
  if status = [] then ascii "unknown" else status

/-- `int64` of a number that was read as a `float64`. -/
abbrev Int64Of := Bytes → Int

def updatedUnix (int64 : Int64Of) (payload : Tree) : Int :=
  match payload.member (ascii "updated_unix_ms") with
  | some (.number token) => int64 token
  | _ => 0

def storeUpdated (int64 : Int64Of) (payload : Tree) (entry : Tree × Bool) : Tree × Bool :=
  if 0 < updatedUnix int64 payload then
    (entry.1.setMember (ascii "updated_unix_ms") (.number (decimalInt (updatedUnix int64 payload))),
      true)
  else entry

def storeText (key value : Bytes) (entry : Tree × Bool) : Tree × Bool :=
  match entry.1.member key with
  | some (.string previous) =>
    if previous = value then entry else (setText entry.1 key value, true)
  | _ => (setText entry.1 key value, true)

def storeBool (key : Bytes) (value : Bool) (entry : Tree × Bool) : Tree × Bool :=
  if entry.1.boolMember key = some value then entry else (entry.1.setMember key (.bool value), true)

def isEnded (status : Bytes) : Bool :=
  status ∈ [ascii "done", ascii "error", ascii "cancelled", ascii "interrupted"]

def endedResult (payload : Tree) : Option Tree :=
  if isEnded (reportedStatus letters payload) then payload.objectMember (ascii "result") else none

def resultOk (payload : Tree) : Option Bool :=
  (endedResult letters payload).bind fun result => result.boolMember (ascii "ok")

def resultError (payload : Tree) : Bytes :=
  ((endedResult letters payload).map fun result => result.text (ascii "error")).getD []

def storeOk (payload : Tree) (entry : Tree × Bool) : Tree × Bool :=
  match resultOk letters payload with
  | some value => storeBool (ascii "ok") value entry
  | none => entry

def storeError (payload : Tree) (entry : Tree × Bool) : Tree × Bool :=
  if resultError letters payload = [] then entry
  else storeText (ascii "error") (resultError letters payload) entry

def readJob (int64 : Int64Of) (payload item : Tree) : Tree × Flags :=
  let status := reportedStatus letters payload
  let entry := storeError letters payload (storeOk letters payload
    (storeText (ascii "status") status (storeUpdated int64 payload (item, false))))
  (entry.1, {
    running := status ∈ [ascii "queued", ascii "running"]
    failed := status = ascii "error" || resultOk letters payload = some false ||
      resultError letters payload ≠ []
    cancelled := status ∈ [ascii "cancelled", ascii "interrupted"]
    changed := entry.2 })

def pollMember (int64 : Int64Of) (answer : JobAnswer) (item : Tree) : Tree × Flags :=
  if item.text (ascii "dispatch_error") ≠ [] then (item, { failed := true })
  else if trimSpace (item.text (ascii "job_id")) = [] then
    (setText item (ascii "dispatch_error") (ascii "missing job_id"),
      { failed := true, changed := true })
  else if item.text (ascii "agent_id") ≠ [] ∧ answer.access = none then
    (setText item (ascii "error") (ascii "access check failed"), { running := true, changed := true })
  else if item.text (ascii "agent_id") ≠ [] ∧ answer.access = some false then
    (setText item (ascii "error") (ascii "forbidden"), { failed := true, changed := true })
  else if answer.brokerStatus ≠ 0 then
    (setText (setText item (ascii "error") answer.err) (ascii "status") (ascii "unknown"),
      { running := true, changed := true })
  else if answer.agentStatus < 200 ∨ 300 ≤ answer.agentStatus then
    (setText ((setText item (ascii "error") (ascii "job status failed")).setMember
        (ascii "http_status") (.number (decimalInt answer.agentStatus)))
      (ascii "status") (ascii "unknown"), { running := true, changed := true })
  else
    match answer.body with
    | none =>
      (setText (setText item (ascii "error") (ascii "invalid job status json"))
        (ascii "status") (ascii "unknown"), { running := true, changed := true })
    | some payload => readJob letters int64 payload item

structure TeamRun where
  status : Bytes
  payload : Tree

def cancelRequested (teamMeta : Tree) : Bool :=
  match teamMeta.member (ascii "cancel_requested_unix_ms") with
  | some .null | none => false
  | some _ => true

def overallStatus (teamMeta : Tree) (polled : List (Tree × Flags)) : Bytes :=
  if polled.any fun member => member.2.running then
    if cancelRequested teamMeta then ascii "cancelling" else ascii "running"
  else if (polled.any fun member => member.2.failed) ∨ 0 < teamRunDispatchErrorCount teamMeta then
    ascii "failed"
  else if polled.any fun member => member.2.cancelled then ascii "cancelled"
  else ascii "succeeded"

def reconcileTeamRunJobs (int64 : Int64Of) (answers : Nat → JobAnswer) (status : Bytes)
    (teamMeta : Tree) : Bytes × Option Tree :=
  let items := teamRunMemberJobsFromMeta teamMeta
  if items = [] then (status, none)
  else
    let polled := items.mapIdx fun index item => pollMember letters int64 (answers index) item
    (overallStatus teamMeta polled,
      if polled.any fun member => member.2.changed then
        some (teamMeta.setMember (ascii "member_jobs") (.array (polled.map Prod.fst)))
      else none)

def runMode (teamMeta : Tree) : Bytes :=
  let mode := letters.lower (trimSpace (teamMeta.text (ascii "mode")))
  if mode = [] then ascii "sync" else mode

def teamMetaOf (payload : Tree) : Option Tree :=
  payload.objectMember (ascii "team")

/-- `teamRunStatusResponse`, up to the response, with both updates stored. -/
def pollTeamRun (int64 : Int64Of) (run : TeamRun) (answers : Nat → JobAnswer) : TeamRun :=
  match teamMetaOf run.payload with
  | none => run
  | some teamMeta =>
    if runMode letters teamMeta ≠ ascii "async" then run
    else
      let reconciled := reconcileTeamRunJobs letters int64 answers run.status teamMeta
      { status := reconciled.1
        payload := match reconciled.2 with
          | some teamMeta => run.payload.setMember (ascii "team") teamMeta
          | none => run.payload }

end AgentC.Broker.TeamRuns
