import AgentC.Broker.TeamRuns
import AgentC.Foundation.Runs

/-! # Requests that change a team run

The handlers of `broker/internal/broker/server_teams_runs.go` that store the
payload of a team run: updates of the goal, handoffs and runtime members, a
cancellation (`team_run_cancel.go`) and a status poll. Each reads the payload,
changes the metadata of the team in its copy and stores the whole payload. Every
call of the database is one step. -/

namespace AgentC.Broker.TeamRuns

open Json

inductive EventKind
  | goal
  | handoff
deriving DecidableEq, Repr

def EventKind.key : EventKind → Bytes
  | .goal => ascii "goal_events"
  | .handoff => ascii "handoff_events"

def maxGoalEvents : Nat := 200

def maxHandoffEvents : Nat := 200

def EventKind.maxEvents : EventKind → Nat
  | .goal => maxGoalEvents
  | .handoff => maxHandoffEvents

def storedEvents (kind : EventKind) (teamMeta : Tree) : Except Bytes (List Tree) :=
  match teamMeta.member kind.key with
  | none | some .null => .ok []
  | some (.array items) => .ok (items.filter Tree.isObject)
  | some _ => .error (kind.key ++ ascii " must be array")

def keepLast (limit : Nat) (events : List Tree) : List Tree :=
  events.drop (events.length - limit)

structure GoalEvent where
  type : Bytes
  message : Bytes := []
  data : Option Tree := none
  tsUnixMs : Int := 0

def optionalMember (key : Bytes) (value : Option Tree) : List (Bytes × Tree) :=
  match value with
  | some value => [(key, value)]
  | none => []

def optionalText (key value : Bytes) : List (Bytes × Tree) :=
  if value = [] then [] else [(key, .string value)]

def number (value : Int) : Tree :=
  .number (decimalInt value)

/-- `ts` or, without one, the time. -/
def eventTime (ts now : Int) : Int :=
  if ts ≤ 0 then now else ts

def goalEntry (event : GoalEvent) (now : Int) (events : List Tree) : Tree :=
  .ofMembers ([(ascii "type", .string event.type),
    (ascii "ts_unix_ms", number (eventTime event.tsUnixMs now)),
    (ascii "message", .string event.message),
    (ascii "event_index", number (events.length + 1))] ++
    optionalMember (ascii "data") event.data)

def appendGoalEvent (teamMeta : Tree) (event : GoalEvent) (now : Int) :
    Except Bytes (Tree × Tree) := do
  if event.type = [] then .error (ascii "goal event type required")
  else
    let events ← storedEvents .goal teamMeta
    let entry := goalEntry event now events
    .ok (entry, teamMeta.setMember EventKind.goal.key
      (.array (keepLast maxGoalEvents (events ++ [entry]))))

structure HandoffEvent where
  handoffId : Bytes := []
  kind : Bytes := []
  state : Bytes := []
  fromRole : Bytes := []
  toRole : Bytes := []
  reason : Bytes := []
  message : Bytes := []
  sourceDeploymentId : Bytes := []
  sourceSessionId : Bytes := []
  targetDeploymentId : Bytes := []
  targetSessionId : Bytes := []
  data : Option Tree := none
  tsUnixMs : Int := 0

def orElseText (value other : Bytes) : Bytes :=
  if value = [] then other else value

variable (letters : LowerCase) (int64 : Int64Of)

def fromPrevious (events : List Tree) (event : HandoffEvent) : HandoffEvent :=
  if event.handoffId = [] then event
  else
    match events.reverse.find? fun previous =>
        trimSpace (previous.text (ascii "handoff_id")) = event.handoffId with
    | none => event
    | some previous =>
      let trimmed (key : Bytes) := trimSpace (previous.text key)
      { event with
        kind := orElseText event.kind (letters.lower (trimmed (ascii "kind")))
        fromRole := orElseText event.fromRole (letters.lower (trimmed (ascii "from_role")))
        toRole := orElseText event.toRole (letters.lower (trimmed (ascii "to_role")))
        sourceDeploymentId :=
          orElseText event.sourceDeploymentId (trimmed (ascii "source_deployment_id"))
        sourceSessionId := orElseText event.sourceSessionId (trimmed (ascii "source_session_id"))
        targetDeploymentId :=
          orElseText event.targetDeploymentId (trimmed (ascii "target_deployment_id"))
        targetSessionId :=
          orElseText event.targetSessionId (trimmed (ascii "target_session_id")) }

def withDefaults (newId : Bytes) (event : HandoffEvent) : HandoffEvent :=
  { event with
    handoffId := orElseText event.handoffId (ascii "th_" ++ newId.take 12)
    kind := orElseText event.kind (ascii "role")
    state := orElseText event.state (ascii "proposed") }

def handoffEntry (event : HandoffEvent) (now : Int) (events : List Tree) : Tree :=
  .ofMembers ([(ascii "handoff_id", .string event.handoffId), (ascii "kind", .string event.kind),
    (ascii "state", .string event.state), (ascii "from_role", .string event.fromRole),
    (ascii "to_role", .string event.toRole),
    (ascii "ts_unix_ms", number (eventTime event.tsUnixMs now)),
    (ascii "reason", .string event.reason), (ascii "message", .string event.message),
    (ascii "event_index", number (events.length + 1))] ++
    optionalText (ascii "source_deployment_id") event.sourceDeploymentId ++
    optionalText (ascii "source_session_id") event.sourceSessionId ++
    optionalText (ascii "target_deployment_id") event.targetDeploymentId ++
    optionalText (ascii "target_session_id") event.targetSessionId ++
    optionalMember (ascii "data") event.data)

def appendHandoffEvent (teamMeta : Tree) (event : HandoffEvent) (now : Int) (newId : Bytes) :
    Except Bytes (Tree × Tree) := do
  let events ← storedEvents .handoff teamMeta
  let event := withDefaults newId (fromPrevious letters events event)
  if event.fromRole = [] ∨ event.toRole = [] then
    .error (ascii "handoff event requires from_role and to_role")
  else if event.kind = ascii "cross_deployment" ∧
      (event.sourceDeploymentId = [] ∨ event.targetDeploymentId = [] ∨
        event.sourceSessionId = [] ∨ event.targetSessionId = []) then
    .error (ascii
      "cross_deployment handoff requires source/target deployment_id and session_id")
  else
    let entry := handoffEntry event now events
    .ok (entry, teamMeta.setMember EventKind.handoff.key
      (.array (keepLast maxHandoffEvents (events ++ [entry]))))

/-- A success, with the event it acknowledges, or an error. -/
inductive Reply
  | ok (event : Option (EventKind × Tree))
  | error (message : Bytes)

/-- An update of the payload names the event that it adds. `ask` and
`cancelJobs` are what the agents of the members are asked. -/
inductive Call
  | get
  | updatePayload (payload : Tree) (event : Option (EventKind × Tree))
  | updateStatus (status : Bytes)
  | now
  | newId
  | ask
  | cancelJobs
  | reply (reply : Reply)

def Response : Call → Type
  | .get => Option TeamRun
  | .updatePayload .. | .updateStatus _ => Bool
  | .now => Int
  | .newId => Bytes
  | .ask => Nat → JobAnswer
  | .cancelJobs => List Tree
  | .reply _ => Unit

def TeamRun.storePayload (run : TeamRun) (stored : Bool) (payload : Tree) : TeamRun :=
  if stored then { run with payload } else run

def TeamRun.storeStatus (run : TeamRun) (stored : Bool) (status : Bytes) : TeamRun :=
  if stored then { run with status } else run

def Effect : (call : Call) → TeamRun → Response call → TeamRun → Prop
  | .get, run, response, next => next = run ∧ (response = none ∨ response = some run)
  | .updatePayload payload _, run, stored, next => next = run.storePayload stored payload
  | .updateStatus status, run, stored, next => next = run.storeStatus stored status
  | .now, run, _, next => next = run
  | .newId, run, _, next => next = run
  | .ask, run, _, next => next = run
  | .cancelJobs, run, _, next => next = run
  | .reply _, run, _, next => next = run

abbrev TeamProgram := Program Call Response

def answerWith (reply : Reply) : TeamProgram Unit := do
  let _ ← Program.request (Call.reply reply)
  pure ()

def notFound : Bytes := ascii "team run not found"

def invalidPayload : Bytes := ascii "invalid stored run payload"

def updateFailed : Bytes := ascii "update team run failed"

def teamMetaOrEmpty (payload : Tree) : Tree :=
  (teamMetaOf payload).getD (.object [])

def withTeamMeta (payload teamMeta : Tree) : Tree :=
  payload.setMember (ascii "team") teamMeta

def withContract (contract : Option Tree) (nowMs : Int) (teamMeta : Tree) : Tree :=
  match contract with
  | some contract =>
    (teamMeta.setMember (ascii "goal_contract") contract).setMember
      (ascii "goal_updated_unix_ms") (number nowMs)
  | none => teamMeta

def storeAndAnswer (payload : Tree) (event : Option (EventKind × Tree)) : TeamProgram Unit := do
  match ← Program.request (Call.updatePayload payload event) with
  | false => answerWith (.error updateFailed)
  | true => answerWith (.ok event)

/-- A contract may be given and turn out to say nothing. -/
def handleTeamRunGoalUpdate (contract : Option (Option Tree)) (event : Option GoalEvent) :
    TeamProgram Unit := do
  match ← Program.request Call.get with
  | none => answerWith (.error notFound)
  | some run =>
    if contract = none ∧ event.isNone then
      answerWith (.error (ascii "goal_contract or event required"))
    else if ¬(TeamRun.payload run).isObject then answerWith (.error invalidPayload)
    else
      let nowMs ← Program.request Call.now
      let teamMeta := withContract (contract.getD none) nowMs
        (teamMetaOrEmpty (TeamRun.payload run))
      match event with
      | none => storeAndAnswer (withTeamMeta (TeamRun.payload run) teamMeta) none
      | some event =>
        let now ← Program.request Call.now
        match appendGoalEvent teamMeta event now with
        | .error message => answerWith (.error message)
        | .ok (entry, teamMeta) =>
          storeAndAnswer (withTeamMeta (TeamRun.payload run)
            (teamMeta.setMember (ascii "goal_events_updated_unix_ms") (number nowMs)))
            (some (.goal, entry))

def handleTeamRunHandoffUpdate (event : HandoffEvent) : TeamProgram Unit := do
  match ← Program.request Call.get with
  | none => answerWith (.error notFound)
  | some run =>
    if ¬(TeamRun.payload run).isObject then answerWith (.error invalidPayload)
    else
      let newId ← Program.request Call.newId
      let now ← Program.request Call.now
      match appendHandoffEvent letters (teamMetaOrEmpty (TeamRun.payload run)) event now newId with
      | .error message => answerWith (.error message)
      | .ok (entry, teamMeta) =>
        let nowMs ← Program.request Call.now
        storeAndAnswer (withTeamMeta (TeamRun.payload run)
          (teamMeta.setMember (ascii "handoff_events_updated_unix_ms") (number nowMs)))
          (some (.handoff, entry))

/-- Store the metadata if a poll changed it, whether or not that works. -/
def storeChanged (run : TeamRun) (changed : Option Tree) : TeamProgram Unit := do
  match changed with
  | none => pure ()
  | some teamMeta =>
    let _ ← Program.request (Call.updatePayload (withTeamMeta run.payload teamMeta) none)
    pure ()

/-- The polling of the members in `teamRunStatusResponse`, on the run as the
request has it. -/
def teamRunStatusResponse (run : TeamRun) : TeamProgram Unit := do
  match teamMetaOf run.payload with
  | none => answerWith (.ok none)
  | some teamMeta =>
    if runMode letters teamMeta ≠ ascii "async" then answerWith (.ok none)
    else
      let answers ← Program.request Call.ask
      let reconciled := reconcileTeamRunJobs letters int64 answers run.status teamMeta
      storeChanged run reconciled.2
      if reconciled.1 = run.status then answerWith (.ok none)
      else
        let _ ← Program.request (Call.updateStatus reconciled.1)
        answerWith (.ok none)

def handleTeamRunStatus : TeamProgram Unit := do
  match ← Program.request Call.get with
  | none => answerWith (.error notFound)
  | some run => teamRunStatusResponse letters int64 run

/-- What an update of the runtime members stores: the sessions of members, if it
changes them, and the members, if there are any. -/
structure RuntimeMembers where
  sessions : Option Tree
  members : Option Tree

def withRuntimeMembers (built : RuntimeMembers) (nowMs : Int) (teamMeta : Tree) : Tree :=
  let teamMeta := match built.sessions with
    | some sessions => teamMeta.setMember (ascii "member_sessions") sessions
    | none => teamMeta
  let teamMeta := match built.members with
    | some members => teamMeta.setMember (ascii "runtime_members") members
    | none => teamMeta.removeMember (ascii "runtime_members")
  teamMeta.setMember (ascii "runtime_members_updated_unix_ms") (number nowMs)

/-- `build` is what the request makes of the payload that it read: its members
merged with the stored ones, checked and given their sessions. -/
def handleTeamRunRuntimeMembersUpdate (build : Tree → Except Bytes RuntimeMembers) :
    TeamProgram Unit := do
  match ← Program.request Call.get with
  | none => answerWith (.error notFound)
  | some run =>
    if ¬(TeamRun.payload run).isObject then answerWith (.error invalidPayload)
    else
      match build (TeamRun.payload run) with
      | .error message => answerWith (.error message)
      | .ok built =>
        let nowMs ← Program.request Call.now
        let payload := withTeamMeta (TeamRun.payload run)
          (withRuntimeMembers built nowMs (teamMetaOrEmpty (TeamRun.payload run)))
        match ← Program.request (Call.updatePayload payload none) with
        | false => answerWith (.error updateFailed)
        | true => teamRunStatusResponse letters int64 { status := TeamRun.status run, payload }

def withCancelResults (results : List Tree) (nowMs : Int) (teamMeta : Tree) : Tree :=
  (teamMeta.setMember (ascii "cancel_requested_unix_ms") (number nowMs)).setMember
    (ascii "cancel_results") (.array results)

/-- With `cancelTeamRunJobs`. -/
def handleTeamRunCancel : TeamProgram Unit := do
  match ← Program.request Call.get with
  | none => answerWith (.error notFound)
  | some run =>
    if ¬(TeamRun.payload run).isObject then
      answerWith (.error (ascii "invalid team run payload"))
    else
      let teamMeta := teamMetaOrEmpty (TeamRun.payload run)
      if runMode letters teamMeta ≠ ascii "async" then
        answerWith (.error (ascii "team run is not async"))
      else if teamRunMemberJobsFromMeta teamMeta = [] then
        answerWith (.error (ascii "no member jobs to cancel"))
      else
        let nowMs ← Program.request Call.now
        let results ← Program.request Call.cancelJobs
        let payload := withTeamMeta (TeamRun.payload run) (withCancelResults results nowMs teamMeta)
        match ← Program.request (Call.updatePayload payload none) with
        | false => answerWith (.error updateFailed)
        | true =>
          if TeamRun.status run ∈ [ascii "running", ascii "queued", ascii "cancelling"] then
            match ← Program.request (Call.updateStatus (ascii "cancelling")) with
            | true =>
              teamRunStatusResponse letters int64 { status := ascii "cancelling", payload }
            | false =>
              teamRunStatusResponse letters int64 { status := TeamRun.status run, payload }
          else teamRunStatusResponse letters int64 { status := TeamRun.status run, payload }

inductive Operation
  | goal (contract : Option (Option Tree)) (event : Option GoalEvent)
  | handoff (event : HandoffEvent)
  | runtimeMembers (build : Tree → Except Bytes RuntimeMembers)
  | cancel
  | status

def program : Operation → TeamProgram Unit
  | .goal contract event => handleTeamRunGoalUpdate contract event
  | .handoff event => handleTeamRunHandoffUpdate letters event
  | .runtimeMembers build => handleTeamRunRuntimeMembersUpdate letters int64 build
  | .cancel => handleTeamRunCancel letters int64
  | .status => handleTeamRunStatus letters int64

def system : SharedStore TeamRun Operation Call Response where
  effect := Effect
  program := program letters int64

abbrev TeamEvent := Event TeamRun Call Response

/-- What the outside decides about a step. -/
structure Choice where
  works : Bool := true
  time : Int := 0
  id : Bytes := []
  answers : Nat → JobAnswer := fun _ => {}
  results : List Tree := []

def answer (choice : Choice) : (call : Call) → TeamRun → Response call × TeamRun
  | .get, run => (if choice.works then some run else none, run)
  | .updatePayload payload _, run => (choice.works, run.storePayload choice.works payload)
  | .updateStatus status, run => (choice.works, run.storeStatus choice.works status)
  | .now, run => (choice.time, run)
  | .newId, run => (choice.id, run)
  | .ask, run => (choice.answers, run)
  | .cancelJobs, run => (choice.results, run)
  | .reply _, run => ((), run)

theorem effect_answer (choice : Choice) (call : Call) (run : TeamRun) :
    (system letters int64).effect call run (answer choice call run).1
      (answer choice call run).2 := by
  cases call with
  | get =>
    refine ⟨rfl, ?_⟩
    rw [answer]
    cases choice.works with
    | true => exact .inr rfl
    | false => exact .inl rfl
  | _ => rfl

end AgentC.Broker.TeamRuns
