import AgentC.Broker.AgentTasks
import AgentC.Json.Values

/-! # Parallel agent tasks

`executeAgentTasks` of `broker/internal/broker/agent_tasks.go`: the goroutine that
calls it starts the workers and waits for them, the workers share a counter. In
one step a goroutine does one thing that another can see. A context with its
deadline is part of what decides the outcome of a relay. -/

namespace AgentC.Broker.AgentTasks

open Idempotency (RelayOutcome)
open Json (Tree)

structure AgentTaskResult where
  taskId : Bytes := []
  agentId : Bytes := []
  deploymentId : Bytes := []
  ok : Bool := false
  ms : Int := 0
  httpStatus : Int := 0
  error : Bytes := []
  result : Option Tree := none

/-- The arguments of the call. `unmarshal` is `json.Unmarshal` into a map, with no
map for `null`. -/
structure Setting where
  letters : LowerCase
  unmarshal : Bytes → Option (Option Tree)
  sub : Bytes
  tasks : List AgentTaskPrepared
  maxConcurrency : Int
  timeoutMs : Int64
  traceId : Bytes

/-- What a worker passes to `relayAgentHTTP`. -/
structure RelayedTask where
  agentId : Bytes
  deploymentId : Bytes
  method : Bytes
  path : Bytes
  query : Bytes
  headers : Headers
  body : Bytes
  timeout : Option Int64
deriving DecidableEq, Repr

section Call

variable (setting : Setting)

def Setting.concurrency : Nat :=
  let count : Int := if setting.maxConcurrency < 1 then 1 else setting.maxConcurrency
  let count : Int := if 16 < count then 16 else count
  let count : Int := if setting.tasks.length < count then setting.tasks.length else count
  (if count < 1 then 1 else count).toNat

def Setting.timeout : Option Int64 :=
  let timeout := setting.timeoutMs * 1000000
  if 0 < timeout then some timeout else none

def Setting.relayedTask (task : AgentTaskPrepared) : RelayedTask where
  agentId := task.agentId
  deploymentId := task.deploymentId
  method := task.method
  path := task.path
  query := task.query
  headers := forwardedHeaders setting.letters setting.sub setting.traceId task.headers
  body := task.body
  timeout := setting.timeout

def successStatus (status : Int) : Bool :=
  200 ≤ status && status < 300

def Setting.row (task : AgentTaskPrepared) (outcome : RelayOutcome) (ms : Int) :
    AgentTaskResult :=
  let row : AgentTaskResult := {
    taskId := task.taskId
    agentId := task.agentId
    deploymentId := task.deploymentId
    ms := ms }
  if outcome.brokerStatus ≠ 0 then { row with error := outcome.err }
  else
    let row := { row with httpStatus := outcome.agentStatus }
    match setting.unmarshal outcome.body with
    | some object =>
      { row with
        result := object
        ok := (object.bind fun members => members.boolMember (ascii "ok")).getD
          (successStatus outcome.agentStatus) }
    | none =>
      { row with
        ok := successStatus outcome.agentStatus
        error := ascii "invalid json response" }

/-- Where a worker is. -/
inductive Worker
  /-- In front of the increment of the counter. -/
  | ready
  | claimed (position : Nat)
  | relaying (position : Nat) (task : AgentTaskPrepared)
  | answered (position : Nat) (row : AgentTaskResult)
  /-- Behind the loop, in front of the send on `done`. -/
  | leaving
  | gone

structure State where
  next : UInt32 := 0
  workers : List Worker := []
  /-- How many values are in the channel `done`. -/
  done : Nat := 0
  received : Nat := 0
  out : List AgentTaskResult
  returned : Option (List AgentTaskResult) := none

def Setting.initial : State where
  out := List.replicate setting.tasks.length {}

/-- What happens to the task at a position. -/
inductive Event
  | relayed (position : Nat) (request : RelayedTask)
  | answered (position : Nat) (outcome : RelayOutcome) (ms : Int)
  | written (position : Nat)

/-- The goroutine that moves next. A worker that waits for its relay is told the
outcome and how long it took. -/
inductive Move
  | caller
  | worker (index : Nat) (outcome : RelayOutcome) (ms : Int)

def State.setWorker (state : State) (index : Nat) (worker : Worker) : State :=
  { state with workers := state.workers.set index worker }

def Setting.callerStep (state : State) : Option (State × List Event) :=
  if state.workers.length < setting.concurrency then
    some ({ state with workers := state.workers ++ [.ready] }, [])
  else if state.received < setting.concurrency then
    if state.done = 0 then none
    else some ({ state with done := state.done - 1, received := state.received + 1 }, [])
  else
    match state.returned with
    | none => some ({ state with returned := some state.out }, [])
    | some _ => none

def Setting.workerStep (state : State) (index : Nat) (outcome : RelayOutcome) (ms : Int) :
    Option (State × List Event) :=
  match state.workers[index]? with
  | none => none
  | some .ready =>
    let next := state.next + 1
    some ({ state.setWorker index (.claimed (next - 1).toNat) with next }, [])
  | some (.claimed position) =>
    match setting.tasks[position]? with
    | none => some (state.setWorker index .leaving, [])
    | some task =>
      some (state.setWorker index (.relaying position task),
        [.relayed position (setting.relayedTask task)])
  | some (.relaying position task) =>
    some (state.setWorker index (.answered position (setting.row task outcome ms)),
      [.answered position outcome ms])
  | some (.answered position row) =>
    some ({ state.setWorker index .ready with out := state.out.set position row },
      [.written position])
  | some .leaving =>
    if state.done < setting.concurrency then
      some ({ state.setWorker index .gone with done := state.done + 1 }, [])
    else none
  | some .gone => none

/-- `none` if the goroutine cannot move. -/
def Setting.step (state : State) : Move → Option (State × List Event)
  | .caller => setting.callerStep state
  | .worker index outcome ms => setting.workerStep state index outcome ms

end Call

def Setting.execute (setting : Setting) : List Move → State → List Event → Option (State × List Event)
  | [], state, events => some (state, events)
  | move :: moves, state, events =>
    match setting.step state move with
    | none => none
    | some (next, new) => setting.execute moves next (events ++ new)

end AgentC.Broker.AgentTasks
