import AgentC.Foundation.KeyedTable
import AgentC.Foundation.Runs
import AgentC.Foundation.Bytes
import Mathlib.Data.List.MinMax

/-! # The registry of connected agents

`Registry` of `broker/internal/registry/registry.go` with the goroutines that
change it: an agent that connects and the read loop that serves its connection
(`handleAgentConnect`, `agentReadLoop`), and a relay that sends to an agent
(`relayAgentHTTP`, `handleAgentProxySSE`). What these do with the session of a
connection is left out. -/

namespace AgentC.Broker

/-- The parts of an `AgentConn` that the registry reads. -/
structure Connection where
  agentId : Bytes
  deploymentId : Bytes
  connected : Int
deriving DecidableEq, Repr

abbrev Pair := Bytes × Bytes

def Connection.pair (connection : Connection) : Pair :=
  (connection.agentId, connection.deploymentId)

def defaultDeployment : Bytes := ascii "default"

def Connection.named (connection : Connection) : Connection :=
  if connection.deploymentId = [] then { connection with deploymentId := defaultDeployment }
  else connection

/-- Every connection made so far, at its address, and the addresses registered,
each under its agent and deployment. -/
structure Registry where
  connections : List Connection := []
  agents : List (Pair × Nat) := []
  closed : List Nat := []
deriving DecidableEq, Repr

namespace Registry

/-- `Get`, for a deployment that is not empty. -/
def get (registry : Registry) (pair : Pair) : Option Nat :=
  (lookupBy Prod.fst pair registry.agents).map Prod.snd

/-- A connection gets its address when it is registered, right after it is made. -/
def upsert (registry : Registry) (connection : Connection) : (Nat × Option Nat) × Registry :=
  let address := registry.connections.length
  if connection.agentId = [] then
    ((address, none), { registry with connections := registry.connections ++ [connection] })
  else
    let pair := connection.named.pair
    ((address, registry.get pair),
      { registry with
        connections := registry.connections ++ [connection.named]
        agents := registry.agents.filter (fun entry => entry.1 ≠ pair) ++ [(pair, address)] })

/-- An empty deployment stands for all deployments of the agent. -/
def removes (agentId deploymentId : Bytes) (pair : Pair) : Bool :=
  if deploymentId = [] then pair.1 = agentId else pair = (agentId, deploymentId)

def delete (registry : Registry) (agentId deploymentId : Bytes) : List Nat × Registry :=
  ((registry.agents.filter fun entry => removes agentId deploymentId entry.1).map Prod.snd,
    { registry with
      agents := registry.agents.filter fun entry => !removes agentId deploymentId entry.1 })

def close (registry : Registry) (address : Nat) : Registry :=
  { registry with closed := address :: registry.closed }

def ofAgent (registry : Registry) (agentId : Bytes) : List (Pair × Nat) :=
  registry.agents.filter fun entry => entry.1.1 = agentId

def connectedAt (registry : Registry) (address : Nat) : Int :=
  match registry.connections[address]? with
  | some connection => connection.connected
  | none => 0

/-- What `Select` may return: with no deployment any connection of the agent
that connected last. -/
def Selects (registry : Registry) (agentId deploymentId : Bytes) (selected : Option Nat) : Prop :=
  if deploymentId ≠ [] then selected = registry.get (agentId, deploymentId)
  else
    match selected with
    | none => registry.ofAgent agentId = []
    | some address =>
      ∃ entry ∈ registry.ofAgent agentId, entry.2 = address ∧
        ∀ other ∈ registry.ofAgent agentId,
          registry.connectedAt other.2 ≤ registry.connectedAt address

def select (registry : Registry) (agentId deploymentId : Bytes) : Option Nat :=
  if deploymentId ≠ [] then registry.get (agentId, deploymentId)
  else
    -- The instance is named because another one of the library is not computable.
    (@List.argmax _ _ Int.instLinearOrder.toPreorder _
      (fun entry => registry.connectedAt entry.2) (registry.ofAgent agentId)).map Prod.snd

theorem selects_select (registry : Registry) (agentId deploymentId : Bytes) :
    registry.Selects agentId deploymentId (registry.select agentId deploymentId) := by
  by_cases named : deploymentId ≠ []
  · simp [Selects, select, named]
  · simp only [Selects, select, named, if_false]
    cases best : @List.argmax _ _ Int.instLinearOrder.toPreorder _
      (fun entry => registry.connectedAt entry.2) (registry.ofAgent agentId) with
    | none => exact List.argmax_eq_none.mp best
    | some entry =>
      refine ⟨entry, List.argmax_mem best, rfl, ?_⟩
      intro other member
      exact @List.le_of_mem_argmax _ _ Int.instLinearOrder
        (fun entry => registry.connectedAt entry.2) _ _ _ member best

inductive Call
  | upsert (connection : Connection)
  | close (address : Nat)
  | readFails (address : Nat)
  | require (agentId deploymentId : Bytes)
  | send (address : Nat)
  | delete (agentId deploymentId : Bytes)
deriving DecidableEq, Repr

def Response : Call → Type
  | .upsert _ => Nat × Option Nat
  | .close _ | .readFails _ => Unit
  | .require .. => Option Nat
  | .send _ => Bool
  | .delete .. => List Nat

def Effect : (call : Call) → Registry → Response call → Registry → Prop
  | .upsert connection, registry, response, next => registry.upsert connection = (response, next)
  | .close address, registry, _, next => registry.close address = next
  | .readFails _, registry, _, next => registry = next
  | .require agentId deploymentId, registry, response, next =>
    registry.Selects agentId deploymentId response ∧ registry = next
  | .send _, registry, _, next => registry = next
  | .delete agentId deploymentId, registry, response, next =>
    registry.delete agentId deploymentId = (response, next)

abbrev RegistryProgram := Program Call Response

/-- The deferred calls of the read loop, which ends when the connection fails. -/
def agentReadLoop (address : Nat) (pair : Pair) : RegistryProgram Unit := do
  let _ ← Program.request (Call.readFails address)
  let _ ← Program.request (Call.close address)
  let _ ← Program.request (Call.delete pair.1 pair.2)
  pure ()

/-- From the registration on, and the read loop it starts. The agent id is not
empty, and an empty deployment was replaced. -/
def handleAgentConnect (agentId deploymentId : Bytes) (connected : Int) :
    RegistryProgram Unit := do
  if agentId = [] then pure ()
  else
    let deploymentId := if deploymentId = [] then defaultDeployment else deploymentId
    let (address, prev) ← Program.request (Call.upsert { agentId, deploymentId, connected })
    match prev with
    | none => agentReadLoop address (agentId, deploymentId)
    | some prev =>
      let _ ← Program.request (Call.close prev)
      agentReadLoop address (agentId, deploymentId)

def relayAgentHTTP (agentId deploymentId : Bytes) : RegistryProgram Unit := do
  match ← Program.request (Call.require agentId deploymentId) with
  | none => pure ()
  | some address =>
    match ← Program.request (Call.send address) with
    | true => pure ()
    | false =>
      let _ ← Program.request (Call.delete agentId deploymentId)
      pure ()

inductive Operation
  | connect (agentId deploymentId : Bytes) (connected : Int)
  | relay (agentId deploymentId : Bytes)

def program : Operation → RegistryProgram Unit
  | .connect agentId deploymentId connected => handleAgentConnect agentId deploymentId connected
  | .relay agentId deploymentId => relayAgentHTTP agentId deploymentId

def system : SharedStore Registry Operation Call Response where
  effect := Effect
  program := program

abbrev RegistryEvent := Event Registry Call Response

def answer (sent : Bool) : (call : Call) → Registry → Response call × Registry
  | .upsert connection, registry => registry.upsert connection
  | .close address, registry => ((), registry.close address)
  | .readFails _, registry => ((), registry)
  | .require agentId deploymentId, registry => (registry.select agentId deploymentId, registry)
  | .send _, registry => (sent, registry)
  | .delete agentId deploymentId, registry => registry.delete agentId deploymentId

theorem effect_answer (sent : Bool) (call : Call) (registry : Registry) :
    system.effect call registry (answer sent call registry).1 (answer sent call registry).2 := by
  cases call with
  | require agentId deploymentId => exact ⟨registry.selects_select agentId deploymentId, rfl⟩
  | _ => rfl

end Registry

end AgentC.Broker
