import AgentC.Foundation.Plurality
import AgentC.Json.Emit
import AgentC.Json.Pointer
import AgentC.Sha256.Context
import AgentC.Workflow.Submission

/-! # Aggregates

The modes `quorum_hashes`, `first_ok`, `quorum_ok` and `strict_all_ok` of
`daemon/src/workflow_aggregate.cpp`. What the functions put into a JSON object
member by member is a structure here, with the members as its fields. -/

namespace AgentC.Workflow

open Json (Tree)

structure AggregateInput where
  json : JsonLibrary
  /-- `asInt` of a number for which `isInt` holds. -/
  asInt : Bytes → Option Int
  /-- `result_json_by_task` -/
  results : Bytes → Option Tree

/-- `string_array_from_json` -/
def stringArrayFromJson (value : Option Tree) : Option (List Bytes) :=
  match value with
  | some (.array items) => some ((stringsOf items).filter fun text => text ≠ [])
  | _ => none

def aggregateTaskIds (agg : Tree) : Except Bytes (List Bytes) :=
  if !agg.isObject then throw (ascii "aggregate config must be an object")
  else
    match stringArrayFromJson (agg.member (ascii "task_ids")) with
    | none | some [] => throw (ascii "aggregate.task_ids must be a non-empty array of strings")
    | some taskIds => return taskIds

def configuredText (agg : Tree) (key : String) : Option Bytes :=
  match agg.member (ascii key) with
  | some (.string text) => if text = [] then none else some text
  | _ => none

def configuredPointers (agg : Tree) (defaults : List String) : List Bytes :=
  match stringArrayFromJson (agg.member (ascii "pointers")) with
  | none | some [] => defaults.map ascii
  | some pointers => pointers

namespace AggregateInput

variable (input : AggregateInput)

/-- The quorum that is asked for, between one and the number of listed tasks. -/
def quorumOf (agg : Tree) (taskIds : List Bytes) : Nat :=
  let asked : Int :=
    match agg.member (ascii "quorum") with
    | some (.number token) => (input.asInt token).getD taskIds.length
    | _ => taskIds.length
  (min (max 1 asked) taskIds.length).toNat

def pointed (pointer taskId : Bytes) : Option Tree :=
  (input.results taskId).bind fun root => Json.jsonPointerGet root pointer

end AggregateInput

def hexText (bytes : Bytes) : Bytes :=
  bytes.flatMap fun byte => [Json.hexDigit (byte.toNat / 16), Json.hexDigit (byte.toNat % 16)]

def agentJsonC14nSha256Token (json : Bytes) : Except Json.Failure Bytes := do
  let canonical ← Json.canonicalize json
  return ascii "sha256:" ++ hexText (Sha256.Context.init.update canonical).final

/-- `quorum_token_from_json_value`: the token and its kind, or an error that may be
empty. -/
def quorumTokenFromJsonValue (json : JsonLibrary) (value : Tree) : Except Bytes (Bytes × Bytes) :=
  match value with
  | .string text => return (text, ascii "string")
  | .null => throw []
  | other =>
    let text := json.write other
    if text = [] then throw []
    else
      match agentJsonC14nSha256Token text with
      | .ok token => return (token, ascii "json_sha256")
      | .error failure => throw (ascii failure.message)

structure QuorumConfig where
  taskIds : List Bytes
  quorum : Nat
  pointers : List Bytes
  nodePointer : Bytes
  nodePointerDefaulted : Bool
  requireDistinctNodes : Bool

structure NodeVotes where
  /-- The node, its value and the task that has it, of the nodes that vote. -/
  chosen : List (Bytes × Bytes × Bytes)
  eligibleNodes : List Bytes
  missingNodes : List Bytes
deriving DecidableEq

/-- The check of one pointer. -/
structure QuorumCheck where
  pointer : Bytes
  ok : Bool
  countKind : Bytes
  byNode : Option NodeVotes
  chosen : Bytes
  chosenCount : Nat
  votes : List (Bytes × Nat)
  valuesByTask : Tree
  valueKindByTask : Tree
  valueErrorByTask : Tree
  missing : List Bytes
  error : Bytes

structure QuorumReport where
  config : QuorumConfig
  nodesByTaskId : Tree
  attestationsByTaskId : Tree
  unknownNodeTaskIds : List Bytes
  checks : List QuorumCheck
  ok : Bool
  assistantText : Bytes
  error : Bytes

/-- The order in which a hash map of counts is gone through. -/
structure HashOrder where
  order : List (Bytes × Nat) → List (Bytes × Nat)
  perm : ∀ counts, (order counts).Perm counts

/-- The loop that chooses the value with the highest count, and of several the smallest. -/
def chooseValue (counts : List (Bytes × Nat)) : Bytes × Nat :=
  counts.foldl
    (fun best entry =>
      if best.2 < entry.2 ∨
          entry.2 = best.2 ∧ entry.1 ≠ [] ∧ (best.1 = [] ∨ ¬lexLE best.1 entry.1) then
        entry
      else best)
    ([], 0)

def firstOccurrences : List Bytes → List Bytes
  | [] => []
  | text :: rest => text :: (firstOccurrences rest).filter fun other => other ≠ text

namespace AggregateInput

variable (input : AggregateInput)

def quorumConfig (agg : Tree) : Except Bytes QuorumConfig := do
  let taskIds ← aggregateTaskIds agg
  let pointers := configuredPointers agg ["/avm/result_hash", "/avm/trace_hash"]
  let avmPointerPresent := pointers.any fun pointer => decide (ascii "/avm/" <+: pointer)
  let edgePointerPresent := pointers.any fun pointer => decide (ascii "/edge/" <+: pointer)
  let nodePointer := configuredText agg "node_pointer"
  return {
    taskIds
    quorum := input.quorumOf agg taskIds
    pointers
    nodePointer := nodePointer.getD (
      if avmPointerPresent && !edgePointerPresent then ascii "/avm/attest/node_id"
      else ascii "/edge/node_id")
    nodePointerDefaulted := nodePointer.isNone
    requireDistinctNodes := (agg.boolMember (ascii "require_distinct_nodes")).getD false }

def nodeOf (config : QuorumConfig) (taskId : Bytes) : Option Bytes :=
  match input.pointed config.nodePointer taskId with
  | some (.string node) => if node = [] then none else some node
  | _ => none

def attestationOf (taskId : Bytes) : Option Tree :=
  ((input.pointed (ascii "/avm/attest") taskId).filter Tree.isObject).or
    ((input.pointed (ascii "/edge_attest") taskId).filter Tree.isObject)

def nodeIdsInOrder (config : QuorumConfig) : List Bytes :=
  firstOccurrences (config.taskIds.filterMap fun taskId => input.nodeOf config taskId)

def tokenAt (pointer taskId : Bytes) : Option Bytes :=
  match input.pointed pointer taskId with
  | none => none
  | some value => (quorumTokenFromJsonValue input.json value).toOption.map Prod.fst

def valuesByTask (config : QuorumConfig) (pointer : Bytes) : Tree :=
  Tree.ofOptionalMembers (config.taskIds.map fun taskId =>
    (taskId, (input.tokenAt pointer taskId).map .string))

def valueKindByTask (config : QuorumConfig) (pointer : Bytes) : Tree :=
  Tree.ofOptionalMembers (config.taskIds.map fun taskId =>
    (taskId, (input.pointed pointer taskId).bind fun value =>
      (quorumTokenFromJsonValue input.json value).toOption.map fun token => .string token.2))

def valueErrorByTask (config : QuorumConfig) (pointer : Bytes) : Tree :=
  Tree.ofOptionalMembers (config.taskIds.map fun taskId =>
    (taskId, (input.pointed pointer taskId).bind fun value =>
      match quorumTokenFromJsonValue input.json value with
      | .error (byte :: text) => some (.string (byte :: text))
      | _ => none))

/-- The vote of a node: the first of its tasks that has one. -/
def nodeVote (config : QuorumConfig) (values : Tree) (node : Bytes) : Option (Bytes × Bytes) :=
  (config.taskIds.filter fun taskId => input.nodeOf config taskId = some node).findSome?
    fun taskId =>
      match values.member taskId with
      | some (.string value) => if value = [] then none else some (value, taskId)
      | _ => none

def nodeVotes (config : QuorumConfig) (values : Tree) : NodeVotes :=
  let nodes := input.nodeIdsInOrder config
  { chosen := nodes.filterMap fun node =>
      (input.nodeVote config values node).map fun vote => (node, vote)
    eligibleNodes := nodes
    missingNodes := nodes.filter fun node => (input.nodeVote config values node).isNone }

def countedVotes (config : QuorumConfig) (pointer : Bytes) : List Bytes :=
  if config.requireDistinctNodes then
    (input.nodeVotes config (input.valuesByTask config pointer)).chosen.map fun vote => vote.2.1
  else
    (config.taskIds.filterMap fun taskId => input.tokenAt pointer taskId).filter fun value =>
      value ≠ []

def quorumCheck (order : HashOrder) (config : QuorumConfig) (pointer : Bytes) : QuorumCheck :=
  let values := input.valuesByTask config pointer
  let counts := order.order (tally (input.countedVotes config pointer))
  let chosen := chooseValue counts
  let ok := chosen.1 ≠ [] ∧ config.quorum ≤ chosen.2
  { pointer
    ok
    countKind := if config.requireDistinctNodes then ascii "nodes" else ascii "tasks"
    byNode := if config.requireDistinctNodes then some (input.nodeVotes config values) else none
    chosen := chosen.1
    chosenCount := chosen.2
    votes := counts.insertionSort (Outranks lexLE)
    valuesByTask := values
    valueKindByTask := input.valueKindByTask config pointer
    valueErrorByTask := input.valueErrorByTask config pointer
    missing := config.taskIds.filter fun taskId => (input.tokenAt pointer taskId).isNone
    error := if ok then [] else ascii "quorum not met" }

def quorumReport (order : HashOrder) (config : QuorumConfig) : QuorumReport :=
  let checks := config.pointers.map (input.quorumCheck order config)
  let ok := checks.all QuorumCheck.ok
  { config
    nodesByTaskId := Tree.ofOptionalMembers (config.taskIds.map fun taskId =>
      (taskId, (input.nodeOf config taskId).map .string))
    attestationsByTaskId := Tree.ofOptionalMembers (config.taskIds.map fun taskId =>
      (taskId, input.attestationOf taskId))
    unknownNodeTaskIds :=
      if config.requireDistinctNodes then
        config.taskIds.filter fun taskId =>
          (input.results taskId).isSome && (input.nodeOf config taskId).isNone
      else []
    checks
    ok
    assistantText :=
      if ok then ((checks.find? QuorumCheck.ok).map QuorumCheck.chosen).getD [] else []
    error := if ok then [] else ascii "aggregate check failed" }

/-- `workflow_aggregate_quorum_hashes_to_json`: an error of the configuration, or the
report. -/
def workflowAggregateQuorumHashes (order : HashOrder) (agg : Tree) : Except Bytes QuorumReport :=
  (input.quorumConfig agg).map (input.quorumReport order)

end AggregateInput

structure OkConfig where
  taskIds : List Bytes
  okPointer : Bytes
  valuePointer : Bytes
deriving DecidableEq

structure OkReport where
  config : OkConfig
  quorum : Option Nat := none
  ok : Bool
  okTaskIds : List Bytes := []
  notOkTaskIds : List Bytes := []
  missingTaskIds : List Bytes := []
  okByTask : Tree := .object []
  /-- The chosen task with its result. -/
  chosen : Option (Bytes × Tree) := none
  assistantText : Bytes := []
  error : Bytes := []

def okConfig (agg : Tree) : Except Bytes OkConfig := do
  let taskIds ← aggregateTaskIds agg
  return {
    taskIds
    okPointer := (configuredText agg "ok_pointer").getD (ascii "/ok")
    valuePointer := (configuredText agg "value_pointer").getD (ascii "/assistant_text") }

namespace AggregateInput

variable (input : AggregateInput)

/-- Whether a task has a result that is ok, if it has one at all. -/
def taskOk (config : OkConfig) (taskId : Bytes) : Option Bool :=
  (input.results taskId).map fun root =>
    match Json.jsonPointerGet root config.okPointer with
    | some (.bool ok) => ok
    | _ => false

def firstOkTask (config : OkConfig) : Option (Bytes × Tree) :=
  config.taskIds.findSome? fun taskId =>
    if input.taskOk config taskId = some true then
      (input.results taskId).map fun root => (taskId, root)
    else none

/-- `assistant_text` of a report that chooses a task. -/
def chosenText (config : OkConfig) (root : Tree) : Bytes :=
  match Json.jsonPointerGet root config.valuePointer with
  | some (.string text) => text
  | some value => input.json.write value
  | none => input.json.write root

/-- A report with its verdict: the chosen task if it is ok, and an error if not. -/
def judged (report : OkReport) (ok : Bool) (error : String) : OkReport :=
  let chosen := input.firstOkTask report.config
  if ok then
    { report with
      ok := true
      chosen
      assistantText := (chosen.map fun task => input.chosenText report.config task.2).getD [] }
  else { report with ok := false, error := ascii error }

def okTaskIds (config : OkConfig) : List Bytes :=
  config.taskIds.filter fun taskId => input.taskOk config taskId = some true

def missingTaskIds (config : OkConfig) : List Bytes :=
  config.taskIds.filter fun taskId => input.taskOk config taskId = none

def okByTask (config : OkConfig) : Tree :=
  Tree.ofOptionalMembers (config.taskIds.map fun taskId =>
    (taskId, (input.taskOk config taskId).map .bool))

/-- `workflow_aggregate_first_ok_to_json` -/
def workflowAggregateFirstOk (agg : Tree) : Except Bytes OkReport := do
  let config ← okConfig agg
  return input.judged { config, ok := false } (input.firstOkTask config).isSome "no ok task found"

/-- `workflow_aggregate_quorum_ok_to_json` -/
def workflowAggregateQuorumOk (agg : Tree) : Except Bytes OkReport := do
  let config ← okConfig agg
  let quorum := input.quorumOf agg config.taskIds
  let okTaskIds := input.okTaskIds config
  return input.judged
    { config
      quorum := some quorum
      ok := false
      okTaskIds
      missingTaskIds := input.missingTaskIds config
      okByTask := input.okByTask config }
    (quorum ≤ okTaskIds.length) "quorum not met"

/-- `workflow_aggregate_strict_all_ok_to_json` -/
def workflowAggregateStrictAllOk (agg : Tree) : Except Bytes OkReport := do
  let config ← okConfig agg
  let notOkTaskIds := config.taskIds.filter fun taskId => input.taskOk config taskId = some false
  let missingTaskIds := input.missingTaskIds config
  return input.judged
    { config, ok := false, notOkTaskIds, missingTaskIds, okByTask := input.okByTask config }
    (notOkTaskIds.isEmpty && missingTaskIds.isEmpty) "not all tasks are ok"

end AggregateInput

end AgentC.Workflow
