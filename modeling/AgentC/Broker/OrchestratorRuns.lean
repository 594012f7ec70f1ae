import AgentC.Broker.TeamRunUpdates

/-! # Orchestrator runs and their revisions

The update of an orchestrator run in
`broker/internal/broker/server_orchestrator_runs.go`, with the row that
`broker/internal/db/orchestrator_runs.go` stores. The metadata of a run holds the
revisions of its goal and of its role plan. An update reads the run, adds
revisions to its copy of the metadata and stores that. Every call of the database
is one step. A number stands for the `float64` it is read as, which is always
written alike. -/

namespace AgentC.Broker.OrchestratorRuns

open Json
open TeamRuns (objects number optionalMember)

/-- `int64` of a number that was read as a `float64`. -/
structure FloatReading where
  int64 : Bytes → Int
  /-- A `float64` holds every integer up to `2 ^ 53`. -/
  exact : ∀ value : Nat, value ≤ 2 ^ 53 → int64 (decimal value) = value

/-- A version that reads digits only. -/
def FloatReading.digitsOnly : FloatReading where
  int64 := fun token => digitsValue token
  exact := fun value _ => congrArg _ (digitsValue_decimal value)

/-- The loop of `parseInt64Bounded`; the first number above the bound ends it. -/
def parseDigits (hi : Int) : Int → Bytes → Option Int
  | value, [] => some value
  | value, byte :: rest =>
    if isDigit byte then
      let next := value * 10 + digitValue byte
      if hi < next then some hi else parseDigits hi next rest
    else none

def parseInt64Bounded (raw : Bytes) (lo hi : Int) : Option Int :=
  if trimSpace raw = [] then none
  else (parseDigits hi 0 (trimSpace raw)).map fun value => max lo value

example : parseInt64Bounded (ascii " 3 ") 0 9999999999999 = some 3 := by decide

variable (floats : FloatReading)

def parseInt64Value : Option Tree → Option Int
  | some (.number token) => some (floats.int64 token)
  | some (.string text) => parseInt64Bounded text 0 9999999999999
  | _ => none

inductive RevisionKind
  | goal
  | rolePlan
deriving DecidableEq, Repr

namespace RevisionKind

def versionsKey : RevisionKind → Bytes
  | goal => ascii "goal_versions"
  | rolePlan => ascii "role_plan_versions"

def versionKey : RevisionKind → Bytes
  | goal => ascii "goal_version"
  | rolePlan => ascii "role_plan_version"

def updatedKey : RevisionKind → Bytes
  | goal => ascii "goal_updated_unix_ms"
  | rolePlan => ascii "role_plan_updated_unix_ms"

end RevisionKind

def maxOrchestratorGoalRevisions : Nat := 50

def maxOrchestratorRolePlanRevisions : Nat := 50

def RevisionKind.maxRevisions : RevisionKind → Nat
  | .goal => maxOrchestratorGoalRevisions
  | .rolePlan => maxOrchestratorRolePlanRevisions

def revisionKeys : List Bytes :=
  [RevisionKind.goal.versionsKey, RevisionKind.goal.versionKey, RevisionKind.goal.updatedKey,
    RevisionKind.rolePlan.versionsKey, RevisionKind.rolePlan.versionKey,
    RevisionKind.rolePlan.updatedKey]

def copyIfMissing (source target : Tree) (key : Bytes) : Tree :=
  match target.member key, source.member key with
  | none, some value => target.setMember key value
  | _, _ => target

def mergeOrchestratorRevisionHistory (target source : Tree) : Tree :=
  revisionKeys.foldl (copyIfMissing source) target

def readRevisionEntries (metadata : Tree) (key : Bytes) : List Tree :=
  objects (metadata.member key)

def versionOf (entry : Tree) : Option Int :=
  parseInt64Value floats (entry.member (ascii "version"))

/-- The loop of `nextRevisionVersion`. -/
def highestVersion (entries : List Tree) : Int :=
  entries.foldl (fun highest entry => max highest ((versionOf floats entry).getD 0)) 0

def nextRevisionVersion (entries : List Tree) : Int :=
  (highestVersion floats entries + 1).bmod (2 ^ 64)

def trimRevisionEntries (entries : List Tree) (limit : Nat) : List Tree :=
  if limit = 0 ∨ entries.length ≤ limit then entries else entries.drop (entries.length - limit)

def deepEqual (left right : Tree) : Bool :=
  have := left.decideEq right
  decide (left = right)

def keysOf : Tree → List Bytes
  | .object members => members.map Prod.fst
  | _ => []

def listedKeys (name : Bytes) (keys : List Bytes) : List (Bytes × Tree) :=
  if keys = [] then [] else [(name, .array ((keys.insertionSort lexLE).map .string))]

def mapDiffKeys (prev next : Tree) : Option Tree :=
  let removed := (keysOf prev).filter fun key => (next.member key).isNone
  let added := (keysOf next).filter fun key => (prev.member key).isNone
  let changed := (keysOf next).filter fun key =>
    match prev.member key, next.member key with
    | some prevValue, some value => !deepEqual prevValue value
    | _, _ => false
  if added = [] ∧ removed = [] ∧ changed = [] then none
  else
    some (.ofMembers (listedKeys (ascii "added") added ++ listedKeys (ascii "removed") removed ++
      listedKeys (ascii "changed") changed))

/-- An entry and the metadata with it. `metaBase` is the metadata to store so far. -/
def addRevision (kind : RevisionKind) (prevMeta metaBase : Tree) (nowMs : Int) (updatedBy : Bytes)
    (members : List (Bytes × Tree)) : Tree × Int :=
  let entries := readRevisionEntries metaBase kind.versionsKey
  let entries := if entries = [] then readRevisionEntries prevMeta kind.versionsKey else entries
  let version := nextRevisionVersion floats entries
  let entry := .ofMembers ([(ascii "version", number version),
    (ascii "updated_unix_ms", number nowMs), (ascii "updated_by", .string updatedBy)] ++ members)
  (((metaBase.setMember kind.versionsKey
      (.array (trimRevisionEntries (entries ++ [entry]) kind.maxRevisions))).setMember
    kind.versionKey (number version)).setMember kind.updatedKey (number nowMs), version)

structure OrchestratorRun where
  status : Bytes
  goal : Bytes
  goalContract : Tree
  rolePlanSnapshot : Tree
  metadata : Tree

def decodeMeta (column : Tree) : Tree :=
  if column.isObject then column else .object []

/-- A `map[string]any` that is not `nil`. -/
abbrev Fields := { tree : Tree // tree.isObject = true }

structure OrchestratorRunUpdate where
  status : Option Bytes
  expectedStatus : Option Bytes
  expectedOwner : Option Bytes
  goal : Option Bytes
  goalContract : Option Fields
  rolePlanSnapshot : Option Fields
  metadata : Option Tree

namespace OrchestratorRunUpdate

def sets (update : OrchestratorRunUpdate) : Bool :=
  update.status.isSome || update.goal.isSome || update.goalContract.isSome ||
    update.rolePlanSnapshot.isSome || update.metadata.isSome

def store (update : OrchestratorRunUpdate) (run : OrchestratorRun) : OrchestratorRun where
  status := (update.status.map trimSpace).getD run.status
  goal := (update.goal.map trimSpace).getD run.goal
  goalContract := (update.goalContract.map Subtype.val).getD run.goalContract
  rolePlanSnapshot := (update.rolePlanSnapshot.map Subtype.val).getD run.rolePlanSnapshot
  metadata := update.metadata.getD run.metadata

end OrchestratorRunUpdate

/-- `COALESCE(meta->>'orchestrator_owner','')`; `jsonText` is how the database
writes a value that is not a string. -/
def ownerOf (jsonText : Tree → Bytes) (run : OrchestratorRun) : Bytes :=
  match run.metadata.member (ascii "orchestrator_owner") with
  | none | some .null => []
  | some (.string owner) => owner
  | some value => jsonText value

def OrchestratorRunUpdate.selects (jsonText : Tree → Bytes) (update : OrchestratorRunUpdate)
    (run : OrchestratorRun) : Bool :=
  (update.expectedStatus.all fun status => run.status = trimSpace status) &&
    update.expectedOwner.all fun owner => ownerOf jsonText run = trimSpace owner

structure OrchestratorRunUpdateInput where
  status : Option Bytes := none
  expectedStatus : Option Bytes := none
  expectedOwner : Option Bytes := none
  goal : Option Bytes := none
  goalContract : Option Fields := none
  rolePlanSnapshot : Option Fields := none
  metadata : Option Fields := none

/-- The metadata to store, if any, and the versions that were given. -/
structure Draft where
  metadata : Option Tree
  versions : List (RevisionKind × Int) := []

def Draft.revise (kind : RevisionKind) (prevMeta : Tree) (nowMs : Int) (updatedBy : Bytes)
    (members : List (Bytes × Tree)) (draft : Draft) : Draft :=
  let revised := addRevision floats kind prevMeta (draft.metadata.getD prevMeta) nowMs updatedBy
    members
  { metadata := some revised.1, versions := draft.versions ++ [(kind, revised.2)] }

def flag (name : Bytes) (value : Bool) : List (Bytes × Tree) :=
  if value then [(name, .bool true)] else []

def reviseGoal (prev : OrchestratorRun) (req : OrchestratorRunUpdateInput) (nowMs : Int)
    (updatedBy : Bytes) (draft : Draft) : Draft :=
  let goalPrev := trimSpace prev.goal
  let goalNext := (req.goal.map trimSpace).getD goalPrev
  let contractPrev := decodeMeta prev.goalContract
  let contractNext := (req.goalContract.map Subtype.val).getD contractPrev
  let goalChanged := decide (goalNext ≠ goalPrev)
  let contractChanged := !deepEqual contractPrev contractNext
  if goalChanged || contractChanged then
    draft.revise floats .goal (decodeMeta prev.metadata) nowMs updatedBy
      ([(ascii "goal", .string goalNext), (ascii "goal_contract", contractNext)] ++
        flag (ascii "goal_changed") goalChanged ++
        flag (ascii "goal_contract_changed") contractChanged ++
        optionalMember (ascii "goal_contract_diff") (mapDiffKeys contractPrev contractNext))
  else draft

def reviseRolePlan (prev : OrchestratorRun) (req : OrchestratorRunUpdateInput) (nowMs : Int)
    (updatedBy : Bytes) (draft : Draft) : Draft :=
  let rolePrev := decodeMeta prev.rolePlanSnapshot
  let roleNext := (req.rolePlanSnapshot.map Subtype.val).getD rolePrev
  if !deepEqual rolePrev roleNext then
    draft.revise floats .rolePlan (decodeMeta prev.metadata) nowMs updatedBy
      ([(ascii "role_plan_snapshot", roleNext)] ++
        optionalMember (ascii "role_plan_diff") (mapDiffKeys rolePrev roleNext))
  else draft

def firstDraft (prev : OrchestratorRun) (req : OrchestratorRunUpdateInput) : Draft where
  metadata := req.metadata.map fun given =>
    mergeOrchestratorRevisionHistory given.val (decodeMeta prev.metadata)

def draftRevisions (prev : OrchestratorRun) (req : OrchestratorRunUpdateInput) (nowMs : Int)
    (updatedBy : Bytes) : Draft :=
  reviseRolePlan floats prev req nowMs updatedBy
    (reviseGoal floats prev req nowMs updatedBy (firstDraft prev req))

def updateOf (req : OrchestratorRunUpdateInput) (draft : Draft) : OrchestratorRunUpdate where
  status := req.status
  expectedStatus := req.expectedStatus
  expectedOwner := req.expectedOwner
  goal := req.goal
  goalContract := req.goalContract
  rolePlanSnapshot := req.rolePlanSnapshot
  metadata := draft.metadata

inductive Reply
  | ok (run : OrchestratorRun)
  | error (code : Nat) (message : Bytes)

inductive Call
  | get
  | now
  | exec (update : OrchestratorRunUpdate) (versions : List (RevisionKind × Int))
  | reply (reply : Reply)

def Response : Call → Type
  | .get => Except Bytes OrchestratorRun
  | .now => Int
  | .exec .. => Except Bytes Bool
  | .reply _ => Unit

def Effect (jsonText : Tree → Bytes) :
    (call : Call) → OrchestratorRun → Response call → OrchestratorRun → Prop
  | .get, run, response, next => next = run ∧ ∀ found, response = .ok found → found = run
  | .now, run, _, next => next = run
  | .exec update _, run, response, next =>
    match response with
    | .error _ => next = run
    | .ok affected =>
      affected = update.selects jsonText run ∧ next = if affected then update.store run else run
  | .reply _, run, _, next => next = run

abbrev RunProgram := Program Call Response

inductive UpdateError
  | conflict
  | other (message : Bytes)

def getOrchestratorRun : RunProgram (Except UpdateError OrchestratorRun) := do
  match ← Program.request Call.get with
  | .error message => pure (.error (.other message))
  | .ok run => pure (.ok run)

def updateOrchestratorRun (update : OrchestratorRunUpdate) (versions : List (RevisionKind × Int)) :
    RunProgram (Except UpdateError OrchestratorRun) := do
  if update.status.any fun status => trimSpace status = [] then
    pure (.error (.other (ascii "missing status")))
  else if update.expectedStatus.any fun status => trimSpace status = [] then
    pure (.error (.other (ascii "missing expected_status")))
  else if ¬update.sets then pure (.error (.other (ascii "no updates")))
  else
    match ← Program.request (Call.exec update versions) with
    | .error message => pure (.error (.other message))
    | .ok true => getOrchestratorRun
    | .ok false =>
      if update.expectedStatus.isSome || update.expectedOwner.isSome then
        pure (.error .conflict)
      else getOrchestratorRun

def answerWith (reply : Reply) : RunProgram Unit := do
  let _ ← Program.request (Call.reply reply)
  pure ()

def handleTeamOrchestratorRunUpdate (req : OrchestratorRunUpdateInput) (updatedBy : Bytes) :
    RunProgram Unit := do
  match ← Program.request Call.get with
  | .error _ => answerWith (.error 404 (ascii "orchestrator run not found"))
  | .ok prev =>
    let nowMs ← Program.request Call.now
    let draft := draftRevisions floats prev req nowMs updatedBy
    match ← updateOrchestratorRun (updateOf req draft) draft.versions with
    | .error .conflict => answerWith (.error 409 (ascii "orchestrator run conflict"))
    | .error (.other message) => answerWith (.error 400 message)
    | .ok run => answerWith (.ok run)

/-- A request whose metadata has no revisions. -/
structure Patch where
  req : OrchestratorRunUpdateInput
  updatedBy : Bytes
  plain : ∀ given ∈ req.metadata, ∀ key ∈ revisionKeys, given.val.member key = none

def system (jsonText : Tree → Bytes) : SharedStore OrchestratorRun Patch Call Response where
  effect := Effect jsonText
  program := fun patch => handleTeamOrchestratorRunUpdate floats patch.req patch.updatedBy

abbrev RunEvent := Event OrchestratorRun Call Response

structure CreateInput where
  status : Bytes := []
  goal : Bytes
  goalContract : Option Fields := none
  metadata : Option Fields := none

/-- Revisions of a kind begin with version 1, if there is something to record. -/
def firstRevision (kind : RevisionKind) (nowMs : Int) (updatedBy : Bytes) (metadata : Tree) :
    Option (List (Bytes × Tree)) → Tree
  | none => metadata
  | some members =>
    let entry := .ofMembers ([(ascii "version", number 1), (ascii "updated_unix_ms", number nowMs),
      (ascii "updated_by", .string updatedBy)] ++ members)
    ((metadata.setMember kind.versionsKey (.array [entry])).setMember kind.versionKey
      (number 1)).setMember kind.updatedKey (number nowMs)

def setIfMissing (metadata : Tree) (key : Bytes) (value : Tree) : Tree :=
  if (metadata.member key).isSome then metadata else metadata.setMember key value

/-- One part of `initializeOrchestratorRevisionHistory`: the first revision of a
kind, or the counter and the time for the entries that are there. -/
def initializeRevisions (kind : RevisionKind) (members : Option (List (Bytes × Tree)))
    (nowMs : Int) (updatedBy : Bytes) (metadata : Tree) : Tree :=
  let entries := readRevisionEntries metadata kind.versionsKey
  if entries = [] then firstRevision kind nowMs updatedBy metadata members
  else
    setIfMissing (setIfMissing metadata kind.versionKey
      (number (nextRevisionVersion floats entries - 1))) kind.updatedKey (number nowMs)

def initializeOrchestratorRevisionHistory (metadata : Option Fields) (goal : Bytes)
    (goalContract rolePlan : Option Fields) (nowMs : Int) (updatedBy : Bytes) : Tree :=
  let metadata := (metadata.map Subtype.val).getD (.object [])
  let contract := (goalContract.map Subtype.val).getD (.object [])
  initializeRevisions floats .rolePlan
    (rolePlan.map fun plan => [(ascii "role_plan_snapshot", plan.val)]) nowMs updatedBy
    (initializeRevisions floats .goal
      (some [(ascii "goal", .string goal), (ascii "goal_contract", contract)]) nowMs updatedBy metadata)

/-- `handleTeamOrchestratorRunCreate`: the row that it stores, unless the goal is
blank. `rolePlan` is the plan of the request or that of the team. -/
def createdRun (req : CreateInput) (rolePlan : Option Fields) (nowMs : Int) (updatedBy : Bytes) :
    Option OrchestratorRun :=
  let goal := trimSpace req.goal
  if goal = [] then none
  else
    some {
      status := if trimSpace req.status = [] then ascii "running" else trimSpace req.status
      goal
      goalContract := (req.goalContract.map Subtype.val).getD (.object [])
      rolePlanSnapshot := (rolePlan.map Subtype.val).getD (.object [])
      metadata := initializeOrchestratorRevisionHistory floats req.metadata goal req.goalContract
        rolePlan nowMs updatedBy }

end AgentC.Broker.OrchestratorRuns
