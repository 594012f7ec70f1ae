import AgentC.Foundation.Fallible
import AgentC.Foundation.Selections
import AgentC.Foundation.GoStrings

/-! # Quorum approvals of team runs

`evaluateTeamRunQuorum` and `expandTeamRunApprovals` of
`broker/internal/broker/team_run_helpers.go`, and reading stored approvals back
in `broker/internal/broker/server_teams.go`. -/

namespace AgentC.Broker.TeamRunQuorum

/-- `db.TeamQuorumRule`, with its decoded role allowlist. -/
structure TeamQuorumRule where
  ruleId : Bytes
  action : Bytes
  minApprovals : Int64
  roleAllowlist : List Bytes
  requireDistinctRoles : Bool
  quorumMode : Bytes
deriving DecidableEq, Repr

structure TeamMember where
  status : Bytes
  role : Bytes
deriving DecidableEq, Repr

structure TeamRunApproval where
  ruleId : Bytes
  memberId : Bytes
  decision : Bytes
  reason : Bytes
deriving DecidableEq, Repr

structure TeamRunApprovalRecord where
  ruleId : Bytes
  memberId : Bytes
  role : Bytes
  decision : Bytes
  reason : Bytes
deriving DecidableEq, Repr

structure TeamRunQuorumRuleEval where
  ruleId : Bytes
  action : Bytes
  quorumMode : Bytes
  minApprovals : Int64
  approved : Nat
  missing : Int64
  roleAllowlist : List Bytes
  requireDistinctRoles : Bool
  /-- A set, as `approvedDistinctRoles` is: the order is not specified. -/
  approvedMemberIds : List Bytes
  approvedDistinctRoles : List Bytes
deriving DecidableEq, Repr

structure TeamRunQuorumEval where
  rules : List TeamRunQuorumRuleEval := []
  strictOk : Bool := true
deriving DecidableEq, Repr

section Quorum

variable (letters : LowerCase)

/-- `strings.ToLower(strings.TrimSpace(text))` -/
def normalized (text : Bytes) : Bytes :=
  letters.lower (trimSpace text)

def isTeamRunQuorumAction (action : Bytes) : Bool :=
  normalized letters action = ascii "team_run" || normalized letters action = ascii "run"

def filterTeamRunRules (rules : List TeamQuorumRule) : List TeamQuorumRule :=
  rules.filter fun rule => isTeamRunQuorumAction letters rule.action

def toLowerSet (values : List Bytes) : List Bytes :=
  (values.map (normalized letters)).filter fun value => value ≠ []

def isActive (member : TeamMember) : Bool :=
  normalized letters member.status = [] || normalized letters member.status = ascii "active"

def allowsRole (allowed : List Bytes) (role : Bytes) : Bool :=
  allowed.isEmpty || allowed.contains role

def approveText : Bytes :=
  ascii "approve"

def approves (rule : TeamQuorumRule) (approval : TeamRunApproval) : Bool :=
  approval.decision = approveText && (approval.ruleId = [] || approval.ruleId = rule.ruleId)

structure Approved where
  members : List Bytes := []
  roles : List Bytes := []
deriving DecidableEq, Repr

def Approved.add (approved : Approved) (memberId role : Bytes) : Approved where
  members := approved.members ++ [memberId]
  roles := if role = [] ∨ role ∈ approved.roles then approved.roles else approved.roles ++ [role]

variable (membersById : Bytes → Option TeamMember)

def countApprovals (rule : TeamQuorumRule) :
    List TeamRunApproval → Approved → Except Bytes Approved
  | [], approved => .ok approved
  | approval :: approvals, approved =>
    if !approves rule approval then countApprovals rule approvals approved
    else
      match membersById approval.memberId with
      | none => .error (ascii "unknown approval member_id: " ++ approval.memberId)
      | some member =>
        if !isActive letters member then
          .error (ascii "approval member not active: " ++ approval.memberId)
        else
          let role := normalized letters member.role
          if !allowsRole (toLowerSet letters rule.roleAllowlist) role then
            countApprovals rule approvals approved
          else if approval.memberId ∈ approved.members then
            countApprovals rule approvals approved
          else countApprovals rule approvals (approved.add approval.memberId role)

def approvedCount (rule : TeamQuorumRule) (approved : Approved) : Nat :=
  if rule.requireDistinctRoles then approved.roles.length else approved.members.length

def ruleEval (rule : TeamQuorumRule) (approved : Approved) : TeamRunQuorumRuleEval :=
  let missing := rule.minApprovals - Int64.ofNat (approvedCount rule approved)
  { ruleId := rule.ruleId
    action := rule.action
    quorumMode := rule.quorumMode
    minApprovals := rule.minApprovals
    approved := approvedCount rule approved
    missing := if missing < 0 then 0 else missing
    roleAllowlist := rule.roleAllowlist
    requireDistinctRoles := rule.requireDistinctRoles
    approvedMemberIds := approved.members
    approvedDistinctRoles := approved.roles }

def blocks (eval : TeamRunQuorumRuleEval) : Bool :=
  normalized letters eval.quorumMode = ascii "strict" && eval.missing ≠ 0

def TeamRunQuorumEval.add (out : TeamRunQuorumEval) (eval : TeamRunQuorumRuleEval) :
    TeamRunQuorumEval where
  rules := out.rules ++ [eval]
  strictOk := out.strictOk && !blocks letters eval

def evaluateRules (approvals : List TeamRunApproval) :
    List TeamQuorumRule → TeamRunQuorumEval → Except Bytes TeamRunQuorumEval
  | [], out => .ok out
  | rule :: rules, out =>
    if !isTeamRunQuorumAction letters rule.action then evaluateRules approvals rules out
    else do
      let approved ← countApprovals letters membersById rule approvals {}
      evaluateRules approvals rules (out.add letters (ruleEval rule approved))

/-- The first approval that names no rule of the list. -/
def unknownRule (rules : List TeamQuorumRule) (approvals : List TeamRunApproval) :
    Option TeamRunApproval :=
  approvals.find? fun approval =>
    approval.ruleId ≠ [] && !((filterTeamRunRules letters rules).map (·.ruleId)).contains
      approval.ruleId

def evaluateTeamRunQuorum (rules : List TeamQuorumRule) (approvals : List TeamRunApproval) :
    Except Bytes TeamRunQuorumEval :=
  match unknownRule letters rules approvals with
  | some approval => .error (ascii "unknown approval rule_id: " ++ approval.ruleId)
  | none => evaluateRules letters membersById approvals rules {}

/-- `roleAllow`: of the rules with one id, the last is in the map. -/
def roleAllow (rules : List TeamQuorumRule) (ruleId : Bytes) : List Bytes :=
  match (filterTeamRunRules letters rules).reverse.find? fun rule => rule.ruleId = ruleId with
  | some rule => toLowerSet letters rule.roleAllowlist
  | none => []

/-- The key of `seen`. -/
def recordKey (ruleId memberId : Bytes) : Bytes :=
  ruleId ++ 0 :: memberId

/-- `seen` and `out` of the loop over the approvals. -/
structure Expansion where
  seen : List Bytes := []
  out : List TeamRunApprovalRecord := []

def record (approval : TeamRunApproval) (role ruleId : Bytes) : TeamRunApprovalRecord where
  ruleId := ruleId
  memberId := approval.memberId
  role := role
  decision := approval.decision
  reason := approval.reason

def expandRules (rules : List TeamQuorumRule) (approval : TeamRunApproval) (role : Bytes) :
    List Bytes → Expansion → Expansion
  | [], expansion => expansion
  | ruleId :: ruleIds, expansion =>
    if !allowsRole (roleAllow letters rules ruleId) role then
      expandRules rules approval role ruleIds expansion
    else if recordKey ruleId approval.memberId ∈ expansion.seen then
      expandRules rules approval role ruleIds expansion
    else
      expandRules rules approval role ruleIds {
        seen := recordKey ruleId approval.memberId :: expansion.seen
        out := expansion.out ++ [record approval role ruleId] }

def ruleIds (rules : List TeamQuorumRule) : List Bytes :=
  (filterTeamRunRules letters rules).map (·.ruleId)

def targetRules (rules : List TeamQuorumRule) (approval : TeamRunApproval) : List Bytes :=
  if approval.ruleId = [] then ruleIds letters rules else [approval.ruleId]

def approvingRole (rules : List TeamQuorumRule) (approval : TeamRunApproval) :
    Except Bytes Bytes :=
  match membersById approval.memberId with
  | none => .error (ascii "unknown approval member_id: " ++ approval.memberId)
  | some member =>
    if !isActive letters member then
      .error (ascii "approval member not active: " ++ approval.memberId)
    else if normalized letters member.role = [] then
      .error (ascii "approval member missing role: " ++ approval.memberId)
    else if approval.ruleId ≠ [] ∧ approval.ruleId ∉ ruleIds letters rules then
      .error (ascii "unknown approval rule_id: " ++ approval.ruleId)
    else .ok (normalized letters member.role)

def expandApprovals (rules : List TeamQuorumRule) :
    List TeamRunApproval → Expansion → Except Bytes Expansion
  | [], expansion => .ok expansion
  | approval :: approvals, expansion => do
    let role ← approvingRole letters membersById rules approval
    expandApprovals rules approvals
      (expandRules letters rules approval role (targetRules letters rules approval) expansion)

def expandTeamRunApprovals (rules : List TeamQuorumRule) (approvals : List TeamRunApproval) :
    Except Bytes (List TeamRunApprovalRecord) :=
  if ruleIds letters rules = [] then .ok []
  else do
    let expansion ← expandApprovals letters membersById rules approvals {}
    return expansion.out

/-- `approvalsToTeamRunApprovals`: a stored record as an approval. -/
def approvalsToTeamRunApprovals (rows : List TeamRunApprovalRecord) : List TeamRunApproval :=
  rows.map fun row => {
    ruleId := row.ruleId
    memberId := row.memberId
    decision := normalized letters row.decision
    reason := row.reason }

end Quorum

end AgentC.Broker.TeamRunQuorum
