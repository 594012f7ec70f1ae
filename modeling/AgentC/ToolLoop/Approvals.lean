import AgentC.Foundation.Machine
import AgentC.HttpAllowlist.Targets
import Mathlib.Data.List.Perm.Subperm

/-! # Approvals of tool calls

A run waits in `daemon/src/approval_queue.cpp` for the approval of a tool call, and the
endpoint of `daemon/src/approval_queue_endpoints.cpp` records decisions. Threads take turns
between calls of the database. -/

namespace AgentC.ToolLoop

open HttpAllowlist (trimCopy lowerCopy)

structure ApprovalGateRule where
  required : Int := 1
  roles : List Bytes := []
  timeoutMs : Int := 300000
  requireDistinctRoles : Bool := false
  bestEffort : Bool := false

structure ApprovalDecision where
  memberId : Bytes
  memberRole : Bytes
  decision : Bytes
deriving DecidableEq, Repr

namespace ApprovalGateRule

variable (rule : ApprovalGateRule)

/-- `role_constraints_to_set` of what `build_request_row` stores. -/
def allowedRoles : List Bytes :=
  (rule.roles.map fun role => lowerCopy (trimCopy role)).filter (· ≠ [])

/-- The key under which `count_decisions` counts a row, if it does. -/
def keyOf (row : ApprovalDecision) : Option Bytes :=
  let role := lowerCopy (trimCopy row.memberRole)
  let key := if rule.requireDistinctRoles then role else row.memberId
  if rule.allowedRoles ≠ [] ∧ role ∉ rule.allowedRoles ∨ key = [] then none else some key

def keysWith (decision : Bytes) (rows : List ApprovalDecision) : List Bytes :=
  ((rows.filter fun row => lowerCopy (trimCopy row.decision) = decision).filterMap
    rule.keyOf).dedup

def approved (rows : List ApprovalDecision) : Int :=
  (rule.keysWith (ascii "approve") rows).length

def denied (rows : List ApprovalDecision) : Prop :=
  rule.keysWith (ascii "deny") rows ≠ []

instance (rows : List ApprovalDecision) : Decidable (rule.denied rows) :=
  inferInstanceAs (Decidable (_ ≠ _))

end ApprovalGateRule

/-- How a request is resolved. -/
inductive Resolution
  | cancelled
  | denied
  | approved
  | expired

def Resolution.status : Resolution → Bytes
  | cancelled | denied => ascii "denied"
  | approved => ascii "approved"
  | expired => ascii "expired"

def Resolution.answer (bestEffort : Bool) : Resolution → Status
  | cancelled => .cancelled
  | denied => .limit
  | approved => .ok
  | expired => if bestEffort then .ok else .limit

/-- What a request to the endpoint does next. -/
inductive ApprovalPost
  | insert (row : ApprovalDecision)
  | count
  | update (resolution : Resolution)

/-- What `approval_gate_tool` does next. -/
inductive ApprovalWait
  | get
  | count
  | update (resolution : Resolution)
  | returned (answer : Status)

/-- A request with what is stored for it, and the threads that are at it. -/
structure ApprovalRequest where
  created : Int
  status : Bytes := ascii "pending"
  decisions : List ApprovalDecision := []
  posts : List ApprovalPost := []
  wait : ApprovalWait := .get

/-- The next call of a thread, or a request to the endpoint that comes to its first one. -/
inductive ApprovalStep
  | post (memberId memberRole decision : Bytes)
  | proceed (index : Nat) (fails : Bool)
  | wait (now : Int) (cancelled fails : Bool)

namespace ApprovalRequest

variable (rule : ApprovalGateRule) (request : ApprovalRequest)

def expires : Int :=
  if 0 < rule.timeoutMs then request.created + rule.timeoutMs else 0

def settle (resolution : Resolution) (fails : Bool) : ApprovalRequest :=
  if fails then request else { request with status := resolution.status }

def post (memberId memberRole decision : Bytes) : ApprovalRequest :=
  let memberId := trimCopy memberId
  let memberRole := lowerCopy (trimCopy memberRole)
  let decision := lowerCopy (trimCopy decision)
  if memberId = [] ∨ decision ≠ ascii "approve" ∧ decision ≠ ascii "deny" then request
  else if request.status ≠ [] ∧ lowerCopy request.status ≠ ascii "pending" then request
  else if rule.allowedRoles ≠ [] ∧ memberRole ∉ rule.allowedRoles then request
  else { request with posts := request.posts ++ [.insert { memberId, memberRole, decision }] }

def proceed (index : Nat) (fails : Bool) : ApprovalRequest :=
  let finished := { request with posts := request.posts.eraseIdx index }
  match request.posts[index]? with
  | none => request
  | some (.insert row) =>
    if fails then finished
    else { request with
      decisions := request.decisions ++ [row], posts := request.posts.set index .count }
  | some .count =>
    if fails then finished
    else if rule.denied request.decisions then
      { request with posts := request.posts.set index (.update .denied) }
    else if max 1 (max 0 rule.required) ≤ rule.approved request.decisions then
      { request with posts := request.posts.set index (.update .approved) }
    else finished
  | some (.update resolution) => finished.settle resolution fails

def waitStep (now : Int) (cancelled fails : Bool) : ApprovalRequest :=
  match request.wait with
  | .get =>
    if cancelled then { request with wait := .update .cancelled }
    else if fails then { request with wait := .returned .internal }
    else if request.status = [] ∨ request.status = ascii "pending" then
      { request with wait := .count }
    else if lowerCopy request.status = ascii "approved" then
      { request with wait := .returned .ok }
    else if lowerCopy request.status = ascii "denied" then
      { request with wait := .returned .limit }
    else if lowerCopy request.status = ascii "expired" then
      { request with wait := .returned (Resolution.expired.answer rule.bestEffort) }
    else { request with wait := .count }
  | .count =>
    if fails then { request with wait := .returned .internal }
    else if rule.denied request.decisions then { request with wait := .update .denied }
    else if rule.required ≤ rule.approved request.decisions then
      { request with wait := .update .approved }
    else if 0 < request.expires rule ∧ request.expires rule ≤ now then
      { request with wait := .update .expired }
    else { request with wait := .get }
  | .update resolution =>
    { request.settle resolution fails with
      wait := .returned (resolution.answer rule.bestEffort) }
  | .returned _ => request

def step : ApprovalStep → ApprovalRequest
  | .post memberId memberRole decision => request.post rule memberId memberRole decision
  | .proceed index fails => request.proceed rule index fails
  | .wait now cancelled fails => request.waitStep rule now cancelled fails

/-- Enough have approved and nobody has denied, or nobody needs to any more. -/
def Permits (step : ApprovalStep) : Prop :=
  rule.required ≤ rule.approved request.decisions ∧ ¬rule.denied request.decisions ∨
    rule.bestEffort = true ∧ 0 < request.expires rule ∧
      ∃ now cancelled fails, step = .wait now cancelled fails ∧ request.expires rule ≤ now

end ApprovalRequest

def approvals (rule : ApprovalGateRule) : Machine ApprovalRequest ApprovalStep Unit where
  step request step := (request.step rule step, [])

/-- The tool may run behind this resolution. -/
def Resolution.Grants (rule : ApprovalGateRule) (resolution : Resolution) : Prop :=
  resolution.answer rule.bestEffort = .ok

/-- No thread has found that the tool may run. -/
structure ApprovalRequest.Withheld (rule : ApprovalGateRule) (request : ApprovalRequest) :
    Prop where
  status : ∀ resolution : Resolution, resolution.Grants rule →
    lowerCopy request.status ≠ resolution.status
  posts : ∀ resolution, .update resolution ∈ request.posts → ¬resolution.Grants rule
  wait : ∀ resolution, request.wait = .update resolution → ¬resolution.Grants rule
  answer : request.wait ≠ .returned .ok

theorem Resolution.grants_of_status {rule : ApprovalGateRule} {resolution other : Resolution}
    (granted : other.Grants rule) (same : lowerCopy resolution.status = other.status) :
    resolution.Grants rule := by
  cases resolution <;> cases other <;> first
    | exact granted
    | exact absurd same (by decide)
    | cases granted

namespace ApprovalRequest.Withheld

variable {rule : ApprovalGateRule} {request : ApprovalRequest}

theorem withPosts {posts : List ApprovalPost} (withheld : request.Withheld rule)
    (old : ∀ resolution, .update resolution ∈ posts →
      .update resolution ∈ request.posts ∨ ¬resolution.Grants rule) :
    { request with posts }.Withheld rule :=
  { withheld with
    posts := fun resolution member => (old resolution member).elim (withheld.posts resolution) id }

theorem settle {resolution : Resolution} (withheld : request.Withheld rule)
    (refused : ¬resolution.Grants rule) (fails : Bool) :
    (request.settle resolution fails).Withheld rule := by
  rw [ApprovalRequest.settle]
  split
  · exact withheld
  · exact { withheld with
      status := fun _ granted same => refused (Resolution.grants_of_status granted same) }

theorem proceed (withheld : request.Withheld rule)
    (early : rule.required ≤ rule.approved request.decisions → rule.denied request.decisions)
    (index : Nat) (fails : Bool) : (request.proceed rule index fails).Withheld rule := by
  have finished : { request with posts := request.posts.eraseIdx index }.Withheld rule :=
    withheld.withPosts fun _ member => .inl (List.mem_of_mem_eraseIdx member)
  have moved : ∀ next, (∀ resolution, next = .update resolution → ¬resolution.Grants rule) →
      { request with posts := request.posts.set index next }.Withheld rule := by
    intro next refused
    refine withheld.withPosts fun resolution member => ?_
    exact (List.mem_or_eq_of_mem_set member).imp_right fun same => refused resolution same.symm
  rw [ApprovalRequest.proceed]
  split
  · exact withheld
  · split
    · exact finished
    · have next := moved .count fun _ same => by cases same
      exact { next with }
  · split
    · exact finished
    split
    · refine moved _ fun resolution same => ?_
      cases same
      simp [Resolution.Grants, Resolution.answer]
    split
    · next enough =>
      refine absurd (early ?_) ‹_›
      omega
    · exact finished
  · next resolution found =>
    exact finished.settle (withheld.posts resolution (List.mem_of_getElem? found)) fails

theorem withWait {wait : ApprovalWait} (withheld : request.Withheld rule)
    (next : ∀ resolution, wait = .update resolution → ¬resolution.Grants rule)
    (answer : wait ≠ .returned .ok) : { request with wait }.Withheld rule :=
  { withheld with wait := next, answer }

theorem waitStep {now : Int} {cancelled fails : Bool} (withheld : request.Withheld rule)
    (early : ¬request.Permits rule (.wait now cancelled fails)) :
    (request.waitStep rule now cancelled fails).Withheld rule := by
  have enough : rule.required ≤ rule.approved request.decisions → rule.denied request.decisions :=
    fun enough => not_not.mp fun silent => early (.inl ⟨enough, silent⟩)
  have refused : ∀ {next : Resolution}, ¬next.Grants rule →
      { request with wait := .update next }.Withheld rule := fun refused =>
    withheld.withWait (fun _ same => ApprovalWait.update.inj same ▸ refused) (by simp)
  rw [ApprovalRequest.waitStep]
  split
  · split_ifs with _ _ _ approved _ expired
    · exact refused (by simp [Resolution.Grants, Resolution.answer])
    · exact withheld.withWait (by simp) (by simp)
    · exact withheld.withWait (by simp) (by simp)
    · exact absurd approved (withheld.status .approved rfl)
    · exact withheld.withWait (by simp) (by simp)
    · exact withheld.withWait (by simp) fun answer =>
        withheld.status .expired (ApprovalWait.returned.inj answer) expired
    · exact withheld.withWait (by simp) (by simp)
  · split_ifs with _ denied approved expired
    · exact withheld.withWait (by simp) (by simp)
    · exact refused (by simp [Resolution.Grants, Resolution.answer])
    · exact absurd (enough approved) denied
    · refine refused fun granted => ?_
      by_cases bestEffort : rule.bestEffort = true
      · exact early (.inr ⟨bestEffort, expired.1, now, cancelled, fails, rfl, expired.2⟩)
      · simp [Resolution.Grants, Resolution.answer, bestEffort] at granted
    · exact withheld.withWait (by simp) (by simp)
  · next resolution updating =>
    have refused := withheld.wait resolution updating
    exact (withheld.settle refused fails).withWait (by simp) fun answer =>
      refused (ApprovalWait.returned.inj answer)
  · exact withheld

theorem step {step : ApprovalStep} (withheld : request.Withheld rule)
    (early : ¬request.Permits rule step) : (request.step rule step).Withheld rule := by
  cases step with
  | post memberId memberRole decision =>
    rw [ApprovalRequest.step, ApprovalRequest.post]
    split_ifs
    any_goals exact withheld
    · exact withheld.withPosts fun _ member => .inl (by simpa using member)
  | proceed index fails =>
    exact withheld.proceed (fun enough => not_not.mp fun silent => early (.inl ⟨enough, silent⟩))
      index fails
  | wait => exact withheld.waitStep early

end ApprovalRequest.Withheld

def sampleRule : ApprovalGateRule :=
  { required := 2, requireDistinctRoles := true }

end AgentC.ToolLoop
