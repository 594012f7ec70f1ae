import Mathlib.Logic.Relation
import Mathlib.Logic.Function.Basic
import Mathlib.Data.Set.Insert
import Mathlib.Order.Defs.LinearOrder

/-! # Leader election by intersecting quorums

An abstract account of voting in numbered terms. Nodes campaign for themselves
with a decision, support candidates, count the support they learn of, win with
a quorum and follow winners. Nothing is assumed about messages: a node may
learn of any support or win that ever happened, at any later time.

A node may support a second candidate in a term, but only one that has already
won it. That is why the invariant below is about the supporters of a winner
and not about single votes. -/

namespace AgentC.MajorityVoting

variable {Node : Type} {Term : Type} [LinearOrder Term] {Decision : Type}

/-- What one node knows in its current term. -/
structure Local (Node Term Decision : Type) where
  term : Term
  vote : Option Node
  campaign : Option Decision
  grants : Set Node
  leader : Option (Node × Decision)

/-- The state of a node that has just entered `term`. -/
def Local.fresh (term : Term) : Local Node Term Decision where
  term := term
  vote := none
  campaign := none
  grants := ∅
  leader := none

/-- The local states, and the record of everything that ever happened. -/
structure World (Node Term Decision : Type) where
  node : Node → Local Node Term Decision
  supports : Set (Node × Term × Node)
  campaigns : Set (Node × Term × Decision)
  commits : Set (Term × Node × Decision)

variable {term : Term} {state : Local Node Term Decision}

namespace World

def initial (term : Term) : World Node Term Decision where
  node := fun _ => .fresh term
  supports := ∅
  campaigns := ∅
  commits := ∅

section Moves

variable [DecidableEq Node]

def setNode (world : World Node Term Decision) (node : Node)
    (state : Local Node Term Decision) : World Node Term Decision :=
  { world with node := Function.update world.node node state }

def adopt (world : World Node Term Decision) (node : Node) (term : Term) :
    World Node Term Decision :=
  world.setNode node (.fresh term)

/-- Move to `term` if it is later than the term the node is in. -/
def enter (world : World Node Term Decision) (node : Node) (term : Term) :
    World Node Term Decision :=
  if (world.node node).term < term then world.adopt node term else world

def start (world : World Node Term Decision) (node : Node) (term : Term)
    (decision : Decision) : World Node Term Decision :=
  { world.setNode node { Local.fresh term with
      vote := some node, campaign := some decision } with
    supports := insert (node, term, node) world.supports
    campaigns := insert (node, term, decision) world.campaigns }

def support (world : World Node Term Decision) (node candidate : Node) :
    World Node Term Decision :=
  { world.setNode node { world.node node with vote := some candidate } with
    supports := insert (node, (world.node node).term, candidate) world.supports }

def count (world : World Node Term Decision) (node voter : Node) :
    World Node Term Decision :=
  world.setNode node { world.node node with grants := insert voter (world.node node).grants }

def win (world : World Node Term Decision) (node : Node) (decision : Decision) :
    World Node Term Decision :=
  { world.setNode node { world.node node with leader := some (node, decision) } with
    commits := insert ((world.node node).term, node, decision) world.commits }

def follow (world : World Node Term Decision) (node leader : Node) (decision : Decision) :
    World Node Term Decision :=
  world.setNode node { world.node node with
    vote := some leader, campaign := none, leader := some (leader, decision) }

omit [LinearOrder Term] in
theorem setNode_node_of_ne (world : World Node Term Decision) {node other : Node}
    (different : other ≠ node) (state : Local Node Term Decision) :
    (world.setNode node state).node other = world.node other :=
  Function.update_of_ne different ..

omit [LinearOrder Term] in
@[simp] theorem setNode_node_self (world : World Node Term Decision) (node : Node)
    (state : Local Node Term Decision) : (world.setNode node state).node node = state :=
  Function.update_self ..

theorem enter_of_lt {world : World Node Term Decision} {node : Node}
    (later : (world.node node).term < term) : world.enter node term = world.adopt node term :=
  if_pos later

theorem enter_of_le {world : World Node Term Decision} {node : Node}
    (current : term ≤ (world.node node).term) : world.enter node term = world :=
  if_neg current.not_gt

@[simp] theorem enter_supports (world : World Node Term Decision) (node : Node) (term : Term) :
    (world.enter node term).supports = world.supports := by
  unfold enter
  split <;> rfl

@[simp] theorem enter_commits (world : World Node Term Decision) (node : Node) (term : Term) :
    (world.enter node term).commits = world.commits := by
  unfold enter
  split <;> rfl

theorem enter_node_of_ne (world : World Node Term Decision) {node other : Node}
    (different : other ≠ node) (term : Term) :
    (world.enter node term).node other = world.node other := by
  unfold enter
  split
  · exact world.setNode_node_of_ne different _
  · rfl

theorem enter_term {world : World Node Term Decision} {node : Node}
    (notPast : (world.node node).term ≤ term) :
    ((world.enter node term).node node).term = term := by
  rcases notPast.lt_or_eq with later | equal
  · rw [enter_of_lt later, adopt, setNode_node_self]
    rfl
  · rw [enter_of_le equal.ge, equal]

end Moves

end World

/-- The moves of the election. -/
inductive Move [DecidableEq Node] (Quorum : Set Node → Prop) :
    World Node Term Decision → World Node Term Decision → Prop
  | adopt {world} (node) (term) (later : (world.node node).term < term) :
      Move Quorum world (world.adopt node term)
  | start {world} (node) (term) (decision) (later : (world.node node).term < term) :
      Move Quorum world (world.start node term decision)
  | support {world} (node) (candidate)
      (free : (world.node node).vote = none ∨ (world.node node).vote = some candidate) :
      Move Quorum world (world.support node candidate)
  | count {world} (node) (voter)
      (supported : (voter, (world.node node).term, node) ∈ world.supports) :
      Move Quorum world (world.count node voter)
  | win {world} (node) (decision) (campaigning : (world.node node).campaign = some decision)
      (quorum : Quorum (insert node (world.node node).grants)) :
      Move Quorum world (world.win node decision)
  | follow {world} (node) (leader) (decision)
      (committed : ((world.node node).term, leader, decision) ∈ world.commits) :
      Move Quorum world (world.follow node leader decision)

theorem moves_enter [DecidableEq Node] (Quorum : Set Node → Prop)
    (world : World Node Term Decision) (node : Node) (term : Term) :
    Relation.ReflTransGen (Move Quorum) world (world.enter node term) := by
  rcases lt_or_ge (world.node node).term term with later | current
  · rw [World.enter_of_lt later]
    exact .single (.adopt node term later)
  · rw [World.enter_of_le current]

def World.Won (world : World Node Term Decision) (term : Term) (candidate : Node) : Prop :=
  ∃ decision, (term, candidate, decision) ∈ world.commits

/-- The local state of a node accounts for everything recorded about it. -/
structure World.Accounts (world : World Node Term Decision) (node : Node)
    (state : Local Node Term Decision) : Prop where
  /-- Support is remembered by the vote, unless a winner has replaced it. -/
  voted : ∀ {term candidate}, (node, term, candidate) ∈ world.supports →
    term ≤ state.term ∧ (state.term = term → state.vote = some candidate ∨
      ∃ winner, state.vote = some winner ∧ world.Won term winner)
  campaignBound : ∀ {term decision}, (node, term, decision) ∈ world.campaigns →
    term ≤ state.term
  campaigning : ∀ {decision}, state.campaign = some decision →
    (node, state.term, decision) ∈ world.campaigns ∧ (node, state.term, node) ∈ world.supports
  granted : ∀ {voter}, voter ∈ state.grants → (voter, state.term, node) ∈ world.supports
  led : ∀ {leader decision}, state.leader = some (leader, decision) →
    (state.term, leader, decision) ∈ world.commits

/-- What every reachable world satisfies. -/
structure Invariant (Quorum : Set Node → Prop) (world : World Node Term Decision) : Prop where
  accounts : ∀ node, world.Accounts node (world.node node)
  /-- Of two candidates a node supports in one term, one has won it. -/
  unique : ∀ {node term left right}, (node, term, left) ∈ world.supports →
    (node, term, right) ∈ world.supports →
      left = right ∨ world.Won term left ∨ world.Won term right
  /-- A quorum supports a winner and nobody else in its term. -/
  backed : ∀ {term winner}, world.Won term winner → ∃ voters, Quorum voters ∧
    ∀ voter ∈ voters, (voter, term, winner) ∈ world.supports ∧
      ∀ candidate, (voter, term, candidate) ∈ world.supports → candidate = winner
  campaignUnique : ∀ {node term left right}, (node, term, left) ∈ world.campaigns →
    (node, term, right) ∈ world.campaigns → left = right
  decided : ∀ {term winner decision}, (term, winner, decision) ∈ world.commits →
    (winner, term, decision) ∈ world.campaigns

namespace Invariant

theorem of_initial (Quorum : Set Node → Prop) (term : Term) :
    Invariant Quorum (World.initial term : World Node Term Decision) where
  accounts _ :=
    { voted := fun member => nomatch member
      campaignBound := fun member => nomatch member
      campaigning := fun active => nomatch active
      granted := fun member => nomatch member
      led := fun known => nomatch known }
  unique member := nomatch member
  backed := fun ⟨_, member⟩ => nomatch member
  campaignUnique member := nomatch member
  decided member := nomatch member

variable {Quorum : Set Node → Prop} {world : World Node Term Decision}

section Winners

variable (intersect : ∀ {left right}, Quorum left → Quorum right →
  ∃ voter, voter ∈ left ∧ voter ∈ right)
include intersect

theorem winner_unique (invariant : Invariant Quorum world) {left right : Node}
    (leftWon : world.Won term left) (rightWon : world.Won term right) : left = right := by
  obtain ⟨leftVoters, leftQuorum, leftOnly⟩ := invariant.backed leftWon
  obtain ⟨rightVoters, rightQuorum, rightOnly⟩ := invariant.backed rightWon
  obtain ⟨voter, inLeft, inRight⟩ := intersect leftQuorum rightQuorum
  exact (rightOnly voter inRight).2 left (leftOnly voter inLeft).1

theorem commit_unique (invariant : Invariant Quorum world) {leftWinner rightWinner : Node}
    {leftDecision rightDecision : Decision}
    (left : (term, leftWinner, leftDecision) ∈ world.commits)
    (right : (term, rightWinner, rightDecision) ∈ world.commits) :
    leftWinner = rightWinner ∧ leftDecision = rightDecision := by
  have sameWinner := invariant.winner_unique intersect ⟨_, left⟩ ⟨_, right⟩
  subst sameWinner
  exact ⟨rfl, invariant.campaignUnique (invariant.decided left) (invariant.decided right)⟩

theorem eq_of_quorum (invariant : Invariant Quorum world) {candidate winner : Node}
    {voters : Set Node} (quorum : Quorum voters)
    (supported : ∀ voter ∈ voters, (voter, term, candidate) ∈ world.supports)
    (won : world.Won term winner) : candidate = winner := by
  obtain ⟨others, othersQuorum, only⟩ := invariant.backed won
  obtain ⟨voter, inVoters, inOthers⟩ := intersect quorum othersQuorum
  exact (only voter inOthers).2 candidate (supported voter inVoters)

/-- A quorum that backs a candidate supports nobody else in that term, or the
candidate has won already. -/
theorem won_or_only_of_quorum (invariant : Invariant Quorum world) {candidate : Node}
    {voters : Set Node} (quorum : Quorum voters)
    (supported : ∀ voter ∈ voters, (voter, term, candidate) ∈ world.supports) :
    world.Won term candidate ∨ ∀ voter ∈ voters, ∀ other,
      (voter, term, other) ∈ world.supports → other = candidate := by
  by_cases won : world.Won term candidate
  · exact .inl won
  · refine .inr ?_
    intro voter inVoters other support
    rcases invariant.unique support (supported voter inVoters) with same | otherWon | candidateWon
    · exact same
    · exact (invariant.eq_of_quorum intersect quorum supported otherWon).symm
    · exact absurd candidateWon won

end Winners

end Invariant

/-- The records grew, and nothing new was recorded about `node`. -/
structure World.Extends (world next : World Node Term Decision) (node : Node) : Prop where
  supports : world.supports ⊆ next.supports
  campaigns : world.campaigns ⊆ next.campaigns
  commits : world.commits ⊆ next.commits
  noSupport : ∀ {term candidate}, (node, term, candidate) ∈ next.supports →
    (node, term, candidate) ∈ world.supports
  noCampaign : ∀ {term decision}, (node, term, decision) ∈ next.campaigns →
    (node, term, decision) ∈ world.campaigns

variable {world next : World Node Term Decision} {node : Node}

omit [LinearOrder Term] in
theorem World.Won.extend (extension : world.Extends next node) {winner : Node}
    (won : world.Won term winner) : next.Won term winner :=
  won.imp fun _ member => extension.commits member

theorem World.Accounts.extend (accounts : world.Accounts node state)
    (extension : world.Extends next node) :
    next.Accounts node state where
  voted member := by
    obtain ⟨bound, remembered⟩ := accounts.voted (extension.noSupport member)
    refine ⟨bound, fun current => ?_⟩
    rcases remembered current with same | ⟨winner, voted, won⟩
    · exact .inl same
    · exact .inr ⟨winner, voted, won.extend extension⟩
  campaignBound member := accounts.campaignBound (extension.noCampaign member)
  campaigning active :=
    ⟨extension.campaigns (accounts.campaigning active).1,
      extension.supports (accounts.campaigning active).2⟩
  granted member := extension.supports (accounts.granted member)
  led known := extension.commits (accounts.led known)

theorem World.Accounts.fresh (accounts : world.Accounts node state) (later : state.term < term) :
    world.Accounts node (.fresh term) where
  voted member := by
    have bound := (accounts.voted member).1.trans_lt later
    exact ⟨bound.le, fun current => absurd current bound.ne'⟩
  campaignBound member := ((accounts.campaignBound member).trans_lt later).le
  campaigning active := nomatch active
  granted member := nomatch member
  led known := nomatch known

namespace Invariant

variable [DecidableEq Node] {Quorum : Set Node → Prop}

theorem accounts_setNode (invariant : Invariant Quorum world)
    (nodes : next.node = Function.update world.node node state)
    (others : ∀ other, other ≠ node → world.Extends next other)
    (acting : next.Accounts node state) (other : Node) : next.Accounts other (next.node other) := by
  rw [nodes]
  by_cases equal : other = node
  · subst equal
    rwa [Function.update_self]
  · rw [Function.update_of_ne equal]
    exact (invariant.accounts other).extend (others other equal)

theorem setNode (invariant : Invariant Quorum world) (acting : world.Accounts node state) :
    Invariant Quorum (world.setNode node state) where
  accounts := invariant.accounts_setNode rfl
    (fun _ _ => ⟨subset_rfl, subset_rfl, subset_rfl, id, id⟩)
    { voted := acting.voted
      campaignBound := acting.campaignBound
      campaigning := acting.campaigning
      granted := acting.granted
      led := acting.led }
  unique := invariant.unique
  backed := invariant.backed
  campaignUnique := invariant.campaignUnique
  decided := invariant.decided

theorem adopt (invariant : Invariant Quorum world) (later : (world.node node).term < term) :
    Invariant Quorum (world.adopt node term) :=
  invariant.setNode ((invariant.accounts node).fresh later)

theorem start (invariant : Invariant Quorum world) {term : Term} (decision : Decision)
    (later : (world.node node).term < term) :
    Invariant Quorum (world.start node term decision) := by
  -- Nothing was recorded about the node in the term it enters.
  have noSupport : ∀ {candidate}, (node, term, candidate) ∉ world.supports :=
    fun member => absurd ((invariant.accounts node).voted member).1 later.not_ge
  have noCampaign : ∀ {made}, (node, term, made) ∉ world.campaigns :=
    fun member => absurd ((invariant.accounts node).campaignBound member) later.not_ge
  have entered := (invariant.accounts node).fresh later
  constructor
  case accounts =>
    apply invariant.accounts_setNode rfl
    · intro other different
      refine ⟨Set.subset_insert _ _, Set.subset_insert _ _, subset_rfl, ?_, ?_⟩
      · rintro _ _ (recorded | member)
        · cases recorded
          exact absurd rfl different
        · exact member
      · rintro _ _ (recorded | member)
        · cases recorded
          exact absurd rfl different
        · exact member
    · constructor
      case voted =>
        rintro past candidate (recorded | member)
        · cases recorded
          exact ⟨le_refl _, fun _ => .inl rfl⟩
        · obtain ⟨bound, _⟩ := entered.voted member
          refine ⟨bound, fun current => ?_⟩
          change term = past at current
          subst current
          exact absurd member noSupport
      case campaignBound =>
        rintro past made (recorded | member)
        · cases recorded
          exact le_refl _
        · exact entered.campaignBound member
      case campaigning =>
        intro made active
        cases active
        exact ⟨.inl rfl, .inl rfl⟩
      case granted => exact fun member => nomatch member
      case led => exact fun known => nomatch known
  case unique =>
    rintro other past left right (leftRecorded | leftMember) (rightRecorded | rightMember)
    · cases leftRecorded
      cases rightRecorded
      exact .inl rfl
    · cases leftRecorded
      exact absurd rightMember noSupport
    · cases rightRecorded
      exact absurd leftMember noSupport
    · exact invariant.unique leftMember rightMember
  case backed =>
    intro past winner won
    obtain ⟨voters, quorum, only⟩ := invariant.backed won
    refine ⟨voters, quorum, fun voter inVoters => ?_⟩
    obtain ⟨supported, others⟩ := only voter inVoters
    refine ⟨.inr supported, ?_⟩
    rintro candidate (recorded | member)
    · cases recorded
      exact absurd supported noSupport
    · exact others candidate member
  case campaignUnique =>
    rintro other past left right (leftRecorded | leftMember) (rightRecorded | rightMember)
    · cases leftRecorded
      cases rightRecorded
      rfl
    · cases leftRecorded
      exact absurd rightMember noCampaign
    · cases rightRecorded
      exact absurd leftMember noCampaign
    · exact invariant.campaignUnique leftMember rightMember
  case decided => exact fun member => .inr (invariant.decided member)

theorem support (invariant : Invariant Quorum world)
    (intersect : ∀ {left right}, Quorum left → Quorum right → ∃ voter, voter ∈ left ∧ voter ∈ right)
    {candidate : Node} (free : (world.node node).vote = none ∨
      (world.node node).vote = some candidate) :
    Invariant Quorum (world.support node candidate) := by
  have acting := invariant.accounts node
  -- Earlier support in this term is for the same candidate, or the candidate has won.
  have earlier : ∀ {other}, (node, (world.node node).term, other) ∈ world.supports →
      other = candidate ∨ world.Won (world.node node).term candidate := by
    intro other member
    rcases (acting.voted member).2 rfl with same | ⟨winner, voted, won⟩
    · rcases free with none | voted
      · rw [none] at same
        exact nomatch same
      · rw [voted] at same
        exact .inl (Option.some.inj same).symm
    · rcases free with none | held
      · rw [none] at voted
        exact nomatch voted
      · rw [held] at voted
        cases voted
        exact .inr won
  constructor
  case accounts =>
    apply invariant.accounts_setNode rfl
    · intro other different
      refine ⟨Set.subset_insert _ _, subset_rfl, subset_rfl, ?_, id⟩
      rintro _ _ (recorded | member)
      · cases recorded
        exact absurd rfl different
      · exact member
    · constructor
      case voted =>
        rintro past other (recorded | member)
        · cases recorded
          exact ⟨le_refl _, fun _ => .inl rfl⟩
        · refine ⟨(acting.voted member).1, fun current => ?_⟩
          change (world.node node).term = past at current
          subst current
          rcases earlier member with same | won
          · exact .inl (congrArg some same.symm)
          · exact .inr ⟨candidate, rfl, won⟩
      case campaignBound => exact acting.campaignBound
      case campaigning =>
        exact fun active =>
          ⟨(acting.campaigning active).1, .inr (acting.campaigning active).2⟩
      case granted => exact fun member => .inr (acting.granted member)
      case led => exact acting.led
  case unique =>
    rintro other past left right (leftRecorded | leftMember) (rightRecorded | rightMember)
    · cases leftRecorded
      cases rightRecorded
      exact .inl rfl
    · cases leftRecorded
      rcases earlier rightMember with same | won
      · exact .inl same.symm
      · exact .inr (.inl won)
    · cases rightRecorded
      rcases earlier leftMember with same | won
      · exact .inl same
      · exact .inr (.inr won)
    · exact invariant.unique leftMember rightMember
  case backed =>
    intro past winner won
    obtain ⟨voters, quorum, only⟩ := invariant.backed won
    refine ⟨voters, quorum, fun voter inVoters => ?_⟩
    obtain ⟨supported, others⟩ := only voter inVoters
    refine ⟨.inr supported, ?_⟩
    rintro other (recorded | member)
    · cases recorded
      rcases earlier supported with same | candidateWon
      · exact same.symm
      · exact invariant.winner_unique intersect candidateWon won
    · exact others other member
  case campaignUnique => exact invariant.campaignUnique
  case decided => exact invariant.decided

theorem count (invariant : Invariant Quorum world) {voter : Node}
    (supported : (voter, (world.node node).term, node) ∈ world.supports) :
    Invariant Quorum (world.count node voter) := by
  have acting := invariant.accounts node
  apply invariant.setNode
  constructor
  case voted => exact acting.voted
  case campaignBound => exact acting.campaignBound
  case campaigning => exact acting.campaigning
  case granted =>
    rintro other (rfl | member)
    · exact supported
    · exact acting.granted member
  case led => exact acting.led

theorem follow (invariant : Invariant Quorum world) {leader : Node} {decision : Decision}
    (committed : ((world.node node).term, leader, decision) ∈ world.commits) :
    Invariant Quorum (world.follow node leader decision) := by
  have acting := invariant.accounts node
  apply invariant.setNode
  constructor
  case voted =>
    intro past candidate member
    refine ⟨(acting.voted member).1, fun current => ?_⟩
    change (world.node node).term = past at current
    subst current
    exact .inr ⟨leader, rfl, decision, committed⟩
  case campaignBound => exact acting.campaignBound
  case campaigning => exact fun active => nomatch active
  case granted => exact acting.granted
  case led =>
    intro known made equal
    cases equal
    exact committed

theorem win (invariant : Invariant Quorum world)
    (intersect : ∀ {left right}, Quorum left → Quorum right → ∃ voter, voter ∈ left ∧ voter ∈ right)
    {decision : Decision} (campaigning : (world.node node).campaign = some decision)
    (quorum : Quorum (insert node (world.node node).grants)) :
    Invariant Quorum (world.win node decision) := by
  have acting := invariant.accounts node
  have supported : ∀ voter ∈ insert node (world.node node).grants,
      (voter, (world.node node).term, node) ∈ world.supports := by
    rintro voter (rfl | member)
    · exact (acting.campaigning campaigning).2
    · exact acting.granted member
  have extension : ∀ other, world.Extends (world.win node decision) other := fun _ =>
    ⟨subset_rfl, subset_rfl, Set.subset_insert _ _, id, id⟩
  constructor
  case accounts =>
    apply invariant.accounts_setNode rfl fun other _ => extension other
    constructor
    case voted => exact (acting.extend (extension node)).voted
    case campaignBound => exact acting.campaignBound
    case campaigning => exact acting.campaigning
    case granted => exact acting.granted
    case led =>
      intro leader made equal
      cases equal
      exact .inl rfl
  case unique =>
    intro voter past left right leftMember rightMember
    rcases invariant.unique leftMember rightMember with same | leftWon | rightWon
    · exact .inl same
    · exact .inr (.inl (leftWon.extend (extension node)))
    · exact .inr (.inr (rightWon.extend (extension node)))
  case backed =>
    rintro past winner ⟨made, recorded | member⟩
    · cases recorded
      -- Either the node won this term before, or its quorum supports nobody else.
      rcases invariant.won_or_only_of_quorum intersect quorum supported with won | only
      · exact invariant.backed won
      · exact ⟨_, quorum, fun voter inVoters =>
          ⟨supported voter inVoters, only voter inVoters⟩⟩
    · exact invariant.backed ⟨made, member⟩
  case campaignUnique => exact invariant.campaignUnique
  case decided =>
    rintro past winner made (recorded | member)
    · cases recorded
      exact (acting.campaigning campaigning).1
    · exact invariant.decided member

theorem move (invariant : Invariant Quorum world)
    (intersect : ∀ {left right}, Quorum left → Quorum right → ∃ voter, voter ∈ left ∧ voter ∈ right)
    (step : Move Quorum world next) : Invariant Quorum next := by
  cases step with
  | adopt node term later => exact invariant.adopt later
  | start node term decision later => exact invariant.start decision later
  | support node candidate free => exact invariant.support intersect free
  | count node voter supported => exact invariant.count supported
  | win node decision campaigning quorum => exact invariant.win intersect campaigning quorum
  | follow node leader decision committed => exact invariant.follow committed

theorem moves (invariant : Invariant Quorum world)
    (intersect : ∀ {left right}, Quorum left → Quorum right → ∃ voter, voter ∈ left ∧ voter ∈ right)
    (run : Relation.ReflTransGen (Move Quorum) world next) : Invariant Quorum next := by
  induction run with
  | refl => exact invariant
  | tail _ step induction => exact induction.move intersect step

end Invariant

theorem Move.commits_subset [DecidableEq Node] {Quorum : Set Node → Prop}
    (step : Move Quorum world next) : world.commits ⊆ next.commits := by
  cases step with
  | adopt | start | support | count | follow => exact subset_rfl
  | win => exact Set.subset_insert _ _

theorem commits_subset_of_moves [DecidableEq Node] {Quorum : Set Node → Prop}
    (run : Relation.ReflTransGen (Move Quorum) world next) : world.commits ⊆ next.commits := by
  induction run with
  | refl => exact subset_rfl
  | tail _ step induction => exact induction.trans step.commits_subset

end AgentC.MajorityVoting
