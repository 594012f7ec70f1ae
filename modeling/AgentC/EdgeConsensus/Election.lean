import AgentC.EdgeConsensus.Replica
import AgentC.Foundation.MajorityVoting

/-! # Election safety of a cluster

A cluster is a family of replicas that were given one membership. They exchange
frames through a network that remembers everything ever sent, so that a frame
may be delivered late, twice or never. Every step of the cluster is matched by
moves of the abstract election, and safety is inherited from there. -/

namespace AgentC.EdgeConsensus

open MajorityVoting

/-- The replicas of one cluster. Node ids are compared after trimming, and are
distinct when compared that way. -/
structure Cluster (Node : Type) where
  identity : Node → Identity
  membershipEpoch : UInt64
  memberNodeIds : List Bytes
  distinct : ∀ {left right}, trimCopy (identity left).nodeId = trimCopy (identity right).nodeId →
    left = right

structure Network (Node : Type) where
  replica : Node → Replica
  sent : List Frame

namespace Network

variable {Node : Type} [DecidableEq Node]

/-- The network after `node` moved to `next` and sent `frames`. -/
def act (network : Network Node) (node : Node) (next : Replica) (frames : List Frame) :
    Network Node where
  replica := Function.update network.replica node next
  sent := network.sent ++ frames

def startElection (network : Network Node) (node : Node) (decisionSha256 : Bytes) :
    Network Node :=
  let started := (network.replica node).startElection decisionSha256
  network.act node started.1 [started.2]

def handleFrame (network : Network Node) (node : Node) (frame : Frame) : Network Node :=
  let handled := (network.replica node).handleFrame frame
  network.act node handled.1 handled.2.frames

/-- One step: a node campaigns, or a frame sent earlier reaches a node. -/
inductive Step (network : Network Node) : Network Node → Prop
  | startElection (node : Node) (decisionSha256 : Bytes) :
      Step network (network.startElection node decisionSha256)
  | handleFrame (node : Node) (frame : Frame) (sent : frame ∈ network.sent) :
      Step network (network.handleFrame node frame)

/-- Steps that leave every term below the largest one. -/
def StepBelowMax (network next : Network Node) : Prop :=
  network.Step next ∧ ∀ node, (next.replica node).currentTerm ≠ uint64Max

def Run : Network Node → Network Node → Prop :=
  Relation.ReflTransGen StepBelowMax

end Network

namespace Cluster

variable {Node : Type} (cluster : Cluster Node)

def initial (clusterSize : Node → Nat) : Network Node where
  replica node := (Replica.create (cluster.identity node) (clusterSize node)).setMembership
    cluster.membershipEpoch cluster.memberNodeIds
  sent := []

def selfIdentity (node : Node) : Identity :=
  { cluster.identity node with membershipEpoch := cluster.membershipEpoch }

def nodeId (node : Node) : Bytes :=
  (cluster.identity node).nodeId

/-- The members every node knows of. A node adds itself to its own set. -/
def members : Finset Bytes :=
  normalizeMemberNodeIdSet cluster.memberNodeIds [] false

def membersOf (node : Node) : Finset Bytes :=
  normalizeMemberNodeIdSet cluster.memberNodeIds (cluster.nodeId node) true

theorem mem_membersOf {node : Node} {id : Bytes} :
    id ∈ cluster.membersOf node ↔ id = trimCopy (cluster.nodeId node) ∧
      memberNodeIdIsValid (cluster.nodeId node) = true ∨ id ∈ cluster.members := by
  simp only [membersOf, members, normalizeMemberNodeIdSet, Bool.true_and, Bool.false_and]
  by_cases valid : memberNodeIdIsValid (cluster.nodeId node) = true <;> simp [valid]

theorem membersOf_eq_members {node : Node}
    (member : trimCopy (cluster.nodeId node) ∈ cluster.members) :
    cluster.membersOf node = cluster.members := by
  ext id
  rw [mem_membersOf]
  constructor
  · intro either
    rcases either with ⟨equal, _⟩ | known
    · exact equal ▸ member
    · exact known
  · exact .inr

def Quorum (nodes : Set Node) : Prop :=
  ∃ voters ⊆ cluster.members,
    quorumForClusterSize (clusterSizeFromMemberCount cluster.members.card) ≤ voters.card ∧
      ∀ voter ∈ voters, ∃ node ∈ nodes, trimCopy (cluster.nodeId node) = voter

theorem quorum_intersect {left right : Set Node} (leftQuorum : cluster.Quorum left)
    (rightQuorum : cluster.Quorum right) : ∃ node, node ∈ left ∧ node ∈ right := by
  rcases leftQuorum with ⟨leftVoters, leftMembers, leftCount, leftNodes⟩
  rcases rightQuorum with ⟨rightVoters, rightMembers, rightCount, rightNodes⟩
  rcases quorums_intersect leftMembers rightMembers leftCount rightCount with
    ⟨voter, inLeft, inRight⟩
  rcases leftNodes voter inLeft with ⟨node, nodeLeft, nodeId⟩
  rcases rightNodes voter inRight with ⟨other, otherRight, otherId⟩
  have same : node = other := cluster.distinct (nodeId.trans otherId.symm)
  exact ⟨node, nodeLeft, same ▸ otherRight⟩

/-! ## The abstract state of a replica -/

abbrev ElectionState (Node : Type) := Local Node Nat Bytes

abbrev ElectionWorld (Node : Type) := World Node Nat Bytes

/-- `state` is what the fields of the replica at `node` stand for. -/
structure Represents (node : Node) (replica : Replica) (state : ElectionState Node) : Prop where
  self : replica.self = cluster.selfIdentity node
  memberSet : replica.memberNodeIds = cluster.membersOf node
  size : replica.clusterSize = clusterSizeFromMemberCount (cluster.membersOf node).card
  term : state.term = replica.currentTerm.toNat
  vote : replica.votedForNodeId = [] ∧ state.vote = none ∨
    ∃ candidate, state.vote = some candidate ∧
      replica.votedForNodeId = cluster.nodeId candidate ∧ replica.votedForNodeId ≠ []
  campaign : cluster.nodeId node ≠ [] → replica.campaignDecisionSha256 ≠ [] →
    state.campaign = some replica.campaignDecisionSha256
  leader : replica.leaderNodeId = [] ∨ ∃ leader,
    state.leader = some (leader, replica.committedDecisionSha256) ∧
      replica.leaderNodeId = cluster.nodeId leader
  /-- Every counted grant comes from another member that supported this node,
  and only members are ever granted a vote by a member. -/
  grants : ∀ voter ∈ replica.grantWitnessesByNodeId,
    voter ∈ cluster.members ∧ voter ≠ trimCopy (cluster.nodeId node) ∧
      trimCopy (cluster.nodeId node) ∈ cluster.members ∧
        ∃ other ∈ state.grants, trimCopy (cluster.nodeId other) = voter

/-- A frame says only what happened. -/
structure Authentic (world : ElectionWorld Node) (frame : Frame) (author : Node) : Prop where
  sender : frame.sender = cluster.selfIdentity author
  request : frame.kind = kindVoteRequest → frame.candidateNodeId = cluster.nodeId author
  grant : frame.kind = kindVoteGrant → ∃ candidate,
    frame.candidateNodeId = cluster.nodeId candidate ∧
      (author, frame.term.toNat, candidate) ∈ world.supports ∧
        (trimCopy (cluster.nodeId author) ∈ cluster.members →
          trimCopy frame.candidateNodeId ∈ cluster.members)
  commit : frame.kind = kindLeaderCommit → ∃ leader,
    frame.leaderNodeId = cluster.nodeId leader ∧
      (frame.term.toNat, leader, frame.decisionSha256) ∈ world.commits

structure Simulates (network : Network Node) (world : ElectionWorld Node) : Prop where
  nodes : ∀ node, cluster.Represents node (network.replica node) (world.node node)
  frames : ∀ frame ∈ network.sent, ∃ author, cluster.Authentic world frame author

variable (clusterSize : Node → Nat) {frame : Frame} {author : Node} {replica : Replica}
variable {state : ElectionState Node}

theorem initial_replica (node : Node) : (cluster.initial clusterSize).replica node =
      { self := cluster.selfIdentity node
        clusterSize := clusterSizeFromMemberCount (cluster.membersOf node).card
        memberNodeIds := cluster.membersOf node } := by
  simp only [initial, Replica.setMembership]
  split <;> rfl

theorem simulates_initial :
    cluster.Simulates (cluster.initial clusterSize) (.initial 0) where
  nodes node := by
    rw [initial_replica]
    exact
      { self := rfl
        memberSet := rfl
        size := rfl
        term := rfl
        vote := .inl ⟨rfl, rfl⟩
        campaign := fun _ set => absurd rfl set
        leader := .inl rfl
        grants := fun _ member => absurd member Std.TreeMap.not_mem_emptyc }
  frames _ member := nomatch member

variable {cluster}

namespace Authentic

theorem mono {world next : ElectionWorld Node} (authentic : cluster.Authentic world frame author)
    (supports : world.supports ⊆ next.supports) (commits : world.commits ⊆ next.commits) :
    cluster.Authentic next frame author where
  sender := authentic.sender
  request := authentic.request
  grant kind := by
    rcases authentic.grant kind with ⟨candidate, named, supported, members⟩
    exact ⟨candidate, named, supports supported, members⟩
  commit kind := by
    rcases authentic.commit kind with ⟨leader, named, committed⟩
    exact ⟨leader, named, commits committed⟩

end Authentic

/-- A step of one node is simulated when the node's new state is represented,
the records have grown and the new frames say what happened. -/
theorem Simulates.act [DecidableEq Node] {network : Network Node}
    {world next : ElectionWorld Node} (simulates : cluster.Simulates network world) {node : Node}
    {frames : List Frame} (others : ∀ other, other ≠ node → next.node other = world.node other)
    (supports : world.supports ⊆ next.supports) (commits : world.commits ⊆ next.commits)
    (acting : cluster.Represents node replica (next.node node))
    (emitted : ∀ frame ∈ frames, cluster.Authentic next frame node) :
    cluster.Simulates (network.act node replica frames) next where
  nodes other := by
    by_cases equal : other = node
    · subst equal
      simpa [Network.act] using acting
    · simpa [Network.act, equal, others other equal] using simulates.nodes other
  frames frame member := by
    rcases List.mem_append.mp member with earlier | now
    · rcases simulates.frames frame earlier with ⟨author, authentic⟩
      exact ⟨author, authentic.mono supports commits⟩
    · exact ⟨node, emitted frame now⟩

namespace Represents

theorem selfId {node : Node} (represents : cluster.Represents node replica state) :
    replica.self.nodeId = cluster.nodeId node := by
  rw [represents.self]
  rfl

theorem markFrameSeen {node : Node} (represents : cluster.Represents node replica state)
    (frame : Frame) : cluster.Represents node (replica.markFrameSeen frame) state :=
  { represents with }

theorem enter [DecidableEq Node] {node : Node} {world : ElectionWorld Node}
    (represents : cluster.Represents node replica (world.node node)) (term : UInt64) :
    cluster.Represents node (replica.maybeResetForNewTerm term)
      ((world.enter node term.toNat).node node) := by
  by_cases later : replica.currentTerm < term
  · have laterTerm : (world.node node).term < term.toNat := by
      rw [represents.term]
      exact UInt64.lt_iff_toNat_lt.mp later
    rw [Replica.maybeResetForNewTerm_of_lt later, World.enter_of_lt laterTerm, World.adopt,
      World.setNode_node_self]
    exact
      { self := represents.self
        memberSet := represents.memberSet
        size := represents.size
        term := rfl
        vote := .inl ⟨rfl, rfl⟩
        campaign := fun _ set => absurd rfl set
        leader := .inl rfl
        grants := fun _ member => absurd member Std.TreeMap.not_mem_emptyc }
  · have current : term.toNat ≤ (world.node node).term := by
      rw [represents.term]
      exact Nat.le_of_not_lt fun less => later (UInt64.lt_iff_toNat_lt.mpr less)
    rw [Replica.maybeResetForNewTerm_of_le later, World.enter_of_le current]
    exact represents

end Represents

/-! ## Every step of the network is matched by moves of the election -/

variable [DecidableEq Node] {network : Network Node} {world : ElectionWorld Node} {node : Node}

/-- Some moves of the election lead to a world that represents `next`. -/
def Matched (cluster : Cluster Node) (world : ElectionWorld Node) (next : Network Node) : Prop :=
  ∃ reached, Relation.ReflTransGen (Move cluster.Quorum) world reached ∧
    cluster.Simulates next reached

theorem Simulates.startElection (simulates : cluster.Simulates network world)
    (below : (network.replica node).currentTerm ≠ uint64Max) (decision : Bytes) :
    cluster.Matched world (network.startElection node decision) := by
  have represents := simulates.nodes node
  generalize named : network.replica node = replica at below represents
  have later : (world.node node).term < (nextTerm replica.currentTerm).toNat := by
    rw [represents.term]
    exact UInt64.lt_iff_toNat_lt.mp (lt_nextTerm below)
  have authentic : ∀ reached : ElectionWorld Node, ∀ frame ∈ [(replica.startElection decision).2],
      cluster.Authentic reached frame node := by
    intro reached frame member
    rw [List.mem_singleton.mp member]
    exact
      { sender := represents.self
        request := fun _ => represents.selfId
        grant := fun kind => absurd kind kindVoteRequest_ne_kindVoteGrant
        commit := fun kind => absurd kind kindVoteRequest_ne_kindLeaderCommit }
  simp only [Matched, Network.startElection, named]
  by_cases anonymous : cluster.nodeId node = []
  -- A node without an id votes for nobody when it campaigns.
  · refine ⟨world.adopt node (nextTerm replica.currentTerm).toNat,
      .single (.adopt node _ later), ?_⟩
    refine simulates.act (fun other different => world.setNode_node_of_ne different _)
      subset_rfl subset_rfl ?_ (authentic _)
    rw [World.adopt, World.setNode_node_self]
    exact
      { self := represents.self
        memberSet := represents.memberSet
        size := represents.size
        term := rfl
        vote := .inl ⟨represents.selfId.trans anonymous, rfl⟩
        campaign := fun known => absurd anonymous known
        leader := .inl rfl
        grants := fun _ member => absurd member Std.TreeMap.not_mem_emptyc }
  · refine ⟨world.start node (nextTerm replica.currentTerm).toNat decision,
      .single (.start node _ decision later), ?_⟩
    refine simulates.act (fun other different => world.setNode_node_of_ne different _)
      (Set.subset_insert _ _) subset_rfl ?_ (authentic _)
    simp only [World.start, World.setNode_node_self]
    exact
      { self := represents.self
        memberSet := represents.memberSet
        size := represents.size
        term := rfl
        vote := .inr ⟨node, rfl, represents.selfId, represents.selfId.trans_ne anonymous⟩
        campaign := fun _ _ => rfl
        leader := .inl rfl
        grants := fun _ member => absurd member Std.TreeMap.not_mem_emptyc }

omit [DecidableEq Node] in
theorem eq_of_matches {left right : Node}
    (same : memberNodeIdMatches (cluster.nodeId left) (cluster.nodeId right) = true) :
    left = right :=
  cluster.distinct (memberNodeIdMatches_iff.mp same).2

theorem Represents.mayVote (represents : cluster.Represents node replica (world.node node))
    (candidateId : frame.candidateNodeId = cluster.nodeId author)
    (grants : replica.voteRequestGrants frame = true) :
    ((world.enter node frame.term.toNat).node node).vote = none ∨
      ((world.enter node frame.term.toNat).node node).vote = some author := by
  rcases (represents.enter frame.term).vote with free | ⟨held, voted, heldId, known⟩
  · exact .inl free.2
  · have kept := (replica.votedForNodeId_maybeResetForNewTerm frame.term).resolve_left known
    rcases (Replica.of_voteRequestGrants grants).2.2 with later | empty | same
    · exact absurd later kept.1
    · exact absurd (kept.2.trans empty) known
    · have heldAuthor : held = author := by
        apply cluster.distinct
        change trimCopy (cluster.nodeId held) = trimCopy (cluster.nodeId author)
        rw [← heldId, kept.2, same, candidateId]
      exact .inr (heldAuthor ▸ voted)

theorem Simulates.granted (simulates : cluster.Simulates network world) {author : Node}
    (authentic : cluster.Authentic world frame author) (kind : frame.kind = kindVoteRequest)
    (grants : (network.replica node).voteRequestGrants frame = true) :
    cluster.Matched world (network.act node ((network.replica node).grantVote frame)
      [((network.replica node).grantVote frame).makeVoteGrantFrame
        frame.candidateNodeId frame.decisionSha256]) := by
  have represents := simulates.nodes node
  generalize (network.replica node) = replica at grants represents
  rcases Replica.of_voteRequestGrants grants with ⟨candidateMember, notStale, _⟩
  have candidateId := authentic.request kind
  have entered := (represents.markFrameSeen frame).enter frame.term
  have free := represents.mayVote candidateId grants
  have notPast : (world.node node).term ≤ frame.term.toNat := by
    rw [represents.term]
    exact UInt64.le_iff_toNat_le.mp notStale
  refine ⟨(world.enter node frame.term.toNat).support node author,
    (moves_enter cluster.Quorum world node frame.term.toNat).tail (.support node author free), ?_⟩
  refine simulates.act ?_ ?_ ?_ ?_ ?_
  · intro other different
    rw [← world.enter_node_of_ne different frame.term.toNat]
    exact World.setNode_node_of_ne _ different _
  · rw [← world.enter_supports node frame.term.toNat]
    exact Set.subset_insert _ _
  · exact (world.enter_commits node frame.term.toNat).ge
  · simp only [World.support, World.setNode_node_self]
    exact { entered with
      vote := .inr ⟨author, rfl, candidateId, Replica.ne_nil_of_nodeIsMember candidateMember⟩ }
  · intro sent member
    rw [List.mem_singleton.mp member]
    exact
      { sender := entered.self
        request := fun kind => absurd kind kindVoteRequest_ne_kindVoteGrant.symm
        grant := fun _ => by
          refine ⟨author, candidateId, .inl ?_, ?_⟩
          · rw [entered.term]
            rfl
          · intro voterMember
            have known := (Replica.nodeIsMember_iff.mp candidateMember).2
            rwa [represents.memberSet, cluster.membersOf_eq_members voterMember] at known
        commit := fun kind => absurd kind kindVoteGrant_ne_kindLeaderCommit }

omit [DecidableEq Node] in
/-- A grant that counts comes from another member and is recorded support for
this node in its current term. -/
theorem Represents.granted (represents : cluster.Represents node replica (world.node node))
    (authentic : cluster.Authentic world frame author) (admits : replica.Admits frame)
    (kind : frame.kind = kindVoteGrant) (notLater : ¬replica.currentTerm < frame.term)
    (counts : replica.voteGrantCounts frame = true) :
    (author, (world.node node).term, node) ∈ world.supports ∧
      frame.sender.nodeId = trimCopy (cluster.nodeId author) ∧
      frame.sender.nodeId ∈ cluster.members ∧ frame.sender.nodeId ≠ trimCopy (cluster.nodeId node) ∧
      trimCopy (cluster.nodeId node) ∈ cluster.members := by
  rcases Replica.of_voteGrantCounts counts with ⟨notStale, forSelf, fromOther, _⟩
  rcases authentic.grant kind with ⟨candidate, candidateId, supported, candidateMember⟩
  have senderId : frame.sender.nodeId = cluster.nodeId author := by
    rw [authentic.sender]
    rfl
  have senderSafe := senderSafe_of_frameIsValid admits.valid
  have senderTrim := trimCopy_of_safe senderSafe
  have isSelf : candidate = node := by
    rw [candidateId, represents.selfId] at forSelf
    exact eq_of_matches forSelf
  subst isSelf
  have sameTerm : frame.term = replica.currentTerm :=
    UInt64.le_antisymm (UInt64.not_lt.mp notLater) notStale
  have distinctId : frame.sender.nodeId ≠ trimCopy (cluster.nodeId candidate) := by
    intro equal
    have same : memberNodeIdMatches frame.sender.nodeId frame.candidateNodeId = true := by
      rw [memberNodeIdMatches_iff, senderTrim, candidateId]
      exact ⟨senderSafe, equal⟩
    rw [same] at fromOther
    cases fromOther
  have senderMember : frame.sender.nodeId ∈ cluster.members := by
    have known := admits.membership
    simp only [Replica.membershipMatches, Bool.and_eq_true] at known
    have listed := (Replica.nodeIsMember_iff.mp known.2).2
    rw [senderTrim, represents.memberSet, cluster.mem_membersOf] at listed
    exact listed.resolve_left fun own => distinctId own.1
  refine ⟨?_, ?_, senderMember, distinctId, ?_⟩
  · rw [represents.term, ← sameTerm]
    exact supported
  · rw [← senderId, senderTrim]
  · rw [← candidateId]
    apply candidateMember
    rwa [← senderId, senderTrim]

theorem Represents.countGrant (represents : cluster.Represents node replica (world.node node))
    (authentic : cluster.Authentic world frame author) (admits : replica.Admits frame)
    (kind : frame.kind = kindVoteGrant) (notLater : ¬replica.currentTerm < frame.term)
    (counts : replica.voteGrantCounts frame = true) :
    cluster.Represents node (replica.countGrant frame) ((world.count node author).node node) := by
  rcases represents.granted authentic admits kind notLater counts with
    ⟨_, senderId, senderMember, other, selfMember⟩
  simp only [World.count, World.setNode_node_self]
  refine { represents with grants := ?_ }
  intro voter member
  rcases Std.TreeMap.mem_insert.mp member with now | earlier
  · have equal : frame.sender.nodeId = voter := Std.LawfulEqCmp.eq_of_compare now
    subst equal
    exact ⟨senderMember, other, selfMember, author, .inl rfl, senderId.symm⟩
  · rcases represents.grants voter earlier with ⟨voterMember, different, own, grantor, granted, id⟩
    exact ⟨voterMember, different, own, grantor, .inr granted, id⟩

omit [DecidableEq Node] in
theorem Represents.quorum (represents : cluster.Represents node replica state)
    (selfMember : trimCopy (cluster.nodeId node) ∈ cluster.members)
    (quorum : replica.hasQuorum = true) : cluster.Quorum (insert node state.grants) := by
  let granting := replica.grantWitnessesByNodeId.keys.toFinset
  have granted : ∀ voter ∈ granting, voter ∈ replica.grantWitnessesByNodeId := by
    intro voter member
    exact Std.TreeMap.mem_keys.mp (List.mem_toFinset.mp member)
  have notSelf : trimCopy (cluster.nodeId node) ∉ granting := by
    intro member
    exact (represents.grants _ (granted _ member)).2.1 rfl
  have count : granting.card = replica.grantWitnessesByNodeId.size := by
    rw [List.toFinset_card_of_nodup Std.TreeMap.nodup_keys, Std.TreeMap.length_keys]
  refine ⟨insert (trimCopy (cluster.nodeId node)) granting, ?_, ?_, ?_⟩
  · intro voter member
    rcases Finset.mem_insert.mp member with self | grants
    · exact self ▸ selfMember
    · exact (represents.grants voter (granted voter grants)).1
  · rw [Finset.card_insert_of_notMem notSelf, count]
    simp only [Replica.hasQuorum, hasQuorumVotes, decide_eq_true_eq, represents.size,
      cluster.membersOf_eq_members selfMember] at quorum
    exact quorum.trans (voteCountWithSelf_le _)
  · intro voter member
    rcases Finset.mem_insert.mp member with self | grants
    · exact ⟨node, .inl rfl, self.symm⟩
    · rcases (represents.grants voter (granted voter grants)).2.2.2 with ⟨other, known, id⟩
      exact ⟨other, .inr known, id⟩

theorem Simulates.counted (simulates : cluster.Simulates network world) {author : Node}
    (authentic : cluster.Authentic world frame author)
    (admits : (network.replica node).Admits frame) (kind : frame.kind = kindVoteGrant)
    (notLater : ¬(network.replica node).currentTerm < frame.term)
    (counts : (network.replica node).voteGrantCounts frame = true) :
    cluster.Matched world (network.act node ((network.replica node).countGrant frame) []) := by
  have represents := simulates.nodes node
  have granted := represents.granted authentic admits kind notLater counts
  refine ⟨world.count node author, .single (.count node author granted.1), ?_⟩
  refine simulates.act ?_ subset_rfl subset_rfl ?_ ?_
  · exact fun other different => world.setNode_node_of_ne different _
  · exact represents.countGrant authentic admits kind notLater counts
  · exact fun sent member => nomatch member

theorem Simulates.elected (simulates : cluster.Simulates network world) {author : Node}
    (authentic : cluster.Authentic world frame author)
    (admits : (network.replica node).Admits frame) (kind : frame.kind = kindVoteGrant)
    (notLater : ¬(network.replica node).currentTerm < frame.term)
    (counts : (network.replica node).voteGrantCounts frame = true)
    (quorum : ((network.replica node).countGrant frame).hasQuorum = true) (frameId : Bytes) :
    cluster.Matched world (network.act node ((network.replica node).countGrant frame).commitAsLeader
      [((network.replica node).countGrant frame).commitAsLeader.makeLeaderCommitFrame
        frameId]) := by
  have represents := simulates.nodes node
  generalize network.replica node = replica at admits notLater counts quorum represents
  have granted := represents.granted authentic admits kind notLater counts
  have counted := represents.countGrant authentic admits kind notLater counts
  have named : cluster.nodeId node ≠ [] := by
    intro empty
    have forSelf := (Replica.of_voteGrantCounts counts).2.1
    rw [represents.selfId, memberNodeIdMatches_iff, empty] at forSelf
    exact ne_nil_of_safe forSelf.1 forSelf.2
  have campaigning := counted.campaign named (Replica.of_voteGrantCounts counts).2.2.2
  refine ⟨(world.count node author).win node replica.campaignDecisionSha256, ?_, ?_⟩
  · refine (Relation.ReflTransGen.single (.count node author granted.1)).tail ?_
    exact .win node _ campaigning (counted.quorum granted.2.2.2.2 quorum)
  · refine simulates.act ?_ subset_rfl (Set.subset_insert _ _) ?_ ?_
    · intro other different
      rw [← world.setNode_node_of_ne different]
      exact World.setNode_node_of_ne _ different _
    · simp only [World.win, World.setNode_node_self]
      exact { counted with leader := .inr ⟨node, rfl, counted.selfId⟩ }
    · intro sent member
      rw [List.mem_singleton.mp member]
      exact
        { sender := counted.self
          request := fun kind => absurd kind kindVoteRequest_ne_kindLeaderCommit.symm
          grant := fun kind => absurd kind kindVoteGrant_ne_kindLeaderCommit.symm
          commit := fun _ => ⟨node, counted.selfId, .inl (by
            rw [counted.term]
            rfl)⟩ }

theorem Simulates.committed (simulates : cluster.Simulates network world) {author : Node}
    (authentic : cluster.Authentic world frame author) (kind : frame.kind = kindLeaderCommit)
    (accepts : (network.replica node).leaderCommitAccepts frame = true) :
    cluster.Matched world (network.act node ((network.replica node).acceptCommit frame) []) := by
  have represents := simulates.nodes node
  generalize network.replica node = replica at accepts represents
  rcases Replica.of_leaderCommitAccepts accepts with ⟨notStale, leaderMember⟩
  rcases authentic.commit kind with ⟨leader, leaderId, committed⟩
  have entered := (represents.markFrameSeen frame).enter frame.term
  have notPast : (world.node node).term ≤ frame.term.toNat := by
    rw [represents.term]
    exact UInt64.le_iff_toNat_le.mp notStale
  refine ⟨(world.enter node frame.term.toNat).follow node leader frame.decisionSha256, ?_, ?_⟩
  · refine (moves_enter cluster.Quorum world node frame.term.toNat).tail (.follow node _ _ ?_)
    rw [World.enter_term notPast, World.enter_commits]
    exact committed
  · refine simulates.act ?_ ?_ ?_ ?_ ?_
    · intro other different
      rw [← world.enter_node_of_ne different frame.term.toNat]
      exact World.setNode_node_of_ne _ different _
    · exact (world.enter_supports node frame.term.toNat).ge
    · exact (world.enter_commits node frame.term.toNat).ge
    · simp only [World.follow, World.setNode_node_self]
      exact { entered with
        vote := .inr ⟨leader, rfl, leaderId, Replica.ne_nil_of_nodeIsMember leaderMember⟩
        campaign := fun _ set => absurd rfl set
        leader := .inr ⟨leader, rfl, leaderId⟩ }
    · exact fun sent member => nomatch member

theorem Simulates.adopted (simulates : cluster.Simulates network world) (term : UInt64) :
    cluster.Matched world
      (network.act node ((network.replica node).maybeResetForNewTerm term) []) := by
  refine ⟨world.enter node term.toNat, moves_enter cluster.Quorum world node term.toNat, ?_⟩
  refine simulates.act ?_ ?_ ?_ ?_ ?_
  · exact fun other different => world.enter_node_of_ne different term.toNat
  · exact (world.enter_supports node term.toNat).ge
  · exact (world.enter_commits node term.toNat).ge
  · exact (simulates.nodes node).enter term
  · exact fun sent member => nomatch member

theorem Simulates.handleFrame (simulates : cluster.Simulates network world)
    (sent : frame ∈ network.sent) : cluster.Matched world (network.handleFrame node frame) := by
  rcases simulates.frames frame sent with ⟨author, authentic⟩
  have handles := Replica.handleFrame_handles (network.replica node) frame
  simp only [Network.handleFrame]
  generalize (network.replica node).handleFrame frame = handled at handles
  cases handles with
  | refused outcome rejected silent =>
    refine ⟨world, .refl, ?_⟩
    rw [silent]
    exact simulates.act (fun _ _ => rfl) subset_rfl subset_rfl (simulates.nodes node)
      fun _ member => nomatch member
  | granted admits kind grants => exact simulates.granted authentic kind grants
  | adopted => exact simulates.adopted frame.term
  | counted admits kind counts =>
    have notLater := Replica.not_lt_of_voteGrantCounts counts
    rw [Replica.maybeResetForNewTerm_of_le notLater] at counts ⊢
    exact simulates.counted authentic admits kind notLater counts
  | elected leading admits kind counts quorum leads =>
    have notLater := Replica.not_lt_of_voteGrantCounts counts
    rw [Replica.maybeResetForNewTerm_of_le notLater] at counts quorum leads
    rw [leads]
    exact simulates.elected authentic admits kind notLater counts quorum _
  | committed admits kind accepts witnessed => exact simulates.committed authentic kind accepts

theorem Simulates.step {next : Network Node} (simulates : cluster.Simulates network world)
    (step : network.StepBelowMax next) : cluster.Matched world next := by
  rcases step with ⟨step, below⟩
  cases step with
  | startElection node decision =>
    refine simulates.startElection ?_ decision
    intro largest
    apply below node
    have started : ((network.startElection node decision).replica node).currentTerm =
        nextTerm (network.replica node).currentTerm := by
      simp [Network.startElection, Network.act, Replica.startElection, Replica.nextFrameId]
    rw [started, largest, nextTerm_uint64Max]
  | handleFrame node frame sent => exact simulates.handleFrame sent

theorem Simulates.run {next : Network Node} (simulates : cluster.Simulates network world)
    (run : network.Run next) : cluster.Matched world next := by
  induction run with
  | refl => exact ⟨world, .refl, simulates⟩
  | tail _ step induction =>
    rcases induction with ⟨reached, moves, reachedSimulates⟩
    rcases reachedSimulates.step step with ⟨last, more, lastSimulates⟩
    exact ⟨last, moves.trans more, lastSimulates⟩

/-! ## Safety -/

omit [DecidableEq Node] in
theorem Simulates.committed_of_leader (simulates : cluster.Simulates network world)
    (invariant : Invariant cluster.Quorum world) (led : (network.replica node).leaderNodeId ≠ []) :
    ∃ leader, (network.replica node).leaderNodeId = cluster.nodeId leader ∧
      ((network.replica node).currentTerm.toNat, leader,
        (network.replica node).committedDecisionSha256) ∈ world.commits := by
  have represents := simulates.nodes node
  rcases represents.leader.resolve_left led with ⟨leader, known, leaderId⟩
  refine ⟨leader, leaderId, ?_⟩
  rw [← represents.term]
  exact (invariant.accounts node).led known

theorem agreement {early late : Network Node} (first : (cluster.initial clusterSize).Run early)
    (rest : early.Run late) {left right : Node} (leftLed : (early.replica left).leaderNodeId ≠ [])
    (rightLed : (late.replica right).leaderNodeId ≠ [])
    (sameTerm : (early.replica left).currentTerm = (late.replica right).currentTerm) :
    ∃ leader, (early.replica left).leaderNodeId = cluster.nodeId leader ∧
      (late.replica right).leaderNodeId = cluster.nodeId leader ∧
      (early.replica left).committedDecisionSha256 =
        (late.replica right).committedDecisionSha256 := by
  rcases (cluster.simulates_initial clusterSize).run first with
    ⟨earlyWorld, earlyMoves, earlySimulates⟩
  rcases earlySimulates.run rest with ⟨lateWorld, lateMoves, lateSimulates⟩
  have earlyInvariant := (Invariant.of_initial cluster.Quorum 0).moves
    cluster.quorum_intersect earlyMoves
  have lateInvariant := earlyInvariant.moves cluster.quorum_intersect lateMoves
  rcases earlySimulates.committed_of_leader earlyInvariant leftLed with
    ⟨leftLeader, leftId, leftCommit⟩
  rcases lateSimulates.committed_of_leader lateInvariant rightLed with
    ⟨rightLeader, rightId, rightCommit⟩
  rw [← sameTerm] at rightCommit
  rcases lateInvariant.commit_unique cluster.quorum_intersect
    (commits_subset_of_moves lateMoves leftCommit) rightCommit with ⟨sameLeader, sameDecision⟩
  exact ⟨leftLeader, leftId, sameLeader ▸ rightId, sameDecision⟩

theorem selfId_of_run (run : (cluster.initial clusterSize).Run network) (node : Node) :
    (network.replica node).self.nodeId = cluster.nodeId node := by
  rcases (cluster.simulates_initial clusterSize).run run with ⟨_, _, simulates⟩
  exact (simulates.nodes node).selfId

omit [DecidableEq Node] in
theorem eq_of_leaderIsSelf {leader : Node} (selfId : replica.self.nodeId = cluster.nodeId node)
    (leaderId : replica.leaderNodeId = cluster.nodeId leader)
    (leads : replica.leaderIsSelf = true) : leader = node := by
  rw [Replica.leaderIsSelf, leaderId, selfId] at leads
  exact eq_of_matches leads

/-- At any two points of a run, at most one node leads a term, and all replicas
that hold a leader of one term hold the same leader and the same decision. -/
theorem election_safe (cluster : Cluster Node) (clusterSize : Node → Nat)
    {early late : Network Node} (first : (cluster.initial clusterSize).Run early)
    (rest : early.Run late) (left right : Node)
    (sameTerm : (early.replica left).currentTerm = (late.replica right).currentTerm) :
    ((early.replica left).leaderIsSelf = true → (late.replica right).leaderIsSelf = true →
        left = right) ∧
      ((early.replica left).leaderNodeId ≠ [] → (late.replica right).leaderNodeId ≠ [] →
        (early.replica left).leaderNodeId = (late.replica right).leaderNodeId ∧
          (early.replica left).committedDecisionSha256 =
            (late.replica right).committedDecisionSha256) := by
  constructor
  · intro leftLeads rightLeads
    rcases agreement clusterSize first rest (Replica.led_of_leaderIsSelf leftLeads)
      (Replica.led_of_leaderIsSelf rightLeads) sameTerm with ⟨leader, leftId, rightId, _⟩
    have leftSelf := selfId_of_run clusterSize first left
    have rightSelf := selfId_of_run clusterSize (first.trans rest) right
    rw [← eq_of_leaderIsSelf leftSelf leftId leftLeads,
      ← eq_of_leaderIsSelf rightSelf rightId rightLeads]
  · intro leftLed rightLed
    rcases agreement clusterSize first rest leftLed rightLed sameTerm with
      ⟨leader, leftId, rightId, sameDecision⟩
    exact ⟨leftId.trans rightId.symm, sameDecision⟩

end Cluster

/-! ## A run that elects node a -/

namespace Cluster

def sampleIdentityOf (node : Fin 3) : Identity where
  clusterId := ascii "edge"
  nodeId := [UInt8.ofNat ('a'.toNat + node)]
  membershipEpoch := 7

def sampleCluster : Cluster (Fin 3) where
  identity := sampleIdentityOf
  membershipEpoch := 7
  memberNodeIds := [ascii "a", ascii "b", ascii "c"]
  distinct := by
    intro left right
    revert left right
    decide

def sampleDecision : Bytes := List.replicate 64 '0'.toUInt8

def sampleRequest : Frame where
  frameId := ascii "a:vote_request:1"
  kind := kindVoteRequest
  term := 1
  decisionSha256 := sampleDecision
  candidateNodeId := ascii "a"
  sender := sampleIdentityOf 0

def sampleGrant : Frame where
  frameId := ascii "b:vote_grant:1:a"
  kind := kindVoteGrant
  term := 1
  decisionSha256 := sampleDecision
  candidateNodeId := ascii "a"
  granted := true
  sender := sampleIdentityOf 1

def sampleCommit : Frame where
  frameId := ascii "a:leader_commit:1:a"
  kind := kindLeaderCommit
  term := 1
  decisionSha256 := sampleDecision
  leaderNodeId := ascii "a"
  sender := sampleIdentityOf 0
  voteWitnesses := [sampleIdentityOf 0, sampleIdentityOf 1]

def sampleInitial : Network (Fin 3) := sampleCluster.initial fun _ => 3

/-- Node a campaigns, node b votes for it and node a counts the vote. -/
def sampleElected : Network (Fin 3) :=
  ((sampleInitial.startElection 0 sampleDecision).handleFrame 1 sampleRequest).handleFrame 0
    sampleGrant

def sampleFollowed : Network (Fin 3) :=
  sampleElected.handleFrame 1 sampleCommit

theorem run_sampleElected : sampleInitial.Run sampleElected := by
  apply Relation.ReflTransGen.tail (b :=
    (sampleInitial.startElection 0 sampleDecision).handleFrame 1 sampleRequest)
  · apply Relation.ReflTransGen.tail (b := sampleInitial.startElection 0 sampleDecision)
    · exact .single ⟨.startElection 0 sampleDecision, by decide⟩
    · exact ⟨.handleFrame 1 sampleRequest (by decide), by decide⟩
  · exact ⟨.handleFrame 0 sampleGrant (by decide), by decide⟩

theorem run_sampleFollowed : sampleElected.Run sampleFollowed :=
  .single ⟨.handleFrame 1 sampleCommit (by decide), by decide⟩

theorem election_safe_sample :
    (sampleElected.replica 0).leaderIsSelf = true ∧
      (sampleFollowed.replica 1).leaderNodeId ≠ [] ∧
      (sampleElected.replica 0).leaderNodeId = (sampleFollowed.replica 1).leaderNodeId ∧
      (sampleElected.replica 0).committedDecisionSha256 =
        (sampleFollowed.replica 1).committedDecisionSha256 := by
  have leads : (sampleElected.replica 0).leaderIsSelf = true := by decide
  have followed : (sampleFollowed.replica 1).leaderNodeId ≠ [] := by decide
  have agrees := (election_safe sampleCluster (fun _ => 3) run_sampleElected run_sampleFollowed
    0 1 (by decide)).2 (by decide) followed
  exact ⟨leads, followed, agrees⟩

end Cluster

end AgentC.EdgeConsensus
