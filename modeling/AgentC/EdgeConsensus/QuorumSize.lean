import AgentC.EdgeConsensus.Operations

/-! # The quorum and the configured cluster size

The loop keeps a cluster size in its configuration and another in its replica.
The constructor takes an explicit size for the first, and the size of the
member set replaces it in the second, which is the one quorums are counted
with. An adopted membership update sets both to the number of members. -/

namespace AgentC.EdgeConsensus

theorem mem_normalizeMemberNodeIdSet {raw : List Bytes} {selfNodeId nodeId : Bytes} :
    nodeId ∈ normalizeMemberNodeIdSet raw selfNodeId true ↔ umbmpIdIsSafe nodeId = true ∧
        (nodeId = trimCopy selfNodeId ∨ ∃ item ∈ raw, nodeId = trimCopy item) := by
  by_cases valid : umbmpIdIsSafe (trimCopy selfNodeId) = true
  · simp [normalizeMemberNodeIdSet, mem_normalizeMemberNodeIds, memberNodeIdIsValid,
      memberNodeIdIsValidRaw, valid]
    grind
  · simp [normalizeMemberNodeIdSet, mem_normalizeMemberNodeIds, memberNodeIdIsValid,
      memberNodeIdIsValidRaw, valid]
    grind

theorem normalizeMemberNodeIdSet_sortedElements {members : Finset Bytes} {selfNodeId : Bytes}
    (safe : ∀ nodeId ∈ members, umbmpIdIsSafe nodeId = true)
    (own : umbmpIdIsSafe (trimCopy selfNodeId) = true → trimCopy selfNodeId ∈ members) :
    normalizeMemberNodeIdSet (sortedElements members) selfNodeId true = members := by
  ext nodeId
  rw [mem_normalizeMemberNodeIdSet]
  constructor
  · rintro ⟨valid, self | ⟨item, member, same⟩⟩
    · rw [self] at valid ⊢
      exact own valid
    · rw [mem_sortedElements] at member
      rw [same, trimCopy_of_safe (safe item member)]
      exact member
  · intro member
    have valid := safe nodeId member
    exact ⟨valid, .inr ⟨nodeId, mem_sortedElements.mpr member, (trimCopy_of_safe valid).symm⟩⟩

variable {replica : Replica} (given : NodeLoopConfig)

namespace Replica

@[simp] theorem setMembership_clusterSize (replica : Replica) (epoch : UInt64)
    (memberNodeIds : List Bytes) :
    (replica.setMembership epoch memberNodeIds).clusterSize = clusterSizeFromMemberCount
      (normalizeMemberNodeIdSet memberNodeIds replica.self.nodeId true).card := by
  simp only [setMembership]
  split <;> rfl

@[simp] theorem setMembership_nodeId (replica : Replica) (epoch : UInt64)
    (memberNodeIds : List Bytes) :
    (replica.setMembership epoch memberNodeIds).self.nodeId = replica.self.nodeId := by
  simp only [setMembership]
  split <;> rfl

def votesNeeded (replica : Replica) : Nat :=
  quorumForClusterSize replica.clusterSize

theorem hasQuorum_iff : replica.hasQuorum = true ↔
      replica.votesNeeded ≤ voteCountWithSelf replica.grantWitnessesByNodeId.size := by
  simp [hasQuorum, hasQuorumVotes, votesNeeded]

theorem votesNeeded_le_of_witnesses {frame : Frame}
    (valid : replica.leaderCommitWitnessesValid frame = true) : replica.votesNeeded ≤
      (replica.countWitnesses frame.leaderNodeId frame.voteWitnesses (∅, 0, false)).2.1 := by
  simp only [leaderCommitWitnessesValid, leaderCommitWitnessesCanAccept, hasQuorumVotes,
    Bool.and_eq_true, decide_eq_true_eq] at valid
  exact valid.2

end Replica

namespace NodeLoopConfig

/-- The distinct valid ids the configuration names as members: the explicit
members, or the peers where there are none, and the node itself. -/
def namedMembers (given : NodeLoopConfig) : Finset Bytes :=
  let named := if given.memberNodeIds.isEmpty then given.peerNodeIds else given.memberNodeIds
  (((given.self.nodeId :: named).map trimCopy).filter umbmpIdIsSafe).toFinset

def requestedMembers (given : NodeLoopConfig) : List Bytes :=
  if given.memberNodeIds.isEmpty then
    normalizePeerNodeIds given.peerNodeIds given.self.nodeId ++ [given.self.nodeId]
  else given.memberNodeIds

theorem mem_namedMembers {given : NodeLoopConfig} {nodeId : Bytes} :
    nodeId ∈ given.namedMembers ↔
      umbmpIdIsSafe nodeId = true ∧ (nodeId = trimCopy given.self.nodeId ∨
        ∃ item ∈ if given.memberNodeIds.isEmpty then given.peerNodeIds else given.memberNodeIds,
          nodeId = trimCopy item) := by
  simp only [namedMembers, List.mem_toFinset, List.mem_filter, List.mem_map, List.mem_cons]
  grind

theorem normalizeMemberNodeIdSet_requestedMembers :
    normalizeMemberNodeIdSet given.requestedMembers given.self.nodeId true =
      given.namedMembers := by
  ext nodeId
  rw [mem_normalizeMemberNodeIdSet, mem_namedMembers, requestedMembers]
  cases given.memberNodeIds.isEmpty with
  | true =>
    simp only [if_true, List.mem_append, List.mem_singleton, mem_normalizePeerNodeIds]
    apply and_congr_right
    intro valid
    have unchanged := trimCopy_of_safe valid
    constructor
    · rintro (self | ⟨item, ⟨other, member, _, rfl⟩ | rfl, same⟩)
      · exact .inl self
      · exact .inr ⟨other, member, by rw [same, trimCopy_trimCopy]⟩
      · exact .inl same
    · rintro (self | ⟨item, member, same⟩)
      · exact .inl self
      · by_cases own : nodeId = trimCopy given.self.nodeId
        · exact .inl own
        · exact .inr ⟨nodeId, .inl ⟨item, member, ⟨valid, own⟩, same⟩, unchanged.symm⟩
  | false => simp

end NodeLoopConfig

namespace NodeLoop

/-- The quorum is more than half of the loop's cluster size, so that two
disjoint sets of a cluster of that size never both reach it. -/
structure QuorumIsMajority (loop : NodeLoop) : Prop where
  majority : loop.cfg.clusterSize < 2 * loop.replica.votesNeeded
  exclusive : ∀ cluster left right : Finset Bytes, cluster.card = loop.cfg.clusterSize →
    left ⊆ cluster → right ⊆ cluster → Disjoint left right →
      ¬(loop.replica.votesNeeded ≤ left.card ∧ loop.replica.votesNeeded ≤ right.card)

variable {loop : NodeLoop}

theorem quorumIsMajority_iff :
    loop.QuorumIsMajority ↔ loop.cfg.clusterSize < 2 * loop.replica.votesNeeded := by
  constructor
  · exact QuorumIsMajority.majority
  · intro majority
    refine ⟨majority, ?_⟩
    intro cluster left right size leftMembers rightMembers disjoint reached
    have union := Finset.card_le_card (Finset.union_subset leftMembers rightMembers)
    rw [Finset.card_union_of_disjoint disjoint] at union
    omega

theorem votesNeeded_of_clusterSize {members : Nat}
    (size : replica.clusterSize = clusterSizeFromMemberCount members) :
    replica.votesNeeded = members / 2 + 1 := by
  simp only [Replica.votesNeeded, quorumForClusterSize, size, clusterSizeFromMemberCount,
    clusterSizeNormalize]
  grind

theorem create_cfg : (create given).cfg = normalizeConfig given :=
  rememberDecision_cfg ..

theorem create_nodeId : (create given).replica.self.nodeId = given.self.nodeId := by
  simp only [create, Replica.setMembership_nodeId, rememberDecision_replica]
  rfl

theorem create_votesNeeded :
    (create given).replica.votesNeeded = given.namedMembers.card / 2 + 1 := by
  have members : (normalizeConfig given).memberNodeIds = sortedElements given.namedMembers := by
    rw [← given.normalizeMemberNodeIdSet_requestedMembers]
    rfl
  have settled : normalizeMemberNodeIdSet (sortedElements given.namedMembers) given.self.nodeId
      true = given.namedMembers := by
    apply normalizeMemberNodeIdSet_sortedElements
    · intro nodeId member
      exact (NodeLoopConfig.mem_namedMembers.mp member).1
    · intro valid
      exact NodeLoopConfig.mem_namedMembers.mpr ⟨valid, .inl rfl⟩
  apply votesNeeded_of_clusterSize
  simp only [create, Replica.setMembership_clusterSize, rememberDecision_replica, members]
  exact congrArg (fun members => clusterSizeFromMemberCount members.card) settled

theorem create_clusterSize :
    (create given).cfg.clusterSize =
      if given.clusterSize = 0 then clusterSizeFromMemberCount given.namedMembers.card
      else clusterSizeNormalize given.clusterSize := by
  rw [create_cfg, ← given.normalizeMemberNodeIdSet_requestedMembers, ← length_sortedElements]
  rfl

/-- Right after construction, the quorum is a majority of the configured size
exactly when that size is not too large for the members named. -/
theorem create_majority_iff :
    (create given).cfg.clusterSize < 2 * (create given).replica.votesNeeded ↔
      given.clusterSize / 2 ≤ given.namedMembers.card / 2 := by
  rw [create_clusterSize, create_votesNeeded, clusterSizeFromMemberCount, clusterSizeNormalize,
    clusterSizeNormalize]
  grind

/-- An adopted update leaves the quorum a majority of the new cluster size. -/
theorem adoptMembers_majority {update : MembershipPolicyUpdate} {members : List Bytes}
    (timing : PolicyTiming) (nodeId : loop.replica.self.nodeId = loop.cfg.self.nodeId)
    (normalized : members = dedupeMemberVectorWithoutForcingSelf update.memberNodeIds)
    (selfMember : memberNodeIdsContains members loop.cfg.self.nodeId = true) :
    (loop.adoptMembers update members timing).cfg.clusterSize <
      2 * (loop.adoptMembers update members timing).replica.votesNeeded := by
  have safe : ∀ other ∈ (normalizeMemberNodeIds update.memberNodeIds).toFinset,
      umbmpIdIsSafe other = true := by
    intro other member
    rw [List.mem_toFinset, mem_normalizeMemberNodeIds] at member
    rcases member with ⟨_, _, valid, _⟩
    exact valid
  rw [dedupeMemberVectorWithoutForcingSelf] at normalized
  generalize (normalizeMemberNodeIds update.memberNodeIds).toFinset = ids at normalized safe
  subst normalized
  have contained : trimCopy loop.cfg.self.nodeId ∈ ids := by
    rw [memberNodeIdsContains_iff fun other member =>
      safe other (mem_sortedElements.mp member)] at selfMember
    exact mem_sortedElements.mp selfMember.2
  have settled := normalizeMemberNodeIdSet_sortedElements safe fun _ => contained
  have needed : (loop.adoptMembers update (sortedElements ids) timing).replica.votesNeeded =
      ids.card / 2 + 1 := by
    apply votesNeeded_of_clusterSize
    simp only [adoptMembers, Replica.setMembership_clusterSize, nodeId]
    exact congrArg (fun members => clusterSizeFromMemberCount members.card) settled
  have size : (loop.adoptMembers update (sortedElements ids) timing).cfg.clusterSize =
      clusterSizeFromMemberCount ids.card := by
    rw [← length_sortedElements]
    rfl
  rw [needed, size, clusterSizeFromMemberCount, clusterSizeNormalize]
  grind

/-- The loop and its replica name the same node, and the replica's quorum is a
majority of the loop's cluster size. -/
structure Sized (loop : NodeLoop) : Prop where
  nodeId : loop.replica.self.nodeId = loop.cfg.self.nodeId
  majority : loop.cfg.clusterSize < 2 * loop.replica.votesNeeded

theorem Follows.sized {earlier later : NodeLoop} (follows : earlier.Follows later)
    (sized : earlier.Sized) : later.Sized where
  nodeId := by
    rw [follows.cfg, follows.replica.self]
    exact sized.nodeId
  majority := by
    rw [follows.cfg, Replica.votesNeeded, follows.replica.clusterSize]
    exact sized.majority

theorem operate_sized (sized : loop.Sized) (operation : Operation) :
    (loop.operate operation).Sized := by
  cases operation with
  | tick now => exact (loop.follows_tick now).sized sized
  | handleFrame frame now => exact (loop.follows_handleFrame frame now).sized sized
  | adoptMembershipPolicy update =>
    have adopts := loop.adoptMembershipPolicy_adopts update
    simp only [operate]
    generalize loop.adoptMembershipPolicy update = result at adopts ⊢
    cases adopts with
    | kept => exact sized
    | adopted members timing normalized newer selfMember =>
      refine ⟨?_, adoptMembers_majority timing sized.nodeId normalized selfMember⟩
      exact (Replica.setMembership_nodeId ..).trans sized.nodeId

theorem operateAll_sized (sized : loop.Sized) (operations : List Operation) :
    (loop.operateAll operations).Sized := by
  induction operations generalizing loop with
  | nil => exact sized
  | cons operation rest induction => exact induction (operate_sized sized operation)

/-- Through every run the quorum is a majority of the loop's cluster size
exactly when an explicit cluster size does not reach beyond the members the
configuration names. -/
theorem quorum_is_majority_iff (given : NodeLoopConfig) :
    (∀ operations, ((create given).operateAll operations).QuorumIsMajority) ↔
      given.clusterSize / 2 ≤ given.namedMembers.card / 2 := by
  constructor
  · intro always
    exact (create_majority_iff given).mp (quorumIsMajority_iff.mp (always []))
  · intro fits operations
    have sized : (create given).Sized := by
      refine ⟨?_, (create_majority_iff given).mpr fits⟩
      rw [create_nodeId, create_cfg]
      rfl
    exact quorumIsMajority_iff.mpr (operateAll_sized sized operations).majority

def sampleFourConfig : NodeLoopConfig :=
  { self := sampleMember "a", peerNodeIds := [ascii "b"], clusterSize := 4 }

/-- Two votes are enough for it, and so they are for the other two nodes. -/
theorem half_is_quorum :
    (create sampleFourConfig).cfg.clusterSize = 4 ∧
      (create sampleFourConfig).replica.votesNeeded = 2 ∧
      ¬∀ operations, ((create sampleFourConfig).operateAll operations).QuorumIsMajority := by
  have needed : (create sampleFourConfig).replica.votesNeeded = 2 := by decide
  refine ⟨rfl, needed, ?_⟩
  intro always
  have majority := (always []).majority
  rw [operateAll, List.foldl_nil, needed] at majority
  exact absurd majority (by decide)

end NodeLoop

end AgentC.EdgeConsensus
