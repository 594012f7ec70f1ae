import AgentC.EdgeConsensus.WonElections

/-! # The votes behind a committed leader

A replica writes its leader in two places: when its own grants reach the
quorum, and when it accepts a leader commit with the witnesses the frame
brings. The list it stores beside the leader always holds a quorum of distinct
members under the replica's own epochs, the leader among them, whatever else a
foreign list contains. -/

namespace AgentC.EdgeConsensus

namespace Replica

structure VouchedBy (replica : Replica) (voter : Bytes) (witness : Identity) : Prop where
  nodeId : trimCopy witness.nodeId = voter
  member : voter ∈ replica.memberNodeIds
  membershipEpoch : witness.membershipEpoch = replica.self.membershipEpoch
  trustEpochs : witness.trustEpochs = replica.self.trustEpochs

/-- The committed witnesses hold a quorum of distinct members with the leader
among them. -/
def LeaderHasQuorum (replica : Replica) : Prop :=
  ∃ voters : Finset Bytes,
    voters ⊆ replica.memberNodeIds ∧
      replica.votesNeeded ≤ voters.card ∧
      trimCopy replica.leaderNodeId ∈ voters ∧
      ∀ voter ∈ voters, ∃ witness ∈ replica.committedVoteWitnesses,
        replica.VouchedBy voter witness

variable {replica : Replica} {witness : Identity} {next : Replica} {frame : Frame}

theorem trustEpochsMatch_iff {epochs : Epochs} :
    replica.trustEpochsMatch epochs = true ↔ epochs = replica.self.trustEpochs := by
  rcases epochs with ⟨trustRoots, revocations, certRoots⟩
  simp only [trustEpochsMatch, Bool.and_eq_true, beq_iff_eq]
  constructor
  · rintro ⟨⟨rfl, rfl⟩, rfl⟩
    rfl
  · intro same
    rw [← same]
    exact ⟨⟨rfl, rfl⟩, rfl⟩

theorem membershipMatches_iff {other : Identity} : replica.membershipMatches other = true ↔
      other.membershipEpoch = replica.self.membershipEpoch ∧
        replica.nodeIsMember other.nodeId = true := by
  rw [membershipMatches, Bool.and_eq_true, beq_iff_eq, eq_comm]

theorem vouchedBy_of_matches (membership : replica.membershipMatches witness = true)
    (trust : replica.trustEpochsMatch witness.trustEpochs = true) :
    replica.VouchedBy (trimCopy witness.nodeId) witness where
  nodeId := rfl
  member := (nodeIsMember_iff.mp (membershipMatches_iff.mp membership).2).2
  membershipEpoch := (membershipMatches_iff.mp membership).1
  trustEpochs := trustEpochsMatch_iff.mp trust

theorem VouchedBy.of_follows {voter : Bytes} (vouched : replica.VouchedBy voter witness)
    (follows : replica.Follows next) :
    next.VouchedBy voter witness where
  nodeId := vouched.nodeId
  member := follows.memberNodeIds ▸ vouched.member
  membershipEpoch := follows.self ▸ vouched.membershipEpoch
  trustEpochs := follows.self ▸ vouched.trustEpochs

theorem LeaderHasQuorum.of_follows (backing : replica.LeaderHasQuorum)
    (follows : replica.Follows next) (leader : next.leaderNodeId = replica.leaderNodeId)
    (witnesses : next.committedVoteWitnesses = replica.committedVoteWitnesses) :
    next.LeaderHasQuorum := by
  rcases backing with ⟨voters, included, reached, leads, vouched⟩
  refine ⟨voters, follows.memberNodeIds ▸ included, ?_, leader ▸ leads, ?_⟩
  · rw [votesNeeded, follows.clusterSize]
    exact reached
  · intro voter member
    rcases vouched voter member with ⟨witness, listed, vouches⟩
    exact ⟨witness, witnesses ▸ listed, vouches.of_follows follows⟩

/-- The counting loop counts one vote for each of a set of ids it had not seen,
and each of them belongs to a witness of the list. -/
theorem countWitnesses_voters (replica : Replica) (leaderNodeId : Bytes)
    (witnesses : List Identity) (seen : Finset Bytes) (count : Nat) (leaderIsWitness : Bool)
    (safe : ∀ witness ∈ witnesses, umbmpIdIsSafe witness.nodeId = true) : ∃ voters : Finset Bytes,
      Disjoint voters seen ∧
        (replica.countWitnesses leaderNodeId witnesses (seen, count, leaderIsWitness)).2.1 =
          count + voters.card ∧
        (∀ voter ∈ voters, ∃ witness ∈ witnesses, replica.VouchedBy voter witness) ∧
        ((replica.countWitnesses leaderNodeId witnesses (seen, count, leaderIsWitness)).2.2 = true →
          leaderIsWitness = true ∨ trimCopy leaderNodeId ∈ voters) := by
  induction witnesses generalizing seen count leaderIsWitness with
  | nil =>
    refine ⟨∅, Finset.disjoint_empty_left seen, rfl, ?_, .inl⟩
    intro voter member
    exact absurd member (Finset.notMem_empty voter)
  | cons witness rest induction =>
    have restSafe : ∀ other ∈ rest, umbmpIdIsSafe other.nodeId = true :=
      fun other member => safe other (List.mem_cons_of_mem _ member)
    have unchanged := trimCopy_of_safe (safe witness List.mem_cons_self)
    rw [countWitnesses]
    split
    · next counts =>
      simp only [leaderCommitWitnessCanCount, Bool.and_eq_true, Bool.not_eq_true',
        decide_eq_false_iff_not] at counts
      rcases counts with ⟨⟨membership, trust⟩, unseen⟩
      have vouched := vouchedBy_of_matches membership trust
      rw [unchanged] at vouched
      rcases induction (insert witness.nodeId seen) (count + 1)
        (leaderIsWitness || memberNodeIdMatches witness.nodeId leaderNodeId) restSafe with
        ⟨voters, apart, counted, witnessed, leader⟩
      rw [Finset.disjoint_insert_right] at apart
      refine ⟨insert witness.nodeId voters, ?_, ?_, ?_, ?_⟩
      · rw [Finset.disjoint_insert_left]
        exact ⟨unseen, apart.2⟩
      · rw [counted, Finset.card_insert_of_notMem apart.1]
        omega
      · intro voter member
        rcases Finset.mem_insert.mp member with own | others
        · exact ⟨witness, List.mem_cons_self, own ▸ vouched⟩
        · rcases witnessed voter others with ⟨other, listed, vouches⟩
          exact ⟨other, List.mem_cons_of_mem _ listed, vouches⟩
      · intro found
        rcases leader found with flagged | listed
        · rcases Bool.or_eq_true_iff.mp flagged with already | isLeader
          · exact .inl already
          · right
            rw [← (memberNodeIdMatches_iff.mp isLeader).2, unchanged]
            exact Finset.mem_insert_self _ _
        · exact .inr (Finset.mem_insert_of_mem listed)
    · rcases induction (insert witness.nodeId seen) count leaderIsWitness restSafe with
        ⟨voters, apart, counted, witnessed, leader⟩
      refine ⟨voters, (Finset.disjoint_insert_right.mp apart).2, counted, ?_, leader⟩
      intro voter member
      rcases witnessed voter member with ⟨other, listed, vouches⟩
      exact ⟨other, List.mem_cons_of_mem _ listed, vouches⟩

/-- A grant that is filed under its sender's id and counts for the replica. -/
structure GrantFiled (replica : Replica) (nodeId : Bytes) (witness : Identity) : Prop where
  filed : witness.nodeId = nodeId
  safe : umbmpIdIsSafe nodeId = true
  fromOther : nodeId ≠ trimCopy replica.self.nodeId
  vouched : replica.VouchedBy nodeId witness

/-- What every state of a replica keeps: its cluster is its members, itself
among them, its grants are filed under members, and a leader it knows has a
quorum. -/
structure Backed (replica : Replica) : Prop where
  size : replica.clusterSize = clusterSizeFromMemberCount replica.memberNodeIds.card
  ownMember : umbmpIdIsSafe (trimCopy replica.self.nodeId) = true →
    trimCopy replica.self.nodeId ∈ replica.memberNodeIds
  grants : ∀ nodeId witness, replica.grantWitnessesByNodeId[nodeId]? = some witness →
    replica.GrantFiled nodeId witness
  leader : replica.leaderNodeId ≠ [] → replica.LeaderHasQuorum

theorem mem_values_iff {map : Std.TreeMap Bytes Identity} :
    witness ∈ map.values ↔ ∃ nodeId : Bytes, map[nodeId]? = some witness := by
  have listed : map.values = map.toList.map Prod.snd := by
    have folded : map.values = map.foldr (fun _ value values => value :: values) [] := rfl
    rw [folded, Std.TreeMap.foldr_eq_foldr_toList]
    induction map.toList with
    | nil => rfl
    | cons entry rest induction => rw [List.foldr_cons, induction, List.map_cons]
  rw [listed, List.mem_map]
  constructor
  · rintro ⟨⟨nodeId, value⟩, member, rfl⟩
    exact ⟨nodeId, Std.TreeMap.mem_toList_iff_getElem?_eq_some.mp member⟩
  · rintro ⟨nodeId, held⟩
    exact ⟨(nodeId, witness), Std.TreeMap.mem_toList_iff_getElem?_eq_some.mpr held, rfl⟩

/-- The own vote and the grants of a candidate with a quorum back it as leader. -/
theorem Backed.leaderHasQuorum_commitAsLeader (backed : replica.Backed)
    (named : umbmpIdIsSafe (trimCopy replica.self.nodeId) = true)
    (quorum : replica.hasQuorum = true) : replica.commitAsLeader.LeaderHasQuorum := by
  let granting := replica.grantWitnessesByNodeId.keys.toFinset
  have granted : ∀ voter ∈ granting, ∃ witness,
      replica.grantWitnessesByNodeId[voter]? = some witness := by
    intro voter member
    have held := Std.TreeMap.mem_keys.mp (List.mem_toFinset.mp member)
    exact Option.isSome_iff_exists.mp (Std.TreeMap.isSome_getElem?_iff_mem.mpr held)
  have others : trimCopy replica.self.nodeId ∉ granting := by
    intro member
    rcases granted _ member with ⟨witness, held⟩
    exact (backed.grants _ witness held).fromOther rfl
  have count : granting.card = replica.grantWitnessesByNodeId.size := by
    rw [List.toFinset_card_of_nodup Std.TreeMap.nodup_keys, Std.TreeMap.length_keys]
  refine ⟨insert (trimCopy replica.self.nodeId) granting, ?_, ?_, Finset.mem_insert_self _ _, ?_⟩
  · intro voter member
    rcases Finset.mem_insert.mp member with own | grants
    · exact own ▸ backed.ownMember named
    · rcases granted voter grants with ⟨witness, held⟩
      exact (backed.grants voter witness held).vouched.member
  · rw [Finset.card_insert_of_notMem others, count]
    exact (hasQuorum_iff.mp quorum).trans (voteCountWithSelf_le _)
  · intro voter member
    rcases Finset.mem_insert.mp member with own | grants
    · rw [own]
      exact ⟨replica.self, List.mem_cons_self, rfl, backed.ownMember named, rfl, rfl⟩
    · rcases granted voter grants with ⟨witness, held⟩
      have listed := mem_values_iff.mpr ⟨voter, held⟩
      have vouched := (backed.grants voter witness held).vouched
      exact ⟨witness, List.mem_cons_of_mem _ listed,
        vouched.of_follows replica.follows_commitAsLeader⟩

/-- The witnesses of an accepted leader commit back the leader it announces. -/
theorem leaderHasQuorum_acceptCommit (valid : frameIsValid frame = none)
    (witnessed : replica.leaderCommitWitnessesValid frame = true) :
    (replica.acceptCommit frame).LeaderHasQuorum := by
  rcases countWitnesses_voters replica frame.leaderNodeId frame.voteWitnesses ∅ 0 false
    (fun witness listed => (identityValidate_eq_ok (witnessesValid_of_frameIsValid valid
      witness listed)).2) with ⟨voters, _, counted, vouched, leader⟩
  have follows := replica.follows_acceptCommit frame
  refine ⟨voters, ?_, ?_, ?_, ?_⟩
  · intro voter member
    rcases vouched voter member with ⟨witness, _, vouches⟩
    rw [follows.memberNodeIds]
    exact vouches.member
  · rw [votesNeeded, follows.clusterSize]
    have reached := votesNeeded_le_of_witnesses witnessed
    rw [counted, Nat.zero_add] at reached
    exact reached
  · simp only [leaderCommitWitnessesValid, leaderCommitWitnessesCanAccept,
      Bool.and_eq_true] at witnessed
    exact (leader witnessed.1).resolve_left Bool.false_ne_true
  · intro voter member
    rcases vouched voter member with ⟨witness, listed, vouches⟩
    exact ⟨witness, listed, vouches.of_follows follows⟩

/-- Whoever follows a backed replica is backed when the grants it holds count
and its leader has a quorum. -/
theorem Backed.change (backed : replica.Backed) (follows : replica.Follows next)
    (grants : ∀ nodeId witness, next.grantWitnessesByNodeId[nodeId]? = some witness →
      replica.GrantFiled nodeId witness) (leader : next.leaderNodeId ≠ [] → next.LeaderHasQuorum) :
    next.Backed where
  size := by
    rw [follows.clusterSize, follows.memberNodeIds]
    exact backed.size
  ownMember := by
    rw [follows.self, follows.memberNodeIds]
    exact backed.ownMember
  grants := by
    intro nodeId witness held
    have filed := grants nodeId witness held
    exact ⟨filed.filed, filed.safe, follows.self ▸ filed.fromOther,
      filed.vouched.of_follows follows⟩
  leader := leader

theorem Backed.clear {replica : Replica} (backed : replica.Backed)
    (follows : replica.Follows next) (leaderless : next.leaderNodeId = [])
    (none : next.grantWitnessesByNodeId = ∅) : next.Backed := by
  refine backed.change follows ?_ (absurd leaderless)
  intro nodeId witness held
  rw [none] at held
  simp at held

theorem Backed.enter (backed : replica.Backed) (term : UInt64) :
    (replica.maybeResetForNewTerm term).Backed := by
  have follows := replica.follows_maybeResetForNewTerm term
  by_cases later : replica.currentTerm < term
  · rw [maybeResetForNewTerm_of_lt later] at follows ⊢
    exact backed.clear follows rfl rfl
  · rw [maybeResetForNewTerm_of_le later]
    exact backed

theorem Backed.keep (backed : replica.Backed) (follows : replica.Follows next)
    (leader : next.leaderNodeId = replica.leaderNodeId)
    (witnesses : next.committedVoteWitnesses = replica.committedVoteWitnesses)
    (grants : next.grantWitnessesByNodeId = replica.grantWitnessesByNodeId) : next.Backed := by
  refine backed.change follows ?_ ?_
  · rw [grants]
    exact backed.grants
  · intro led
    exact (backed.leader (leader ▸ led)).of_follows follows leader witnesses

theorem Backed.markFrameSeen (backed : replica.Backed) (frame : Frame) :
    (replica.markFrameSeen frame).Backed :=
  backed.keep (replica.follows_markFrameSeen frame) rfl rfl rfl

theorem grantFiled_of_counts (admits : replica.Admits frame)
    (counts : replica.voteGrantCounts frame = true) :
    replica.GrantFiled frame.sender.nodeId frame.sender := by
  have safe := senderSafe_of_frameIsValid admits.valid
  have unchanged := trimCopy_of_safe safe
  have trust : replica.trustEpochsMatch frame.sender.trustEpochs = true := by
    simp only [voteGrantCounts, voteGrantCanCount, Bool.and_eq_true] at counts
    exact counts.2
  have counted := of_voteGrantCounts counts
  have vouched := vouchedBy_of_matches admits.membership trust
  rw [unchanged] at vouched
  refine ⟨rfl, safe, ?_, vouched⟩
  intro own
  have forSelf := (memberNodeIdMatches_iff.mp counted.2.1).2
  have fromCandidate : memberNodeIdMatches frame.sender.nodeId frame.candidateNodeId = true := by
    rw [memberNodeIdMatches_iff, unchanged, forSelf]
    exact ⟨safe, own⟩
  rw [counted.2.2.1] at fromCandidate
  cases fromCandidate

theorem Backed.countGrant (backed : replica.Backed)
    (filed : replica.GrantFiled frame.sender.nodeId frame.sender) :
    (replica.countGrant frame).Backed := by
  have follows := replica.follows_countGrant frame
  refine backed.change follows ?_ ?_
  · intro nodeId witness held
    simp only [Replica.countGrant, Replica.markFrameSeen, Std.TreeMap.getElem?_insert] at held
    split at held
    · next same =>
      rw [Std.LawfulEqCmp.compare_eq_iff_eq] at same
      rw [Option.some.injEq] at held
      rw [← same, ← held]
      exact filed
    · exact backed.grants nodeId witness held
  · intro led
    exact (backed.leader led).of_follows follows rfl rfl

theorem Backed.handleFrame (backed : replica.Backed) (frame : Frame) :
    (replica.handleFrame frame).1.Backed := by
  have handles := handleFrame_handles replica frame
  generalize replica.handleFrame frame = handled at handles ⊢
  have entered := (backed.markFrameSeen frame).enter frame.term
  cases handles with
  | refused => exact backed
  | granted =>
    exact entered.keep ((follows_refl _).of_entered rfl rfl rfl rfl) rfl rfl rfl
  | adopted => exact backed.enter frame.term
  | counted admits kind counts =>
    have current := not_lt_of_voteGrantCounts counts
    rw [maybeResetForNewTerm_of_le current] at counts ⊢
    exact backed.countGrant (grantFiled_of_counts admits counts)
  | elected leading admits kind counts quorum leads =>
    have current := not_lt_of_voteGrantCounts counts
    rw [maybeResetForNewTerm_of_le current] at counts quorum leads
    have counted := backed.countGrant (grantFiled_of_counts admits counts)
    have forSelf := memberNodeIdMatches_iff.mp (of_voteGrantCounts counts).2.1
    rw [forSelf.2] at forSelf
    have elected := counted.leaderHasQuorum_commitAsLeader forSelf.1 quorum
    rw [leads]
    exact counted.change (follows_commitAsLeader _) counted.grants (fun _ => elected)
  | committed admits kind accepts witnessed =>
    have follows : ((replica.markFrameSeen frame).maybeResetForNewTerm frame.term).Follows
        (replica.acceptCommit frame) := (follows_refl _).of_entered rfl rfl rfl rfl
    have committed := leaderHasQuorum_acceptCommit admits.valid witnessed
    exact entered.change follows entered.grants (fun _ => committed)

/-- What a replica does while its trust epochs stay as they are. -/
inductive Action
  | startElection (decisionSha256 : Bytes)
  | handleFrame (frame : Frame)
  | expireLeaderLease
  | currentLeaderCommitFrame
  | setMembership (membershipEpoch : UInt64) (memberNodeIds : List Bytes)

def act (replica : Replica) : Action → Replica
  | .startElection decisionSha256 => (replica.startElection decisionSha256).1
  | .handleFrame frame => (replica.handleFrame frame).1
  | .expireLeaderLease => replica.expireLeaderLease
  | .currentLeaderCommitFrame => replica.currentLeaderCommitFrame.1
  | .setMembership membershipEpoch memberNodeIds =>
    replica.setMembership membershipEpoch memberNodeIds

def actAll (replica : Replica) (actions : List Action) : Replica :=
  actions.foldl act replica

theorem ownMember_setMembership (replica : Replica) (membershipEpoch : UInt64)
    (memberNodeIds : List Bytes) (named : umbmpIdIsSafe (trimCopy replica.self.nodeId) = true) :
    trimCopy replica.self.nodeId ∈
      (replica.setMembership membershipEpoch memberNodeIds).memberNodeIds := by
  have included : trimCopy replica.self.nodeId ∈
      normalizeMemberNodeIdSet memberNodeIds replica.self.nodeId true :=
    mem_normalizeMemberNodeIdSet.mpr ⟨named, .inl rfl⟩
  simp only [setMembership]
  split <;> exact included

theorem backed_setMembership_of_cleared {membershipEpoch : UInt64} {memberNodeIds : List Bytes}
    (leaderless : (replica.setMembership membershipEpoch memberNodeIds).leaderNodeId = [])
    (none : (replica.setMembership membershipEpoch memberNodeIds).grantWitnessesByNodeId = ∅) :
    (replica.setMembership membershipEpoch memberNodeIds).Backed where
  size := by
    simp only [setMembership]
    split <;> rfl
  ownMember := by
    rw [setMembership_nodeId]
    exact replica.ownMember_setMembership membershipEpoch memberNodeIds
  grants := by
    intro nodeId witness held
    rw [none] at held
    simp at held
  leader := fun led => absurd leaderless led

theorem backed_setMembership_create (self : Identity) (clusterSize : Nat)
    (membershipEpoch : UInt64) (memberNodeIds : List Bytes) :
    ((create self clusterSize).setMembership membershipEpoch memberNodeIds).Backed := by
  apply backed_setMembership_of_cleared
  · simp only [setMembership]
    split <;> rfl
  · simp only [setMembership]
    split <;> rfl

/-- A membership that does not change leaves a backed replica as it is, and any
other forgets the leader and the grants. -/
theorem Backed.setMembership (backed : replica.Backed) (membershipEpoch : UInt64)
    (memberNodeIds : List Bytes) :
    (replica.setMembership membershipEpoch memberNodeIds).Backed := by
  by_cases changed : (replica.self.membershipEpoch != membershipEpoch ||
      replica.memberNodeIds !=
        normalizeMemberNodeIdSet memberNodeIds replica.self.nodeId true) = true
  · apply backed_setMembership_of_cleared
    · simp only [Replica.setMembership, if_pos changed, resetConsensusState]
    · simp only [Replica.setMembership, if_pos changed, resetConsensusState]
  · have unchanged : replica.setMembership membershipEpoch memberNodeIds = replica := by
      simp only [Replica.setMembership, if_neg changed]
      simp only [Bool.or_eq_true, bne_iff_ne, ne_eq, not_or, not_not] at changed
      rw [← changed.1, ← changed.2, ← backed.size]
    rw [unchanged]
    exact backed

theorem Backed.act (backed : replica.Backed) (action : Action) : (replica.act action).Backed := by
  cases action with
  | startElection decision => exact backed.clear (replica.follows_startElection decision) rfl rfl
  | handleFrame frame => exact backed.handleFrame frame
  | expireLeaderLease =>
    have follows := replica.follows_expireLeaderLease
    rw [Replica.act]
    rw [Replica.expireLeaderLease] at follows ⊢
    split
    · exact backed
    · next foreign =>
      rw [if_neg foreign] at follows
      exact backed.clear follows rfl rfl
  | currentLeaderCommitFrame =>
    exact backed.keep replica.follows_currentLeaderCommitFrame rfl rfl rfl
  | setMembership membershipEpoch memberNodeIds =>
    exact backed.setMembership membershipEpoch memberNodeIds

theorem Backed.actAll (backed : replica.Backed) (actions : List Action) :
    (replica.actAll actions).Backed := by
  induction actions generalizing replica with
  | nil => exact backed
  | cons action rest induction => exact induction (backed.act action)

/-- Whatever a replica does after its membership was set, a leader it has
committed to is backed by a quorum of the current members, itself included. -/
theorem committed_leader_has_quorum (self : Identity) (clusterSize : Nat)
    (membership : UInt64 × List Bytes) (actions : List Action)
    (led : ((configured self clusterSize (some membership)).actAll actions).leaderNodeId ≠ []) :
    ((configured self clusterSize (some membership)).actAll actions).LeaderHasQuorum := by
  have started := backed_setMembership_create self clusterSize membership.1 membership.2
  exact (started.actAll actions).leader led

def sampleFollowing : Replica :=
  (configured (NodeLoop.sampleMember "a") 1 (some (1, [ascii "b", ascii "c"]))).actAll
    [.handleFrame NodeLoop.sampleLeaderCommit]

theorem committed_leader_has_quorum_sample :
    sampleFollowing.leaderNodeId = ascii "b" ∧ sampleFollowing.LeaderHasQuorum := by
  have follows : sampleFollowing.leaderNodeId = ascii "b" := by decide
  have led : sampleFollowing.leaderNodeId ≠ [] := by
    rw [follows]
    decide
  exact ⟨follows, committed_leader_has_quorum _ _ _ _ led⟩

end Replica

end AgentC.EdgeConsensus
