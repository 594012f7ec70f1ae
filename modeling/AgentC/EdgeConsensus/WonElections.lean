import AgentC.EdgeConsensus.QuorumSize

/-! # Elections a replica has won

A candidate checks for a quorum each time it counts a grant, and only then.
Where a cluster has a second member this is enough: no candidate without a
known leader ever holds a quorum. In a cluster of one its own vote is a quorum
from the start, and no grant ever comes to have it checked. -/

namespace AgentC.EdgeConsensus

namespace Replica

def configured (self : Identity) (clusterSize : Nat) : Option (UInt64 × List Bytes) → Replica
  | none => create self clusterSize
  | some (membershipEpoch, memberNodeIds) =>
    (create self clusterSize).setMembership membershipEpoch memberNodeIds

/-- What a replica does with its membership and trust epochs fixed. -/
inductive Move
  | startElection (decisionSha256 : Bytes)
  | handleFrame (frame : Frame)

def move (replica : Replica) : Move → Replica
  | .startElection decisionSha256 => (replica.startElection decisionSha256).1
  | .handleFrame frame => (replica.handleFrame frame).1

def moveAll (replica : Replica) (moves : List Move) : Replica :=
  moves.foldl move replica

def Campaigning (replica : Replica) : Prop :=
  replica.votedForNodeId = replica.self.nodeId ∧ replica.leaderNodeId = []

/-- The votes a campaigning replica has counted, its own included, are fewer
than it needs. -/
def CampaignUndecided (replica : Replica) : Prop :=
  replica.Campaigning →
    voteCountWithSelf replica.grantWitnessesByNodeId.size < replica.votesNeeded

def Waits (replica : Replica) : Prop :=
  replica.leaderNodeId = [] → replica.hasQuorum = false

variable {replica : Replica}

theorem campaignUndecided_of_waits (waits : replica.Waits) : replica.CampaignUndecided := by
  intro campaigning
  apply Nat.lt_of_not_le
  intro reached
  have quorum := hasQuorum_iff.mpr reached
  rw [waits campaigning.2] at quorum
  cases quorum

theorem hasQuorum_of_no_grants (none : replica.grantWitnessesByNodeId = ∅) :
    replica.hasQuorum = true ↔ replica.clusterSize < 2 := by
  rw [hasQuorum_iff, none, votesNeeded, quorumForClusterSize, clusterSizeNormalize]
  have single : voteCountWithSelf (∅ : Std.TreeMap Bytes Identity).size = 1 := rfl
  rw [single]
  grind

theorem waits_of_no_grants (size : 2 ≤ replica.clusterSize)
    (none : replica.grantWitnessesByNodeId = ∅) : replica.Waits := by
  intro _
  rw [← Bool.not_eq_true, hasQuorum_of_no_grants none]
  omega

theorem waits_of_led (led : replica.leaderNodeId ≠ []) : replica.Waits :=
  fun leaderless => absurd leaderless led

theorem Waits.of_same {next : Replica} (waits : replica.Waits)
    (leader : next.leaderNodeId = replica.leaderNodeId)
    (grants : next.grantWitnessesByNodeId = replica.grantWitnessesByNodeId)
    (size : next.clusterSize = replica.clusterSize) : next.Waits := by
  rw [Waits, hasQuorum, leader, grants, size]
  exact waits

theorem Waits.enter (waits : replica.Waits) (size : 2 ≤ replica.clusterSize) (term : UInt64) :
    (replica.maybeResetForNewTerm term).Waits := by
  by_cases later : replica.currentTerm < term
  · rw [maybeResetForNewTerm_of_lt later]
    exact waits_of_no_grants size rfl
  · rw [maybeResetForNewTerm_of_le later]
    exact waits

theorem named_of_voteGrantCounts {frame : Frame} (counts : replica.voteGrantCounts frame = true) :
    replica.self.nodeId ≠ [] := by
  intro empty
  have forSelf := memberNodeIdMatches_iff.mp (of_voteGrantCounts counts).2.1
  rw [empty] at forSelf
  rw [forSelf.2] at forSelf
  exact ne_nil_of_safe forSelf.1 rfl

theorem waits_commitAsLeader (named : replica.self.nodeId ≠ []) (frame : Frame) :
    (replica.countGrant frame).commitAsLeader.Waits :=
  waits_of_led named

theorem Waits.handleVoteGrant (waits : replica.Waits) (size : 2 ≤ replica.clusterSize)
    (frame : Frame) : (replica.handleVoteGrant frame).1.Waits := by
  rw [Replica.handleVoteGrant]
  split
  · exact waits
  · dsimp only
    split
    · exact waits.enter size frame.term
    · next counts =>
      rw [Bool.not_eq_true', Bool.not_eq_false] at counts
      split
      · next uncommitted =>
        intro leaderless
        simp only [candidateCanCommit, Bool.not_eq_true', Bool.and_eq_false_iff,
          Bool.not_not, List.isEmpty_eq_false_iff] at uncommitted
        exact uncommitted.resolve_left (not_not_intro leaderless)
      · exact waits_commitAsLeader (named_of_voteGrantCounts counts) frame

theorem Waits.handleVoteRequest (waits : replica.Waits) (size : 2 ≤ replica.clusterSize)
    (frame : Frame) : (replica.handleVoteRequest frame).1.Waits := by
  rw [Replica.handleVoteRequest]
  split
  · exact waits
  · have marked : (replica.markFrameSeen frame).Waits := waits.of_same rfl rfl rfl
    exact (marked.enter size frame.term).of_same rfl rfl rfl

theorem Waits.handleLeaderCommit (waits : replica.Waits) (frame : Frame) :
    (replica.handleLeaderCommit frame).1.Waits := by
  rw [Replica.handleLeaderCommit]
  split
  · exact waits
  · next accepts =>
    split
    · exact waits
    · rw [Bool.not_eq_true', Bool.not_eq_false] at accepts
      exact waits_of_led (ne_nil_of_nodeIsMember (of_leaderCommitAccepts accepts).2)

theorem Waits.handleFrame (waits : replica.Waits) (size : 2 ≤ replica.clusterSize) (frame : Frame) :
    (replica.handleFrame frame).1.Waits := by
  rw [Replica.handleFrame]
  split
  · exact waits
  · split
    · exact waits
    · split
      · exact waits
      · split
        · exact waits
        · split
          · exact waits.handleVoteRequest size frame
          · split
            · exact waits.handleVoteGrant size frame
            · exact waits.handleLeaderCommit frame

theorem Waits.move (waits : replica.Waits) (size : 2 ≤ replica.clusterSize) (move : Move) :
    (replica.move move).Waits ∧ 2 ≤ (replica.move move).clusterSize := by
  cases move with
  | startElection decision => exact ⟨waits_of_no_grants size rfl, size⟩
  | handleFrame frame =>
    refine ⟨waits.handleFrame size frame, ?_⟩
    rw [Replica.move, (replica.follows_handleFrame frame).clusterSize]
    exact size

theorem Waits.moveAll (waits : replica.Waits) (size : 2 ≤ replica.clusterSize) (moves : List Move) :
    (replica.moveAll moves).Waits := by
  induction moves generalizing replica with
  | nil => exact waits
  | cons move rest induction =>
    have moved := waits.move size move
    exact induction moved.1 moved.2

theorem configured_no_grants (self : Identity) (clusterSize : Nat)
    (membership : Option (UInt64 × List Bytes)) :
    (configured self clusterSize membership).grantWitnessesByNodeId = ∅ := by
  cases membership with
  | none => rfl
  | some membership =>
    simp only [configured, setMembership]
    split <;> rfl

/-- A replica never sits on a won election, whatever it does, exactly when its
cluster has more than one member. -/
theorem campaign_undecided_iff (self : Identity) (clusterSize : Nat)
    (membership : Option (UInt64 × List Bytes)) :
    (∀ moves, ((configured self clusterSize membership).moveAll moves).CampaignUndecided) ↔
      2 ≤ (configured self clusterSize membership).clusterSize := by
  have none := configured_no_grants self clusterSize membership
  generalize configured self clusterSize membership = replica at none ⊢
  constructor
  · intro always
    apply Nat.le_of_not_lt
    intro single
    -- Its own vote is the quorum, and the first campaign leaves it a candidate.
    have undecided := always [.startElection []] ⟨rfl, rfl⟩
    have quorum : (replica.startElection []).1.hasQuorum = true :=
      (hasQuorum_of_no_grants rfl).mpr single
    exact absurd (hasQuorum_iff.mp quorum) (Nat.not_le_of_lt undecided)
  · intro size moves
    apply campaignUndecided_of_waits
    exact (waits_of_no_grants size none).moveAll size moves

/-- A cluster of one: its only member campaigns and stays a candidate. -/
theorem lone_candidate_not_elected :
    ¬((configured (NodeLoop.sampleMember "a") 1 none).moveAll
      [.startElection (List.replicate 64 '1'.toUInt8)]).CampaignUndecided := by
  intro undecided
  exact absurd (undecided ⟨rfl, rfl⟩) (by decide)

end Replica

end AgentC.EdgeConsensus
