import AgentC.EdgeConsensus.Frame

/-! # The consensus replica

`EdgeConsensusReplica` of `daemon/src/edge_node_consensus.cpp` with the
acceptance predicates of `core/src/agent_edge_interop.c`. A `std::map` is a
`Std.TreeMap` over byte strings, which iterates in the same order. -/

namespace AgentC.EdgeConsensus

structure Replica where
  self : Identity
  clusterSize : Nat
  currentTerm : UInt64 := 0
  frameSeq : UInt64 := 0
  votedForNodeId : Bytes := []
  leaderNodeId : Bytes := []
  campaignDecisionSha256 : Bytes := []
  committedDecisionSha256 : Bytes := []
  memberNodeIds : Finset Bytes
  grantWitnessesByNodeId : Std.TreeMap Bytes Identity := ∅
  committedVoteWitnesses : List Identity := []
  seenFrameTermById : Std.TreeMap Bytes UInt64 := ∅

namespace Replica

def voteRequestCanGrant (currentTerm requestTerm : UInt64)
    (candidateNodeIsMember candidateIsSender trustEpochsMatch : Bool)
    (votedForNodeId candidateNodeId : Bytes) : Bool :=
  if !candidateNodeIsMember || !candidateIsSender || !trustEpochsMatch then false
  else if requestTerm < currentTerm then false
  else if currentTerm < requestTerm then true
  else if votedForNodeId.length == 0 then true
  else nodeIdMatchesRaw votedForNodeId candidateNodeId

def voteGrantCanCount (currentTerm grantTerm : UInt64)
    (candidateNodeIsMember candidateIsSelf grantSenderIsCandidate campaignDecisionMatches
      granted trustEpochsMatch : Bool) : Bool :=
  currentTerm ≤ grantTerm && candidateNodeIsMember && candidateIsSelf &&
    !grantSenderIsCandidate && campaignDecisionMatches && granted && trustEpochsMatch

def leaderCommitCanAccept (currentTerm commitTerm : UInt64)
    (leaderNodeIsMember leaderIsSender trustEpochsMatch : Bool) : Bool :=
  currentTerm ≤ commitTerm && leaderNodeIsMember && leaderIsSender && trustEpochsMatch

def leaderCommitWitnessCanCount
    (witnessMembershipMatches witnessTrustEpochsMatch witnessAlreadySeen : Bool) : Bool :=
  witnessMembershipMatches && witnessTrustEpochsMatch && !witnessAlreadySeen

def leaderCommitWitnessesCanAccept (clusterSize validWitnessCount : Nat)
    (leaderIsWitness : Bool) : Bool :=
  leaderIsWitness && hasQuorumVotes clusterSize validWitnessCount

def candidateCanCommit (hasLeader hasQuorum : Bool) : Bool :=
  !hasLeader && hasQuorum

def seenFrameShouldDrop (frameIdSeen : Bool) (seenTerm frameTerm : UInt64) : Bool :=
  frameIdSeen && seenTerm == frameTerm

def create (self : Identity) (clusterSize : Nat) : Replica where
  self := self
  clusterSize := clusterSizeNormalize clusterSize
  memberNodeIds := {self.nodeId}

def setTrustEpochs (replica : Replica) (epochs : Epochs) : Replica :=
  { replica with self := { replica.self with trustEpochs := epochs } }

/-- Everything but the identity, the membership and the frame counter. -/
def resetConsensusState (replica : Replica) : Replica :=
  { replica with
    currentTerm := 0
    votedForNodeId := []
    leaderNodeId := []
    campaignDecisionSha256 := []
    committedDecisionSha256 := []
    committedVoteWitnesses := []
    grantWitnessesByNodeId := ∅
    seenFrameTermById := ∅ }

def setMembership (replica : Replica) (membershipEpoch : UInt64)
    (memberNodeIds : List Bytes) : Replica :=
  let nextMemberNodeIds := normalizeMemberNodeIdSet memberNodeIds replica.self.nodeId true
  let changed := replica.self.membershipEpoch != membershipEpoch ||
    replica.memberNodeIds != nextMemberNodeIds
  let updated := { replica with
    self := { replica.self with membershipEpoch := membershipEpoch }
    memberNodeIds := nextMemberNodeIds
    clusterSize := clusterSizeFromMemberCount nextMemberNodeIds.card }
  if changed then updated.resetConsensusState else updated

def leaderIsSelf (replica : Replica) : Bool :=
  memberNodeIdMatches replica.leaderNodeId replica.self.nodeId

def trustEpochsMatch (replica : Replica) (other : Epochs) : Bool :=
  replica.self.trustEpochs.trustRootsEpoch == other.trustRootsEpoch &&
    replica.self.trustEpochs.revocationsEpoch == other.revocationsEpoch &&
    replica.self.trustEpochs.certRootsEpoch == other.certRootsEpoch

def nodeIsMember (replica : Replica) (nodeId : Bytes) : Bool :=
  memberNodeIdIsValid nodeId && trimCopy nodeId ∈ replica.memberNodeIds

def membershipMatches (replica : Replica) (other : Identity) : Bool :=
  replica.self.membershipEpoch == other.membershipEpoch && replica.nodeIsMember other.nodeId

def hasQuorum (replica : Replica) : Bool :=
  hasQuorumVotes replica.clusterSize
    (voteCountWithSelf replica.grantWitnessesByNodeId.size)

/-- The loop of `leader_commit_witnesses_valid`: the ids seen so far, the
number of witnesses counted and whether the leader is one of them. -/
def countWitnesses (replica : Replica) (leaderNodeId : Bytes) :
    List Identity → Finset Bytes × Nat × Bool → Finset Bytes × Nat × Bool
  | [], counted => counted
  | witness :: rest, (seenNodeIds, count, leaderIsWitness) =>
    let next := insert witness.nodeId seenNodeIds
    if leaderCommitWitnessCanCount (replica.membershipMatches witness)
        (replica.trustEpochsMatch witness.trustEpochs)
        (witness.nodeId ∈ seenNodeIds) then
      replica.countWitnesses leaderNodeId rest
        (next, count + 1,
          leaderIsWitness || memberNodeIdMatches witness.nodeId leaderNodeId)
    else
      replica.countWitnesses leaderNodeId rest (next, count, leaderIsWitness)

def leaderCommitWitnessesValid (replica : Replica) (frame : Frame) : Bool :=
  let counted := replica.countWitnesses frame.leaderNodeId frame.voteWitnesses (∅, 0, false)
  leaderCommitWitnessesCanAccept replica.clusterSize counted.2.1 counted.2.2

def makeVoteGrantFrame (replica : Replica) (candidateNodeId decisionSha256 : Bytes) : Frame where
  frameId := consensusFrameId replica.self.nodeId kindVoteGrant replica.currentTerm
    candidateNodeId
  kind := kindVoteGrant
  term := replica.currentTerm
  decisionSha256 := decisionSha256
  candidateNodeId := candidateNodeId
  granted := true
  sender := replica.self

def makeLeaderCommitFrame (replica : Replica) (frameId : Bytes) : Frame where
  frameId := frameId
  kind := kindLeaderCommit
  term := replica.currentTerm
  decisionSha256 := replica.committedDecisionSha256
  leaderNodeId := replica.leaderNodeId
  sender := replica.self
  voteWitnesses := replica.committedVoteWitnesses

/-- `next_frame_id` advances the frame counter and formats it. -/
def nextFrameId (replica : Replica) (kind : Bytes) : Replica × Bytes :=
  let frameSeq := nextFrameSequence replica.frameSeq
  ({ replica with frameSeq := frameSeq },
    consensusFrameId replica.self.nodeId kind frameSeq)

def currentLeaderCommitFrame (replica : Replica) : Replica × Frame :=
  let (next, frameId) := replica.nextFrameId kindLeaderCommit
  (next, next.makeLeaderCommitFrame frameId)

def maybeResetForNewTerm (replica : Replica) (term : UInt64) : Replica :=
  if !incomingTermAdvances replica.currentTerm term then replica
  else
    { replica with
      currentTerm := term
      votedForNodeId := []
      leaderNodeId := []
      campaignDecisionSha256 := []
      committedDecisionSha256 := []
      committedVoteWitnesses := []
      grantWitnessesByNodeId := ∅ }

def expireLeaderLease (replica : Replica) : Replica :=
  if replica.leaderIsSelf then replica
  else
    { replica with
      leaderNodeId := []
      votedForNodeId := []
      campaignDecisionSha256 := []
      committedDecisionSha256 := []
      committedVoteWitnesses := []
      grantWitnessesByNodeId := ∅ }

def startElection (replica : Replica) (decisionSha256 : Bytes) : Replica × Frame :=
  let campaigning := { replica with
    campaignDecisionSha256 := decisionSha256
    committedDecisionSha256 := []
    leaderNodeId := []
    grantWitnessesByNodeId := ∅
    committedVoteWitnesses := []
    currentTerm := nextTerm replica.currentTerm
    votedForNodeId := replica.self.nodeId }
  let (next, frameId) := campaigning.nextFrameId kindVoteRequest
  (next,
    { frameId := frameId
      kind := kindVoteRequest
      term := next.currentTerm
      decisionSha256 := decisionSha256
      candidateNodeId := next.self.nodeId
      sender := next.self })

/-- What `handle_frame` reports besides the changed replica: its return value,
`out_accepted`, `out_frames` and `out_error`. -/
structure FrameOutcome where
  ok : Bool
  accepted : Bool
  frames : List Frame
  error : String
deriving DecidableEq, Repr

namespace FrameOutcome

def failed (error : String) : FrameOutcome := ⟨false, false, [], error⟩

def ignored : FrameOutcome := ⟨true, false, [], ""⟩

def acceptedWith (frames : List Frame) : FrameOutcome := ⟨true, true, frames, ""⟩

def Rejected (outcome : FrameOutcome) : Prop :=
  outcome.ok = false ∨ outcome.accepted = false

instance (outcome : FrameOutcome) : Decidable outcome.Rejected :=
  inferInstanceAs (Decidable (_ ∨ _))

end FrameOutcome

def markFrameSeen (replica : Replica) (frame : Frame) : Replica :=
  { replica with
    seenFrameTermById := replica.seenFrameTermById.insert frame.frameId frame.term }

/-- The duplicate-frame check of `handle_frame`. -/
def frameAlreadySeen (replica : Replica) (frame : Frame) : Bool :=
  seenFrameShouldDrop (replica.seenFrameTermById.contains frame.frameId)
    (replica.seenFrameTermById.getD frame.frameId 0) frame.term

def voteRequestGrants (replica : Replica) (frame : Frame) : Bool :=
  voteRequestCanGrant replica.currentTerm frame.term
    (replica.nodeIsMember frame.candidateNodeId)
    (memberNodeIdMatches frame.candidateNodeId frame.sender.nodeId)
    (replica.trustEpochsMatch frame.sender.trustEpochs)
    replica.votedForNodeId frame.candidateNodeId

/-- The replica after it granted the vote `frame` asks for. -/
def grantVote (replica : Replica) (frame : Frame) : Replica :=
  { (replica.markFrameSeen frame).maybeResetForNewTerm frame.term with
    votedForNodeId := frame.candidateNodeId }

def handleVoteRequest (replica : Replica) (frame : Frame) : Replica × FrameOutcome :=
  if !replica.voteRequestGrants frame then (replica, .ignored)
  else
    let next := replica.grantVote frame
    (next, .acceptedWith [next.makeVoteGrantFrame frame.candidateNodeId frame.decisionSha256])

/-- The vote-grant branch decides after the term has been adopted. -/
def voteGrantCounts (replica : Replica) (frame : Frame) : Bool :=
  voteGrantCanCount replica.currentTerm frame.term
    (replica.nodeIsMember frame.candidateNodeId)
    (memberNodeIdMatches frame.candidateNodeId replica.self.nodeId)
    (memberNodeIdMatches frame.sender.nodeId frame.candidateNodeId)
    (sha256TokenMatches replica.campaignDecisionSha256 frame.decisionSha256)
    frame.granted
    (replica.trustEpochsMatch frame.sender.trustEpochs)

def countGrant (replica : Replica) (frame : Frame) : Replica :=
  { replica.markFrameSeen frame with
    grantWitnessesByNodeId :=
      replica.grantWitnessesByNodeId.insert frame.sender.nodeId frame.sender }

/-- The candidate records that it leads, with its own vote and every grant. -/
def commitAsLeader (replica : Replica) : Replica :=
  { replica with
    leaderNodeId := replica.self.nodeId
    committedDecisionSha256 := replica.campaignDecisionSha256
    committedVoteWitnesses := replica.self :: replica.grantWitnessesByNodeId.values }

def handleVoteGrant (replica : Replica) (frame : Frame) : Replica × FrameOutcome :=
  if incomingTermIsStale replica.currentTerm frame.term then (replica, .ignored)
  else
    let adopted := replica.maybeResetForNewTerm frame.term
    if !adopted.voteGrantCounts frame then (adopted, .ignored)
    else
      let counted := adopted.countGrant frame
      if !candidateCanCommit (!counted.leaderNodeId.isEmpty) counted.hasQuorum then
        (counted, .acceptedWith [])
      else
        let leading := counted.commitAsLeader
        (leading, .acceptedWith [leading.makeLeaderCommitFrame
          (consensusFrameId leading.self.nodeId kindLeaderCommit leading.currentTerm
            leading.leaderNodeId)])

def leaderCommitAccepts (replica : Replica) (frame : Frame) : Bool :=
  leaderCommitCanAccept replica.currentTerm frame.term
    (replica.nodeIsMember frame.leaderNodeId)
    (memberNodeIdMatches frame.sender.nodeId frame.leaderNodeId)
    (replica.trustEpochsMatch frame.sender.trustEpochs)

/-- The replica after it adopted the leader `frame` announces. -/
def acceptCommit (replica : Replica) (frame : Frame) : Replica :=
  { (replica.markFrameSeen frame).maybeResetForNewTerm frame.term with
    leaderNodeId := frame.leaderNodeId
    votedForNodeId := frame.leaderNodeId
    campaignDecisionSha256 := []
    committedDecisionSha256 := frame.decisionSha256
    committedVoteWitnesses := frame.voteWitnesses }

def handleLeaderCommit (replica : Replica) (frame : Frame) : Replica × FrameOutcome :=
  if !replica.leaderCommitAccepts frame then (replica, .ignored)
  else if !replica.leaderCommitWitnessesValid frame then (replica, .ignored)
  else (replica.acceptCommit frame, .acceptedWith [])

def handleFrame (replica : Replica) (frame : Frame) : Replica × FrameOutcome :=
  match frameIsValid frame with
  | some error => (replica, .failed error)
  | none =>
    if !clusterIdMatches replica.self.clusterId frame.sender.clusterId then
      (replica, .failed "cluster_id mismatch")
    else if !replica.membershipMatches frame.sender then (replica, .ignored)
    else if replica.frameAlreadySeen frame then (replica, .ignored)
    else if frame.kind = kindVoteRequest then replica.handleVoteRequest frame
    else if frame.kind = kindVoteGrant then replica.handleVoteGrant frame
    else replica.handleLeaderCommit frame

variable {replica : Replica} {frame : Frame}

theorem maybeResetForNewTerm_of_le {term : UInt64} (current : ¬replica.currentTerm < term) :
    replica.maybeResetForNewTerm term = replica := by
  simp [maybeResetForNewTerm, incomingTermAdvances, current]

theorem maybeResetForNewTerm_of_lt {term : UInt64} (later : replica.currentTerm < term) :
    replica.maybeResetForNewTerm term = { replica with
        currentTerm := term
        votedForNodeId := []
        leaderNodeId := []
        campaignDecisionSha256 := []
        committedDecisionSha256 := []
        committedVoteWitnesses := []
        grantWitnessesByNodeId := ∅ } := by
  simp [maybeResetForNewTerm, incomingTermAdvances, later]

@[simp] theorem maybeResetForNewTerm_self (replica : Replica) (term : UInt64) :
    (replica.maybeResetForNewTerm term).self = replica.self := by
  rw [maybeResetForNewTerm]
  split <;> rfl

theorem votedForNodeId_maybeResetForNewTerm (replica : Replica) (term : UInt64) :
    (replica.maybeResetForNewTerm term).votedForNodeId = [] ∨ ¬replica.currentTerm < term ∧
        (replica.maybeResetForNewTerm term).votedForNodeId = replica.votedForNodeId := by
  by_cases later : replica.currentTerm < term
  · rw [maybeResetForNewTerm_of_lt later]
    exact .inl rfl
  · rw [maybeResetForNewTerm_of_le later]
    exact .inr ⟨later, rfl⟩

theorem nodeIsMember_iff {nodeId : Bytes} : replica.nodeIsMember nodeId = true ↔
      umbmpIdIsSafe (trimCopy nodeId) = true ∧ trimCopy nodeId ∈ replica.memberNodeIds := by
  simp [nodeIsMember, memberNodeIdIsValid, memberNodeIdIsValidRaw]

theorem ne_nil_of_nodeIsMember {nodeId : Bytes} (member : replica.nodeIsMember nodeId = true) :
    nodeId ≠ [] := by
  intro empty
  have safe := (nodeIsMember_iff.mp member).1
  rw [empty] at safe
  exact ne_nil_of_safe safe rfl

theorem led_of_leaderIsSelf (leads : replica.leaderIsSelf = true) : replica.leaderNodeId ≠ [] := by
  intro empty
  have safe := (memberNodeIdMatches_iff.mp leads).1
  rw [empty] at safe
  exact ne_nil_of_safe safe rfl

/-- A vote is granted to a member of the cluster in a term that is not past. In
the current term the vote must be free or already the candidate's. -/
theorem of_voteRequestGrants (grants : replica.voteRequestGrants frame = true) :
    replica.nodeIsMember frame.candidateNodeId = true ∧ replica.currentTerm ≤ frame.term ∧
      (replica.currentTerm < frame.term ∨ replica.votedForNodeId = [] ∨
        replica.votedForNodeId = frame.candidateNodeId) := by
  simp only [voteRequestGrants, voteRequestCanGrant] at grants
  split at grants
  · cases grants
  · next eligible =>
    simp only [Bool.or_eq_true, Bool.not_eq_true', not_or, Bool.not_eq_false] at eligible
    split at grants
    · cases grants
    · next notStale =>
      refine ⟨eligible.1.1, by simpa using notStale, ?_⟩
      split at grants
      · next later => exact .inl later
      · split at grants
        · next free => exact .inr (.inl (by simpa using free))
        · exact .inr (.inr (nodeIdMatchesRaw_iff.mp grants).2)

theorem of_voteGrantCounts (counts : replica.voteGrantCounts frame = true) :
    replica.currentTerm ≤ frame.term ∧
      memberNodeIdMatches frame.candidateNodeId replica.self.nodeId = true ∧
      memberNodeIdMatches frame.sender.nodeId frame.candidateNodeId = false ∧
      replica.campaignDecisionSha256 ≠ [] := by
  simp only [voteGrantCounts, voteGrantCanCount, Bool.and_eq_true, decide_eq_true_eq,
    Bool.not_eq_true'] at counts
  rcases counts with ⟨⟨⟨⟨⟨⟨notStale, _⟩, forSelf⟩, fromOther⟩, decisionMatches⟩, _⟩, _⟩
  refine ⟨notStale, forSelf, fromOther, ?_⟩
  intro empty
  rw [empty, sha256TokenMatches_nil_left] at decisionMatches
  cases decisionMatches

/-- The campaign decision is empty after a new term was adopted, and no digest
matches the empty string. -/
theorem voteGrantCounts_of_lt (later : replica.currentTerm < frame.term) :
    (replica.maybeResetForNewTerm frame.term).voteGrantCounts frame = false := by
  rw [maybeResetForNewTerm_of_lt later]
  simp [voteGrantCounts, voteGrantCanCount]

theorem not_lt_of_voteGrantCounts
    (counts : (replica.maybeResetForNewTerm frame.term).voteGrantCounts frame = true) :
    ¬replica.currentTerm < frame.term := by
  intro later
  rw [voteGrantCounts_of_lt later] at counts
  cases counts

theorem of_leaderCommitAccepts (accepts : replica.leaderCommitAccepts frame = true) :
    replica.currentTerm ≤ frame.term ∧ replica.nodeIsMember frame.leaderNodeId = true := by
  simp only [leaderCommitAccepts, leaderCommitCanAccept, Bool.and_eq_true,
    decide_eq_true_eq] at accepts
  exact accepts.1.1

structure Admits (replica : Replica) (frame : Frame) : Prop where
  valid : frameIsValid frame = none
  cluster : clusterIdMatches replica.self.clusterId frame.sender.clusterId = true
  membership : replica.membershipMatches frame.sender = true
  unseen : replica.frameAlreadySeen frame = false

/-- Every way `handle_frame` can end, with the checks that lead there. -/
inductive Handles (replica : Replica) (frame : Frame) : Replica × FrameOutcome → Prop
  | refused (outcome : FrameOutcome) (rejected : outcome.Rejected)
      (silent : outcome.frames = []) : Handles replica frame (replica, outcome)
  | granted (admits : replica.Admits frame) (kind : frame.kind = kindVoteRequest)
      (grants : replica.voteRequestGrants frame = true) :
      Handles replica frame (replica.grantVote frame,
        .acceptedWith [(replica.grantVote frame).makeVoteGrantFrame
          frame.candidateNodeId frame.decisionSha256])
  | adopted (admits : replica.Admits frame) (kind : frame.kind = kindVoteGrant)
      (fresh : replica.currentTerm ≤ frame.term)
      (uncounted : (replica.maybeResetForNewTerm frame.term).voteGrantCounts frame = false) :
      Handles replica frame (replica.maybeResetForNewTerm frame.term, .ignored)
  | counted (admits : replica.Admits frame) (kind : frame.kind = kindVoteGrant)
      (counts : (replica.maybeResetForNewTerm frame.term).voteGrantCounts frame = true) :
      Handles replica frame ((replica.maybeResetForNewTerm frame.term).countGrant frame,
        .acceptedWith [])
  | elected (leading : Replica) (admits : replica.Admits frame)
      (kind : frame.kind = kindVoteGrant)
      (counts : (replica.maybeResetForNewTerm frame.term).voteGrantCounts frame = true)
      (quorum : ((replica.maybeResetForNewTerm frame.term).countGrant frame).hasQuorum = true)
      (leads : leading =
        ((replica.maybeResetForNewTerm frame.term).countGrant frame).commitAsLeader) :
      Handles replica frame (leading, .acceptedWith [leading.makeLeaderCommitFrame
        (consensusFrameId leading.self.nodeId kindLeaderCommit leading.currentTerm
          leading.leaderNodeId)])
  | committed (admits : replica.Admits frame) (kind : frame.kind = kindLeaderCommit)
      (accepts : replica.leaderCommitAccepts frame = true)
      (witnessed : replica.leaderCommitWitnessesValid frame = true) :
      Handles replica frame (replica.acceptCommit frame, .acceptedWith [])

theorem handleVoteRequest_handles (admits : replica.Admits frame)
    (kind : frame.kind = kindVoteRequest) :
    Handles replica frame (replica.handleVoteRequest frame) := by
  unfold handleVoteRequest
  split
  · exact .refused _ (.inr rfl) rfl
  · next grants => exact .granted admits kind (by simpa using grants)

theorem handleVoteGrant_handles (admits : replica.Admits frame)
    (kind : frame.kind = kindVoteGrant) :
    Handles replica frame (replica.handleVoteGrant frame) := by
  unfold handleVoteGrant
  split
  · exact .refused _ (.inr rfl) rfl
  · next fresh =>
    dsimp only
    split
    · next uncounted =>
      refine .adopted admits kind ?_ (by simpa using uncounted)
      simpa [incomingTermIsStale] using fresh
    · next counts =>
      have counts : (replica.maybeResetForNewTerm frame.term).voteGrantCounts frame = true := by
        simpa using counts
      split
      · exact .counted admits kind counts
      · next commits =>
        refine .elected _ admits kind counts ?_ rfl
        simp only [candidateCanCommit, Bool.not_eq_true', Bool.not_eq_false,
          Bool.and_eq_true] at commits
        exact commits.2

theorem handleLeaderCommit_handles (admits : replica.Admits frame)
    (kind : frame.kind = kindLeaderCommit) :
    Handles replica frame (replica.handleLeaderCommit frame) := by
  unfold handleLeaderCommit
  split
  · exact .refused _ (.inr rfl) rfl
  · next accepts =>
    split
    · exact .refused _ (.inr rfl) rfl
    · next witnessed =>
      exact .committed admits kind (by simpa using accepts) (by simpa using witnessed)

theorem handleFrame_handles (replica : Replica) (frame : Frame) :
    Handles replica frame (replica.handleFrame frame) := by
  unfold handleFrame
  split
  · exact .refused _ (.inl rfl) rfl
  · next valid =>
    split
    · exact .refused _ (.inl rfl) rfl
    · next cluster =>
      split
      · exact .refused _ (.inr rfl) rfl
      · next membership =>
        split
        · exact .refused _ (.inr rfl) rfl
        · next unseen =>
          have admits : replica.Admits frame :=
            ⟨valid, by simpa using cluster, by simpa using membership,
              by simpa using unseen⟩
          split
          · next kind => exact handleVoteRequest_handles admits kind
          · next notRequest =>
            split
            · next kind => exact handleVoteGrant_handles admits kind
            · next notGrant =>
              exact handleLeaderCommit_handles admits
                (kind_of_frameIsValid valid notRequest notGrant)

/-! ## Frames a replica does not accept

Vote requests and leader commits are decided before anything is written. The
vote-grant branch adopts the frame's term first, so a grant from a later term
is never counted and still wipes the state of the current term. -/

theorem handleFrame_of_later_grant (admits : replica.Admits frame)
    (kind : frame.kind = kindVoteGrant) (later : replica.currentTerm < frame.term) :
    replica.handleFrame frame = (replica.maybeResetForNewTerm frame.term, .ignored) := by
  have notStale : incomingTermIsStale replica.currentTerm frame.term = false := by
    simpa [incomingTermIsStale] using UInt64.le_of_lt later
  simp [handleFrame, admits.valid, admits.cluster, admits.membership, admits.unseen, kind,
    kindVoteRequest_ne_kindVoteGrant.symm, handleVoteGrant, notStale, voteGrantCounts_of_lt later]

/-- A rejected frame leaves the replica as it was and emits nothing, except
for an admitted vote grant from a later term. -/
theorem rejected_unchanged_iff (replica : Replica) (frame : Frame) :
    ((replica.handleFrame frame).2.Rejected →
        (replica.handleFrame frame).1 = replica ∧ (replica.handleFrame frame).2.frames = []) ↔
      ¬(replica.Admits frame ∧ frame.kind = kindVoteGrant ∧
        replica.currentTerm < frame.term) := by
  constructor
  · rintro unchanged ⟨admits, kind, later⟩
    rw [handleFrame_of_later_grant admits kind later] at unchanged
    have sameTerm : (replica.maybeResetForNewTerm frame.term).currentTerm =
        replica.currentTerm :=
      congrArg Replica.currentTerm (unchanged (.inr rfl)).1
    rw [maybeResetForNewTerm_of_lt later] at sameTerm
    exact UInt64.ne_of_lt later sameTerm.symm
  · intro harmless rejected
    generalize result : replica.handleFrame frame = outcome at rejected ⊢
    have handles := handleFrame_handles replica frame
    rw [result] at handles
    cases handles with
    | refused outcome _ silent => exact ⟨rfl, silent⟩
    | granted => simp [FrameOutcome.Rejected, FrameOutcome.acceptedWith] at rejected
    | adopted admits kind =>
      have current : ¬replica.currentTerm < frame.term :=
        fun later => harmless ⟨admits, kind, later⟩
      exact ⟨maybeResetForNewTerm_of_le current, rfl⟩
    | counted => simp [FrameOutcome.Rejected, FrameOutcome.acceptedWith] at rejected
    | elected => simp [FrameOutcome.Rejected, FrameOutcome.acceptedWith] at rejected
    | committed => simp [FrameOutcome.Rejected, FrameOutcome.acceptedWith] at rejected

def sampleIdentity (nodeId : String) : Identity where
  clusterId := ascii "edge"
  nodeId := ascii nodeId

def sampleDigest : Bytes := List.replicate 64 'a'.toUInt8

def sampleLeader : Replica where
  self := sampleIdentity "a"
  clusterSize := 3
  currentTerm := 1
  votedForNodeId := ascii "a"
  leaderNodeId := ascii "a"
  campaignDecisionSha256 := sampleDigest
  committedDecisionSha256 := sampleDigest
  memberNodeIds := {ascii "a", ascii "b", ascii "c"}
  committedVoteWitnesses := [sampleIdentity "a", sampleIdentity "b"]

def sampleStrayGrant : Frame where
  frameId := ascii "b:vote_grant:2:c"
  kind := kindVoteGrant
  term := 2
  decisionSha256 := sampleDigest
  candidateNodeId := ascii "c"
  granted := true
  sender := sampleIdentity "b"

theorem strayGrant_resets_leader :
    (sampleLeader.handleFrame sampleStrayGrant).2.Rejected ∧
      sampleLeader.leaderIsSelf = true ∧
      (sampleLeader.handleFrame sampleStrayGrant).1.leaderNodeId = [] ∧
      ¬((sampleLeader.handleFrame sampleStrayGrant).2.Rejected →
        (sampleLeader.handleFrame sampleStrayGrant).1 = sampleLeader ∧
          (sampleLeader.handleFrame sampleStrayGrant).2.frames = []) := by
  have rejected : (sampleLeader.handleFrame sampleStrayGrant).2.Rejected := by
    decide
  have cleared : (sampleLeader.handleFrame sampleStrayGrant).1.leaderNodeId = [] := by
    decide
  refine ⟨rejected, by decide, cleared, ?_⟩
  intro unchanged
  have same := congrArg Replica.leaderNodeId (unchanged rejected).1
  rw [cleared] at same
  exact absurd same (by decide)

end Replica

end AgentC.EdgeConsensus
