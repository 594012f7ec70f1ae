import AgentC.EdgeConsensus.NodeLoop

/-! # One vote per term

A replica supports a candidate when it emits a vote grant and when it asks for
votes itself. Three operations may forget or replace the vote of the current
term: the expiry of a leader's lease, a leader commit of the current term, and
a campaign in the largest term. Runs in which none of them touches a vote that
is held support one candidate in each term. -/

namespace AgentC.EdgeConsensus

def supportOf (frame : Frame) : Option (UInt64 × Bytes) :=
  if frame.kind = kindVoteGrant ∧ frame.granted = true ∨ frame.kind = kindVoteRequest then
    some (frame.term, frame.candidateNodeId)
  else none

def OneCandidatePerTerm (frames : List Frame) : Prop :=
  ∀ left ∈ frames, ∀ right ∈ frames, ∀ term leftCandidate rightCandidate,
    supportOf left = some (term, leftCandidate) → supportOf right = some (term, rightCandidate) →
      leftCandidate = rightCandidate

namespace Replica

/-- The replica's vote accounts for every frame of `sent`. -/
structure Remembers (replica : Replica) (sent : List Frame) : Prop where
  named : replica.self.nodeId ≠ []
  unique : OneCandidatePerTerm sent
  known : ∀ frame ∈ sent, ∀ term candidate, supportOf frame = some (term, candidate) →
    term ≤ replica.currentTerm ∧ candidate ≠ [] ∧
      (term = replica.currentTerm → candidate = replica.votedForNodeId)

variable {replica next : Replica} {sent : List Frame}

theorem remembers_nil (named : replica.self.nodeId ≠ []) : replica.Remembers [] where
  named := named
  unique := fun _ member => nomatch member
  known := fun _ member => nomatch member

variable {frame : Frame}

theorem Remembers.move (remembers : replica.Remembers sent) (self : next.self = replica.self)
    (term : replica.currentTerm ≤ next.currentTerm)
    (vote : replica.currentTerm = next.currentTerm →
      replica.votedForNodeId = [] ∨ replica.votedForNodeId = next.votedForNodeId) :
    next.Remembers sent where
  named := self ▸ remembers.named
  unique := remembers.unique
  known frame member past candidate supports := by
    rcases remembers.known frame member past candidate supports with ⟨bound, named, voted⟩
    refine ⟨UInt64.le_trans bound term, named, ?_⟩
    intro current
    have same : replica.currentTerm = next.currentTerm :=
      UInt64.le_antisymm term (current ▸ bound)
    have held := voted (current.trans same.symm)
    rcases vote same with free | kept
    · exact absurd (held.trans free) named
    · exact held.trans kept

theorem Remembers.emit (remembers : replica.Remembers sent) (frame : Frame)
    (own : ∀ term candidate, supportOf frame = some (term, candidate) →
      term = replica.currentTerm ∧ candidate = replica.votedForNodeId ∧ candidate ≠ []) :
    replica.Remembers (sent ++ [frame]) where
  named := remembers.named
  unique := by
    intro left leftMember right rightMember term leftCandidate rightCandidate leftSupports
      rightSupports
    rcases List.mem_append.mp leftMember with leftPast | leftNow <;>
      rcases List.mem_append.mp rightMember with rightPast | rightNow
    · exact remembers.unique left leftPast right rightPast _ _ _ leftSupports rightSupports
    · rw [List.mem_singleton.mp rightNow] at rightSupports
      rcases own _ _ rightSupports with ⟨current, voted, _⟩
      exact ((remembers.known left leftPast _ _ leftSupports).2.2 current).trans voted.symm
    · rw [List.mem_singleton.mp leftNow] at leftSupports
      rcases own _ _ leftSupports with ⟨current, voted, _⟩
      exact voted.trans ((remembers.known right rightPast _ _ rightSupports).2.2 current).symm
    · rw [List.mem_singleton.mp leftNow] at leftSupports
      rw [List.mem_singleton.mp rightNow] at rightSupports
      exact (own _ _ leftSupports).2.1.trans (own _ _ rightSupports).2.1.symm
  known other member term candidate supports := by
    rcases List.mem_append.mp member with past | now
    · exact remembers.known other past term candidate supports
    · rw [List.mem_singleton.mp now] at supports
      rcases own term candidate supports with ⟨current, voted, named⟩
      exact ⟨UInt64.le_of_eq current, named, fun _ => voted⟩

/-- Starting an election leaves no vote of its term behind: a new term is
entered, or the vote of the largest term is free or the node's own. -/
def StartKeepsVote (replica : Replica) : Prop :=
  replica.currentTerm ≠ uint64Max ∨ replica.votedForNodeId = [] ∨
    replica.votedForNodeId = replica.self.nodeId

/-- The lease of a leader expires only when no vote is held. -/
def ExpiryKeepsVote (replica : Replica) : Prop :=
  replica.leaderIsSelf = true ∨ replica.votedForNodeId = []

/-- A leader commit that is taken over in the current term names the candidate
voted for. -/
def FrameKeepsVote (replica : Replica) (frame : Frame) : Prop :=
  replica.Admits frame → frame.kind = kindLeaderCommit →
    replica.leaderCommitAccepts frame = true → replica.leaderCommitWitnessesValid frame = true →
      frame.term = replica.currentTerm →
        replica.votedForNodeId = [] ∨ replica.votedForNodeId = frame.leaderNodeId

theorem Remembers.startElection (remembers : replica.Remembers sent)
    (keeps : replica.StartKeepsVote) (decision : Bytes) :
    (replica.startElection decision).1.Remembers
      (sent ++ [(replica.startElection decision).2]) := by
  have moved : (replica.startElection decision).1.Remembers sent := by
    refine remembers.move rfl ?_ ?_
    · change replica.currentTerm ≤ nextTerm replica.currentTerm
      by_cases largest : replica.currentTerm = uint64Max
      · rw [largest, nextTerm_uint64Max]
        exact UInt64.le_refl _
      · exact UInt64.le_of_lt (lt_nextTerm largest)
    · intro sameTerm
      change replica.currentTerm = nextTerm replica.currentTerm at sameTerm
      rcases keeps with below | free
      · exact absurd sameTerm (UInt64.ne_of_lt (lt_nextTerm below))
      · exact free
  apply moved.emit
  intro term candidate supports
  have frame : supportOf (replica.startElection decision).2 =
      some (nextTerm replica.currentTerm, replica.self.nodeId) :=
    if_pos (.inr rfl)
  rw [frame] at supports
  cases supports
  exact ⟨rfl, rfl, remembers.named⟩

theorem Remembers.expireLeaderLease (remembers : replica.Remembers sent)
    (keeps : replica.ExpiryKeepsVote) : replica.expireLeaderLease.Remembers sent := by
  by_cases leads : replica.leaderIsSelf = true
  · simpa [Replica.expireLeaderLease, leads] using remembers
  · have free := keeps.resolve_left leads
    simp only [Replica.expireLeaderLease, leads]
    exact remembers.move rfl (UInt64.le_refl _) fun _ => .inl free

theorem le_maybeResetForNewTerm (replica : Replica) (term : UInt64) :
    replica.currentTerm ≤ (replica.maybeResetForNewTerm term).currentTerm := by
  by_cases later : replica.currentTerm < term
  · rw [maybeResetForNewTerm_of_lt later]
    exact UInt64.le_of_lt later
  · rw [maybeResetForNewTerm_of_le later]
    exact UInt64.le_refl _

theorem maybeResetForNewTerm_currentTerm {term : UInt64} (notStale : replica.currentTerm ≤ term) :
    (replica.maybeResetForNewTerm term).currentTerm = term := by
  by_cases later : replica.currentTerm < term
  · rw [maybeResetForNewTerm_of_lt later]
  · rw [maybeResetForNewTerm_of_le later]
    exact UInt64.le_antisymm notStale (UInt64.not_lt.mp later)

theorem Remembers.adopt (remembers : replica.Remembers sent) (term : UInt64) :
    (replica.maybeResetForNewTerm term).Remembers sent := by
  apply remembers.move (replica.maybeResetForNewTerm_self term) (replica.le_maybeResetForNewTerm term)
  intro sameTerm
  by_cases later : replica.currentTerm < term
  · rw [maybeResetForNewTerm_of_lt later] at sameTerm
    exact absurd sameTerm (UInt64.ne_of_lt later)
  · rw [maybeResetForNewTerm_of_le later]
    exact .inr rfl

theorem Remembers.grantVote (remembers : replica.Remembers sent)
    (grants : replica.voteRequestGrants frame = true) :
    (replica.grantVote frame).Remembers (sent ++ [(replica.grantVote frame).makeVoteGrantFrame
      frame.candidateNodeId frame.decisionSha256]) := by
  rcases of_voteRequestGrants grants with ⟨member, notStale, mayVote⟩
  have entered : (replica.grantVote frame).currentTerm = frame.term :=
    @maybeResetForNewTerm_currentTerm (replica.markFrameSeen frame) frame.term notStale
  have moved : (replica.grantVote frame).Remembers sent := by
    refine remembers.move (maybeResetForNewTerm_self ..) ?_ ?_
    · rw [entered]
      exact notStale
    · intro sameTerm
      rw [entered] at sameTerm
      rcases mayVote with later | free
      · exact absurd sameTerm (UInt64.ne_of_lt later)
      · exact free
  apply moved.emit
  intro term candidate supports
  have granted : supportOf ((replica.grantVote frame).makeVoteGrantFrame
      frame.candidateNodeId frame.decisionSha256) =
        some ((replica.grantVote frame).currentTerm, frame.candidateNodeId) :=
    if_pos (.inl ⟨rfl, rfl⟩)
  rw [granted] at supports
  cases supports
  exact ⟨rfl, rfl, ne_nil_of_nodeIsMember member⟩

theorem Remembers.acceptCommit (remembers : replica.Remembers sent)
    (accepts : replica.leaderCommitAccepts frame = true) (keeps : frame.term = replica.currentTerm →
      replica.votedForNodeId = [] ∨ replica.votedForNodeId = frame.leaderNodeId) :
    (replica.acceptCommit frame).Remembers sent := by
  have notStale := (of_leaderCommitAccepts accepts).1
  have entered : (replica.acceptCommit frame).currentTerm = frame.term :=
    @maybeResetForNewTerm_currentTerm (replica.markFrameSeen frame) frame.term notStale
  refine remembers.move (maybeResetForNewTerm_self ..) ?_ ?_
  · rw [entered]
    exact notStale
  · intro sameTerm
    rw [entered] at sameTerm
    exact keeps sameTerm.symm

theorem supportOf_leaderCommit (kind : frame.kind = kindLeaderCommit) : supportOf frame = none := by
  simp [supportOf, kind, kindVoteGrant_ne_kindLeaderCommit.symm,
    kindVoteRequest_ne_kindLeaderCommit.symm]

theorem Remembers.emitLeaderCommit (remembers : replica.Remembers sent)
    (kind : frame.kind = kindLeaderCommit) : replica.Remembers (sent ++ [frame]) := by
  apply remembers.emit
  intro term candidate supports
  rw [supportOf_leaderCommit kind] at supports
  cases supports

theorem Remembers.countGrant (remembers : replica.Remembers sent) (frame : Frame) :
    (replica.countGrant frame).Remembers sent :=
  remembers.move rfl (UInt64.le_refl _) fun _ => .inr rfl

theorem Remembers.commitAsLeader (remembers : replica.Remembers sent) :
    replica.commitAsLeader.Remembers sent :=
  remembers.move rfl (UInt64.le_refl _) fun _ => .inr rfl

theorem Remembers.handleFrame (remembers : replica.Remembers sent)
    (keeps : replica.FrameKeepsVote frame) :
    (replica.handleFrame frame).1.Remembers (sent ++ (replica.handleFrame frame).2.frames) := by
  have handles := handleFrame_handles replica frame
  generalize replica.handleFrame frame = handled at handles ⊢
  have counted := (remembers.adopt frame.term).countGrant frame
  cases handles with
  | refused outcome rejected silent =>
    rw [silent, List.append_nil]
    exact remembers
  | granted admits kind grants => exact remembers.grantVote grants
  | adopted =>
    rw [FrameOutcome.ignored, List.append_nil]
    exact remembers.adopt frame.term
  | counted =>
    rw [FrameOutcome.acceptedWith, List.append_nil]
    exact counted
  | elected leading admits kind counts quorum leads =>
    apply Remembers.emitLeaderCommit _ rfl
    rw [leads]
    exact counted.commitAsLeader
  | committed admits kind accepts witnessed =>
    rw [FrameOutcome.acceptedWith, List.append_nil]
    exact remembers.acceptCommit accepts (keeps admits kind accepts witnessed)

theorem Remembers.heartbeat (remembers : replica.Remembers sent) :
    replica.currentLeaderCommitFrame.1.Remembers
      (sent ++ [replica.currentLeaderCommitFrame.2]) := by
  have moved : replica.currentLeaderCommitFrame.1.Remembers sent :=
    remembers.move rfl (UInt64.le_refl _) fun _ => .inr rfl
  exact moved.emitLeaderCommit rfl

end Replica

namespace NodeLoop

inductive Action
  | startElection (decisionSha256 : Bytes)
  | handleFrame (frame : Frame) (nowUtcMs : Int)
  | tick (nowUtcMs : Int)
  | expireLeaderLease

def act (loop : NodeLoop) : Action → NodeLoop × List Frame
  | .startElection decision =>
    let started := loop.replica.startElection decision
    ({ loop with replica := started.1 }, [started.2])
  | .handleFrame frame nowUtcMs =>
    let handled := loop.handleFrame frame nowUtcMs
    (handled.1, handled.2.frames)
  | .tick nowUtcMs => loop.tick nowUtcMs
  | .expireLeaderLease => ({ loop with replica := loop.replica.expireLeaderLease }, [])

def run (loop : NodeLoop) : List Action → NodeLoop × List Frame
  | [] => (loop, [])
  | action :: rest =>
    let next := loop.act action
    let last := next.1.run rest
    (last.1, next.2 ++ last.2)

/-- The action neither drops nor replaces a vote held in the current term. -/
def KeepsVote (loop : NodeLoop) : Action → Prop
  | .startElection _ => loop.replica.StartKeepsVote
  | .handleFrame frame _ => loop.replica.FrameKeepsVote frame
  | .tick nowUtcMs =>
    (loop.leaseExpired nowUtcMs = true → loop.replica.votedForNodeId = []) ∧
      loop.replica.StartKeepsVote
  | .expireLeaderLease => loop.replica.ExpiryKeepsVote

def KeepsVotes (loop : NodeLoop) : List Action → Prop
  | [] => True
  | action :: rest => loop.KeepsVote action ∧ (loop.act action).1.KeepsVotes rest

@[simp] theorem rememberDecision_replica (loop : NodeLoop) (decision : Bytes) :
    (loop.rememberDecision decision).replica = loop.replica := by
  rw [rememberDecision]
  split <;> rfl

@[simp] theorem rememberDecision_cfg (loop : NodeLoop) (decision : Bytes) :
    (loop.rememberDecision decision).cfg = loop.cfg := by
  rw [rememberDecision]
  split <;> rfl

@[simp] theorem rememberDecision_lastLeaderContactUtcMs (loop : NodeLoop) (decision : Bytes) :
    (loop.rememberDecision decision).lastLeaderContactUtcMs = loop.lastLeaderContactUtcMs := by
  rw [rememberDecision]
  split <;> rfl

@[simp] theorem observeLeaderActivity_replica (loop : NodeLoop) (frame : Frame) (now : Int) :
    (loop.observeLeaderActivity frame now).replica = loop.replica := by
  rw [observeLeaderActivity]
  split
  · rfl
  · exact rememberDecision_replica ..

variable (now : Int)

@[simp] theorem observeGenerated_replica (loop : NodeLoop) (frame : Frame) :
    (observeGenerated now loop frame).replica = loop.replica := by
  simp only [observeGenerated]
  split <;> split <;> simp

theorem foldl_observeGenerated_replica (frames : List Frame) (loop : NodeLoop) :
    (frames.foldl (observeGenerated now) loop).replica = loop.replica := by
  induction frames generalizing loop with
  | nil => rfl
  | cons frame rest induction =>
    rw [List.foldl_cons, induction, observeGenerated_replica]

theorem handleFrame_replica (loop : NodeLoop) (frame : Frame) (now : Int) :
    (loop.handleFrame frame now).1.replica = (loop.replica.handleFrame frame).1 ∧
      (loop.handleFrame frame now).2 = (loop.replica.handleFrame frame).2 := by
  simp only [handleFrame]
  split
  · exact ⟨rfl, rfl⟩
  · refine ⟨?_, rfl⟩
    rw [foldl_observeGenerated_replica]
    split <;> simp

theorem beginTick_leaseExpired (loop : NodeLoop) (now : Int) :
    (loop.beginTick now).leaseExpired now = loop.leaseExpired now := by
  simp [leaseExpired, beginTick]

theorem expireLease_replica (loop : NodeLoop) (now : Int) :
    (loop.expireLease now).replica =
      if loop.leaseExpired now = true then loop.replica.expireLeaderLease else loop.replica := by
  by_cases expired : loop.leaseExpired now = true <;> simp [expireLease, expired]

open Replica

variable {loop : NodeLoop} {sent : List Frame}

theorem remembers_expireLease (remembers : loop.replica.Remembers sent) (now : Int)
    (keeps : loop.leaseExpired now = true → loop.replica.votedForNodeId = []) :
    (loop.expireLease now).replica.Remembers sent := by
  rw [expireLease_replica]
  split
  · next expired => exact remembers.expireLeaderLease (.inr (keeps expired))
  · exact remembers

theorem startKeepsVote_expireLease (keeps : loop.replica.StartKeepsVote) :
    (loop.expireLease now).replica.StartKeepsVote := by
  rw [expireLease_replica]
  split
  · rw [Replica.expireLeaderLease]
    split
    · exact keeps
    · exact .inr (.inl rfl)
  · exact keeps

theorem remembers_campaign (remembers : loop.replica.Remembers sent) (now : Int)
    (committed : Bool) (keeps : loop.replica.StartKeepsVote) :
    (loop.campaign now committed).1.replica.Remembers
      (sent ++ (loop.campaign now committed).2) := by
  simp only [campaign]
  split
  · rw [List.append_nil]
    exact remembers
  · exact remembers.startElection keeps _

theorem remembers_heartbeat (remembers : loop.replica.Remembers sent) (now : Int)
    (committed : Bool) : (loop.heartbeat now committed).1.replica.Remembers
      (sent ++ (loop.heartbeat now committed).2) := by
  simp only [heartbeat]
  split
  · exact remembers.heartbeat
  · rw [List.append_nil]
    exact remembers

theorem remembers_tick (remembers : loop.replica.Remembers sent) (now : Int)
    (keeps : loop.KeepsVote (.tick now)) :
    (loop.tick now).1.replica.Remembers (sent ++ (loop.tick now).2) := by
  rcases keeps with ⟨expiryKeeps, startKeeps⟩
  have begunReplica : (loop.beginTick now).replica = loop.replica :=
    rememberDecision_replica ..
  have begun : (loop.beginTick now).replica.Remembers sent := begunReplica ▸ remembers
  have expired : ((loop.beginTick now).expireLease now).replica.Remembers sent := by
    apply remembers_expireLease begun now
    rw [beginTick_leaseExpired, begunReplica]
    exact expiryKeeps
  simp only [tick]
  split
  · exact remembers_heartbeat begun now _
  · split
    · rw [List.append_nil]
      exact expired
    · apply remembers_campaign expired now
      apply startKeepsVote_expireLease
      rw [begunReplica]
      exact startKeeps

theorem remembers_act (remembers : loop.replica.Remembers sent) {action : Action}
    (keeps : loop.KeepsVote action) :
    (loop.act action).1.replica.Remembers (sent ++ (loop.act action).2) := by
  cases action with
  | startElection decision => exact remembers.startElection keeps decision
  | handleFrame frame now =>
    simp only [act]
    rw [(loop.handleFrame_replica frame now).1, (loop.handleFrame_replica frame now).2]
    exact remembers.handleFrame keeps
  | tick now => exact remembers_tick remembers now keeps
  | expireLeaderLease =>
    simp only [act, List.append_nil]
    exact remembers.expireLeaderLease keeps

theorem remembers_run (actions : List Action) (remembers : loop.replica.Remembers sent)
    (keeps : loop.KeepsVotes actions) :
    (loop.run actions).1.replica.Remembers (sent ++ (loop.run actions).2) := by
  induction actions generalizing loop sent with
  | nil =>
    rw [run, List.append_nil]
    exact remembers
  | cons action rest induction =>
    have moved := remembers_act remembers keeps.1
    have finished := induction moved keeps.2
    rw [List.append_assoc] at finished
    exact finished

/-- A node that never drops or replaces a vote it holds supports one candidate
in each term. -/
theorem one_candidate_per_term (loop : NodeLoop) (actions : List Action)
    (named : loop.replica.self.nodeId ≠ []) (keeps : loop.KeepsVotes actions) :
    OneCandidatePerTerm (loop.run actions).2 :=
  (remembers_run actions (remembers_nil named) keeps).unique

def sampleMember (nodeId : String) : Identity where
  clusterId := ascii "edge"
  nodeId := ascii nodeId
  membershipEpoch := 1

def sampleLoop : NodeLoop :=
  create { self := sampleMember "a", peerNodeIds := [ascii "b", ascii "c"] }

def sampleVoteRequest (candidate : String) : Frame where
  frameId := ascii candidate ++ ascii ":vote_request:1"
  kind := kindVoteRequest
  term := 1
  decisionSha256 := List.replicate 64 '1'.toUInt8
  candidateNodeId := ascii candidate
  sender := sampleMember candidate

def sampleLeaderCommit : Frame where
  frameId := ascii "b:leader_commit:1:b"
  kind := kindLeaderCommit
  term := 1
  decisionSha256 := List.replicate 64 '1'.toUInt8
  leaderNodeId := ascii "b"
  sender := sampleMember "b"
  voteWitnesses := [sampleMember "b", sampleMember "a"]

/-- Node a votes for b, follows it until its lease expires, and then votes for
c in the same term. -/
def sampleTwoVotes : List Action :=
  [.handleFrame (sampleVoteRequest "b") 1000, .handleFrame sampleLeaderCommit 1001,
    .tick 7000, .handleFrame (sampleVoteRequest "c") 7001]

theorem sampleTwoVotes_supports : (sampleLoop.run sampleTwoVotes).2.map supportOf =
      [some (1, ascii "b"), some (1, ascii "c")] := by
  decide

theorem two_votes_in_one_term : ¬OneCandidatePerTerm (sampleLoop.run sampleTwoVotes).2 := by
  intro unique
  have supports := sampleTwoVotes_supports
  generalize (sampleLoop.run sampleTwoVotes).2 = frames at supports unique
  rcases frames with _ | ⟨left, _ | ⟨right, rest⟩⟩
  · simp at supports
  · simp at supports
  · simp only [List.map_cons, List.cons.injEq] at supports
    have same := unique left (.head _) right (.tail _ (.head _)) 1 _ _ supports.1 supports.2.1
    exact absurd same (by decide)

/-- Up to the lease expiry every action keeps the vote. -/
theorem one_candidate_per_term_sample :
    OneCandidatePerTerm (sampleLoop.run (sampleTwoVotes.take 2)).2 := by
  apply one_candidate_per_term sampleLoop _ (by decide)
  refine ⟨?_, ?_, trivial⟩
  · intro _ kind
    exact absurd kind (by decide)
  · intro _ _ _ _ _
    exact .inr (by decide)

end NodeLoop

end AgentC.EdgeConsensus
