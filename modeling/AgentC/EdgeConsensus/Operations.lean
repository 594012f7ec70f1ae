import AgentC.EdgeConsensus.OneVote
import Mathlib.Data.Prod.Lex

/-! # Operations on a node's loop

The public operations of `EdgeConsensusNodeLoop` in any order: ticks, frames
and membership updates. Ticks and frames leave the configuration and the
membership alone and never lower the term; an adopted update enters a larger
membership epoch. -/

namespace AgentC.EdgeConsensus

namespace Replica

/-- The same member of the same cluster, in a term that is not earlier. -/
structure Follows (earlier later : Replica) : Prop where
  self : later.self = earlier.self
  clusterSize : later.clusterSize = earlier.clusterSize
  memberNodeIds : later.memberNodeIds = earlier.memberNodeIds
  term : earlier.currentTerm ≤ later.currentTerm

variable (replica : Replica) (frame : Frame)

theorem follows_refl : replica.Follows replica :=
  ⟨rfl, rfl, rfl, UInt64.le_refl _⟩

theorem Follows.trans {first second third : Replica} (left : first.Follows second)
    (right : second.Follows third) : first.Follows third where
  self := right.self.trans left.self
  clusterSize := right.clusterSize.trans left.clusterSize
  memberNodeIds := right.memberNodeIds.trans left.memberNodeIds
  term := UInt64.le_trans left.term right.term

theorem le_nextTerm (term : UInt64) : term ≤ nextTerm term := by
  by_cases largest : term = uint64Max
  · rw [largest, nextTerm_uint64Max]
    exact UInt64.le_refl _
  · exact UInt64.le_of_lt (lt_nextTerm largest)

theorem follows_startElection (decisionSha256 : Bytes) :
    replica.Follows (replica.startElection decisionSha256).1 :=
  ⟨rfl, rfl, rfl, le_nextTerm _⟩

theorem follows_expireLeaderLease : replica.Follows replica.expireLeaderLease := by
  rw [expireLeaderLease]
  split
  · exact replica.follows_refl
  · exact ⟨rfl, rfl, rfl, UInt64.le_refl _⟩

theorem follows_currentLeaderCommitFrame : replica.Follows replica.currentLeaderCommitFrame.1 :=
  ⟨rfl, rfl, rfl, UInt64.le_refl _⟩

theorem follows_maybeResetForNewTerm (term : UInt64) :
    replica.Follows (replica.maybeResetForNewTerm term) := by
  by_cases later : replica.currentTerm < term
  · rw [maybeResetForNewTerm_of_lt later]
    exact ⟨rfl, rfl, rfl, UInt64.le_of_lt later⟩
  · rw [maybeResetForNewTerm_of_le later]
    exact replica.follows_refl

theorem Follows.of_entered {replica entered next : Replica} (follows : replica.Follows entered)
    (self : next.self = entered.self) (clusterSize : next.clusterSize = entered.clusterSize)
    (memberNodeIds : next.memberNodeIds = entered.memberNodeIds)
    (term : next.currentTerm = entered.currentTerm) : replica.Follows next :=
  follows.trans ⟨self, clusterSize, memberNodeIds, term ▸ UInt64.le_refl _⟩

theorem follows_markFrameSeen : replica.Follows (replica.markFrameSeen frame) :=
  replica.follows_refl.of_entered rfl rfl rfl rfl

theorem follows_entered :
    replica.Follows ((replica.markFrameSeen frame).maybeResetForNewTerm frame.term) :=
  (replica.follows_markFrameSeen frame).trans (follows_maybeResetForNewTerm _ frame.term)

theorem follows_grantVote : replica.Follows (replica.grantVote frame) :=
  (replica.follows_entered frame).of_entered rfl rfl rfl rfl

theorem follows_acceptCommit : replica.Follows (replica.acceptCommit frame) :=
  (replica.follows_entered frame).of_entered rfl rfl rfl rfl

theorem follows_countGrant : replica.Follows (replica.countGrant frame) :=
  replica.follows_refl.of_entered rfl rfl rfl rfl

theorem follows_commitAsLeader : replica.Follows replica.commitAsLeader :=
  replica.follows_refl.of_entered rfl rfl rfl rfl

theorem follows_handleFrame : replica.Follows (replica.handleFrame frame).1 := by
  have handles := handleFrame_handles replica frame
  generalize replica.handleFrame frame = handled at handles ⊢
  have entered := replica.follows_maybeResetForNewTerm frame.term
  have counted := entered.trans (follows_countGrant _ frame)
  cases handles with
  | refused => exact replica.follows_refl
  | granted => exact replica.follows_grantVote frame
  | adopted => exact entered
  | counted => exact counted
  | elected leading admits kind counts quorum leads =>
    rw [leads]
    exact counted.trans (follows_commitAsLeader _)
  | committed => exact replica.follows_acceptCommit frame

@[simp] theorem setMembership_membershipEpoch (epoch : UInt64) (memberNodeIds : List Bytes) :
    (replica.setMembership epoch memberNodeIds).self.membershipEpoch = epoch := by
  simp only [setMembership]
  split <;> rfl

end Replica

namespace NodeLoop

/-- The configuration is the same and the replica moved on. -/
structure Follows (earlier later : NodeLoop) : Prop where
  cfg : later.cfg = earlier.cfg
  replica : earlier.replica.Follows later.replica

variable (loop : NodeLoop) {earlier later : NodeLoop} (now : Int) (frame : Frame)

theorem follows_refl : loop.Follows loop :=
  ⟨rfl, loop.replica.follows_refl⟩

theorem Follows.trans {first second third : NodeLoop} (left : first.Follows second)
    (right : second.Follows third) : first.Follows third :=
  ⟨right.cfg.trans left.cfg, left.replica.trans right.replica⟩

theorem follows_of_eq (cfg : later.cfg = earlier.cfg) (replica : later.replica = earlier.replica) :
    earlier.Follows later :=
  ⟨cfg, replica ▸ earlier.replica.follows_refl⟩

@[simp] theorem observeLeaderActivity_cfg (now : Int) :
    (loop.observeLeaderActivity frame now).cfg = loop.cfg := by
  rw [observeLeaderActivity]
  split
  · rfl
  · exact rememberDecision_cfg ..

@[simp] theorem observeGenerated_cfg (loop : NodeLoop) (frame : Frame) :
    (observeGenerated now loop frame).cfg = loop.cfg := by
  simp only [observeGenerated]
  split <;> split <;> simp

theorem foldl_observeGenerated_cfg (frames : List Frame) (loop : NodeLoop) :
    (frames.foldl (observeGenerated now) loop).cfg = loop.cfg := by
  induction frames generalizing loop with
  | nil => rfl
  | cons frame rest induction =>
    rw [List.foldl_cons, induction, observeGenerated_cfg]

theorem follows_handleFrame (now : Int) :
    loop.Follows (loop.handleFrame frame now).1 where
  cfg := by
    simp only [handleFrame]
    split
    · rfl
    · rw [foldl_observeGenerated_cfg]
      split <;> simp
  replica := by
    rw [(loop.handleFrame_replica frame now).1]
    exact loop.replica.follows_handleFrame frame

theorem follows_beginTick : loop.Follows (loop.beginTick now) :=
  follows_of_eq (rememberDecision_cfg ..) (rememberDecision_replica ..)

theorem follows_expireLease : loop.Follows (loop.expireLease now) := by
  rw [expireLease]
  split
  · exact loop.follows_refl
  · exact ⟨rfl, loop.replica.follows_expireLeaderLease⟩

theorem follows_campaign (committed : Bool) : loop.Follows (loop.campaign now committed).1 := by
  simp only [campaign]
  split
  · exact loop.follows_refl
  · exact ⟨rfl, loop.replica.follows_startElection _⟩

theorem follows_heartbeat (committed : Bool) : loop.Follows (loop.heartbeat now committed).1 := by
  simp only [heartbeat]
  split
  · exact ⟨rfl, loop.replica.follows_currentLeaderCommitFrame⟩
  · exact loop.follows_refl

theorem follows_tick : loop.Follows (loop.tick now).1 := by
  have begun := loop.follows_beginTick now
  have expired := begun.trans ((loop.beginTick now).follows_expireLease now)
  simp only [tick]
  split
  · exact begun.trans (follows_heartbeat _ now _)
  · split
    · exact expired
    · exact expired.trans (follows_campaign _ now _)

/-- Every way `adopt_membership_policy` can end. -/
inductive Adopts (loop : NodeLoop) (update : MembershipPolicyUpdate) :
    NodeLoop × AdoptOutcome → Prop
  | kept (outcome : AdoptOutcome) (notAdopted : outcome.adopted = false) :
      Adopts loop update (loop, outcome)
  | adopted (members : List Bytes) (timing : PolicyTiming)
      (normalized : members = dedupeMemberVectorWithoutForcingSelf update.memberNodeIds)
      (newer : loop.cfg.self.membershipEpoch < update.membershipEpoch)
      (selfMember : memberNodeIdsContains members loop.cfg.self.nodeId = true) :
      Adopts loop update (loop.adoptMembers update members timing, ⟨true, true, "adopted"⟩)

theorem adoptMembershipPolicy_adopts (update : MembershipPolicyUpdate) :
    Adopts loop update (loop.adoptMembershipPolicy update) := by
  simp only [adoptMembershipPolicy]
  split
  · exact .kept _ rfl
  · split
    · exact .kept _ rfl
    · split
      · exact .kept _ rfl
      · next newer =>
        split
        · exact .kept _ rfl
        · split
          · exact .kept _ rfl
          · next adoptable =>
            apply Adopts.adopted _ _ rfl
            · simpa [membershipEpochCanAdvance] using newer
            · simp only [membershipPolicyCanAdopt, Bool.not_eq_true', Bool.not_eq_false,
                Bool.and_eq_true] at adoptable
              exact adoptable.1

theorem adoptMembershipPolicy_unchanged {loop : NodeLoop} {update : MembershipPolicyUpdate}
    (notAdopted : (loop.adoptMembershipPolicy update).2.adopted = false) :
    (loop.adoptMembershipPolicy update).1 = loop := by
  have adopts := loop.adoptMembershipPolicy_adopts update
  generalize loop.adoptMembershipPolicy update = result at adopts notAdopted ⊢
  cases adopts with
  | kept => rfl
  | adopted => cases notAdopted

inductive Operation
  | tick (nowUtcMs : Int)
  | handleFrame (frame : Frame) (nowUtcMs : Int)
  | adoptMembershipPolicy (update : MembershipPolicyUpdate)

def operate (loop : NodeLoop) : Operation → NodeLoop
  | .tick nowUtcMs => (loop.tick nowUtcMs).1
  | .handleFrame frame nowUtcMs => (loop.handleFrame frame nowUtcMs).1
  | .adoptMembershipPolicy update => (loop.adoptMembershipPolicy update).1

def operateAll (loop : NodeLoop) (operations : List Operation) : NodeLoop :=
  operations.foldl operate loop

def EpochsAgree (loop : NodeLoop) : Prop :=
  loop.cfg.self.membershipEpoch = loop.replica.self.membershipEpoch

def position (loop : NodeLoop) : UInt64 ×ₗ UInt64 :=
  toLex (loop.replica.self.membershipEpoch, loop.replica.currentTerm)

theorem position_le_iff : earlier.position ≤ later.position ↔
      earlier.replica.self.membershipEpoch < later.replica.self.membershipEpoch ∨
        earlier.replica.self.membershipEpoch = later.replica.self.membershipEpoch ∧
          earlier.replica.currentTerm ≤ later.replica.currentTerm :=
  Prod.Lex.le_iff

theorem Follows.position_le (follows : earlier.Follows later) :
    earlier.position ≤ later.position := by
  rw [position_le_iff, follows.replica.self]
  exact .inr ⟨rfl, follows.replica.term⟩

theorem Follows.epochsAgree (follows : earlier.Follows later) (agree : earlier.EpochsAgree) :
    later.EpochsAgree := by
  rw [EpochsAgree, follows.cfg, follows.replica.self]
  exact agree

theorem epochsAgree_create (given : NodeLoopConfig) : (create given).EpochsAgree := by
  have created : (create given).cfg = normalizeConfig given := rememberDecision_cfg ..
  rw [EpochsAgree, created]
  exact (Replica.setMembership_membershipEpoch ..).symm

theorem operate_position {loop : NodeLoop} (agree : loop.EpochsAgree) (operation : Operation) :
    loop.position ≤ (loop.operate operation).position ∧ (loop.operate operation).EpochsAgree := by
  cases operation with
  | tick now =>
    have follows := loop.follows_tick now
    exact ⟨follows.position_le, follows.epochsAgree agree⟩
  | handleFrame frame now =>
    have follows := loop.follows_handleFrame frame now
    exact ⟨follows.position_le, follows.epochsAgree agree⟩
  | adoptMembershipPolicy update =>
    have adopts := loop.adoptMembershipPolicy_adopts update
    simp only [operate]
    generalize loop.adoptMembershipPolicy update = result at adopts ⊢
    cases adopts with
    | kept => exact ⟨loop.follows_refl.position_le, agree⟩
    | adopted members timing normalized newer selfMember =>
      have entered : (loop.adoptMembers update members timing).replica.self.membershipEpoch =
          update.membershipEpoch := Replica.setMembership_membershipEpoch ..
      constructor
      · rw [position_le_iff, entered, ← agree]
        exact .inl newer
      · exact entered.symm

theorem position_le_trans {first second third : NodeLoop} (left : first.position ≤ second.position)
    (right : second.position ≤ third.position) : first.position ≤ third.position := by
  rw [position_le_iff] at left right ⊢
  grind

theorem operateAll_position {loop : NodeLoop} (agree : loop.EpochsAgree)
    (operations : List Operation) : loop.position ≤ (loop.operateAll operations).position ∧
      (loop.operateAll operations).EpochsAgree := by
  induction operations generalizing loop with
  | nil => exact ⟨loop.follows_refl.position_le, agree⟩
  | cons operation rest induction =>
    have stepped := operate_position agree operation
    have finished := induction stepped.2
    exact ⟨position_le_trans stepped.1 finished.1, finished.2⟩

theorem operateAll_append (operations more : List Operation) :
    loop.operateAll (operations ++ more) = (loop.operateAll operations).operateAll more :=
  List.foldl_append

/-- Over any run of a loop its membership epoch and term never go back, and an
update that is not adopted changes nothing in any state the loop reaches. -/
theorem loop_never_goes_back (given : NodeLoopConfig) (operations more : List Operation) :
    ((create given).operateAll operations).position ≤
        ((create given).operateAll (operations ++ more)).position ∧
      ((create given).operateAll operations).EpochsAgree ∧
      ∀ update : MembershipPolicyUpdate,
        (((create given).operateAll operations).adoptMembershipPolicy update).2.adopted = false →
          (((create given).operateAll operations).adoptMembershipPolicy update).1 =
            (create given).operateAll operations := by
  have reached := (operateAll_position (epochsAgree_create given) operations).2
  refine ⟨?_, reached, fun update => adoptMembershipPolicy_unchanged⟩
  rw [operateAll_append]
  exact (operateAll_position reached more).1

/-- Node a is offered the membership it already has. -/
theorem loop_never_goes_back_sample :
    (sampleLoop.adoptMembershipPolicy
        { clusterId := ascii "edge", membershipEpoch := 1 }).2.adopted = false ∧
      (sampleLoop.adoptMembershipPolicy
        { clusterId := ascii "edge", membershipEpoch := 1 }).1 = sampleLoop := by
  have refused : (sampleLoop.adoptMembershipPolicy
      { clusterId := ascii "edge", membershipEpoch := 1 }).2.adopted = false := by
    decide
  exact ⟨refused, (loop_never_goes_back _ [] []).2.2 _ refused⟩

end NodeLoop

end AgentC.EdgeConsensus
