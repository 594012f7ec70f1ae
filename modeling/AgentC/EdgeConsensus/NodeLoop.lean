import AgentC.EdgeConsensus.Replica
import AgentC.EdgeConsensus.Timing
import AgentC.Foundation.ByteOrder

/-! # The consensus loop of one node

`EdgeConsensusNodeLoop` of `daemon/src/edge_node_consensus.cpp`: a replica
driven by a clock. The 64-bit event counters wrap around as they do there. -/

namespace AgentC.EdgeConsensus

structure NodeLoopConfig where
  self : Identity
  peerNodeIds : List Bytes := []
  memberNodeIds : List Bytes := []
  clusterSize : Nat := 0
  campaignDelayMs : Int := 0
  campaignRetryMs : Int := 0
  campaignRetryMaxMs : Int := 0
  campaignRetryBackoffFactor : Int := 1
  leaderHeartbeatMs : Int := 1000
  leaderLeaseMs : Int := 5000
  leaseExpiryRecampaignDelayMs : Int := 0
  decisionSha256 : Bytes := []
deriving DecidableEq, Repr

def membershipSchemaV1 : Bytes := ascii "edge_consensus_membership_v1"

structure MembershipPolicyUpdate where
  schema : Bytes := membershipSchemaV1
  clusterId : Bytes
  membershipEpoch : UInt64 := 0
  memberNodeIds : List Bytes := []
  campaignDelayMs : Int := 0
  campaignRetryMs : Int := 0
  campaignRetryMaxMs : Int := 0
  campaignRetryBackoffFactor : Int := 1
  leaderHeartbeatMs : Int := 1000
  leaderLeaseMs : Int := 5000
  leaseExpiryRecampaignDelayMs : Int := 0
deriving DecidableEq, Repr

structure NodeLoop where
  cfg : NodeLoopConfig
  replica : Replica
  startedUtcMs : Int := 0
  lastCampaignStartedUtcMs : Int := 0
  lastLeaderContactUtcMs : Int := 0
  lastLeaderHeartbeatSentUtcMs : Int := 0
  lastLeaderLeaseExpiredUtcMs : Int := 0
  electionStarted : Bool := false
  campaignAttempts : UInt64 := 0
  leaderLeaseExpiredCount : UInt64 := 0
  lastKnownDecisionSha256 : Bytes := []

namespace NodeLoop

def rememberDecision (loop : NodeLoop) (decisionSha256 : Bytes) : NodeLoop :=
  if (trimCopy decisionSha256).isEmpty then loop
  else { loop with lastKnownDecisionSha256 := trimCopy decisionSha256 }

def requestedTiming (campaignDelayMs campaignRetryMs campaignRetryMaxMs
    campaignRetryBackoffFactor leaderHeartbeatMs leaderLeaseMs
    leaseExpiryRecampaignDelayMs : Int) : PolicyTiming where
  campaignDelayMs := campaignDelayMs
  campaignRetryMs := campaignRetryMs
  campaignRetryMaxMs := if campaignRetryMaxMs ≤ 0 then campaignRetryMs else campaignRetryMaxMs
  campaignRetryBackoffFactor := campaignRetryBackoffFactor
  leaderHeartbeatMs := leaderHeartbeatMs
  leaderLeaseMs := leaderLeaseMs
  leaseExpiryRecampaignDelayMs := leaseExpiryRecampaignDelayMs
  staleRuntimeRecoveryGraceMs := 0

def setTiming (cfg : NodeLoopConfig) (timing : PolicyTiming) : NodeLoopConfig :=
  { cfg with
    campaignDelayMs := timing.campaignDelayMs
    campaignRetryMs := timing.campaignRetryMs
    campaignRetryMaxMs := timing.campaignRetryMaxMs
    campaignRetryBackoffFactor := timing.campaignRetryBackoffFactor
    leaderHeartbeatMs := timing.leaderHeartbeatMs
    leaderLeaseMs := timing.leaderLeaseMs
    leaseExpiryRecampaignDelayMs := timing.leaseExpiryRecampaignDelayMs }

def normalizeConfig (cfg : NodeLoopConfig) : NodeLoopConfig :=
  let peerNodeIds := normalizePeerNodeIds cfg.peerNodeIds cfg.self.nodeId
  let requested :=
    if cfg.memberNodeIds.isEmpty then peerNodeIds ++ [cfg.self.nodeId] else cfg.memberNodeIds
  let memberNodeIds := sortedElements (normalizeMemberNodeIdSet requested cfg.self.nodeId true)
  let clusterSize :=
    if cfg.clusterSize = 0 then clusterSizeFromMemberCount memberNodeIds.length
    else clusterSizeNormalize cfg.clusterSize
  let timing := requestedTiming cfg.campaignDelayMs cfg.campaignRetryMs cfg.campaignRetryMaxMs
    cfg.campaignRetryBackoffFactor cfg.leaderHeartbeatMs cfg.leaderLeaseMs
    cfg.leaseExpiryRecampaignDelayMs
  setTiming
    { cfg with
      peerNodeIds := peerNodeIds, memberNodeIds := memberNodeIds, clusterSize := clusterSize }
    (policyTimingNormalize timing)

def create (given : NodeLoopConfig) : NodeLoop :=
  let clusterSize :=
    if given.clusterSize = 0 then clusterSizeFromPeerCount given.peerNodeIds.length
    else clusterSizeNormalize given.clusterSize
  let cfg := normalizeConfig given
  let loop : NodeLoop := { cfg := cfg, replica := .create given.self clusterSize }
  let remembering := loop.rememberDecision cfg.decisionSha256
  { remembering with
    replica := remembering.replica.setMembership cfg.self.membershipEpoch cfg.memberNodeIds }

def currentCampaignDelayMs (loop : NodeLoop) : Int :=
  campaignRetryDelayMs loop.cfg.campaignRetryMs loop.cfg.campaignRetryMaxMs
    loop.cfg.campaignRetryBackoffFactor loop.campaignAttempts

def membershipEpochCanAdvance (currentEpoch nextEpoch : UInt64) : Bool :=
  currentEpoch < nextEpoch

def membershipPolicyCanAdopt (currentEpoch nextEpoch : UInt64) (selfNodeIsMember : Bool) : Bool :=
  selfNodeIsMember && membershipEpochCanAdvance currentEpoch nextEpoch

/-- What `adopt_membership_policy` reports: its return value, `out_adopted`
and `out_reason`. -/
structure AdoptOutcome where
  ok : Bool
  adopted : Bool
  reason : String
deriving DecidableEq, Repr

/-- `std::sort` of the normalised ids, which are distinct. -/
def dedupeMemberVectorWithoutForcingSelf (rawIds : List Bytes) : List Bytes :=
  sortedElements (normalizeMemberNodeIds rawIds).toFinset

/-- The loop after it adopted the update: the replica gets the new membership
and every clock and counter starts again. -/
def adoptMembers (loop : NodeLoop) (update : MembershipPolicyUpdate) (members : List Bytes)
    (timing : PolicyTiming) : NodeLoop :=
  let cfg := setTiming
    { loop.cfg with
      self := { loop.cfg.self with membershipEpoch := update.membershipEpoch }
      memberNodeIds := members
      peerNodeIds := normalizePeerNodeIds members loop.cfg.self.nodeId
      clusterSize := clusterSizeFromMemberCount members.length }
    timing
  { cfg := cfg
    replica := loop.replica.setMembership cfg.self.membershipEpoch cfg.memberNodeIds
    lastKnownDecisionSha256 := loop.lastKnownDecisionSha256 }

def adoptMembershipPolicy (loop : NodeLoop) (update : MembershipPolicyUpdate) :
    NodeLoop × AdoptOutcome :=
  let members := dedupeMemberVectorWithoutForcingSelf update.memberNodeIds
  if update.schema ≠ membershipSchemaV1 then (loop, ⟨false, false, "membership schema invalid"⟩)
  else if !clusterIdMatches loop.cfg.self.clusterId update.clusterId then
    (loop, ⟨true, false, "cluster_id mismatch"⟩)
  else if !membershipEpochCanAdvance loop.cfg.self.membershipEpoch update.membershipEpoch then
    (loop, ⟨true, false, "membership_epoch not newer"⟩)
  else if members.isEmpty then (loop, ⟨false, false, "member_node_ids empty"⟩)
  else if !membershipPolicyCanAdopt loop.cfg.self.membershipEpoch update.membershipEpoch
      (memberNodeIdsContains members loop.cfg.self.nodeId) then
    (loop, ⟨true, false, "self node missing from membership"⟩)
  else
    let timing := requestedTiming update.campaignDelayMs update.campaignRetryMs
      update.campaignRetryMaxMs update.campaignRetryBackoffFactor update.leaderHeartbeatMs
      update.leaderLeaseMs update.leaseExpiryRecampaignDelayMs
    (loop.adoptMembers update members (policyTimingNormalize timing), ⟨true, true, "adopted"⟩)

def leaseExpired (loop : NodeLoop) (nowUtcMs : Int) : Bool :=
  leaderLeaseExpired loop.cfg.leaderLeaseMs nowUtcMs loop.lastLeaderContactUtcMs
    (!loop.replica.leaderNodeId.isEmpty) loop.replica.leaderIsSelf

def recampaignDelayActive (loop : NodeLoop) (nowUtcMs : Int) : Bool :=
  leaseExpiryRecampaignDelayActive loop.cfg.leaseExpiryRecampaignDelayMs nowUtcMs
    loop.lastLeaderLeaseExpiredUtcMs

def leaderActivityCanObserve (frame : Frame) (nowUtcMs : Int) : Bool :=
  if nowUtcMs ≤ 0 then false
  else if frame.kind ≠ kindLeaderCommit then false
  else memberNodeIdIsValidRaw frame.leaderNodeId

def observeLeaderActivity (loop : NodeLoop) (frame : Frame) (nowUtcMs : Int) : NodeLoop :=
  if !leaderActivityCanObserve frame nowUtcMs then loop
  else { loop with lastLeaderContactUtcMs := nowUtcMs }.rememberDecision frame.decisionSha256

/-- The lease-expiry block of `tick`. -/
def expireLease (loop : NodeLoop) (nowUtcMs : Int) : NodeLoop :=
  if !loop.leaseExpired nowUtcMs then loop
  else
    { loop with
      replica := loop.replica.expireLeaderLease
      lastLeaderContactUtcMs := 0
      lastLeaderLeaseExpiredUtcMs := nowUtcMs
      leaderLeaseExpiredCount := loop.leaderLeaseExpiredCount + 1
      lastCampaignStartedUtcMs := campaignLastStartedAfterLeaseExpiry nowUtcMs
        loop.currentCampaignDelayMs loop.electionStarted loop.lastCampaignStartedUtcMs }

def campaignDecision (loop : NodeLoop) : Bytes :=
  match campaignDecisionSource loop.cfg.decisionSha256 loop.lastKnownDecisionSha256 with
  | .config => trimCopy loop.cfg.decisionSha256
  | .lastKnown => trimCopy loop.lastKnownDecisionSha256
  | .none => []

def campaignDue (loop : NodeLoop) (nowUtcMs : Int) : Bool :=
  campaignStartDue nowUtcMs loop.startedUtcMs loop.cfg.campaignDelayMs loop.electionStarted
    loop.lastCampaignStartedUtcMs
    (if loop.electionStarted then loop.currentCampaignDelayMs else 0)

/-- The last block of `tick`. Whether a decision was committed is read before
the lease is looked at. -/
def campaign (loop : NodeLoop) (nowUtcMs : Int) (hasCommittedDecision : Bool) :
    NodeLoop × List Frame :=
  let source := campaignDecisionSource loop.cfg.decisionSha256 loop.lastKnownDecisionSha256
  if !campaignCanStart (source != .none) hasCommittedDecision (loop.campaignDue nowUtcMs) then
    (loop, [])
  else
    let started := loop.replica.startElection loop.campaignDecision
    ({ loop with
        replica := started.1
        electionStarted := true
        lastCampaignStartedUtcMs := nowUtcMs
        campaignAttempts := loop.campaignAttempts + 1 },
      [started.2])

/-- The heartbeat block of `tick`, for a leader with a committed decision. -/
def heartbeat (loop : NodeLoop) (nowUtcMs : Int) (hasCommittedDecision : Bool) :
    NodeLoop × List Frame :=
  if leaderHeartbeatDue loop.cfg.leaderHeartbeatMs nowUtcMs loop.lastLeaderHeartbeatSentUtcMs
      loop.replica.leaderIsSelf hasCommittedDecision then
    let sent := loop.replica.currentLeaderCommitFrame
    ({ loop with
        replica := sent.1
        lastLeaderHeartbeatSentUtcMs := nowUtcMs
        lastLeaderContactUtcMs := nowUtcMs },
      [sent.2])
  else (loop, [])

/-- The first lines of `tick`. -/
def beginTick (loop : NodeLoop) (nowUtcMs : Int) : NodeLoop :=
  { loop with
    startedUtcMs := if loop.startedUtcMs = 0 then nowUtcMs else loop.startedUtcMs
    }.rememberDecision loop.replica.committedDecisionSha256

def tick (loop : NodeLoop) (nowUtcMs : Int) : NodeLoop × List Frame :=
  let begun := loop.beginTick nowUtcMs
  let hasCommittedDecision := decisionSha256IsSet begun.replica.committedDecisionSha256
  if hasCommittedDecision && begun.replica.leaderIsSelf then
    begun.heartbeat nowUtcMs hasCommittedDecision
  else
    let expired := begun.expireLease nowUtcMs
    if expired.recampaignDelayActive nowUtcMs then (expired, [])
    else expired.campaign nowUtcMs hasCommittedDecision

def observeGenerated (nowUtcMs : Int) (loop : NodeLoop) (generated : Frame) : NodeLoop :=
  let observed :=
    if leaderActivityCanObserve generated nowUtcMs then
      { loop with
        lastLeaderContactUtcMs := nowUtcMs, lastLeaderHeartbeatSentUtcMs := nowUtcMs }
    else loop
  if generated.kind = kindLeaderCommit then observed.rememberDecision generated.decisionSha256
  else observed

def handleFrame (loop : NodeLoop) (frame : Frame) (nowUtcMs : Int) :
    NodeLoop × Replica.FrameOutcome :=
  let (replica, outcome) := loop.replica.handleFrame frame
  let handled := { loop with replica := replica }
  if !outcome.ok then (handled, outcome)
  else
    let observed :=
      if outcome.accepted then
        (handled.rememberDecision frame.decisionSha256).observeLeaderActivity frame nowUtcMs
      else handled
    (outcome.frames.foldl (observeGenerated nowUtcMs) observed, outcome)

end NodeLoop

end AgentC.EdgeConsensus
