import AgentC.EdgeConsensus.FrameJson
import AgentC.EdgeConsensus.LeaderBacking

/-! # Frames a replica emits

Every part of an emitted frame passes the checks of a peer except, at times,
its id. The id is put together from the node id, the kind, a number and
another node id, and has to fit in the length of a single id. Where it does
not, `consensus_frame_id` returns the empty string and every peer refuses the
frame. -/

namespace AgentC.EdgeConsensus

def frameIdLength (nodeId kind : Bytes) (number : UInt64) (suffix : Bytes) : Nat :=
  nodeId.length + 1 + kind.length + 1 + (decimal number.toNat).length +
    (if suffix.length > 0 then 1 + suffix.length else 0)

theorem umbmpCharOk_of_isDigit : ∀ c : UInt8, isDigit c = true → umbmpCharOk c = true := by
  apply forall_byte
  decide +kernel

theorem allOk_decimal (value : Nat) : (decimal value).all umbmpCharOk = true := by
  rw [List.all_eq_true]
  intro byte member
  exact umbmpCharOk_of_isDigit byte (allIn_decimal value byte member)

theorem allOk_of_safe {token : Bytes} (safe : umbmpIdIsSafe token = true) :
    token.all umbmpCharOk = true := by
  simp only [umbmpIdIsSafe, Bool.and_eq_true] at safe
  exact safe.2

theorem allOk_kind {kind : Bytes} (valid : frameKindIsValid kind = true) :
    kind.all umbmpCharOk = true := by
  simp only [frameKindIsValid, Bool.or_eq_true, beq_iff_eq] at valid
  rcases valid with (rfl | rfl) | rfl <;> decide

def idSuffix (suffix : Bytes) : Bytes :=
  if suffix.length > 0 then ascii ":" ++ suffix else []

theorem allOk_idSuffix {suffix : Bytes} (safe : suffix = [] ∨ umbmpIdIsSafe suffix = true) :
    (idSuffix suffix).all umbmpCharOk = true := by
  rw [idSuffix]
  split
  · next nonempty =>
    rcases safe with rfl | safe
    · cases nonempty
    · have colon : (ascii ":").all umbmpCharOk = true := by decide
      rw [List.all_append, colon, allOk_of_safe safe]
      rfl
  · rfl

theorem length_idSuffix (suffix : Bytes) :
    (idSuffix suffix).length = if suffix.length > 0 then 1 + suffix.length else 0 := by
  rw [idSuffix]
  split
  · rw [List.length_append]
    rfl
  · rfl

theorem consensusFrameId_safe_iff {nodeId kind suffix : Bytes} (number : UInt64)
    (nodeSafe : umbmpIdIsSafe nodeId = true) (kindValid : frameKindIsValid kind = true)
    (suffixSafe : suffix = [] ∨ umbmpIdIsSafe suffix = true) :
    umbmpIdIsSafe (consensusFrameId nodeId kind number suffix) = true ↔
      frameIdLength nodeId kind number suffix ≤ maxIdLen := by
  let formatted := nodeId ++ ascii ":" ++ kind ++ ascii ":" ++ decimal number.toNat ++
    idSuffix suffix
  have length : formatted.length = frameIdLength nodeId kind number suffix := by
    have colon : (ascii ":").length = 1 := rfl
    simp only [formatted, List.length_append, colon, length_idSuffix, frameIdLength]
  have characters : formatted.all umbmpCharOk = true := by
    have colon : (ascii ":").all umbmpCharOk = true := by decide
    simp only [formatted, List.all_append, allOk_of_safe nodeSafe, colon, allOk_kind kindValid,
      allOk_decimal, allOk_idSuffix suffixSafe, Bool.and_self]
  have suffixOk : (suffix.length > 0 && !memberNodeIdIsValidRaw suffix) = false := by
    rcases suffixSafe with rfl | safe
    · rfl
    · simp [memberNodeIdIsValidRaw, safe]
  have formed : consensusFrameId nodeId kind number suffix =
      if frameIdLength nodeId kind number suffix > maxIdLen then []
      else if !umbmpIdIsSafe formatted then [] else formatted := by
    simp only [consensusFrameId]
    rw [if_neg (by simp [memberNodeIdIsValidRaw, nodeSafe]), if_neg (by simp [kindValid]),
      if_neg (by simp only [suffixOk, Bool.false_eq_true, not_false_eq_true])]
    rfl
  rw [formed]
  split
  · next tooLong =>
    constructor
    · intro safe
      exact absurd rfl (ne_nil_of_safe safe)
    · intro fits
      omega
  · next fits =>
    have safe : umbmpIdIsSafe formatted = true := by
      have nonempty : formatted.length ≠ 0 := by
        rw [length, frameIdLength]
        omega
      simp only [umbmpIdIsSafe, characters, Bool.and_true, Bool.and_eq_true, bne_iff_ne, ne_eq,
        decide_eq_true_eq]
      exact ⟨nonempty, length ▸ Nat.le_of_not_lt fits⟩
    simp only [safe, Bool.not_true, Bool.false_eq_true, if_false, true_iff]
    exact Nat.le_of_not_lt fits

variable {frame : Frame}

section Peers

variable {numbers : NumberQueries}

/-- A peer takes the frame from its JSON, and its checks pass. -/
def AcceptedByPeers (numbers : NumberQueries) (frame : Frame) : Prop :=
  frameIsValid frame = none ∧
    ∃ received, frameFromJson numbers (frameToJson frame) = .ok received

/-- Everything about a frame is as a peer expects it, its id aside. -/
structure SoundButId (frame : Frame) : Prop where
  schema : frame.schema = frameSchemaV1
  kind : frameKindIsValid frame.kind = true
  term : ¬frame.term < 1
  decision : frame.decisionSha256 = [] ∨ umbmpSha256TokenIsSafe frame.decisionSha256 = true
  sender : identityValidate frame.sender = .ok
  roles : frameValidateRoles frame = .ok
  witnesses : ∀ witness ∈ frame.voteWitnesses, identityValidate witness = .ok
  granted : frame.kind ≠ kindVoteGrant → frame.granted = false
  candidate : frame.candidateNodeId = [] ∨ umbmpIdIsSafe frame.candidateNodeId = true
  leader : frame.leaderNodeId = [] ∨ umbmpIdIsSafe frame.leaderNodeId = true

theorem acceptedByPeers_iff (reads : numbers.ReadsUnsigned) (sound : SoundButId frame) :
    AcceptedByPeers numbers frame ↔ umbmpIdIsSafe frame.frameId = true := by
  constructor
  · intro accepted
    exact (wellShaped_of_frameIsValid accepted.1).frameId
  · intro frameId
    have shaped : WellShaped frame :=
      ⟨sound.schema, sound.kind, frameId, sound.term, sound.decision, sound.sender, sound.roles⟩
    have valid := frameIsValid_eq_none_iff.mpr
      ⟨frameValidate_eq_ok_iff.mpr shaped, sound.witnesses⟩
    have read := frameFromJson_frameToJson reads valid sound.granted sound.candidate sound.leader
    exact ⟨valid, frame, read⟩

end Peers

namespace Replica

/-- Everything a replica puts into a frame passes the checks of a peer. -/
structure Sound (replica : Replica) : Prop where
  identity : identityValidate replica.self = .ok
  leader : replica.leaderNodeId = [] ∨
    umbmpIdIsSafe replica.leaderNodeId = true ∧ ¬replica.currentTerm < 1
  campaign : replica.campaignDecisionSha256 = [] ∨
    umbmpSha256TokenIsSafe replica.campaignDecisionSha256 = true
  committed : replica.committedDecisionSha256 = [] ∨
    umbmpSha256TokenIsSafe replica.committedDecisionSha256 = true
  grants : ∀ (nodeId : Bytes) witness, replica.grantWitnessesByNodeId[nodeId]? = some witness →
    identityValidate witness = .ok
  witnesses : ∀ witness ∈ replica.committedVoteWitnesses, identityValidate witness = .ok

variable {replica : Replica}

theorem sound_of_cleared (identity : identityValidate replica.self = .ok)
    (leaderless : replica.leaderNodeId = [])
    (campaign : replica.campaignDecisionSha256 = [] ∨
      umbmpSha256TokenIsSafe replica.campaignDecisionSha256 = true)
    (committed : replica.committedDecisionSha256 = [])
    (grants : replica.grantWitnessesByNodeId = ∅)
    (witnesses : replica.committedVoteWitnesses = []) : replica.Sound where
  identity := identity
  leader := .inl leaderless
  campaign := campaign
  committed := .inl committed
  grants := by
    intro nodeId witness held
    rw [grants] at held
    simp at held
  witnesses := by
    rw [witnesses]
    exact fun _ listed => absurd listed List.not_mem_nil

theorem Sound.enter (sound : replica.Sound) (term : UInt64) :
    (replica.maybeResetForNewTerm term).Sound := by
  by_cases later : replica.currentTerm < term
  · rw [maybeResetForNewTerm_of_lt later]
    exact sound_of_cleared sound.identity rfl (.inl rfl) rfl rfl rfl
  · rw [maybeResetForNewTerm_of_le later]
    exact sound

theorem Sound.markFrameSeen (sound : replica.Sound) (frame : Frame) :
    (replica.markFrameSeen frame).Sound :=
  ⟨sound.identity, sound.leader, sound.campaign, sound.committed, sound.grants, sound.witnesses⟩

theorem currentTerm_enter {replica : Replica} {term : UInt64} (fresh : replica.currentTerm ≤ term) :
    (replica.maybeResetForNewTerm term).currentTerm = term := by
  by_cases later : replica.currentTerm < term
  · rw [maybeResetForNewTerm_of_lt later]
  · rw [maybeResetForNewTerm_of_le later]
    exact UInt64.le_antisymm fresh (UInt64.not_lt.mp later)

theorem elected_leads (replica : Replica) (frame : Frame) :
    (replica.countGrant frame).commitAsLeader.self = replica.self ∧
      (replica.countGrant frame).commitAsLeader.leaderNodeId = replica.self.nodeId ∧
      (replica.countGrant frame).commitAsLeader.currentTerm = replica.currentTerm :=
  ⟨rfl, rfl, rfl⟩

theorem currentTerm_of_counts
    (counts : (replica.maybeResetForNewTerm frame.term).voteGrantCounts frame = true) :
    (replica.maybeResetForNewTerm frame.term).currentTerm = frame.term := by
  apply currentTerm_enter
  have fresh := (of_voteGrantCounts counts).1
  rw [maybeResetForNewTerm_of_le (not_lt_of_voteGrantCounts counts)] at fresh
  exact fresh

theorem Sound.grantVote (sound : replica.Sound) (frame : Frame) :
    (replica.grantVote frame).Sound := by
  have entered := (sound.markFrameSeen frame).enter frame.term
  exact ⟨entered.identity, entered.leader, entered.campaign, entered.committed, entered.grants,
    entered.witnesses⟩

theorem Sound.countGrant (sound : replica.Sound) (valid : frameIsValid frame = none) :
    (replica.countGrant frame).Sound := by
  refine ⟨sound.identity, sound.leader, sound.campaign, sound.committed, ?_, sound.witnesses⟩
  intro nodeId witness held
  simp only [Replica.countGrant, Replica.markFrameSeen, Std.TreeMap.getElem?_insert] at held
  split at held
  · rw [← Option.some.inj held]
    exact (wellShaped_of_frameIsValid valid).sender
  · exact sound.grants nodeId witness held

theorem Sound.commitAsLeader (sound : replica.Sound) (started : ¬replica.currentTerm < 1) :
    replica.commitAsLeader.Sound := by
  have named := (identityValidate_eq_ok sound.identity).2
  refine ⟨sound.identity, .inr ⟨named, started⟩, sound.campaign, sound.campaign, sound.grants, ?_⟩
  intro witness listed
  rcases List.mem_cons.mp listed with own | granted
  · exact own ▸ sound.identity
  · rcases mem_values_iff.mp granted with ⟨nodeId, held⟩
    exact sound.grants nodeId witness held

theorem Sound.acceptCommit (sound : replica.Sound) (valid : frameIsValid frame = none)
    (kind : frame.kind = kindLeaderCommit) (fresh : replica.currentTerm ≤ frame.term) :
    (replica.acceptCommit frame).Sound := by
  have entered := (sound.markFrameSeen frame).enter frame.term
  have shaped := wellShaped_of_frameIsValid valid
  have term : (replica.acceptCommit frame).currentTerm = frame.term :=
    @currentTerm_enter (replica.markFrameSeen frame) frame.term fresh
  refine ⟨entered.identity, .inr ⟨leaderSafe_of_frameIsValid valid kind, ?_⟩, .inl rfl,
    shaped.decision, entered.grants, witnessesValid_of_frameIsValid valid⟩
  rw [term]
  exact shaped.term

theorem Sound.handleFrame (sound : replica.Sound) (frame : Frame) :
    (replica.handleFrame frame).1.Sound := by
  have handles := handleFrame_handles replica frame
  generalize replica.handleFrame frame = handled at handles ⊢
  cases handles with
  | refused => exact sound
  | granted => exact sound.grantVote frame
  | adopted => exact sound.enter frame.term
  | counted admits kind counts => exact (sound.enter frame.term).countGrant admits.valid
  | elected leading admits kind counts quorum leads =>
    have counted := (sound.enter frame.term).countGrant admits.valid
    have term : ((replica.maybeResetForNewTerm frame.term).countGrant frame).currentTerm =
        frame.term := currentTerm_of_counts counts
    rw [leads]
    apply counted.commitAsLeader
    rw [term]
    exact (wellShaped_of_frameIsValid admits.valid).term
  | committed admits kind accepts witnessed =>
    exact sound.acceptCommit admits.valid kind (of_leaderCommitAccepts accepts).1

theorem Sound.startElection (sound : replica.Sound) {decision : Bytes}
    (valid : umbmpSha256TokenIsSafe decision = true) : (replica.startElection decision).1.Sound :=
  sound_of_cleared sound.identity rfl (.inr valid) rfl rfl rfl

theorem Sound.currentLeaderCommitFrame (sound : replica.Sound) :
    replica.currentLeaderCommitFrame.1.Sound :=
  ⟨sound.identity, sound.leader, sound.campaign, sound.committed, sound.grants, sound.witnesses⟩

theorem soundButId_startElection (sound : replica.Sound) {decision : Bytes}
    (valid : umbmpSha256TokenIsSafe decision = true) :
    SoundButId (replica.startElection decision).2 := by
  have named := (identityValidate_eq_ok sound.identity).2
  have term : ¬nextTerm replica.currentTerm < 1 := by
    rw [nextTerm]
    split
    · decide
    · next below =>
      rw [uint64Max] at below
      grind
  refine ⟨rfl, rfl, term, .inr valid, sound.identity, ?_, ?_, fun _ => rfl, .inr named, .inl rfl⟩
  · have candidate : memberNodeIdIsValidRaw replica.self.nodeId = true := named
    have notCommit : (kindVoteRequest == kindLeaderCommit) = false := by decide
    simp [frameValidateRoles, Replica.startElection, nextFrameId, candidate, notCommit]
  · exact fun _ listed => absurd listed List.not_mem_nil

theorem soundButId_makeVoteGrantFrame (identity : identityValidate replica.self = .ok)
    (valid : frameIsValid frame = none) (kind : frame.kind = kindVoteRequest)
    (term : replica.currentTerm = frame.term) :
    SoundButId (replica.makeVoteGrantFrame frame.candidateNodeId frame.decisionSha256) := by
  have shaped := wellShaped_of_frameIsValid valid
  have candidate := candidateSafe_of_frameIsValid valid (.inl kind)
  have started : ¬replica.currentTerm < 1 := term ▸ shaped.term
  refine ⟨rfl, rfl, started, shaped.decision, identity, ?_, ?_,
    fun other => absurd rfl other, .inr candidate, .inl rfl⟩
  · have named : memberNodeIdIsValidRaw frame.candidateNodeId = true := candidate
    have notCommit : (kindVoteGrant == kindLeaderCommit) = false := by decide
    simp [frameValidateRoles, makeVoteGrantFrame, named, notCommit]
  · exact fun _ listed => absurd listed List.not_mem_nil

theorem soundButId_makeLeaderCommitFrame (sound : replica.Sound) (led : replica.leaderNodeId ≠ [])
    (frameId : Bytes) : SoundButId (replica.makeLeaderCommitFrame frameId) := by
  have leader := sound.leader.resolve_left led
  refine ⟨rfl, rfl, leader.2, sound.committed, sound.identity, ?_, sound.witnesses,
    fun _ => rfl, .inl rfl, .inr leader.1⟩
  have named : memberNodeIdIsValidRaw replica.leaderNodeId = true := leader.1
  have notRequest : (kindLeaderCommit == kindVoteRequest) = false := by decide
  have notGrant : (kindLeaderCommit == kindVoteGrant) = false := by decide
  simp [frameValidateRoles, makeLeaderCommitFrame, named, notRequest, notGrant]

inductive Call
  | startElection (decisionSha256 : Bytes)
  | currentLeaderCommitFrame
  | handleFrame (frame : Frame)

def call (replica : Replica) : Call → Replica × List Frame
  | .startElection decisionSha256 =>
    ((replica.startElection decisionSha256).1, [(replica.startElection decisionSha256).2])
  | .currentLeaderCommitFrame =>
    (replica.currentLeaderCommitFrame.1, [replica.currentLeaderCommitFrame.2])
  | .handleFrame frame => ((replica.handleFrame frame).1, (replica.handleFrame frame).2.frames)

/-- Campaigns are for digests, and only a leader announces itself. -/
def MayCall (replica : Replica) : Call → Prop
  | .startElection decisionSha256 => umbmpSha256TokenIsSafe decisionSha256 = true
  | .currentLeaderCommitFrame => replica.leaderIsSelf = true
  | .handleFrame _ => True

/-- The states a replica reaches from its configuration. -/
inductive Reached (start : Replica) : Replica → Prop
  | start : Reached start start
  | call {replica : Replica} (before : Reached start replica) (call : Call)
      (may : replica.MayCall call) : Reached start (replica.call call).1

/-- The id of the frame that a call makes the replica emit is not longer than
an id may be. -/
def FrameIdFits (replica : Replica) : Call → Prop
  | .startElection _ =>
    frameIdLength replica.self.nodeId kindVoteRequest (nextFrameSequence replica.frameSeq) [] ≤
      maxIdLen
  | .currentLeaderCommitFrame =>
    frameIdLength replica.self.nodeId kindLeaderCommit (nextFrameSequence replica.frameSeq) [] ≤
      maxIdLen
  | .handleFrame frame =>
    if frame.kind = kindVoteRequest then
      frameIdLength replica.self.nodeId kindVoteGrant frame.term frame.candidateNodeId ≤ maxIdLen
    else
      frameIdLength replica.self.nodeId kindLeaderCommit frame.term replica.self.nodeId ≤
        maxIdLen

theorem Sound.call (sound : replica.Sound) {call : Call} (may : replica.MayCall call) :
    (replica.call call).1.Sound := by
  cases call with
  | startElection decision => exact sound.startElection may
  | currentLeaderCommitFrame => exact sound.currentLeaderCommitFrame
  | handleFrame frame => exact sound.handleFrame frame

theorem Reached.sound {start : Replica} (reached : Reached start replica) (started : start.Sound) :
    replica.Sound := by
  induction reached with
  | start => exact started
  | call before call may induction => exact induction.call may

theorem sound_configured {self : Identity} (clusterSize : Nat)
    (membership : Option (UInt64 × List Bytes)) (valid : identityValidate self = .ok) :
    (configured self clusterSize membership).Sound := by
  cases membership with
  | none => exact sound_of_cleared valid rfl (.inl rfl) rfl rfl rfl
  | some membership =>
    simp only [configured, setMembership]
    split
    · exact sound_of_cleared valid rfl (.inl rfl) rfl rfl rfl
    · exact sound_of_cleared valid rfl (.inl rfl) rfl rfl rfl

section Emitted

variable {numbers : NumberQueries}

theorem acceptedByPeers_handleFrame (reads : numbers.ReadsUnsigned) (sound : replica.Sound)
    {emitted : Frame} (emits : emitted ∈ (replica.handleFrame frame).2.frames) :
    AcceptedByPeers numbers emitted ↔ replica.FrameIdFits (.handleFrame frame) := by
  have named := (identityValidate_eq_ok sound.identity).2
  have handles := handleFrame_handles replica frame
  have next := sound.handleFrame frame
  generalize replica.handleFrame frame = handled at handles emits next
  cases handles with
  | refused outcome rejected silent =>
    rw [silent] at emits
    exact absurd emits List.not_mem_nil
  | granted admits kind grants =>
    have candidate := candidateSafe_of_frameIsValid admits.valid (.inl kind)
    have self : (replica.grantVote frame).self = replica.self :=
      maybeResetForNewTerm_self (replica.markFrameSeen frame) frame.term
    have term : (replica.grantVote frame).currentTerm = frame.term :=
      @currentTerm_enter (replica.markFrameSeen frame) frame.term
        (of_voteRequestGrants grants).2.1
    have sent := soundButId_makeVoteGrantFrame next.identity admits.valid kind term
    rw [List.mem_singleton.mp emits, acceptedByPeers_iff reads sent, FrameIdFits, if_pos kind,
      makeVoteGrantFrame, self, term]
    exact consensusFrameId_safe_iff frame.term named rfl (.inr candidate)
  | adopted => exact absurd emits List.not_mem_nil
  | counted => exact absurd emits List.not_mem_nil
  | elected leading admits kind counts quorum leads =>
    have elected := (replica.maybeResetForNewTerm frame.term).elected_leads frame
    rw [← leads, maybeResetForNewTerm_self, currentTerm_of_counts counts] at elected
    rcases elected with ⟨self, leader, term⟩
    have led : leading.leaderNodeId ≠ [] := leader ▸ ne_nil_of_safe named
    have notRequest : frame.kind ≠ kindVoteRequest := by
      rw [kind]
      exact kindVoteRequest_ne_kindVoteGrant.symm
    rw [List.mem_singleton.mp emits,
      acceptedByPeers_iff reads (soundButId_makeLeaderCommitFrame next led _), FrameIdFits,
      if_neg notRequest, makeLeaderCommitFrame, self, leader, term]
    exact consensusFrameId_safe_iff frame.term named rfl (.inr named)
  | committed => exact absurd emits List.not_mem_nil

/-- In every state a replica with a valid identity reaches, a frame it emits is
accepted by its peers exactly when the id of the frame fits. -/
theorem emitted_accepted_iff (reads : numbers.ReadsUnsigned) (self : Identity)
    (clusterSize : Nat) (membership : Option (UInt64 × List Bytes))
    (valid : identityValidate self = .ok) (replica : Replica)
    (reached : Reached (configured self clusterSize membership) replica) (call : Call)
    (may : replica.MayCall call) (emitted : Frame) (emits : emitted ∈ (replica.call call).2) :
    AcceptedByPeers numbers emitted ↔ replica.FrameIdFits call := by
  have sound := reached.sound (sound_configured clusterSize membership valid)
  have named := (identityValidate_eq_ok sound.identity).2
  cases call with
  | startElection decision =>
    have sent := soundButId_startElection sound may
    rw [List.mem_singleton.mp emits, acceptedByPeers_iff reads sent]
    exact consensusFrameId_safe_iff _ named rfl (.inl rfl)
  | currentLeaderCommitFrame =>
    have sent := soundButId_makeLeaderCommitFrame sound.currentLeaderCommitFrame
      (led_of_leaderIsSelf may) replica.currentLeaderCommitFrame.2.frameId
    rw [List.mem_singleton.mp emits]
    refine (acceptedByPeers_iff reads sent).trans ?_
    exact consensusFrameId_safe_iff _ named rfl (.inl rfl)
  | handleFrame frame => exact acceptedByPeers_handleFrame reads sound emits

end Emitted

/-- Node a asks for votes. -/
theorem emitted_accepted_iff_sample :
    AcceptedByPeers decimalQueries
      ((configured (NodeLoop.sampleMember "a") 1 none).startElection
        (List.replicate 64 '1'.toUInt8)).2 := by
  have accepted := emitted_accepted_iff decimalQueries_readsUnsigned (NodeLoop.sampleMember "a") 1
    none (by decide) _ .start (.startElection (List.replicate 64 '1'.toUInt8))
    (show umbmpSha256TokenIsSafe _ = true by decide) _ (List.mem_singleton.mpr rfl)
  exact accepted.mpr (show frameIdLength _ _ _ _ ≤ maxIdLen by decide)

def sampleLongMember : Identity where
  clusterId := ascii "edge"
  nodeId := List.replicate 128 'a'.toUInt8

set_option maxRecDepth 4000 in
/-- Its identity is valid, and its peers refuse its first request for votes. -/
theorem long_id_not_accepted :
    identityValidate sampleLongMember = .ok ∧
      frameIsValid ((configured sampleLongMember 1 none).startElection
        (List.replicate 64 '1'.toUInt8)).2 = some "frame_id invalid" ∧
      ¬∀ (numbers : NumberQueries) (self : Identity) (clusterSize : Nat)
        (membership : Option (UInt64 × List Bytes)) (replica : Replica) (call : Call)
        (emitted : Frame), numbers.ReadsUnsigned → identityValidate self = .ok →
          Reached (configured self clusterSize membership) replica → replica.MayCall call →
            emitted ∈ (replica.call call).2 → AcceptedByPeers numbers emitted := by
  have valid : identityValidate sampleLongMember = .ok := by decide
  have refused : frameIsValid ((configured sampleLongMember 1 none).startElection
      (List.replicate 64 '1'.toUInt8)).2 = some "frame_id invalid" := by decide
  refine ⟨valid, refused, ?_⟩
  intro always
  have accepted := always decimalQueries sampleLongMember 1 none _
    (.startElection (List.replicate 64 '1'.toUInt8)) _ decimalQueries_readsUnsigned valid .start
    (show umbmpSha256TokenIsSafe _ = true by decide) (List.mem_singleton.mpr rfl)
  rw [AcceptedByPeers, refused] at accepted
  exact nomatch accepted.1

end Replica

end AgentC.EdgeConsensus
