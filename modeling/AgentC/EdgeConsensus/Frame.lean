import AgentC.EdgeConsensus.Tokens

/-! # Consensus identities and frames

The records of `daemon/src/edge_node_consensus.h` and the shape checks of
`core/src/agent_edge_interop.c`. The field `kind` stays a byte string, as the
frame carries it: a frame with any other text is refused by the shape check. -/

namespace AgentC.EdgeConsensus

structure Epochs where
  trustRootsEpoch : UInt64 := 0
  revocationsEpoch : UInt64 := 0
  certRootsEpoch : UInt64 := 0
deriving DecidableEq, Repr

structure Identity where
  clusterId : Bytes
  nodeId : Bytes
  manifestSha256 : Bytes := []
  membershipEpoch : UInt64 := 0
  trustEpochs : Epochs := {}
deriving DecidableEq, Repr

def frameSchemaV1 : Bytes := ascii "edge_node_consensus_frame_v1"

def kindVoteRequest : Bytes := ascii "vote_request"

def kindVoteGrant : Bytes := ascii "vote_grant"

def kindLeaderCommit : Bytes := ascii "leader_commit"

theorem kindVoteRequest_ne_kindVoteGrant : kindVoteRequest ≠ kindVoteGrant := by
  decide

theorem kindVoteRequest_ne_kindLeaderCommit : kindVoteRequest ≠ kindLeaderCommit := by
  decide

theorem kindVoteGrant_ne_kindLeaderCommit : kindVoteGrant ≠ kindLeaderCommit := by
  decide

structure Frame where
  schema : Bytes := frameSchemaV1
  frameId : Bytes
  kind : Bytes
  term : UInt64
  decisionSha256 : Bytes
  candidateNodeId : Bytes := []
  leaderNodeId : Bytes := []
  granted : Bool := false
  sender : Identity
  voteWitnesses : List Identity := []
deriving DecidableEq, Repr

inductive IdentityValidation
  | ok
  | clusterIdInvalid
  | nodeIdInvalid
  | manifestSha256Invalid
deriving DecidableEq, Repr

def IdentityValidation.error : IdentityValidation → String
  | .ok => ""
  | .clusterIdInvalid => "cluster_id invalid"
  | .nodeIdInvalid => "node_id invalid"
  | .manifestSha256Invalid => "manifest_sha256 invalid"

def identityValidate (identity : Identity) : IdentityValidation :=
  if !umbmpIdIsSafe identity.clusterId then .clusterIdInvalid
  else if !memberNodeIdIsValidRaw identity.nodeId then .nodeIdInvalid
  else if identity.manifestSha256.length > 0 &&
      !umbmpSha256TokenIsSafe identity.manifestSha256 then .manifestSha256Invalid
  else .ok

inductive FrameValidation
  | ok
  | schemaInvalid
  | kindInvalid
  | idInvalid
  | termInvalid
  | decisionSha256Invalid
  | fromClusterIdInvalid
  | fromNodeIdInvalid
  | fromManifestSha256Invalid
  | candidateNodeIdInvalid
  | leaderNodeIdInvalid
deriving DecidableEq, Repr

def FrameValidation.error : FrameValidation → String
  | .ok => ""
  | .schemaInvalid => "schema invalid"
  | .kindInvalid => "kind invalid"
  | .idInvalid => "frame_id invalid"
  | .termInvalid => "term must be >= 1"
  | .decisionSha256Invalid => "decision_sha256 invalid"
  | .fromClusterIdInvalid => "cluster_id invalid"
  | .fromNodeIdInvalid => "node_id invalid"
  | .fromManifestSha256Invalid => "manifest_sha256 invalid"
  | .candidateNodeIdInvalid => "candidate_node_id invalid"
  | .leaderNodeIdInvalid => "leader_node_id invalid"

def frameKindIsValid (kind : Bytes) : Bool :=
  kind == kindVoteRequest || kind == kindVoteGrant || kind == kindLeaderCommit

def frameValidateRoles (frame : Frame) : FrameValidation :=
  if (frame.kind == kindVoteRequest || frame.kind == kindVoteGrant) &&
      !memberNodeIdIsValidRaw frame.candidateNodeId then .candidateNodeIdInvalid
  else if frame.kind == kindLeaderCommit && !memberNodeIdIsValidRaw frame.leaderNodeId then
    .leaderNodeIdInvalid
  else .ok

def frameValidate (frame : Frame) : FrameValidation :=
  if frame.schema != frameSchemaV1 then .schemaInvalid
  else if !frameKindIsValid frame.kind then .kindInvalid
  else if !umbmpIdIsSafe frame.frameId then .idInvalid
  else if frame.term < 1 then .termInvalid
  else if frame.decisionSha256.length > 0 && !umbmpSha256TokenIsSafe frame.decisionSha256 then
    .decisionSha256Invalid
  else
    match identityValidate frame.sender with
    | .clusterIdInvalid => .fromClusterIdInvalid
    | .nodeIdInvalid => .fromNodeIdInvalid
    | .manifestSha256Invalid => .fromManifestSha256Invalid
    | .ok => frameValidateRoles frame

/-- `frame_is_valid`: the shape of the frame, then every witness in order. The
error text of the first failed check, or nothing. -/
def frameIsValid (frame : Frame) : Option String :=
  if frameValidate frame != .ok then some (frameValidate frame).error
  else
    (frame.voteWitnesses.find? fun witness => identityValidate witness != .ok).map
      fun witness => (identityValidate witness).error

/-- `consensus_frame_id`: the formatted id, or the empty string when the parts
are not safe or the result is longer than an id may be. -/
def consensusFrameId (nodeId kind : Bytes) (number : UInt64) (suffix : Bytes := []) : Bytes :=
  let numberText := decimal number.toNat
  let need := nodeId.length + 1 + kind.length + 1 + numberText.length +
    (if suffix.length > 0 then 1 + suffix.length else 0)
  let formatted := nodeId ++ ascii ":" ++ kind ++ ascii ":" ++ numberText ++
    (if suffix.length > 0 then ascii ":" ++ suffix else [])
  if !memberNodeIdIsValidRaw nodeId then []
  else if !frameKindIsValid kind then []
  else if suffix.length > 0 && !memberNodeIdIsValidRaw suffix then []
  else if need > maxIdLen then []
  else if !umbmpIdIsSafe formatted then []
  else formatted

example : consensusFrameId (ascii "node-a") kindVoteGrant 12 (ascii "node-b") =
    ascii "node-a:vote_grant:12:node-b" := by decide

theorem identityValidate_eq_ok {identity : Identity} (valid : identityValidate identity = .ok) :
    umbmpIdIsSafe identity.clusterId = true ∧ umbmpIdIsSafe identity.nodeId = true := by
  unfold identityValidate at valid
  split at valid
  · cases valid
  · next clusterSafe =>
    split at valid
    · cases valid
    · next nodeSafe =>
      simp only [Bool.not_eq_true', Bool.not_eq_false] at clusterSafe nodeSafe
      exact ⟨clusterSafe, nodeSafe⟩

variable {frame : Frame}

theorem frameIsValid_eq_none_iff : frameIsValid frame = none ↔ frameValidate frame = .ok ∧
        ∀ witness ∈ frame.voteWitnesses, identityValidate witness = .ok := by
  rw [frameIsValid]
  split
  · next shape =>
    have shape : frameValidate frame ≠ .ok := by simpa using shape
    simp [shape]
  · next shape =>
    have shape : frameValidate frame = .ok := by simpa using shape
    simp [shape]

theorem frameValidate_of_frameIsValid (valid : frameIsValid frame = none) :
    frameValidate frame = .ok :=
  (frameIsValid_eq_none_iff.mp valid).1

theorem witnessesValid_of_frameIsValid (valid : frameIsValid frame = none) :
    ∀ witness ∈ frame.voteWitnesses, identityValidate witness = .ok :=
  (frameIsValid_eq_none_iff.mp valid).2

/-- The shape a valid frame has. -/
structure WellShaped (frame : Frame) : Prop where
  schema : frame.schema = frameSchemaV1
  kind : frameKindIsValid frame.kind = true
  frameId : umbmpIdIsSafe frame.frameId = true
  term : ¬frame.term < 1
  decision : frame.decisionSha256 = [] ∨ umbmpSha256TokenIsSafe frame.decisionSha256 = true
  sender : identityValidate frame.sender = .ok
  roles : frameValidateRoles frame = .ok

theorem digestInvalid_iff {digest : Bytes} :
    (digest.length > 0 && !umbmpSha256TokenIsSafe digest) = true ↔
      ¬(digest = [] ∨ umbmpSha256TokenIsSafe digest = true) := by
  simp [List.length_pos_iff]

theorem frameValidate_eq_ok_iff : frameValidate frame = .ok ↔ WellShaped frame := by
  rw [frameValidate]
  split
  · next fault => exact ⟨nofun, fun shaped => absurd shaped.schema (bne_iff_ne.mp fault)⟩
  split
  · next fault => exact ⟨nofun, fun shaped => by simp [shaped.kind] at fault⟩
  split
  · next fault => exact ⟨nofun, fun shaped => by simp [shaped.frameId] at fault⟩
  split
  · next fault => exact ⟨nofun, fun shaped => absurd fault shaped.term⟩
  split
  · next fault => exact ⟨nofun, fun shaped => absurd shaped.decision (digestInvalid_iff.mp fault)⟩
  next schema kind frameId term decision =>
    cases identity : identityValidate frame.sender with
    | ok =>
      refine ⟨fun roles => ⟨?_, ?_, ?_, term, ?_, identity, roles⟩, WellShaped.roles⟩
      · simpa using schema
      · simpa using kind
      · simpa using frameId
      · exact Decidable.not_not.mp (mt digestInvalid_iff.mpr decision)
    | clusterIdInvalid => exact ⟨nofun, fun shaped => by simp [shaped.sender] at identity⟩
    | nodeIdInvalid => exact ⟨nofun, fun shaped => by simp [shaped.sender] at identity⟩
    | manifestSha256Invalid => exact ⟨nofun, fun shaped => by simp [shaped.sender] at identity⟩

theorem wellShaped_of_frameIsValid (valid : frameIsValid frame = none) : WellShaped frame :=
  frameValidate_eq_ok_iff.mp (frameValidate_of_frameIsValid valid)

theorem senderSafe_of_frameIsValid (valid : frameIsValid frame = none) :
    umbmpIdIsSafe frame.sender.nodeId = true :=
  (identityValidate_eq_ok (wellShaped_of_frameIsValid valid).sender).2

theorem candidateSafe_of_frameIsValid (valid : frameIsValid frame = none)
    (kind : frame.kind = kindVoteRequest ∨ frame.kind = kindVoteGrant) :
    umbmpIdIsSafe frame.candidateNodeId = true := by
  have roles := (wellShaped_of_frameIsValid valid).roles
  by_contra unsafeId
  rw [Bool.not_eq_true] at unsafeId
  have isVote : (frame.kind == kindVoteRequest || frame.kind == kindVoteGrant) = true := by
    rcases kind with equal | equal <;> simp [equal]
  simp [frameValidateRoles, isVote, memberNodeIdIsValidRaw, unsafeId] at roles

theorem kind_of_frameIsValid (valid : frameIsValid frame = none)
    (notRequest : frame.kind ≠ kindVoteRequest) (notGrant : frame.kind ≠ kindVoteGrant) :
    frame.kind = kindLeaderCommit := by
  have kinds := (wellShaped_of_frameIsValid valid).kind
  simpa [frameKindIsValid, notRequest, notGrant] using kinds

theorem leaderSafe_of_frameIsValid (valid : frameIsValid frame = none)
    (kind : frame.kind = kindLeaderCommit) : umbmpIdIsSafe frame.leaderNodeId = true := by
  have roles := (wellShaped_of_frameIsValid valid).roles
  by_contra unsafeId
  rw [Bool.not_eq_true] at unsafeId
  have notVote : (kindLeaderCommit == kindVoteRequest || kindLeaderCommit == kindVoteGrant) =
      false := by decide
  simp [frameValidateRoles, kind, notVote, memberNodeIdIsValidRaw, unsafeId] at roles

end AgentC.EdgeConsensus
