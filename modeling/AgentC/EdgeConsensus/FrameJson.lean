import AgentC.EdgeConsensus.Frame
import AgentC.Json.Values

/-! # Consensus frames as JSON

The writers and readers of `daemon/src/edge_node_consensus.cpp`. The writer
leaves out fields that are empty, and the reader trims the texts, supplies the
defaults and checks the frame again. -/

namespace AgentC.EdgeConsensus

open Json (Tree)

/-- What the JSON library answers about a number: the value of each `is…` query
that succeeds. A double that is not negative is given as it converts. -/
structure NumberQueries where
  uint64 : Bytes → Option UInt64
  int64 : Bytes → Option Int
  uint : Bytes → Option UInt64
  int : Bytes → Option Int
  double : Bytes → Option (Option UInt64)

/-- A `Json::UInt64` reads back as the number it was made of. -/
def NumberQueries.ReadsUnsigned (numbers : NumberQueries) : Prop :=
  ∀ value : UInt64, numbers.uint64 (decimal value.toNat) = some value

def jsonUInt64 (value : UInt64) : Tree :=
  .number (decimal value.toNat)

def nonnegative (value : Int) : Option UInt64 :=
  if value < 0 then none else some (UInt64.ofNat value.toNat)

def jsonGetU64Nonneg (numbers : NumberQueries) (root : Tree) (key : Bytes) : Option UInt64 :=
  match root.member key with
  | some (.number token) =>
    match numbers.uint64 token with
    | some value => some value
    | none =>
      match numbers.int64 token with
      | some value => nonnegative value
      | none =>
        match numbers.uint token with
        | some value => some value
        | none =>
          match numbers.int token with
          | some value => nonnegative value
          | none => (numbers.double token).getD none
  | _ => none

/-! Each record lists its members with their values, a member that is left out
without one. -/

def epochsMembers (epochs : Epochs) : List (Bytes × Option Tree) :=
  [(ascii "trust_roots_epoch", some (jsonUInt64 epochs.trustRootsEpoch)),
    (ascii "revocations_epoch", some (jsonUInt64 epochs.revocationsEpoch)),
    (ascii "cert_roots_epoch", some (jsonUInt64 epochs.certRootsEpoch))]

def epochsToJson (epochs : Epochs) : Tree :=
  .ofOptionalMembers (epochsMembers epochs)

def nonemptyText (text : Bytes) : Option Tree :=
  if text.isEmpty then none else some (.string text)

def identityMembers (identity : Identity) : List (Bytes × Option Tree) :=
  [(ascii "cluster_id", some (.string identity.clusterId)),
    (ascii "node_id", some (.string identity.nodeId)),
    (ascii "manifest_sha256", nonemptyText identity.manifestSha256),
    (ascii "membership_epoch", some (jsonUInt64 identity.membershipEpoch)),
    (ascii "trust_epochs", some (epochsToJson identity.trustEpochs))]

def identityToJson (identity : Identity) : Tree :=
  .ofOptionalMembers (identityMembers identity)

def grantedToJson (frame : Frame) : Option Tree :=
  if frame.kind = kindVoteGrant then some (.bool frame.granted) else none

def witnessesToJson (witnesses : List Identity) : Option Tree :=
  if witnesses.isEmpty then none else some (.array (witnesses.map identityToJson))

def frameMembers (frame : Frame) : List (Bytes × Option Tree) :=
  [(ascii "schema", some (.string frame.schema)),
    (ascii "frame_id", some (.string frame.frameId)),
    (ascii "kind", some (.string frame.kind)),
    (ascii "term", some (jsonUInt64 frame.term)),
    (ascii "decision_sha256", nonemptyText frame.decisionSha256),
    (ascii "candidate_node_id", nonemptyText frame.candidateNodeId),
    (ascii "leader_node_id", nonemptyText frame.leaderNodeId),
    (ascii "granted", grantedToJson frame),
    (ascii "from", some (identityToJson frame.sender)),
    (ascii "vote_witnesses", witnessesToJson frame.voteWitnesses)]

def frameToJson (frame : Frame) : Tree :=
  .ofOptionalMembers (frameMembers frame)

def presentMember (root : Tree) (key : String) : Option Tree :=
  match root.member (ascii key) with
  | some .null => none
  | found => found

def parseNonemptyString (root : Tree) (key : String) : Except String Bytes :=
  match root.member (ascii key) with
  | some (.string text) =>
    if (trimCopy text).isEmpty then .error (key ++ " must be a non-empty string")
    else .ok (trimCopy text)
  | _ => .error (key ++ " must be a non-empty string")

def sha256TokenIsValid (raw : Bytes) : Bool :=
  umbmpSha256TokenIsSafe (trimCopy raw)

def parseOptionalSha256 (root : Tree) (key : String) : Except String Bytes :=
  match presentMember root key with
  | none => .ok []
  | some (.string text) =>
    if (trimCopy text).isEmpty then .ok []
    else if !sha256TokenIsValid (trimCopy text) then
      .error (key ++ " must be a sha256 token")
    else .ok (trimCopy text)
  | some _ => .error (key ++ " must be a string")

def parseOptionalNodeId (root : Tree) (key : String) : Except String Bytes :=
  match presentMember root key with
  | none => .ok []
  | some _ => parseNonemptyString root key

def parseGranted (root : Tree) : Except String Bool :=
  match presentMember root "granted" with
  | none => .ok false
  | some (.bool granted) => .ok granted
  | some _ => .error "granted must be bool"

/-- `parse_identity_like` -/
def identityChecked (identity : Identity) : Except String Identity :=
  if identityValidate identity = .ok then .ok identity
  else .error (identityValidate identity).error

section Readers

variable (numbers : NumberQueries)

def epochsFromJson (root : Tree) : Except String Epochs :=
  if !root.isObject then .error "trust_epochs must be an object"
  else
    match jsonGetU64Nonneg numbers root (ascii "trust_roots_epoch"),
      jsonGetU64Nonneg numbers root (ascii "revocations_epoch"),
      jsonGetU64Nonneg numbers root (ascii "cert_roots_epoch") with
    | some trustRoots, some revocations, some certRoots =>
      .ok ⟨trustRoots, revocations, certRoots⟩
    | _, _, _ => .error "trust_epochs fields must be uint64"

def parseMembershipEpoch (root : Tree) : Except String UInt64 :=
  match presentMember root "membership_epoch" with
  | none => .ok 0
  | some _ =>
    match jsonGetU64Nonneg numbers root (ascii "membership_epoch") with
    | some epoch => .ok epoch
    | none => .error "membership_epoch must be uint64"

def parseTrustEpochs (root : Tree) : Except String Epochs :=
  match root.member (ascii "trust_epochs") with
  | none => .error "trust_epochs missing or invalid"
  | some epochs => epochsFromJson numbers epochs

def identityFromJson (root : Tree) : Except String Identity :=
  if !root.isObject then .error "identity must be an object"
  else do
    let clusterId ← parseNonemptyString root "cluster_id"
    let nodeId ← parseNonemptyString root "node_id"
    let manifestSha256 ← parseOptionalSha256 root "manifest_sha256"
    let membershipEpoch ← parseMembershipEpoch numbers root
    let trustEpochs ← parseTrustEpochs numbers root
    identityChecked ⟨clusterId, nodeId, manifestSha256, membershipEpoch, trustEpochs⟩

def parseTerm (root : Tree) : Except String UInt64 :=
  match jsonGetU64Nonneg numbers root (ascii "term") with
  | some term => .ok term
  | none => .error "term must be uint64"

def parseSender (root : Tree) : Except String Identity :=
  match root.member (ascii "from") with
  | none => .error "from missing or invalid"
  | some sender => identityFromJson numbers sender

def witnessesFromItems : List Tree → Except String (List Identity)
  | [] => .ok []
  | item :: rest => do
    let witness ← identityFromJson numbers item
    let witnesses ← witnessesFromItems rest
    .ok (witness :: witnesses)

def parseVoteWitnesses (root : Tree) : Except String (List Identity) :=
  match presentMember root "vote_witnesses" with
  | none => .ok []
  | some (.array items) => witnessesFromItems numbers items
  | some _ => .error "vote_witnesses must be an array"

/-- The checks of `frame_is_valid` on the frame that was read. -/
def frameChecked (frame : Frame) : Except String Frame :=
  match frameIsValid frame with
  | none => .ok frame
  | some error => .error error

def frameFromJson (root : Tree) : Except String Frame :=
  if !root.isObject then .error "frame must be an object"
  else do
    let schema ← parseNonemptyString root "schema"
    let frameId ← parseNonemptyString root "frame_id"
    let kind ← parseNonemptyString root "kind"
    let term ← parseTerm numbers root
    let decisionSha256 ← parseOptionalSha256 root "decision_sha256"
    let candidateNodeId ← parseOptionalNodeId root "candidate_node_id"
    let leaderNodeId ← parseOptionalNodeId root "leader_node_id"
    let granted ← parseGranted root
    let sender ← parseSender numbers root
    let voteWitnesses ← parseVoteWitnesses numbers root
    frameChecked
      { schema, frameId, kind, term, decisionSha256, candidateNodeId, leaderNodeId, granted,
        sender, voteWitnesses }

end Readers

theorem hexCharOk_notSpace : ∀ c : UInt8, hexCharOk c = true → isSpace c = false := by
  apply forall_byte
  decide +kernel

variable {token : Bytes} {root : Tree} {key : String} {value : Option Tree}

theorem trimCopy_of_sha256Safe (safe : umbmpSha256TokenIsSafe token = true) :
    trimCopy token = token := by
  apply trimBoth_eq_self
  simp only [umbmpSha256TokenIsSafe, Bool.and_eq_true, List.all_eq_true] at safe
  intro byte member
  split at safe
  · next prefixed =>
    rw [beq_iff_eq] at prefixed
    rw [← List.take_append_drop 7 token, prefixed.2, List.mem_append] at member
    rcases member with marked | digit
    · have plain : ∀ mark ∈ sha256Prefix, isSpace mark = false :=
        @of_decide_eq_true _ (List.decidableBAll _ _) rfl
      exact plain byte marked
    · exact hexCharOk_notSpace byte (safe.2 byte digit)
  · exact hexCharOk_notSpace byte (safe.2 byte member)

theorem ne_nil_of_sha256Safe (safe : umbmpSha256TokenIsSafe token = true) : token ≠ [] := by
  intro empty
  subst empty
  simp [umbmpSha256TokenIsSafe] at safe

theorem parseNonemptyString_of_member {text : Bytes}
    (written : root.member (ascii key) = some (.string text)) (trimmed : trimCopy text = text)
    (nonempty : text ≠ []) : parseNonemptyString root key = .ok text := by
  rw [parseNonemptyString, written]
  simp [trimmed, nonempty]

theorem presentMember_of_member (written : root.member (ascii key) = value)
    (notNull : value ≠ some .null) : presentMember root key = value := by
  rw [presentMember, written]
  split
  · contradiction
  · rfl

theorem nonemptyText_of_ne {text : Bytes} (nonempty : text ≠ []) :
    nonemptyText text = some (.string text) := by
  simp [nonemptyText, nonempty]

theorem nonemptyText_ne_null (text : Bytes) : nonemptyText text ≠ some .null := by
  rw [nonemptyText]
  split <;> simp

theorem parseOptionalSha256_of_member (written : root.member (ascii key) = nonemptyText token)
    (valid : token = [] ∨ umbmpSha256TokenIsSafe token = true) :
    parseOptionalSha256 root key = .ok token := by
  rw [parseOptionalSha256, presentMember_of_member written (nonemptyText_ne_null token)]
  rcases valid with rfl | safe
  · rfl
  · have trimmed := trimCopy_of_sha256Safe safe
    have nonempty := ne_nil_of_sha256Safe safe
    rw [nonemptyText_of_ne nonempty]
    simp [trimmed, nonempty, sha256TokenIsValid, safe]

theorem parseOptionalNodeId_of_member {nodeId : Bytes}
    (written : root.member (ascii key) = nonemptyText nodeId)
    (valid : nodeId = [] ∨ memberNodeIdIsValidRaw nodeId = true) :
    parseOptionalNodeId root key = .ok nodeId := by
  rw [parseOptionalNodeId, presentMember_of_member written (nonemptyText_ne_null nodeId)]
  rcases valid with rfl | safe
  · rfl
  · have nonempty := ne_nil_of_safe safe
    rw [nonemptyText_of_ne nonempty] at written ⊢
    exact parseNonemptyString_of_member written (trimCopy_of_safe safe) nonempty

section RoundTrip

variable {numbers : NumberQueries}

variable {identity : Identity} {frame : Frame}

theorem jsonGetU64Nonneg_of_member (reads : numbers.ReadsUnsigned) {key : Bytes} {value : UInt64}
    (written : root.member key = some (jsonUInt64 value)) :
    jsonGetU64Nonneg numbers root key = some value := by
  rw [jsonGetU64Nonneg, written]
  simp only [jsonUInt64, reads value]

theorem isObject_ofOptionalMembers (members : List (Bytes × Option Tree)) :
    (Tree.ofOptionalMembers members).isObject = true :=
  Tree.isObject_ofMembers _

theorem member_epochsToJson {epochs : Epochs} {key : Bytes}
    (listed : (key, value) ∈ epochsMembers epochs) : (epochsToJson epochs).member key = value := by
  have distinct : [ascii "trust_roots_epoch", ascii "revocations_epoch",
      ascii "cert_roots_epoch"].Nodup := by decide
  exact Tree.member_ofOptionalMembers distinct listed

theorem epochsFromJson_epochsToJson (reads : numbers.ReadsUnsigned) (epochs : Epochs) :
    epochsFromJson numbers (epochsToJson epochs) = .ok epochs := by
  have field : ∀ key value, (key, some (jsonUInt64 value)) ∈ epochsMembers epochs →
      jsonGetU64Nonneg numbers (epochsToJson epochs) key = some value :=
    fun key value listed => jsonGetU64Nonneg_of_member reads (member_epochsToJson listed)
  rw [epochsFromJson, field (ascii "trust_roots_epoch") epochs.trustRootsEpoch,
    field (ascii "revocations_epoch") epochs.revocationsEpoch,
    field (ascii "cert_roots_epoch") epochs.certRootsEpoch]
  · rw [epochsToJson, isObject_ofOptionalMembers]
    rfl
  all_goals simp [epochsMembers]

theorem member_identityToJson {key : Bytes} (listed : (key, value) ∈ identityMembers identity) :
    (identityToJson identity).member key = value := by
  have distinct : [ascii "cluster_id", ascii "node_id", ascii "manifest_sha256",
      ascii "membership_epoch", ascii "trust_epochs"].Nodup := by decide
  exact Tree.member_ofOptionalMembers distinct listed

theorem manifestValid_of_identityValidate (valid : identityValidate identity = .ok) :
    identity.manifestSha256 = [] ∨ umbmpSha256TokenIsSafe identity.manifestSha256 = true := by
  simp only [identityValidate] at valid
  split at valid; · cases valid
  split at valid; · cases valid
  split at valid; · cases valid
  next manifest =>
    simpa [List.length_pos_iff, Classical.or_iff_not_imp_left] using manifest

theorem identityFromJson_identityToJson (reads : numbers.ReadsUnsigned)
    (valid : identityValidate identity = .ok) :
    identityFromJson numbers (identityToJson identity) = .ok identity := by
  have safe := identityValidate_eq_ok valid
  have clusterId : parseNonemptyString (identityToJson identity) "cluster_id" =
      .ok identity.clusterId :=
    parseNonemptyString_of_member (member_identityToJson (by simp [identityMembers]))
      (trimCopy_of_safe safe.1) (ne_nil_of_safe safe.1)
  have nodeId : parseNonemptyString (identityToJson identity) "node_id" = .ok identity.nodeId :=
    parseNonemptyString_of_member (member_identityToJson (by simp [identityMembers]))
      (trimCopy_of_safe safe.2) (ne_nil_of_safe safe.2)
  have manifest : parseOptionalSha256 (identityToJson identity) "manifest_sha256" =
      .ok identity.manifestSha256 :=
    parseOptionalSha256_of_member (member_identityToJson (by simp [identityMembers]))
      (manifestValid_of_identityValidate valid)
  have membershipEpoch : parseMembershipEpoch numbers (identityToJson identity) =
      .ok identity.membershipEpoch := by
    have written : (identityToJson identity).member (ascii "membership_epoch") =
        some (jsonUInt64 identity.membershipEpoch) :=
      member_identityToJson (by simp [identityMembers])
    rw [parseMembershipEpoch, presentMember_of_member written nofun,
      jsonGetU64Nonneg_of_member reads written]
  have trustEpochs : parseTrustEpochs numbers (identityToJson identity) =
      .ok identity.trustEpochs := by
    have written : (identityToJson identity).member (ascii "trust_epochs") =
        some (epochsToJson identity.trustEpochs) :=
      member_identityToJson (by simp [identityMembers])
    rw [parseTrustEpochs, written]
    exact epochsFromJson_epochsToJson reads identity.trustEpochs
  have object : (identityToJson identity).isObject = true := isObject_ofOptionalMembers _
  rw [identityFromJson, object, clusterId, nodeId, manifest, membershipEpoch, trustEpochs]
  exact if_pos valid

theorem witnessesFromItems_identityToJson (reads : numbers.ReadsUnsigned)
    {witnesses : List Identity} (valid : ∀ witness ∈ witnesses, identityValidate witness = .ok) :
    witnessesFromItems numbers (witnesses.map identityToJson) = .ok witnesses := by
  induction witnesses with
  | nil => rfl
  | cons witness rest induction =>
    rw [List.map_cons, witnessesFromItems,
      identityFromJson_identityToJson reads (valid witness List.mem_cons_self),
      induction fun other member => valid other (List.mem_cons_of_mem _ member)]
    rfl

theorem member_frameToJson {key : Bytes} (listed : (key, value) ∈ frameMembers frame) :
    (frameToJson frame).member key = value := by
  have distinct : [ascii "schema", ascii "frame_id", ascii "kind", ascii "term",
      ascii "decision_sha256", ascii "candidate_node_id", ascii "leader_node_id",
      ascii "granted", ascii "from", ascii "vote_witnesses"].Nodup := by decide
  exact Tree.member_ofOptionalMembers distinct listed

theorem parseGranted_frameToJson (granted : frame.kind ≠ kindVoteGrant → frame.granted = false) :
    parseGranted (frameToJson frame) = .ok frame.granted := by
  have written : (frameToJson frame).member (ascii "granted") = grantedToJson frame :=
    member_frameToJson (by simp [frameMembers])
  by_cases grant : frame.kind = kindVoteGrant
  · rw [grantedToJson, if_pos grant] at written
    rw [parseGranted, presentMember_of_member written nofun]
  · rw [grantedToJson, if_neg grant] at written
    rw [parseGranted, presentMember_of_member written nofun, granted grant]

theorem parseVoteWitnesses_frameToJson (reads : numbers.ReadsUnsigned)
    (valid : ∀ witness ∈ frame.voteWitnesses, identityValidate witness = .ok) :
    parseVoteWitnesses numbers (frameToJson frame) = .ok frame.voteWitnesses := by
  have written : (frameToJson frame).member (ascii "vote_witnesses") =
      witnessesToJson frame.voteWitnesses := member_frameToJson (by simp [frameMembers])
  rw [witnessesToJson] at written
  split at written
  · next none =>
    rw [parseVoteWitnesses, presentMember_of_member written nofun,
      List.isEmpty_iff.mp none]
  · rw [parseVoteWitnesses, presentMember_of_member written nofun]
    exact witnessesFromItems_identityToJson reads valid

theorem kind_plain {kind : Bytes} (valid : frameKindIsValid kind = true) :
    trimCopy kind = kind ∧ kind ≠ [] := by
  simp only [frameKindIsValid, Bool.or_eq_true, beq_iff_eq] at valid
  rcases valid with (rfl | rfl) | rfl <;> decide

/-- A frame that passes the receiver's checks is read back as it was written,
when only a grant is marked as granted and the ids it may name are ids. -/
theorem frameFromJson_frameToJson (reads : numbers.ReadsUnsigned) {frame : Frame}
    (valid : frameIsValid frame = none)
    (granted : frame.kind ≠ kindVoteGrant → frame.granted = false)
    (candidate : frame.candidateNodeId = [] ∨ memberNodeIdIsValidRaw frame.candidateNodeId = true)
    (leader : frame.leaderNodeId = [] ∨ memberNodeIdIsValidRaw frame.leaderNodeId = true) :
    frameFromJson numbers (frameToJson frame) = .ok frame := by
  have shaped := wellShaped_of_frameIsValid valid
  have schema : parseNonemptyString (frameToJson frame) "schema" = .ok frame.schema := by
    have plain : trimCopy frame.schema = frame.schema ∧ frame.schema ≠ [] := by
      rw [shaped.schema]
      decide
    exact parseNonemptyString_of_member (member_frameToJson (by simp [frameMembers]))
      plain.1 plain.2
  have frameId : parseNonemptyString (frameToJson frame) "frame_id" = .ok frame.frameId :=
    parseNonemptyString_of_member (member_frameToJson (by simp [frameMembers]))
      (trimCopy_of_safe shaped.frameId) (ne_nil_of_safe shaped.frameId)
  have kind : parseNonemptyString (frameToJson frame) "kind" = .ok frame.kind :=
    parseNonemptyString_of_member (member_frameToJson (by simp [frameMembers]))
      (kind_plain shaped.kind).1 (kind_plain shaped.kind).2
  have term : parseTerm numbers (frameToJson frame) = .ok frame.term := by
    have written : (frameToJson frame).member (ascii "term") = some (jsonUInt64 frame.term) :=
      member_frameToJson (by simp [frameMembers])
    rw [parseTerm, jsonGetU64Nonneg_of_member reads written]
  have decision : parseOptionalSha256 (frameToJson frame) "decision_sha256" =
      .ok frame.decisionSha256 :=
    parseOptionalSha256_of_member (member_frameToJson (by simp [frameMembers])) shaped.decision
  have candidateNodeId : parseOptionalNodeId (frameToJson frame) "candidate_node_id" =
      .ok frame.candidateNodeId :=
    parseOptionalNodeId_of_member (member_frameToJson (by simp [frameMembers])) candidate
  have leaderNodeId : parseOptionalNodeId (frameToJson frame) "leader_node_id" =
      .ok frame.leaderNodeId :=
    parseOptionalNodeId_of_member (member_frameToJson (by simp [frameMembers])) leader
  have sender : parseSender numbers (frameToJson frame) = .ok frame.sender := by
    have written : (frameToJson frame).member (ascii "from") =
        some (identityToJson frame.sender) := member_frameToJson (by simp [frameMembers])
    rw [parseSender, written]
    exact identityFromJson_identityToJson reads shaped.sender
  have witnesses := parseVoteWitnesses_frameToJson reads (witnessesValid_of_frameIsValid valid)
  have object : (frameToJson frame).isObject = true := isObject_ofOptionalMembers _
  have checked : frameChecked frame = .ok frame := by
    rw [frameChecked, valid]
  rw [frameFromJson, object, schema, frameId, kind, term, decision, candidateNodeId,
    leaderNodeId, parseGranted_frameToJson granted, sender, witnesses]
  exact checked

end RoundTrip

/-- The library on numbers made from unsigned integers. The queries after the
first are not reached for those. -/
def decimalQueries : NumberQueries where
  uint64 := fun token =>
    if digitsValue token < 2 ^ 64 then some (UInt64.ofNat (digitsValue token)) else none
  int64 := fun token => if digitsValue token < 2 ^ 63 then some (digitsValue token) else none
  uint := fun token =>
    if digitsValue token < 2 ^ 32 then some (UInt64.ofNat (digitsValue token)) else none
  int := fun token => if digitsValue token < 2 ^ 31 then some (digitsValue token) else none
  double := fun token =>
    if digitsValue token < 2 ^ 53 then some (some (UInt64.ofNat (digitsValue token))) else none

theorem decimalQueries_readsUnsigned : decimalQueries.ReadsUnsigned := by
  intro value
  simp only [decimalQueries, digitsValue_decimal, value.toNat_lt, if_true, UInt64.ofNat_toNat]

def sampleGrantFrame : Frame where
  frameId := ascii "a:vote_grant:1:b"
  kind := kindVoteGrant
  term := uint64Max
  decisionSha256 := List.replicate 64 '1'.toUInt8
  candidateNodeId := ascii "b"
  granted := true
  sender :=
    { clusterId := ascii "edge"
      nodeId := ascii "a"
      manifestSha256 := List.replicate 64 '2'.toUInt8
      membershipEpoch := uint64Max }

theorem frameFromJson_frameToJson_sample :
    frameFromJson decimalQueries (frameToJson sampleGrantFrame) = .ok sampleGrantFrame :=
  frameFromJson_frameToJson decimalQueries_readsUnsigned (by decide) (fun other => absurd rfl other)
    (.inr (by decide)) (.inl rfl)

end AgentC.EdgeConsensus
