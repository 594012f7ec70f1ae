import AgentC.Foundation.Bytes

/-! # Tokens of the edge consensus protocol

The id, digest and counter predicates of `core/src/agent_edge_interop.c`,
together with the trimming wrappers of `daemon/src/edge_consensus_member_ids.cpp`
and `daemon/src/edge_consensus_identity_tokens.cpp`. -/

namespace AgentC.EdgeConsensus

def uint64Max : UInt64 := 0xffffffffffffffff

/-- `SIZE_MAX`. Sizes are natural numbers; only the saturating counters below
look at this bound. -/
def sizeMax : Nat := 2 ^ 64 - 1

def maxIdLen : Nat := 128

def umbmpCharOk (c : UInt8) : Bool :=
  ('a'.toUInt8 ≤ c && c ≤ 'z'.toUInt8) ||
    ('A'.toUInt8 ≤ c && c ≤ 'Z'.toUInt8) ||
    ('0'.toUInt8 ≤ c && c ≤ '9'.toUInt8) ||
    c == '-'.toUInt8 || c == '_'.toUInt8 || c == '.'.toUInt8 || c == ':'.toUInt8

def hexCharOk (c : UInt8) : Bool :=
  ('0'.toUInt8 ≤ c && c ≤ '9'.toUInt8) ||
    ('a'.toUInt8 ≤ c && c ≤ 'f'.toUInt8) ||
    ('A'.toUInt8 ≤ c && c ≤ 'F'.toUInt8)

def trimCopy (text : Bytes) : Bytes :=
  trimBoth isSpace text

def umbmpIdIsSafe (token : Bytes) : Bool :=
  token.length != 0 && token.length ≤ maxIdLen && token.all umbmpCharOk

def sha256Prefix : Bytes := ascii "sha256:"

def umbmpSha256TokenIsSafe (token : Bytes) : Bool :=
  let digits :=
    if token.length > 7 && token.take 7 == sha256Prefix then token.drop 7 else token
  token.length != 0 && digits.length == 64 && digits.all hexCharOk

def memberNodeIdIsValidRaw (nodeId : Bytes) : Bool :=
  umbmpIdIsSafe nodeId

def clusterIdMatchesRaw (localId peerId : Bytes) : Bool :=
  umbmpIdIsSafe localId && umbmpIdIsSafe peerId && localId == peerId

def nodeIdMatchesRaw (localId peerId : Bytes) : Bool :=
  memberNodeIdIsValidRaw localId && memberNodeIdIsValidRaw peerId && localId == peerId

def decisionSha256MatchesRaw (localDigest peerDigest : Bytes) : Bool :=
  umbmpSha256TokenIsSafe localDigest && umbmpSha256TokenIsSafe peerDigest &&
    localDigest == peerDigest

/-! The daemon compares every token after trimming it. -/

def memberNodeIdIsValid (raw : Bytes) : Bool :=
  memberNodeIdIsValidRaw (trimCopy raw)

def memberNodeIdMatches (left right : Bytes) : Bool :=
  nodeIdMatchesRaw (trimCopy left) (trimCopy right)

def clusterIdMatches (left right : Bytes) : Bool :=
  clusterIdMatchesRaw (trimCopy left) (trimCopy right)

def sha256TokenMatches (left right : Bytes) : Bool :=
  decisionSha256MatchesRaw (trimCopy left) (trimCopy right)

/-- `agent_edge_consensus_decision_sha256_is_set`: some byte is not white space. -/
def decisionSha256IsSet (digest : Bytes) : Bool :=
  digest.any fun c => !isSpace c

def memberNodeIdsContains (haystack : List Bytes) (needle : Bytes) : Bool :=
  memberNodeIdIsValid needle && haystack.any fun item => memberNodeIdMatches item needle

def appendMemberNodeIdIfUnique (out : List Bytes) (raw : Bytes) : List Bytes :=
  let nodeId := trimCopy raw
  if !memberNodeIdIsValid nodeId then out
  else if memberNodeIdsContains out nodeId then out
  else out ++ [nodeId]

def normalizeMemberNodeIds (raw : List Bytes) : List Bytes :=
  raw.foldl appendMemberNodeIdIfUnique []

def normalizePeerNodeIds (raw : List Bytes) (selfNodeId : Bytes) : List Bytes :=
  raw.foldl (fun out item =>
    let nodeId := trimCopy item
    if !memberNodeIdIsValid nodeId then out
    else if memberNodeIdMatches nodeId selfNodeId then out
    else if memberNodeIdsContains out nodeId then out
    else out ++ [nodeId]) []

/-- `edge_consensus_normalize_member_node_id_set`; a `std::set` of ids is the
finite set of its elements. -/
def normalizeMemberNodeIdSet (raw : List Bytes) (selfNodeId : Bytes)
    (forceSelf : Bool) : Finset Bytes :=
  let forced : Finset Bytes :=
    if forceSelf && memberNodeIdIsValid selfNodeId then {trimCopy selfNodeId} else ∅
  forced ∪ (normalizeMemberNodeIds raw).toFinset

def clusterSizeNormalize (clusterSize : Nat) : Nat :=
  if clusterSize < 1 then 1 else clusterSize

def clusterSizeFromPeerCount (peerCount : Nat) : Nat :=
  if peerCount = sizeMax then sizeMax else clusterSizeNormalize (peerCount + 1)

def clusterSizeFromMemberCount (memberCount : Nat) : Nat :=
  clusterSizeNormalize memberCount

def quorumForClusterSize (clusterSize : Nat) : Nat :=
  clusterSizeNormalize clusterSize / 2 + 1

def hasQuorumVotes (clusterSize voteCount : Nat) : Bool :=
  quorumForClusterSize clusterSize ≤ voteCount

def voteCountWithSelf (grantWitnessCount : Nat) : Nat :=
  if grantWitnessCount = sizeMax then sizeMax else grantWitnessCount + 1

def nextTerm (currentTerm : UInt64) : UInt64 :=
  if currentTerm = uint64Max then uint64Max else currentTerm + 1

def nextFrameSequence (currentFrameSequence : UInt64) : UInt64 :=
  if currentFrameSequence = uint64Max then uint64Max else currentFrameSequence + 1

def incomingTermAdvances (currentTerm incomingTerm : UInt64) : Bool :=
  currentTerm < incomingTerm

def incomingTermIsStale (currentTerm incomingTerm : UInt64) : Bool :=
  incomingTerm < currentTerm

theorem isSpace_of_umbmpCharOk : ∀ c : UInt8, umbmpCharOk c = true → isSpace c = false := by
  apply forall_byte
  decide +kernel

theorem trimCopy_of_safe {token : Bytes} (safe : umbmpIdIsSafe token = true) :
    trimCopy token = token := by
  apply trimBoth_eq_self
  intro byte member
  simp only [umbmpIdIsSafe, Bool.and_eq_true, List.all_eq_true] at safe
  exact isSpace_of_umbmpCharOk byte (safe.2 byte member)

theorem ne_nil_of_safe {token : Bytes} (safe : umbmpIdIsSafe token = true) : token ≠ [] := by
  intro empty
  subst empty
  simp [umbmpIdIsSafe] at safe

variable {left right : Bytes}

theorem nodeIdMatchesRaw_iff :
    nodeIdMatchesRaw left right = true ↔ umbmpIdIsSafe left = true ∧ left = right := by
  simp only [nodeIdMatchesRaw, memberNodeIdIsValidRaw, Bool.and_eq_true, beq_iff_eq]
  constructor
  · rintro ⟨⟨leftSafe, _⟩, equal⟩
    exact ⟨leftSafe, equal⟩
  · rintro ⟨leftSafe, rfl⟩
    exact ⟨⟨leftSafe, leftSafe⟩, rfl⟩

theorem memberNodeIdMatches_iff {left right : Bytes} : memberNodeIdMatches left right = true ↔
      umbmpIdIsSafe (trimCopy left) = true ∧ trimCopy left = trimCopy right :=
  nodeIdMatchesRaw_iff

@[simp] theorem sha256TokenMatches_nil_left (digest : Bytes) :
    sha256TokenMatches [] digest = false := by
  simp [sha256TokenMatches, decisionSha256MatchesRaw, trimCopy, trimBoth,
    umbmpSha256TokenIsSafe]

theorem lt_nextTerm {term : UInt64} (below : term ≠ uint64Max) : term < nextTerm term := by
  rw [nextTerm, if_neg below]
  rw [uint64Max] at below
  grind

theorem nextTerm_uint64Max : nextTerm uint64Max = uint64Max := by
  rw [nextTerm, if_pos rfl]

theorem voteCountWithSelf_le (count : Nat) : voteCountWithSelf count ≤ count + 1 := by
  unfold voteCountWithSelf
  split <;> omega

/-- Two sets of voters that each reach the quorum of one member set share a
member. -/
theorem quorums_intersect {members left right : Finset Bytes}
    (leftMembers : left ⊆ members) (rightMembers : right ⊆ members)
    (leftQuorum : quorumForClusterSize (clusterSizeFromMemberCount members.card) ≤ left.card)
    (rightQuorum : quorumForClusterSize (clusterSizeFromMemberCount members.card) ≤ right.card) :
    ∃ voter, voter ∈ left ∧ voter ∈ right := by
  have size : members.card ≤ clusterSizeNormalize (clusterSizeFromMemberCount members.card) := by
    unfold clusterSizeNormalize clusterSizeFromMemberCount clusterSizeNormalize
    split <;> [omega; exact Nat.le_refl _]
  have overlap : members.card < left.card + right.card := by
    simp only [quorumForClusterSize] at leftQuorum rightQuorum
    omega
  have union := Finset.card_le_card (Finset.union_subset leftMembers rightMembers)
  have split := Finset.card_union_add_card_inter left right
  have positive : 0 < (left ∩ right).card := by omega
  obtain ⟨voter, member⟩ := Finset.card_pos.mp positive
  exact ⟨voter, Finset.mem_inter.mp member⟩

@[simp] theorem trimCopy_trimCopy (text : Bytes) : trimCopy (trimCopy text) = trimCopy text :=
  trimBoth_trimBoth isSpace text

@[simp] theorem memberNodeIdIsValid_trimCopy (raw : Bytes) :
    memberNodeIdIsValid (trimCopy raw) = umbmpIdIsSafe (trimCopy raw) := by
  rw [memberNodeIdIsValid, trimCopy_trimCopy, memberNodeIdIsValidRaw]

def AllSafe (nodeIds : List Bytes) : Prop :=
  ∀ nodeId ∈ nodeIds, umbmpIdIsSafe nodeId = true

theorem memberNodeIdsContains_iff {nodeIds : List Bytes} {nodeId : Bytes} (safe : AllSafe nodeIds) :
    memberNodeIdsContains nodeIds nodeId = true ↔
      umbmpIdIsSafe (trimCopy nodeId) = true ∧ trimCopy nodeId ∈ nodeIds := by
  simp only [memberNodeIdsContains, memberNodeIdIsValid, memberNodeIdIsValidRaw, Bool.and_eq_true,
    List.any_eq_true, memberNodeIdMatches_iff]
  constructor
  · rintro ⟨valid, item, member, _, same⟩
    rw [trimCopy_of_safe (safe item member)] at same
    exact ⟨valid, same ▸ member⟩
  · rintro ⟨valid, member⟩
    have unchanged := trimCopy_of_safe valid
    exact ⟨valid, _, member, unchanged.symm ▸ valid, unchanged⟩

theorem mem_foldl_collect {collect : List Bytes → Bytes → List Bytes} (keeps : Bytes → Prop)
    (keepsSafe : ∀ nodeId, keeps nodeId → umbmpIdIsSafe nodeId = true)
    (step : ∀ out item nodeId, AllSafe out →
      (nodeId ∈ collect out item ↔ nodeId ∈ out ∨ keeps nodeId ∧ nodeId = trimCopy item))
    (raw out : List Bytes) (safe : AllSafe out) (nodeId : Bytes) : nodeId ∈ raw.foldl collect out ↔
      nodeId ∈ out ∨ ∃ item ∈ raw, keeps nodeId ∧ nodeId = trimCopy item := by
  induction raw generalizing out with
  | nil => simp
  | cons item rest induction =>
    have extended : AllSafe (collect out item) := by
      intro other member
      rcases (step out item other safe).mp member with held | kept
      · exact safe other held
      · exact keepsSafe other kept.1
    rw [List.foldl_cons, induction _ extended, step out item nodeId safe]
    simp only [List.mem_cons, exists_eq_or_imp, or_assoc]

theorem mem_normalizeMemberNodeIds (raw : List Bytes) (nodeId : Bytes) :
    nodeId ∈ normalizeMemberNodeIds raw ↔
      ∃ item ∈ raw, umbmpIdIsSafe nodeId = true ∧ nodeId = trimCopy item := by
  rw [normalizeMemberNodeIds, mem_foldl_collect (fun nodeId => umbmpIdIsSafe nodeId = true)
    (fun _ => id) _ raw [] (fun _ => nofun) nodeId]
  · simp
  · intro out item nodeId safe
    simp only [appendMemberNodeIdIfUnique, memberNodeIdIsValid_trimCopy]
    by_cases valid : umbmpIdIsSafe (trimCopy item) = true <;>
      by_cases held : memberNodeIdsContains out (trimCopy item) = true <;>
        grind [memberNodeIdsContains_iff safe, trimCopy_trimCopy]

theorem mem_normalizePeerNodeIds (raw : List Bytes) (selfNodeId nodeId : Bytes) :
    nodeId ∈ normalizePeerNodeIds raw selfNodeId ↔
      ∃ item ∈ raw, (umbmpIdIsSafe nodeId = true ∧ nodeId ≠ trimCopy selfNodeId) ∧
        nodeId = trimCopy item := by
  rw [normalizePeerNodeIds, mem_foldl_collect
    (fun nodeId => umbmpIdIsSafe nodeId = true ∧ nodeId ≠ trimCopy selfNodeId)
    (fun _ => And.left) _ raw [] (fun _ => nofun) nodeId]
  · simp
  · intro out item nodeId safe
    simp only [memberNodeIdIsValid_trimCopy]
    have own := @memberNodeIdMatches_iff (trimCopy item) selfNodeId
    rw [trimCopy_trimCopy] at own
    by_cases valid : umbmpIdIsSafe (trimCopy item) = true <;>
      by_cases held : memberNodeIdsContains out (trimCopy item) = true <;>
        grind [memberNodeIdsContains_iff safe, trimCopy_trimCopy]

end AgentC.EdgeConsensus
