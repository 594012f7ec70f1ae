import AgentC.EdgeConsensus.Election
import AgentC.EdgeConsensus.EmittedFrames
import AgentC.EdgeConsensus.FrameIdTexts

/-! # Frames and their ids

Whether a frame id names one message. Replicas exchange frames with each other and may
also be given frames that none of them sent. -/

namespace AgentC.EdgeConsensus

/-- The replicas of a cluster, every frame one of them emitted and the frames that each
was given. -/
structure Exchange (Node : Type) where
  replica : Node → Replica
  sent : List (Node × Frame)
  delivered : Node → List Frame

namespace Exchange

variable {Node : Type} [DecidableEq Node]

def givenAfter (given : List Frame) : Replica.Call → List Frame
  | .handleFrame frame => given ++ [frame]
  | _ => given

def call (exchange : Exchange Node) (node : Node) (call : Replica.Call) : Exchange Node where
  replica := Function.update exchange.replica node ((exchange.replica node).call call).1
  sent := exchange.sent ++ ((exchange.replica node).call call).2.map (Prod.mk node)
  delivered := Function.update exchange.delivered node (givenAfter (exchange.delivered node) call)

section Call

variable (exchange : Exchange Node) {node other : Node} (call : Replica.Call)

theorem replica_call_self : (exchange.call node call).replica node =
    ((exchange.replica node).call call).1 :=
  Function.update_self ..

theorem replica_call_other (different : other ≠ node) :
    (exchange.call node call).replica other = exchange.replica other :=
  Function.update_of_ne different ..

theorem delivered_call_self : (exchange.call node call).delivered node =
    givenAfter (exchange.delivered node) call :=
  Function.update_self ..

theorem delivered_call_other (different : other ≠ node) :
    (exchange.call node call).delivered other = exchange.delivered other :=
  Function.update_of_ne different ..

end Call

/-- A call after which no term and no frame counter is at its end. -/
structure Called (exchange : Exchange Node) (node : Node) (call : Replica.Call)
    (next : Exchange Node) : Prop where
  called : next = exchange.call node call
  terms : ∀ other, (next.replica other).currentTerm ≠ uint64Max
  counters : ∀ other, (next.replica other).frameSeq ≠ uint64Max

def Run : Exchange Node → Exchange Node → Prop :=
  Relation.ReflTransGen fun exchange next => ∃ node call, exchange.Called node call next

end Exchange

structure SameMessage (left right : Frame) : Prop where
  sender : left.sender = right.sender
  kind : left.kind = right.kind
  candidate : left.candidateNodeId = right.candidateNodeId
  leader : left.leaderNodeId = right.leaderNodeId

def Identified (left right : Frame) : Prop :=
  left.frameId = right.frameId → left.frameId ≠ [] → left.term = right.term →
    SameMessage left right

theorem Identified.symm {left right : Frame} (identified : Identified left right) :
    Identified right left := by
  intro same nonempty term
  have message := identified same.symm (same ▸ nonempty) term.symm
  exact ⟨message.sender.symm, message.kind.symm, message.candidate.symm, message.leader.symm⟩

theorem Identified.refl (frame : Frame) : Identified frame frame :=
  fun _ _ _ => ⟨rfl, rfl, rfl, rfl⟩

namespace Cluster

variable {Node : Type} (cluster : Cluster Node)

def begin (clusterSize : Node → Nat) : Exchange Node where
  replica := (cluster.initial clusterSize).replica
  sent := []
  delivered _ := []

/-! ## Ambiguous ids -/

/-- What can follow the node's id in the id of a frame of this term. -/
inductive EndsId (node : Node) (term : UInt64) : Bytes → Prop
  | numbered {kind : Bytes} {number : UInt64}
      (isNumbered : kind = kindVoteRequest ∨ kind = kindLeaderCommit) :
      EndsId node term (frameIdEnding kind number [])
  | granted {candidate : Bytes} (member : candidate ∈ cluster.membersOf node) :
      EndsId node term (frameIdEnding kindVoteGrant term candidate)
  | won : EndsId node term (frameIdEnding kindLeaderCommit term (cluster.nodeId node))

/-- The id of another node begins with this node's id, the kind and the term, and what
is behind the term, with a node id at its end, can be read as the rest of the other id
followed by the ending of a frame id in the same term. -/
def Ambiguous (node : Node) (kind : Bytes) (term : UInt64) (suffix : Bytes) : Prop :=
  ∃ other middle ending, other ≠ node ∧
    cluster.nodeId other = cluster.nodeId node ++
      colon :: (kind ++ colon :: (decimal term.toNat ++ middle)) ∧
    colon :: suffix = middle ++ colon :: ending ∧ cluster.EndsId other term ending

/-- No vote is granted and no election won under an ambiguous id. -/
def Clear (replica : Replica) (node : Node) : Replica.Call → Prop
  | .handleFrame frame =>
    (frame.kind = kindVoteRequest → replica.voteRequestGrants frame = true →
      ¬cluster.Ambiguous node kindVoteGrant frame.term frame.candidateNodeId) ∧
    (frame.kind = kindVoteGrant →
      (replica.maybeResetForNewTerm frame.term).voteGrantCounts frame = true →
      ((replica.maybeResetForNewTerm frame.term).countGrant frame).hasQuorum = true →
      ¬cluster.Ambiguous node kindLeaderCommit frame.term (cluster.nodeId node))
  | _ => True

def ClearRun [DecidableEq Node] : Exchange Node → Exchange Node → Prop :=
  Relation.ReflTransGen fun exchange next =>
    ∃ node call, exchange.Called node call next ∧
      cluster.Clear (exchange.replica node) node call

/-! ## What a frame id was put together from -/

inductive Origin (node : Node) (numbers : UInt64 → Prop) (frame : Frame) :
    UInt64 → Bytes → Prop
  | numbered {number : UInt64}
      (isNumbered : frame.kind = kindVoteRequest ∨ frame.kind = kindLeaderCommit)
      (used : numbers number) : Origin node numbers frame number []
  | granted (kind : frame.kind = kindVoteGrant) (leader : frame.leaderNodeId = [])
      (named : frame.candidateNodeId ≠ []) (member : frame.candidateNodeId ∈ cluster.membersOf node)
      (clear : ¬cluster.Ambiguous node kindVoteGrant frame.term frame.candidateNodeId) :
      Origin node numbers frame frame.term frame.candidateNodeId
  | won (kind : frame.kind = kindLeaderCommit) (candidate : frame.candidateNodeId = [])
      (leader : frame.leaderNodeId = cluster.nodeId node) (named : cluster.nodeId node ≠ [])
      (clear : ¬cluster.Ambiguous node kindLeaderCommit frame.term (cluster.nodeId node)) :
      Origin node numbers frame frame.term (cluster.nodeId node)

structure EmittedBy (node : Node) (numbers : UInt64 → Prop) (frame : Frame) (number : UInt64)
    (suffix : Bytes) : Prop where
  sender : frame.sender = cluster.selfIdentity node
  id : frame.frameId = consensusFrameId (cluster.nodeId node) frame.kind number suffix
  origin : cluster.Origin node numbers frame number suffix

variable {cluster} {node other : Node} {numbers otherNumbers : UInt64 → Prop}
  {frame otherFrame : Frame} {number otherNumber : UInt64} {suffix otherSuffix : Bytes}

theorem Origin.mono (origin : cluster.Origin node numbers frame number suffix)
    (more : ∀ number, numbers number → otherNumbers number) :
    cluster.Origin node otherNumbers frame number suffix := by
  cases origin with
  | numbered isNumbered used => exact .numbered isNumbered (more _ used)
  | granted kind leader named member clear => exact .granted kind leader named member clear
  | won kind candidate leader named clear => exact .won kind candidate leader named clear

theorem Origin.endsId (origin : cluster.Origin node numbers frame number suffix) :
    cluster.EndsId node frame.term (frameIdEnding frame.kind number suffix) := by
  cases origin with
  | numbered isNumbered used => exact .numbered isNumbered
  | granted kind leader named member clear => exact kind ▸ .granted member
  | won kind candidate leader named clear => exact kind ▸ .won

theorem Origin.clear (origin : cluster.Origin node numbers frame number suffix)
    (suffixed : suffix ≠ []) :
    number = frame.term ∧ ¬cluster.Ambiguous node frame.kind frame.term suffix := by
  cases origin with
  | numbered => exact absurd rfl suffixed
  | granted kind leader named member clear => exact ⟨rfl, kind ▸ clear⟩
  | won kind candidate leader named clear => exact ⟨rfl, kind ▸ clear⟩

namespace EmittedBy

theorem text (emitted : cluster.EmittedBy node numbers frame number suffix)
    (nonempty : frame.frameId ≠ []) : frameKindIsValid frame.kind = true ∧
      frame.frameId = cluster.nodeId node ++ colon :: frameIdEnding frame.kind number suffix := by
  rw [emitted.id] at nonempty ⊢
  exact consensusFrameId_text nonempty

theorem differs_of_shorter (emitted : cluster.EmittedBy node numbers frame number suffix)
    (otherEmitted : cluster.EmittedBy other otherNumbers otherFrame otherNumber otherSuffix)
    (different : other ≠ node)
    (shorter : (cluster.nodeId node).length < (cluster.nodeId other).length)
    (nonempty : frame.frameId ≠ []) (term : frame.term = otherFrame.term) :
    frame.frameId ≠ otherFrame.frameId := by
  intro same
  have text := emitted.text nonempty
  have otherText := otherEmitted.text (same ▸ nonempty)
  have texts := text.2.symm.trans (same.trans otherText.2)
  rcases longer_of_same text.1 otherText.1 shorter texts with ⟨suffixed, middle, longer, rest⟩
  have clear := emitted.origin.clear suffixed
  rw [clear.1] at longer
  refine clear.2 ⟨other, middle, _, different, longer, rest, ?_⟩
  rw [term]
  exact otherEmitted.origin.endsId

theorem identified_of_different (emitted : cluster.EmittedBy node numbers frame number suffix)
    (otherEmitted : cluster.EmittedBy other otherNumbers otherFrame otherNumber otherSuffix)
    (different : other ≠ node) : Identified frame otherFrame := by
  intro same nonempty term
  rcases Nat.lt_trichotomy (cluster.nodeId node).length (cluster.nodeId other).length with
    shorter | equal | longer
  · exact absurd same (emitted.differs_of_shorter otherEmitted different shorter nonempty term)
  · have text := emitted.text nonempty
    have otherText := otherEmitted.text (same ▸ nonempty)
    have ids := (List.append_inj (text.2.symm.trans (same.trans otherText.2)) equal).1
    exact absurd (cluster.distinct (congrArg trimCopy ids.symm)) different
  · exact absurd same.symm
      (otherEmitted.differs_of_shorter emitted different.symm longer (same ▸ nonempty) term.symm)

theorem identified_of_same (emitted : cluster.EmittedBy node numbers frame number suffix)
    (otherEmitted : cluster.EmittedBy node otherNumbers otherFrame otherNumber otherSuffix)
    (fresh : ∀ used, numbers used → ¬otherNumbers used) : Identified frame otherFrame := by
  intro same nonempty term
  have text := emitted.text nonempty
  have otherText := otherEmitted.text (same ▸ nonempty)
  have endings := (List.cons.inj (List.append_cancel_left
    (text.2.symm.trans (same.trans otherText.2)))).2
  rcases frameIdEnding_injective (noColon_kind text.1) (noColon_kind otherText.1) endings with
    ⟨kinds, numbersEq, suffixes⟩
  suffices roles : frame.candidateNodeId = otherFrame.candidateNodeId ∧
      frame.leaderNodeId = otherFrame.leaderNodeId from
    ⟨emitted.sender.trans otherEmitted.sender.symm, kinds, roles.1, roles.2⟩
  cases emitted.origin with
  | numbered isNumbered used =>
    cases otherEmitted.origin with
    | numbered otherIsNumbered otherUsed => exact absurd (numbersEq ▸ otherUsed) (fresh _ used)
    | granted kind leader named member clear => exact absurd suffixes.symm named
    | won kind candidate leader named clear => exact absurd suffixes.symm named
  | granted kind leader named member clear =>
    cases otherEmitted.origin with
    | numbered => exact absurd suffixes named
    | granted otherKind otherLeader otherNamed otherMember otherClear =>
      exact ⟨suffixes, leader.trans otherLeader.symm⟩
    | won otherKind candidate otherLeader otherNamed otherClear =>
      exact absurd (kind.symm.trans (kinds.trans otherKind)) kindVoteGrant_ne_kindLeaderCommit
  | won kind candidate leader named clear =>
    cases otherEmitted.origin with
    | numbered => exact absurd suffixes named
    | granted otherKind otherLeader otherNamed otherMember otherClear =>
      exact absurd (otherKind.symm.trans (kinds.symm.trans kind))
        kindVoteGrant_ne_kindLeaderCommit
    | won otherKind otherCandidate otherLeader otherNamed otherClear =>
      exact ⟨candidate.trans otherCandidate.symm, leader.trans otherLeader.symm⟩

end EmittedBy

end Cluster

namespace Replica

/-! ## What a call changes -/

variable (replica : Replica)

theorem maybeResetForNewTerm_keeps (term : UInt64) :
    (replica.maybeResetForNewTerm term).memberNodeIds = replica.memberNodeIds ∧
      (replica.maybeResetForNewTerm term).frameSeq = replica.frameSeq ∧
      (replica.maybeResetForNewTerm term).seenFrameTermById = replica.seenFrameTermById := by
  rw [maybeResetForNewTerm]
  split
  · exact ⟨rfl, rfl, rfl⟩
  · exact ⟨rfl, rfl, rfl⟩

theorem countGrant_keeps (frame : Frame) : (replica.countGrant frame).self = replica.self ∧
      (replica.countGrant frame).memberNodeIds = replica.memberNodeIds ∧
      (replica.countGrant frame).frameSeq = replica.frameSeq ∧
      (replica.countGrant frame).seenFrameTermById =
        replica.seenFrameTermById.insert frame.frameId frame.term :=
  ⟨rfl, rfl, rfl, rfl⟩

theorem commitAsLeader_keeps : replica.commitAsLeader.self = replica.self ∧
      replica.commitAsLeader.memberNodeIds = replica.memberNodeIds ∧
      replica.commitAsLeader.frameSeq = replica.frameSeq ∧
      replica.commitAsLeader.seenFrameTermById = replica.seenFrameTermById :=
  ⟨rfl, rfl, rfl, rfl⟩

/-- Of the frames that are seen, only the one handled may be new. -/
def MarksOnly (before : Replica) (frame : Frame) (after : Replica) : Prop :=
  after.seenFrameTermById = before.seenFrameTermById ∨
    after.seenFrameTermById = before.seenFrameTermById.insert frame.frameId frame.term

theorem handleFrame_keeps (frame : Frame) : (replica.handleFrame frame).1.self = replica.self ∧
      (replica.handleFrame frame).1.memberNodeIds = replica.memberNodeIds ∧
      (replica.handleFrame frame).1.frameSeq = replica.frameSeq ∧
      replica.MarksOnly frame (replica.handleFrame frame).1 := by
  have self := replica.maybeResetForNewTerm_self frame.term
  have entered := replica.maybeResetForNewTerm_keeps frame.term
  have markedSelf := (replica.markFrameSeen frame).maybeResetForNewTerm_self frame.term
  have marked := (replica.markFrameSeen frame).maybeResetForNewTerm_keeps frame.term
  have counted := (replica.maybeResetForNewTerm frame.term).countGrant_keeps frame
  rw [self, entered.1, entered.2.1, entered.2.2] at counted
  have handles := handleFrame_handles replica frame
  generalize replica.handleFrame frame = handled at handles ⊢
  cases handles with
  | refused => exact ⟨rfl, rfl, rfl, .inl rfl⟩
  | granted =>
    exact ⟨markedSelf, marked.1, marked.2.1, .inr marked.2.2⟩
  | adopted =>
    exact ⟨self, entered.1, entered.2.1, .inl entered.2.2⟩
  | counted =>
    exact ⟨counted.1, counted.2.1, counted.2.2.1, .inr counted.2.2.2⟩
  | elected leading admits kind counts quorum leads =>
    have leading :=
      ((replica.maybeResetForNewTerm frame.term).countGrant frame).commitAsLeader_keeps
    rw [← leads] at leading
    exact ⟨leading.1.trans counted.1, leading.2.1.trans counted.2.1,
      leading.2.2.1.trans counted.2.2.1, .inr (leading.2.2.2.trans counted.2.2.2)⟩
  | committed =>
    exact ⟨markedSelf, marked.1, marked.2.1, .inr marked.2.2⟩

theorem lt_nextFrameSequence {sequence : UInt64} (below : sequence ≠ uint64Max) :
    sequence < nextFrameSequence sequence := by
  rw [nextFrameSequence, if_neg below]
  rw [uint64Max] at below
  grind

end Replica

namespace Cluster

variable {Node : Type} {cluster : Cluster Node} {node : Node}

/-- A replica of the cluster, as long as its membership stays. -/
structure Configured (cluster : Cluster Node) (node : Node) (replica : Replica) : Prop where
  self : replica.self = cluster.selfIdentity node
  memberSet : replica.memberNodeIds = cluster.membersOf node

variable {replica : Replica} {frame : Frame}

variable {numbers : UInt64 → Prop}

theorem Configured.selfId (configured : cluster.Configured node replica) :
    replica.self.nodeId = cluster.nodeId node := by
  rw [configured.self]
  rfl

theorem Configured.call (configured : cluster.Configured node replica) (call : Replica.Call) :
    cluster.Configured node (replica.call call).1 := by
  cases call with
  | startElection decision => exact ⟨configured.self, configured.memberSet⟩
  | currentLeaderCommitFrame => exact ⟨configured.self, configured.memberSet⟩
  | handleFrame frame =>
    have keeps := replica.handleFrame_keeps frame
    exact ⟨keeps.1.trans configured.self, keeps.2.1.trans configured.memberSet⟩

def Passed (before after : Replica) (number : UInt64) : Prop :=
  before.frameSeq < number ∧ number ≤ after.frameSeq

def Speaks (cluster : Cluster Node) (node : Node) (replica : Replica) (call : Replica.Call) :
    Prop :=
  (replica.call call).2 = [] ∨ ∃ frame number suffix, (replica.call call).2 = [frame] ∧
    cluster.EmittedBy node (Passed replica (replica.call call).1) frame number suffix

theorem speaks_numbered (configured : cluster.Configured node replica)
    (below : replica.frameSeq ≠ uint64Max) :
    (∀ decision, cluster.Speaks node replica (.startElection decision)) ∧
      cluster.Speaks node replica .currentLeaderCommitFrame := by
  have passed := Replica.lt_nextFrameSequence below
  constructor
  · intro decision
    refine .inr ⟨_, nextFrameSequence replica.frameSeq, [], rfl, configured.self, ?_, ?_⟩
    · rw [← configured.selfId]
      rfl
    · exact .numbered (.inl rfl) ⟨passed, UInt64.le_refl _⟩
  · refine .inr ⟨_, nextFrameSequence replica.frameSeq, [], rfl, configured.self, ?_, ?_⟩
    · rw [← configured.selfId]
      rfl
    · exact .numbered (.inr rfl) ⟨passed, UInt64.le_refl _⟩

theorem emittedBy_grant (configured : cluster.Configured node replica)
    {candidate decision : Bytes} (named : candidate ≠ [])
    (member : candidate ∈ cluster.membersOf node)
    (clear : ¬cluster.Ambiguous node kindVoteGrant replica.currentTerm candidate) :
    cluster.EmittedBy node numbers (replica.makeVoteGrantFrame candidate decision)
      replica.currentTerm candidate where
  sender := configured.self
  id := by
    rw [← configured.selfId]
    rfl
  origin := .granted rfl rfl named member clear

theorem emittedBy_won (configured : cluster.Configured node replica)
    (leads : replica.leaderNodeId = cluster.nodeId node) (named : cluster.nodeId node ≠ [])
    (clear : ¬cluster.Ambiguous node kindLeaderCommit replica.currentTerm (cluster.nodeId node)) :
    cluster.EmittedBy node numbers
      (replica.makeLeaderCommitFrame (consensusFrameId replica.self.nodeId kindLeaderCommit
        replica.currentTerm replica.leaderNodeId)) replica.currentTerm (cluster.nodeId node) where
  sender := configured.self
  id := by
    rw [configured.selfId, leads]
    rfl
  origin := .won rfl rfl leads named clear

theorem speaks_handleFrame (configured : cluster.Configured node replica)
    (clear : cluster.Clear replica node (.handleFrame frame)) :
    cluster.Speaks node replica (.handleFrame frame) := by
  have after := configured.call (.handleFrame frame)
  rw [Speaks]
  simp only [Replica.call] at after ⊢
  have handles := Replica.handleFrame_handles replica frame
  generalize replica.handleFrame frame = handled at handles after ⊢
  cases handles with
  | refused outcome rejected silent => exact .inl silent
  | granted admits kind grants =>
    have candidate := candidateSafe_of_frameIsValid admits.valid (.inl kind)
    have term : (replica.grantVote frame).currentTerm = frame.term :=
      @Replica.currentTerm_enter (replica.markFrameSeen frame) frame.term
        (Replica.of_voteRequestGrants grants).2.1
    have member := (Replica.nodeIsMember_iff.mp (Replica.of_voteRequestGrants grants).1).2
    rw [trimCopy_of_safe candidate, configured.memberSet] at member
    have unambiguous := clear.1 kind grants
    rw [← term] at unambiguous
    exact .inr ⟨_, _, _, rfl,
      emittedBy_grant after (ne_nil_of_safe candidate) member unambiguous⟩
  | adopted => exact .inl rfl
  | counted => exact .inl rfl
  | elected leading admits kind counts quorum leads =>
    have elected := (replica.maybeResetForNewTerm frame.term).elected_leads frame
    rw [← leads, Replica.maybeResetForNewTerm_self, configured.selfId,
      Replica.currentTerm_of_counts counts] at elected
    rcases elected with ⟨_, leader, term⟩
    have named : cluster.nodeId node ≠ [] := by
      intro empty
      have forSelf := (Replica.of_voteGrantCounts counts).2.1
      rw [Replica.maybeResetForNewTerm_self, configured.selfId, memberNodeIdMatches_iff, empty]
        at forSelf
      exact ne_nil_of_safe forSelf.1 forSelf.2
    have unambiguous := clear.2 kind counts quorum
    rw [← term] at unambiguous
    exact .inr ⟨_, _, _, rfl, emittedBy_won after leader named unambiguous⟩
  | committed => exact .inl rfl

theorem speaks (configured : cluster.Configured node replica)
    (below : replica.frameSeq ≠ uint64Max) {call : Replica.Call}
    (clear : cluster.Clear replica node call) : cluster.Speaks node replica call := by
  cases call with
  | startElection decision => exact (speaks_numbered configured below).1 decision
  | currentLeaderCommitFrame => exact (speaks_numbered configured below).2
  | handleFrame frame => exact speaks_handleFrame configured clear

/-! ## Runs -/

def SeenGiven (replica : Replica) (given : List Frame) : Prop :=
  ∀ id term, replica.seenFrameTermById[id]? = some term →
    ∃ frame ∈ given, frame.frameId = id ∧ frame.term = term

theorem SeenGiven.call {given : List Frame} (seenGiven : SeenGiven replica given)
    (call : Replica.Call) : SeenGiven (replica.call call).1 (Exchange.givenAfter given call) := by
  cases call with
  | startElection decision => exact seenGiven
  | currentLeaderCommitFrame => exact seenGiven
  | handleFrame frame =>
    have before : ∀ id term, replica.seenFrameTermById[id]? = some term →
        ∃ earlier ∈ given ++ [frame], earlier.frameId = id ∧ earlier.term = term := by
      intro id term held
      rcases seenGiven id term held with ⟨earlier, member, names⟩
      exact ⟨earlier, List.mem_append_left _ member, names⟩
    intro id term held
    simp only [Replica.call] at held
    rcases (replica.handleFrame_keeps frame).2.2.2 with same | marked
    · rw [same] at held
      exact before id term held
    · rw [marked, Std.TreeMap.getElem?_insert] at held
      split at held
      · next equal =>
        refine ⟨frame, List.mem_append_right _ (List.mem_singleton.mpr rfl), ?_⟩
        exact ⟨Std.LawfulEqCmp.eq_of_compare equal, Option.some.inj held⟩
      · exact before id term held

/-- What every state of a run keeps. -/
structure Kept (cluster : Cluster Node) (exchange : Exchange Node) : Prop where
  configured : ∀ node, cluster.Configured node (exchange.replica node)
  counters : ∀ node, (exchange.replica node).frameSeq ≠ uint64Max
  emitted : ∀ entry ∈ exchange.sent, ∃ number suffix,
    cluster.EmittedBy entry.1 (fun number => number ≤ (exchange.replica entry.1).frameSeq) entry.2
      number suffix
  identified : exchange.sent.Pairwise fun first second => Identified first.2 second.2
  seen : ∀ node, SeenGiven (exchange.replica node) (exchange.delivered node)

theorem begin_replica (clusterSize : Node → Nat) (node : Node) :
    (cluster.begin clusterSize).replica node =
      { self := cluster.selfIdentity node
        clusterSize := clusterSizeFromMemberCount (cluster.membersOf node).card
        memberNodeIds := cluster.membersOf node } :=
  cluster.initial_replica clusterSize node

theorem kept_begin (clusterSize : Node → Nat) : cluster.Kept (cluster.begin clusterSize) where
  configured node := by
    rw [begin_replica]
    exact ⟨rfl, rfl⟩
  counters node := by
    rw [begin_replica]
    exact show (0 : UInt64) ≠ uint64Max by decide
  emitted := List.forall_mem_nil _
  identified := List.Pairwise.nil
  seen node := by
    intro id term held
    rw [begin_replica] at held
    simp at held

theorem le_frameSeq_call (below : replica.frameSeq ≠ uint64Max) (call : Replica.Call) :
    replica.frameSeq ≤ (replica.call call).1.frameSeq := by
  have passed := Replica.lt_nextFrameSequence below
  cases call with
  | startElection decision => exact UInt64.le_of_lt passed
  | currentLeaderCommitFrame => exact UInt64.le_of_lt passed
  | handleFrame frame => exact UInt64.le_of_eq (replica.handleFrame_keeps frame).2.2.1.symm

section Called

variable [DecidableEq Node] {exchange : Exchange Node} {call : Replica.Call}

theorem Kept.le_frameSeq (kept : cluster.Kept exchange) (node other : Node) :
    (exchange.replica other).frameSeq ≤ ((exchange.call node call).replica other).frameSeq := by
  by_cases same : other = node
  · rw [same, exchange.replica_call_self call]
    exact le_frameSeq_call (kept.counters node) call
  · rw [exchange.replica_call_other call same]
    exact UInt64.le_refl _

theorem Kept.identified_with (kept : cluster.Kept exchange) {number : UInt64} {suffix : Bytes}
    {after : Replica}
    (emitted : cluster.EmittedBy node (Passed (exchange.replica node) after) frame number suffix) :
    ∀ entry ∈ exchange.sent, Identified entry.2 frame := by
  intro entry member
  rcases kept.emitted entry member with ⟨used, earlierSuffix, earlier⟩
  by_cases same : entry.1 = node
  · rw [same] at earlier
    refine earlier.identified_of_same emitted ?_
    intro value le passed
    exact absurd passed.1 (UInt64.not_lt.mpr le)
  · exact earlier.identified_of_different emitted fun equal => same equal.symm

theorem Kept.step (kept : cluster.Kept exchange)
    (counters : ∀ other, ((exchange.call node call).replica other).frameSeq ≠ uint64Max)
    (clear : cluster.Clear (exchange.replica node) node call) :
    cluster.Kept (exchange.call node call) where
  configured other := by
    by_cases same : other = node
    · rw [same, exchange.replica_call_self call]
      exact (kept.configured node).call call
    · rw [exchange.replica_call_other call same]
      exact kept.configured other
  counters := counters
  emitted := by
    intro entry member
    rcases List.mem_append.mp member with earlier | now
    · rcases kept.emitted entry earlier with ⟨number, suffix, emitted⟩
      refine ⟨number, suffix, emitted.sender, emitted.id, emitted.origin.mono ?_⟩
      exact fun used le => UInt64.le_trans le (kept.le_frameSeq node entry.1)
    · rcases List.mem_map.mp now with ⟨frame, said, equal⟩
      rw [← equal, exchange.replica_call_self call]
      rcases speaks (kept.configured node) (kept.counters node) clear with nothing |
        ⟨only, number, suffix, one, emitted⟩
      · rw [nothing] at said
        cases said
      · rw [one] at said
        rw [List.mem_singleton.mp said]
        exact ⟨number, suffix, emitted.sender, emitted.id,
          emitted.origin.mono fun used passed => passed.2⟩
  identified := by
    rw [Exchange.call, List.pairwise_append]
    rcases speaks (kept.configured node) (kept.counters node) clear with nothing |
      ⟨only, number, suffix, one, emitted⟩
    · rw [nothing, List.map_nil]
      exact ⟨kept.identified, List.Pairwise.nil, fun _ _ _ impossible => nomatch impossible⟩
    · rw [one, List.map_singleton]
      refine ⟨kept.identified, List.pairwise_singleton .., ?_⟩
      intro entry earlier new now
      rw [List.mem_singleton.mp now]
      exact kept.identified_with emitted entry earlier
  seen other := by
    by_cases same : other = node
    · rw [same, exchange.replica_call_self call, exchange.delivered_call_self call]
      exact (kept.seen node).call call
    · rw [exchange.replica_call_other call same, exchange.delivered_call_other call same]
      exact kept.seen other

end Called

theorem kept_of_run [DecidableEq Node] {clusterSize : Node → Nat} {exchange : Exchange Node}
    (run : cluster.ClearRun (cluster.begin clusterSize) exchange) : cluster.Kept exchange := by
  induction run with
  | refl => exact kept_begin clusterSize
  | tail before step induction =>
    rcases step with ⟨node, call, called, clear⟩
    have counters := called.counters
    rw [called.called] at counters ⊢
    exact induction.step counters clear

theorem seen_of_dropped (dropped : replica.frameAlreadySeen frame = true) :
    replica.seenFrameTermById[frame.frameId]? = some frame.term := by
  simp only [Replica.frameAlreadySeen, Replica.seenFrameShouldDrop, Bool.and_eq_true,
    beq_iff_eq, Std.TreeMap.contains_eq_isSome_getElem?, Std.TreeMap.getD_eq_getD_getElem?]
    at dropped
  cases held : replica.seenFrameTermById[frame.frameId]? with
  | none =>
    rw [held] at dropped
    cases dropped.1
  | some term =>
    rw [held] at dropped
    exact congrArg some dropped.2

/-- Two frames with one id and one term say the same, and a frame that a replica drops as
seen says the same as one it was given before, if that was a frame of the cluster. -/
def FrameIdsIdentify (exchange : Exchange Node) : Prop :=
  (∀ first ∈ exchange.sent, ∀ second ∈ exchange.sent, Identified first.2 second.2) ∧
    ∀ (node : Node), ∀ sent ∈ exchange.sent,
      frameIsValid sent.2 = none → (exchange.replica node).frameAlreadySeen sent.2 = true →
      ∃ earlier ∈ exchange.delivered node, earlier.frameId = sent.2.frameId ∧
        earlier.term = sent.2.term ∧
        ∀ author, (author, earlier) ∈ exchange.sent → SameMessage earlier sent.2

/-- In every run in which no vote is granted and no election won under an ambiguous id,
the ids of frames identify them. -/
theorem frame_ids_identify [DecidableEq Node] (cluster : Cluster Node) (clusterSize : Node → Nat)
    (exchange : Exchange Node) (run : cluster.ClearRun (cluster.begin clusterSize) exchange) :
    FrameIdsIdentify exchange := by
  have kept := kept_of_run run
  have symmetric : Std.Symm fun first second : Node × Frame => Identified first.2 second.2 :=
    ⟨fun _ _ identified => identified.symm⟩
  have identified : ∀ first ∈ exchange.sent, ∀ second ∈ exchange.sent,
      Identified first.2 second.2 := fun first firstSent second secondSent =>
    List.Pairwise.forall_of_forall (fun entry _ => .refl entry.2) kept.identified firstSent
      secondSent
  refine ⟨identified, ?_⟩
  intro node sent isSent valid dropped
  rcases kept.seen node _ _ (seen_of_dropped dropped) with ⟨earlier, given, id, term⟩
  refine ⟨earlier, given, id, term, ?_⟩
  intro author earlierSent
  refine identified (author, earlier) earlierSent sent isSent id ?_ term
  rw [id]
  exact ne_nil_of_safe (wellShaped_of_frameIsValid valid).frameId

theorem not_ambiguous_of_noColon (noColon : ∀ node, colon ∉ cluster.nodeId node) (kind : Bytes)
    (term : UInt64) (suffix : Bytes) : ¬cluster.Ambiguous node kind term suffix := by
  intro ambiguous
  rcases ambiguous with ⟨other, middle, ending, different, longer, rest, ends⟩
  exact noColon other (longer ▸ List.mem_append_right _ (List.mem_cons_self ..))

/-! ## Samples -/

local instance threeNodes : NeZero 3 := ⟨by decide⟩

def sampleAsked : Exchange (Fin 3) :=
  (sampleCluster.begin fun _ => 3).call 0 (.startElection sampleDecision)

def sampleVoted : Exchange (Fin 3) :=
  sampleAsked.call 1 (.handleFrame sampleRequest)

theorem clearRun_sampleVoted :
    sampleCluster.ClearRun (sampleCluster.begin fun _ => 3) sampleVoted := by
  apply Relation.ReflTransGen.tail (b := sampleAsked)
  · exact .single ⟨0, .startElection sampleDecision, ⟨rfl, by decide, by decide⟩, trivial⟩
  · refine ⟨1, .handleFrame sampleRequest, ⟨rfl, by decide, by decide⟩, ?_⟩
    have plain := fun term suffix => @not_ambiguous_of_noColon _ sampleCluster 1
      (by decide) kindVoteGrant term suffix
    exact ⟨fun _ _ => plain _ _, fun impossible => absurd impossible (by decide)⟩

theorem frame_ids_identify_sample : FrameIdsIdentify sampleVoted :=
  frame_ids_identify sampleCluster (fun _ => 3) sampleVoted clearRun_sampleVoted

/-- The second id is the first with a kind and a term, the third is a kind and a number. -/
def confusedIdentity (node : Fin 3) : Identity where
  clusterId := ascii "edge"
  nodeId := [ascii "a", ascii "a:vote_grant:1", ascii "vote_request:1"].getD node []
  membershipEpoch := 7

def confusedCluster : Cluster (Fin 3) where
  identity := confusedIdentity
  membershipEpoch := 7
  memberNodeIds := [ascii "a", ascii "a:vote_grant:1", ascii "vote_request:1"]
  distinct := by
    intro left right
    revert left right
    decide

def confusedStart : Exchange (Fin 3) := confusedCluster.begin fun _ => 3

def confusedRequest : Frame := ((confusedStart.replica 2).startElection sampleDecision).2

def confusedAsked : Exchange (Fin 3) := confusedStart.call 2 (.startElection sampleDecision)

def confusedVoted : Exchange (Fin 3) := confusedAsked.call 0 (.handleFrame confusedRequest)

def confusedBoth : Exchange (Fin 3) := confusedVoted.call 1 (.startElection sampleDecision)

def confusedGrant : Frame where
  frameId := ascii "a:vote_grant:1:vote_request:1"
  kind := kindVoteGrant
  term := 1
  decisionSha256 := sampleDecision
  candidateNodeId := ascii "vote_request:1"
  granted := true
  sender := confusedIdentity 0

def confusedOther : Frame where
  frameId := ascii "a:vote_grant:1:vote_request:1"
  kind := kindVoteRequest
  term := 1
  decisionSha256 := sampleDecision
  candidateNodeId := ascii "a:vote_grant:1"
  sender := confusedIdentity 1

def confusedCounted : Exchange (Fin 3) := confusedBoth.call 2 (.handleFrame confusedGrant)

theorem run_confusedCounted : confusedStart.Run confusedCounted := by
  apply Relation.ReflTransGen.tail (b := confusedBoth)
  · apply Relation.ReflTransGen.tail (b := confusedVoted)
    · apply Relation.ReflTransGen.tail (b := confusedAsked)
      · exact .single ⟨2, .startElection sampleDecision, rfl, by decide, by decide⟩
      · exact ⟨0, .handleFrame confusedRequest, rfl, by decide, by decide⟩
    · exact ⟨1, .startElection sampleDecision, rfl, by decide, by decide⟩
  · exact ⟨2, .handleFrame confusedGrant, rfl, by decide, by decide⟩

/-- A vote and a request for votes share an id, and the node that counted the vote drops
the request as seen. -/
theorem one_id_names_two_frames :
    (∀ node, umbmpIdIsSafe (confusedCluster.nodeId node) = true) ∧
      confusedStart.Run confusedCounted ∧
      (0, confusedGrant) ∈ confusedCounted.sent ∧ (1, confusedOther) ∈ confusedCounted.sent ∧
      confusedGrant.frameId = confusedOther.frameId ∧ confusedGrant.term = confusedOther.term ∧
      confusedGrant.kind ≠ confusedOther.kind ∧
      (confusedCounted.replica 2).frameAlreadySeen confusedOther = true ∧
      ¬FrameIdsIdentify confusedCounted := by
  refine ⟨by decide, run_confusedCounted, by decide, by decide, rfl, rfl, by decide, by decide,
    ?_⟩
  intro identify
  have message := identify.1 (0, confusedGrant) (by decide) (1, confusedOther) (by decide) rfl
    (by decide) rfl
  exact absurd message.kind (by decide)

end Cluster

end AgentC.EdgeConsensus
