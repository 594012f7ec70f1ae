import AgentC.Foundation.Fallible
import AgentC.Workflow.Aggregates

/-! # What a met quorum says

The value that an aggregate reports leads the values that are counted, whatever
the order of the hash map of the counts. Behind a vote of a node is a task of
its own; a task that is listed twice votes twice. -/

namespace AgentC.Workflow

open Json (Tree)

def ProperCount (entry : Bytes × Nat) : Prop :=
  entry.1 ≠ [] ∧ 0 < entry.2

variable {counts : List (Bytes × Nat)}

theorem chooseValue_eq (counted : ∀ entry ∈ counts, ProperCount entry) :
    chooseValue counts = (counts.foldl (leading (Outranks lexLE)) none).getD ([], 0) := by
  have steps : ∀ best : Option (Bytes × Nat), (∀ entry ∈ best, ProperCount entry) →
      counts.foldl
        (fun best entry =>
          if best.2 < entry.2 ∨
              entry.2 = best.2 ∧ entry.1 ≠ [] ∧ (best.1 = [] ∨ ¬lexLE best.1 entry.1) then
            entry
          else best)
        (best.getD ([], 0)) =
      (counts.foldl (leading (Outranks lexLE)) best).getD ([], 0) := by
    induction counts with
    | nil => exact fun _ _ => rfl
    | cons entry counts induction =>
      intro best bestCounted
      rcases List.forall_mem_cons.mp counted with ⟨here, others⟩
      rw [List.foldl_cons, List.foldl_cons]
      cases best with
      | none =>
        rw [Option.getD_none, if_pos (.inl here.2)]
        refine induction others (some entry) fun _ same => ?_
        exact Option.some.inj same ▸ here
      | some leader =>
        have leaderCounted := bestCounted leader rfl
        rw [Option.getD_some, leading]
        by_cases ahead : Outranks lexLE leader entry
        · rw [if_pos ahead, if_neg]
          · exact induction others (some leader) bestCounted
          · rintro (more | ⟨same, _, empty | behind⟩)
            · rcases ahead with fewer | ⟨same, _⟩ <;> omega
            · exact leaderCounted.1 empty
            · rcases ahead with fewer | ⟨_, first⟩
              · omega
              · exact behind first
        · rw [if_neg ahead, if_pos]
          · refine induction others (some entry) fun _ same => ?_
            exact Option.some.inj same ▸ here
          · rw [Outranks, not_or, not_and] at ahead
            rcases Nat.lt_or_ge leader.2 entry.2 with more | fewer
            · exact .inl more
            · have same : entry.2 = leader.2 := by omega
              exact .inr ⟨same, here.1, .inr (ahead.2 same.symm)⟩
  exact steps none (by rintro _ ⟨⟩)

theorem leads_chooseValue (counted : ∀ entry ∈ counts, ProperCount entry) (some_ : counts ≠ []) :
    Leads (Outranks lexLE) counts (chooseValue counts) := by
  rw [chooseValue_eq counted]
  cases counts with
  | nil => exact absurd rfl some_
  | cons entry counts =>
    rcases leads_foldl_leading (Outranks lexLE) entry counts with ⟨leader, found, leads⟩
    rw [List.foldl_cons, leading, found]
    exact leads

theorem chooseValue_eq_of_perm {others : List (Bytes × Nat)}
    (counted : ∀ entry ∈ counts, ProperCount entry) (same : counts.Perm others) :
    chooseValue counts = chooseValue others := by
  cases counts with
  | nil => rw [List.nil_perm.mp same]
  | cons entry counts =>
    have otherCounted : ∀ entry ∈ others, ProperCount entry :=
      fun entry member => counted entry (same.mem_iff.mpr member)
    have otherSome : others ≠ [] := fun empty => by
      rw [empty] at same
      exact nomatch List.perm_nil.mp same
    exact (leads_chooseValue counted (by simp)).unique (fun _ => same.mem_iff)
      (leads_chooseValue otherCounted otherSome)

theorem mem_of_member_foldl {members : List (Bytes × Tree)} {tree found : Tree} {key : Bytes}
    (object : tree.isObject = true)
    (member : (members.foldl (fun tree entry => tree.setMember entry.1 entry.2) tree).member key =
      some found) : (key, found) ∈ members ∨ tree.member key = some found := by
  induction members generalizing tree with
  | nil => exact .inr member
  | cons entry members induction =>
    rcases induction (Tree.isObject_setMember.trans object) member with later | earlier
    · exact .inl (List.mem_cons_of_mem entry later)
    · by_cases here : key = entry.1
      · rw [here, Tree.member_setMember object] at earlier
        rw [here, ← Option.some.inj earlier]
        exact .inl (List.mem_cons_self ..)
      · rw [Tree.member_setMember_of_ne here] at earlier
        exact .inr earlier

theorem value_of_member {keys : List Bytes} {value : Bytes → Option Tree} {key : Bytes}
    {found : Tree}
    (member : (Tree.ofOptionalMembers (keys.map fun key => (key, value key))).member key =
      some found) : key ∈ keys ∧ value key = some found := by
  rcases mem_of_member_foldl rfl member with listed | impossible
  · rcases List.mem_filterMap.mp listed with ⟨entry, there, written⟩
    rcases Option.map_eq_some_iff.mp written with ⟨same, isValue, pair⟩
    rcases List.mem_map.mp there with ⟨other, inKeys, rfl⟩
    rcases Prod.mk.inj pair with ⟨rfl, rfl⟩
    exact ⟨inKeys, isValue⟩
  · exact nomatch impossible

theorem nodup_firstOccurrences (texts : List Bytes) : (firstOccurrences texts).Nodup := by
  induction texts with
  | nil => exact List.nodup_nil
  | cons first texts induction =>
    refine List.nodup_cons.mpr ⟨fun member => ?_, induction.filter _⟩
    exact of_decide_eq_true (List.mem_filter.mp member).2 rfl

namespace AggregateInput

variable {input : AggregateInput} {config : QuorumConfig} {pointer value : Bytes}

theorem task_of_nodeVote {node taskId : Bytes}
    (vote : input.nodeVote config (input.valuesByTask config pointer) node = some (value, taskId)) :
    value ≠ [] ∧ taskId ∈ config.taskIds ∧ input.nodeOf config taskId = some node ∧
      input.tokenAt pointer taskId = some value := by
  rcases List.exists_of_findSome?_eq_some vote with ⟨found, listed, votes⟩
  rcases List.mem_filter.mp listed with ⟨inTasks, onNode⟩
  split at votes
  next text member =>
    split at votes
    · exact nomatch votes
    next nonempty =>
      cases votes
      rcases value_of_member member with ⟨_, isValue⟩
      rcases Option.map_eq_some_iff.mp isValue with ⟨token, tokenAt, same⟩
      cases same
      exact ⟨nonempty, inTasks, of_decide_eq_true onNode, tokenAt⟩
  · exact nomatch votes

theorem ne_nil_of_nodeOf {node taskId : Bytes} (onNode : input.nodeOf config taskId = some node) :
    node ≠ [] := by
  rw [nodeOf] at onNode
  split at onNode
  · split at onNode
    · exact nomatch onNode
    next nonempty => exact Option.some.inj onNode ▸ nonempty
  · exact nomatch onNode

def listings (input : AggregateInput) (config : QuorumConfig) (pointer value : Bytes) : Nat :=
  config.taskIds.countP fun taskId => input.tokenAt pointer taskId = some value

def holders (input : AggregateInput) (config : QuorumConfig) (pointer value : Bytes) :
    List Bytes :=
  config.taskIds.dedup.filter fun taskId => input.tokenAt pointer taskId = some value

variable (order : HashOrder) {agg : Tree}

variable {taskIds : List Bytes}

theorem count_countedVotes (perTask : config.requireDistinctNodes = false) (nonempty : value ≠ []) :
    (input.countedVotes config pointer).count value = input.listings config pointer value := by
  rw [countedVotes, perTask, if_neg (by decide),
    List.count_filter (p := fun value : Bytes => decide (value ≠ [])) (decide_eq_true nonempty),
    listings]
  induction config.taskIds with
  | nil => rfl
  | cons taskId taskIds induction =>
    rw [List.countP_cons, ← induction]
    cases token : input.tokenAt pointer taskId with
    | none => rw [List.filterMap_cons_none token]; simp
    | some other =>
      rw [List.filterMap_cons_some token, List.count_cons]
      simp

theorem ne_nil_of_counted (member : value ∈ input.countedVotes config pointer) : value ≠ [] := by
  rw [countedVotes] at member
  split at member
  · rcases List.mem_map.mp member with ⟨vote, chosen, rfl⟩
    rcases List.mem_filterMap.mp chosen with ⟨node, _, votes⟩
    rcases Option.map_eq_some_iff.mp votes with ⟨pair, vote, rfl⟩
    exact (task_of_nodeVote vote).1
  · exact of_decide_eq_true (List.mem_filter.mp member).2

theorem counted_of_mem_tally {entry : Bytes × Nat}
    (member : entry ∈ tally (input.countedVotes config pointer)) : ProperCount entry :=
  ⟨ne_nil_of_counted (mem_tally.mp member).1, count_pos_of_mem_tally member⟩

theorem quorumCheck_order (other : HashOrder) :
    input.quorumCheck order config pointer = input.quorumCheck other config pointer := by
  have same : (order.order (tally (input.countedVotes config pointer))).Perm
      (other.order (tally (input.countedVotes config pointer))) :=
    (order.perm _).trans (other.perm _).symm
  have counted : ∀ entry ∈ order.order (tally (input.countedVotes config pointer)),
      ProperCount entry := fun entry member => counted_of_mem_tally ((order.perm _).mem_iff.mp member)
  rw [quorumCheck, quorumCheck, chooseValue_eq_of_perm counted same,
    insertionSort_eq_of_perm same]

/-- The chosen value of a check is ahead of every value that is counted. -/
theorem leads_chosen (votes : input.countedVotes config pointer ≠ []) :
    Leads (Outranks lexLE) (tally (input.countedVotes config pointer))
      ((input.quorumCheck order config pointer).chosen,
        (input.quorumCheck order config pointer).chosenCount) := by
  have same := order.perm (tally (input.countedVotes config pointer))
  have some_ : order.order (tally (input.countedVotes config pointer)) ≠ [] := by
    intro empty
    rw [empty] at same
    have none_ := List.map_eq_nil_iff.mp (List.nil_perm.mp same)
    refine votes (List.eq_nil_iff_forall_not_mem.mpr fun value member => ?_)
    rw [List.eq_nil_iff_forall_not_mem] at none_
    exact none_ value (List.mem_dedup.mpr member)
  have leads := leads_chooseValue
    (fun entry member => counted_of_mem_tally (same.mem_iff.mp member)) some_
  exact ⟨same.mem_iff.mp leads.member,
    fun entry member => leads.first entry (same.mem_iff.mpr member)⟩

theorem chosen_of_ok {order : HashOrder} (ok : (input.quorumCheck order config pointer).ok = true) :
    (input.quorumCheck order config pointer).chosen ≠ [] ∧
      config.quorum ≤ (input.countedVotes config pointer).count
        (input.quorumCheck order config pointer).chosen := by
  have met : (input.quorumCheck order config pointer).chosen ≠ [] ∧
      config.quorum ≤ (input.quorumCheck order config pointer).chosenCount := of_decide_eq_true ok
  have votes : input.countedVotes config pointer ≠ [] := by
    intro empty
    have nothing := List.perm_nil.mp (order.perm [])
    rw [quorumCheck, empty] at met
    exact met.1 (by rw [show tally ([] : List Bytes) = [] from rfl, nothing]; rfl)
  refine ⟨met.1, met.2.trans (le_of_eq ?_)⟩
  exact (mem_tally.mp (leads_chosen order votes).member).2

theorem map_fst_filterMap {α β : Type} (found : α → Option β) (entries : List α) :
    (entries.filterMap fun entry => (found entry).map (Prod.mk entry)).map Prod.fst =
      entries.filter fun entry => (found entry).isSome := by
  induction entries with
  | nil => rfl
  | cons entry entries induction =>
    cases here : found entry with
    | none => simp [here, induction]
    | some value => simp [here, induction]

/-- At least the quorum of different tasks, or of different nodes, hold a value. -/
def Supported (input : AggregateInput) (config : QuorumConfig) (pointer value : Bytes) : Prop :=
  if config.requireDistinctNodes then
    ∃ nodes : List Bytes, nodes.Nodup ∧ config.quorum ≤ nodes.length ∧ ∀ node ∈ nodes,
      node ≠ [] ∧ ∃ taskId ∈ config.taskIds, input.nodeOf config taskId = some node ∧
        input.tokenAt pointer taskId = some value
  else
    ∃ tasks : List Bytes, tasks.Nodup ∧ config.quorum ≤ tasks.length ∧ ∀ taskId ∈ tasks,
      taskId ∈ config.taskIds ∧ input.tokenAt pointer taskId = some value

theorem supported_of_nodes (distinct : config.requireDistinctNodes = true)
    (met : config.quorum ≤ (input.countedVotes config pointer).count value) :
    input.Supported config pointer value := by
  rw [Supported, if_pos distinct]
  rw [countedVotes, if_pos distinct] at met
  let votes := (input.nodeVotes config (input.valuesByTask config pointer)).chosen.filter
    fun vote => vote.2.1 == value
  refine ⟨votes.map Prod.fst, ?_, ?_, ?_⟩
  · refine List.Sublist.nodup ?_ (nodup_firstOccurrences
      (config.taskIds.filterMap fun taskId => input.nodeOf config taskId))
    exact (List.filter_sublist.map Prod.fst).trans (map_fst_filterMap _ _ ▸ List.filter_sublist)
  · rw [List.count_eq_countP, List.countP_map, List.countP_eq_length_filter] at met
    rw [List.length_map]
    exact met
  · intro node member
    rcases List.mem_map.mp member with ⟨vote, chosen, rfl⟩
    rcases List.mem_filter.mp chosen with ⟨voted, isValue⟩
    rcases List.mem_filterMap.mp voted with ⟨node, _, votes⟩
    rcases Option.map_eq_some_iff.mp votes with ⟨pair, vote, rfl⟩
    have held := task_of_nodeVote vote
    exact ⟨ne_nil_of_nodeOf held.2.2.1, pair.2, held.2.1, held.2.2.1,
      (eq_of_beq isValue : pair.1 = value) ▸ held.2.2.2⟩

/-- The value that is listed most often, and of several the smallest. -/
def IsPlurality (input : AggregateInput) (config : QuorumConfig) (pointer value : Bytes) : Prop :=
  value ≠ [] ∧ ∀ other, other ≠ [] → 0 < input.listings config pointer other →
    Outranks lexLE (value, input.listings config pointer value)
      (other, input.listings config pointer other)

/-- What a report says of its tasks is so, and is said whatever the order of the hash maps. -/
def QuorumHonest (input : AggregateInput) (order : HashOrder) (agg : Tree) : Prop :=
  (∀ report, input.workflowAggregateQuorumHashes order agg = .ok report → report.ok = true →
    report.checks.map QuorumCheck.pointer = report.config.pointers ∧
      ∀ check ∈ report.checks, check.chosen ≠ [] ∧
        input.Supported report.config check.pointer check.chosen) ∧
  ∀ other, input.workflowAggregateQuorumHashes other agg =
    input.workflowAggregateQuorumHashes order agg

/-- Nodes vote, or some pointer has no value that is listed often enough, or at every
pointer the quorum of different tasks hold the value that is listed most often. -/
def RepeatedTasksHarmless (input : AggregateInput) (config : QuorumConfig) : Prop :=
  config.requireDistinctNodes = true ∨
    (∃ pointer ∈ config.pointers, ∀ value, value ≠ [] →
      input.listings config pointer value < config.quorum) ∨
    ∀ pointer ∈ config.pointers, ∀ value, input.IsPlurality config pointer value →
      config.quorum ≤ (input.holders config pointer value).length

theorem quorumReport_order (other : HashOrder) :
    input.quorumReport other config = input.quorumReport order config := by
  have checks : input.quorumCheck other config = input.quorumCheck order config := by
    funext pointer
    exact quorumCheck_order other order
  rw [quorumReport, quorumReport, checks]

theorem quorumOf_pos (some_ : taskIds ≠ []) : 0 < input.quorumOf agg taskIds := by
  have length : 0 < taskIds.length := List.length_pos_of_ne_nil some_
  have clamped : ∀ asked : Int, 0 < (min (max 1 asked) taskIds.length).toNat := by
    intro asked
    omega
  exact clamped _

theorem taskIds_ne_nil (configured : aggregateTaskIds agg = .ok taskIds) : taskIds ≠ [] := by
  rw [aggregateTaskIds] at configured
  split at configured
  · exact nomatch configured
  · cases listed : stringArrayFromJson (agg.member (ascii "task_ids")) with
    | none =>
      rw [listed] at configured
      exact nomatch configured
    | some texts =>
      rw [listed] at configured
      cases texts with
      | nil => exact nomatch configured
      | cons =>
        cases configured
        exact fun impossible => nomatch impossible

theorem quorum_pos (configured : input.quorumConfig agg = .ok config) : 0 < config.quorum := by
  rcases bind_eq_ok.mp configured with ⟨taskIds, listed, rest⟩
  cases rest
  exact quorumOf_pos (taskIds_ne_nil listed)

theorem isPlurality_chosen {order : HashOrder} (perTask : config.requireDistinctNodes = false)
    (votes : input.countedVotes config pointer ≠ []) :
    input.IsPlurality config pointer (input.quorumCheck order config pointer).chosen := by
  have leads := leads_chosen order votes
  rcases mem_tally.mp leads.member with ⟨voted, count⟩
  have nonempty := ne_nil_of_counted voted
  rw [count_countedVotes perTask nonempty] at count
  refine ⟨nonempty, fun other otherNonempty listed => ?_⟩
  rw [← count_countedVotes perTask otherNonempty] at listed
  have ahead := leads.first (other, (input.countedVotes config pointer).count other)
    (mem_tally.mpr ⟨List.count_pos_iff.mp listed, rfl⟩)
  rw [count_countedVotes perTask otherNonempty] at ahead
  simp only at count
  rw [count] at ahead
  exact ahead

theorem IsPlurality.unique {other : Bytes} (plurality : input.IsPlurality config pointer value)
    (otherPlurality : input.IsPlurality config pointer other)
    (otherListed : 0 < input.listings config pointer other) : value = other := by
  have ahead := plurality.2 other otherPlurality.1 otherListed
  have listed : 0 < input.listings config pointer value := by
    rcases ahead with more | ⟨same, _⟩
    · exact otherListed.trans more
    · exact otherListed.trans_eq same.symm
  exact congrArg Prod.fst (Std.Antisymm.antisymm (r := Outranks lexLE) _ _ ahead
    (otherPlurality.2 value plurality.1 listed))

/-- A check is ok exactly if some value is listed often enough. -/
theorem ok_of_listings {order : HashOrder} (perTask : config.requireDistinctNodes = false)
    (positive : 0 < config.quorum) (nonempty : value ≠ [])
    (met : config.quorum ≤ input.listings config pointer value) :
    (input.quorumCheck order config pointer).ok = true := by
  have listed : 0 < (input.countedVotes config pointer).count value := by
    rw [count_countedVotes perTask nonempty]
    exact positive.trans_le met
  have member := List.count_pos_iff.mp listed
  have leads := leads_chosen order (List.ne_nil_of_mem member)
  have ahead := leads.first (value, (input.countedVotes config pointer).count value)
    (mem_tally.mpr ⟨member, rfl⟩)
  rw [count_countedVotes perTask nonempty] at ahead
  refine decide_eq_true ⟨ne_nil_of_counted (mem_tally.mp leads.member).1, met.trans ?_⟩
  rcases ahead with more | ⟨same, _⟩
  · exact more.le
  · exact same.ge

theorem length_holders_ge {tasks : List Bytes} (different : tasks.Nodup)
    (held : ∀ taskId ∈ tasks, taskId ∈ config.taskIds ∧ input.tokenAt pointer taskId = some value) :
    tasks.length ≤ (input.holders config pointer value).length := by
  refine (List.subperm_of_subset different fun taskId member => ?_).length_le
  exact List.mem_filter.mpr ⟨List.mem_dedup.mpr (held taskId member).1,
    decide_eq_true (held taskId member).2⟩

theorem supported_of_holders (perTask : config.requireDistinctNodes = false)
    (met : config.quorum ≤ (input.holders config pointer value).length) :
    input.Supported config pointer value := by
  rw [Supported, perTask, if_neg (by decide)]
  refine ⟨_, (List.nodup_dedup config.taskIds).filter _, met, fun taskId member => ?_⟩
  rcases List.mem_filter.mp member with ⟨listed, held⟩
  exact ⟨List.mem_dedup.mp listed, of_decide_eq_true held⟩

/-- The report on a configuration is honest exactly if repeated tasks do no harm. -/
theorem supported_iff (positive : 0 < config.quorum) :
    ((input.quorumReport order config).ok = true → ∀ check ∈ (input.quorumReport order config).checks,
      check.chosen ≠ [] ∧ input.Supported config check.pointer check.chosen) ↔
      input.RepeatedTasksHarmless config := by
  have allOk : (input.quorumReport order config).ok = true ↔
      ∀ pointer ∈ config.pointers, (input.quorumCheck order config pointer).ok = true := by
    rw [quorumReport]
    simp only [List.all_map, List.all_eq_true, Function.comp_apply]
  have ofCheck : (∀ check ∈ (input.quorumReport order config).checks,
      check.chosen ≠ [] ∧ input.Supported config check.pointer check.chosen) ↔
      ∀ pointer ∈ config.pointers, (input.quorumCheck order config pointer).chosen ≠ [] ∧
        input.Supported config pointer (input.quorumCheck order config pointer).chosen :=
    List.forall_mem_map
  rw [allOk, ofCheck]
  cases perTask : config.requireDistinctNodes with
  | true =>
    refine ⟨fun _ => .inl perTask, fun _ ok pointer member => ?_⟩
    have chosen := chosen_of_ok (ok pointer member)
    exact ⟨chosen.1, supported_of_nodes perTask chosen.2⟩
  | false =>
    constructor
    · intro honest
      refine .inr (or_iff_not_imp_left.mpr fun listedEverywhere => ?_)
      push Not at listedEverywhere
      have ok : ∀ pointer ∈ config.pointers,
          (input.quorumCheck order config pointer).ok = true := by
        intro pointer member
        rcases listedEverywhere pointer member with ⟨value, nonempty, met⟩
        exact ok_of_listings perTask positive nonempty met
      intro pointer member value plurality
      rcases honest ok pointer member with ⟨nonempty, supported⟩
      have met := (chosen_of_ok (ok pointer member)).2
      have votes : input.countedVotes config pointer ≠ [] := fun empty => by
        rw [empty] at met
        exact absurd met (Nat.not_le.mpr positive)
      rw [count_countedVotes perTask nonempty] at met
      rw [plurality.unique (isPlurality_chosen perTask votes) (positive.trans_le met)]
      rw [Supported, perTask, if_neg (by decide)] at supported
      rcases supported with ⟨tasks, different, enough, held⟩
      exact enough.trans (length_holders_ge different held)
    · intro harmless ok pointer member
      have chosen := chosen_of_ok (ok pointer member)
      have met := chosen.2
      rw [count_countedVotes perTask chosen.1] at met
      refine ⟨chosen.1, supported_of_holders perTask ?_⟩
      rcases harmless with impossible | ⟨short, shortMember, few⟩ | held
      · rw [perTask] at impossible
        exact nomatch impossible
      · have shortChosen := chosen_of_ok (ok short shortMember)
        have shortMet := shortChosen.2
        rw [count_countedVotes perTask shortChosen.1] at shortMet
        exact absurd (few _ shortChosen.1) (Nat.not_lt.mpr shortMet)
      · refine held pointer member _ (isPlurality_chosen perTask fun empty => ?_)
        rw [empty] at chosen
        exact absurd chosen.2 (Nat.not_le.mpr positive)

end AggregateInput

/-- A report of a met quorum is honest, and independent of the order of the hash maps,
exactly if repeated tasks do no harm. -/
theorem quorum_honest_iff (input : AggregateInput) (order : HashOrder) (agg : Tree) :
    input.QuorumHonest order agg ↔
      ∀ config, input.quorumConfig agg = .ok config → input.RepeatedTasksHarmless config := by
  have ordered : ∀ other, input.workflowAggregateQuorumHashes other agg =
      input.workflowAggregateQuorumHashes order agg := by
    intro other
    rw [AggregateInput.workflowAggregateQuorumHashes, AggregateInput.workflowAggregateQuorumHashes]
    congr 1
    funext config
    exact AggregateInput.quorumReport_order order other
  cases configured : input.quorumConfig agg with
  | error failure =>
    refine ⟨fun _ _ impossible => (nomatch impossible), fun _ => ⟨fun report found => ?_, ordered⟩⟩
    rw [AggregateInput.workflowAggregateQuorumHashes, configured] at found
    exact nomatch found
  | ok config =>
    have positive := AggregateInput.quorum_pos configured
    have reported : input.workflowAggregateQuorumHashes order agg =
        .ok (input.quorumReport order config) := by
      rw [AggregateInput.workflowAggregateQuorumHashes, configured]
      rfl
    have pointers : (input.quorumReport order config).checks.map QuorumCheck.pointer =
        config.pointers := by
      rw [AggregateInput.quorumReport, List.map_map]
      exact List.map_id config.pointers
    constructor
    · intro honest other same
      cases same
      exact (AggregateInput.supported_iff order positive).mp fun ok =>
        (honest.1 _ reported ok).2
    · intro harmless
      refine ⟨fun report found ok => ?_, ordered⟩
      rw [reported] at found
      cases found
      exact ⟨pointers, (AggregateInput.supported_iff order positive).mpr (harmless config rfl) ok⟩

def repeatedInput : AggregateInput where
  json := { write := fun _ => [], parse := fun _ => none }
  asInt := fun _ => none
  results := fun taskId =>
    if taskId = ascii "a" then some (.object [(ascii "h", .string (ascii "x"))]) else none

def repeatedTasks : Tree :=
  .object [(ascii "pointers", .array [.string (ascii "/h")]),
    (ascii "task_ids", .array [.string (ascii "a"), .string (ascii "a")])]

def plainOrder : HashOrder where
  order := id
  perm := fun counts => List.Perm.refl counts

/-- A quorum of two is met by one task that is listed twice. -/
theorem quorum_met_by_one_task :
    (repeatedInput.workflowAggregateQuorumHashes plainOrder repeatedTasks).toOption.map
      (fun report => (report.ok, report.config.quorum, report.config.requireDistinctNodes)) =
        some (true, 2, false) ∧
    ¬repeatedInput.QuorumHonest plainOrder repeatedTasks := by
  refine ⟨by decide, fun honest => ?_⟩
  rcases honest.1 _ rfl rfl with ⟨_, supported⟩
  rcases (supported _ (List.mem_cons_self ..)).2 with ⟨tasks, different, enough, held⟩
  have onlyOne : ∀ taskId ∈ tasks, taskId = ascii "a" := by
    intro taskId member
    have listed : taskId ∈ [ascii "a", ascii "a"] := (held taskId member).1
    simpa using listed
  have few := List.nodup_iff_count_le_one.mp different (ascii "a")
  rw [List.count_eq_length.mpr fun taskId member => (onlyOne taskId member).symm] at few
  exact absurd (enough.trans few) (by decide)

end AgentC.Workflow
