import Mathlib.Data.Finset.Card
import Mathlib.Data.Fintype.Card
import Mathlib.Data.Fintype.EquivFin
import Mathlib.Data.Fintype.Sets
import Mathlib.Logic.Relation

/-! # Ordering nodes by their dependencies

Nodes with their dependencies, visited one after the other: a node enters the
queue when the last of its dependencies has been visited. If every node is
visited, the dependencies have no cycle. -/

namespace AgentC

variable {Node : Type} [DecidableEq Node]

/-- The dependencies of a node that have not been visited, and the nodes that
are ready and have not been visited. -/
structure Frontier (Node : Type) where
  waiting : Node → Int
  queue : List Node

namespace Frontier

def release (visited child : Node) (frontier : Frontier Node) (dependency : Node) :
    Frontier Node :=
  if dependency = visited then
    { waiting := Function.update frontier.waiting child (frontier.waiting child - 1)
      queue :=
        if frontier.waiting child - 1 = 0 then frontier.queue ++ [child] else frontier.queue }
  else frontier

/-- A node is visited: its occurrences among the dependencies of a child are met. -/
def releaseChild (nodes : List Node) (visited : Node) (frontier : Frontier Node)
    (entry : Node × List Node) : Frontier Node :=
  if entry.1 ∈ nodes then entry.2.foldl (release visited entry.1) frontier else frontier

def releaseAll (nodes : List Node) (visited : Node) (dependencies : List (Node × List Node))
    (frontier : Frontier Node) : Frontier Node :=
  dependencies.foldl (releaseChild nodes visited) frontier

def initial (nodes : List Node) (dependencies : List (Node × List Node)) : Frontier Node :=
  let waiting := fun node =>
    match dependencies.find? fun entry => entry.1 = node with
    | some entry => (entry.2.length : Int)
    | none => 0
  { waiting, queue := nodes.filter fun node => waiting node = 0 }

def visit (nodes : List Node) (dependencies : List (Node × List Node)) :
    Nat → Frontier Node → Nat
  | 0, _ => 0
  | fuel + 1, frontier =>
    match frontier.queue with
    | [] => 0
    | node :: queue =>
      visit nodes dependencies fuel
        (releaseAll nodes node dependencies { frontier with queue }) + 1

end Frontier

variable {dependencies : List (Node × List Node)} {entry : Node × List Node} {node : Node}

namespace Frontier

variable {nodes : List Node} {visited child : Node} {frontier : Frontier Node}

theorem foldl_release {dependencies : List Node}
    (waits : (dependencies.count visited : Int) ≤ frontier.waiting child) :
    dependencies.foldl (release visited child) frontier =
      { waiting := Function.update frontier.waiting child
          (frontier.waiting child - dependencies.count visited)
        queue :=
          if 0 < dependencies.count visited ∧
              frontier.waiting child = dependencies.count visited then
            frontier.queue ++ [child]
          else frontier.queue } := by
  induction dependencies generalizing frontier with
  | nil => simp
  | cons dependency dependencies induction =>
    rw [List.foldl_cons]
    by_cases met : dependency = visited
    · subst met
      rw [List.count_cons_self] at waits ⊢
      rw [release, if_pos rfl, induction]
      · simp only [Function.update_self, Function.update_idem]
        congr 1
        · congr 1
          push_cast
          omega
        · push_cast at waits ⊢
          split_ifs
          all_goals first | rfl | omega
      · simp only [Function.update_self]
        push_cast at waits
        omega
    · rw [List.count_cons_of_ne met] at waits ⊢
      rw [release, if_neg met]
      exact induction waits

/-- The node is the last of the dependencies that an entry waits for. -/
def lastOf (visited : Node) (waiting : Node → Int) (entry : Node × List Node) : Bool :=
  0 < entry.2.count visited ∧ waiting entry.1 = entry.2.count visited

def released (nodes : List Node) (visited : Node) (waiting : Node → Int)
    (dependencies : List (Node × List Node)) : List Node :=
  (dependencies.filter fun entry => entry.1 ∈ nodes && lastOf visited waiting entry).map Prod.fst

theorem released_congr {waiting other : Node → Int}
    (same : ∀ entry ∈ dependencies, waiting entry.1 = other entry.1) :
    released nodes visited waiting dependencies = released nodes visited other dependencies := by
  rw [released, released]
  congr 1
  apply List.filter_congr
  intro entry member
  rw [lastOf, lastOf, same entry member]

/-- What a visited node changes. -/
structure Releases (nodes : List Node) (visited : Node) (dependencies : List (Node × List Node))
    (before after : Frontier Node) : Prop where
  children : ∀ entry ∈ dependencies, entry.1 ∈ nodes →
    after.waiting entry.1 = before.waiting entry.1 - entry.2.count visited
  others : ∀ node, (∀ entry ∈ dependencies, entry.1 ≠ node) →
    after.waiting node = before.waiting node
  queue : after.queue = before.queue ++ released nodes visited before.waiting dependencies

theorem releases_releaseChild
    (waits : entry.1 ∈ nodes → (entry.2.count visited : Int) ≤ frontier.waiting entry.1) :
    Releases nodes visited [entry] frontier (releaseChild nodes visited frontier entry) := by
  rw [releaseChild]
  split
  · next inside =>
    rw [foldl_release (waits inside)]
    constructor
    · intro other member _
      rw [List.mem_singleton.mp member]
      exact Function.update_self ..
    · intro node absent
      exact Function.update_of_ne (absent entry (List.mem_singleton.mpr rfl)).symm ..
    · by_cases last : 0 < entry.2.count visited ∧
        frontier.waiting entry.1 = entry.2.count visited
      · have isLast : lastOf visited frontier.waiting entry = true := decide_eq_true last
        rw [released, List.filter_cons, decide_eq_true inside, isLast]
        exact if_pos last
      · have notLast : lastOf visited frontier.waiting entry = false := decide_eq_false last
        rw [released, List.filter_cons, notLast, Bool.and_false]
        exact (if_neg last).trans (List.append_nil _).symm
  · next outside =>
    constructor
    · intro other member inside
      rw [List.mem_singleton.mp member] at inside
      exact absurd inside outside
    · intro node _
      rfl
    · simp [released, outside]

theorem releases_releaseAll (distinct : (dependencies.map Prod.fst).Nodup)
    (waits : ∀ entry ∈ dependencies, entry.1 ∈ nodes →
      (entry.2.count visited : Int) ≤ frontier.waiting entry.1) :
    Releases nodes visited dependencies frontier
      (releaseAll nodes visited dependencies frontier) := by
  induction dependencies generalizing frontier with
  | nil =>
    constructor
    · intro entry impossible
      exact nomatch impossible
    · intro node _
      rfl
    · exact (List.append_nil _).symm
  | cons entry dependencies induction =>
    rw [List.map_cons, List.nodup_cons] at distinct
    have elsewhere : ∀ other ∈ dependencies, other.1 ≠ entry.1 := by
      intro other member same
      exact distinct.1 (List.mem_map.mpr ⟨other, member, same⟩)
    have first := releases_releaseChild (waits entry (List.mem_cons_self ..))
    have unchanged : ∀ other ∈ dependencies,
        (releaseChild nodes visited frontier entry).waiting other.1 =
          frontier.waiting other.1 := by
      intro other member
      apply first.others
      intro single there
      rw [List.mem_singleton.mp there]
      exact (elsewhere other member).symm
    have rest := @induction (releaseChild nodes visited frontier entry) distinct.2 (by
      intro other member inside
      rw [unchanged other member]
      exact waits other (List.mem_cons_of_mem entry member) inside)
    rw [releaseAll, List.foldl_cons]
    constructor
    · intro other member inside
      rcases List.mem_cons.mp member with same | later
      · subst same
        exact (rest.others other.1 elsewhere).trans
          (first.children other (List.mem_singleton.mpr rfl) inside)
      · rw [← unchanged other later]
        exact rest.children other later inside
    · intro node absent
      have outside := rest.others node fun other member =>
        absent other (List.mem_cons_of_mem entry member)
      apply outside.trans
      apply first.others
      intro single there
      rw [List.mem_singleton.mp there]
      exact absent entry (List.mem_cons_self ..)
    · have queue := rest.queue
      rw [first.queue, released_congr unchanged, List.append_assoc] at queue
      apply queue.trans
      rw [released, released, released, ← List.map_append, ← List.filter_append]
      rfl

end Frontier

/-- The dependencies of every node, the latest first, are behind it. -/
def Ordered (dependencies : List (Node × List Node)) : List Node → Prop
  | [] => True
  | node :: earlier =>
    (∀ entry ∈ dependencies, entry.1 = node → ∀ dependency ∈ entry.2, dependency ∈ earlier) ∧
      Ordered dependencies earlier

def DependsOn (dependencies : List (Node × List Node)) (node dependency : Node) : Prop :=
  ∃ entry ∈ dependencies, entry.1 = node ∧ dependency ∈ entry.2

variable {visited : List Node}

omit [DecidableEq Node] in
theorem Ordered.mem_of_dependsOn (ordered : Ordered dependencies visited) {dependency : Node}
    (member : node ∈ visited) (depends : DependsOn dependencies node dependency) :
    dependency ∈ visited.tail := by
  induction visited with
  | nil => exact nomatch member
  | cons first earlier induction =>
    rcases List.mem_cons.mp member with same | later
    · rcases depends with ⟨entry, there, key, listed⟩
      exact ordered.1 entry there (key.trans same) dependency listed
    · exact List.mem_of_mem_tail (induction ordered.2 later)

omit [DecidableEq Node] in
theorem Ordered.acyclic (ordered : Ordered dependencies visited) (member : node ∈ visited) :
    ¬Relation.TransGen (DependsOn dependencies) node node := by
  induction visited with
  | nil => exact nomatch member
  | cons first earlier induction =>
    intro cycle
    have behind : ∀ last, Relation.TransGen (DependsOn dependencies) node last →
        last ∈ earlier := by
      intro last reached
      induction reached with
      | single depends => exact ordered.mem_of_dependsOn member depends
      | tail _ depends inner =>
        exact ordered.mem_of_dependsOn (List.mem_cons_of_mem first inner) depends
    exact induction ordered.2 (behind node cycle) cycle

/-- The nodes visited so far, the latest first, and what they leave. -/
structure Sorted (nodes : List Node) (dependencies : List (Node × List Node))
    (visited : List Node) (frontier : Frontier Node) : Prop where
  waiting : ∀ entry ∈ dependencies, entry.1 ∈ nodes →
    frontier.waiting entry.1 = entry.2.countP fun dependency => dependency ∉ visited
  distinct : (visited ++ frontier.queue).Nodup
  known : ∀ node ∈ visited ++ frontier.queue, node ∈ nodes
  ready : ∀ entry ∈ dependencies, entry.1 ∈ nodes →
    (entry.1 ∈ visited ++ frontier.queue ↔ frontier.waiting entry.1 = 0)
  ordered : Ordered dependencies visited

theorem countP_unvisited (unvisited : node ∉ visited) (dependencies : List Node) :
    dependencies.countP (fun dependency => dependency ∉ visited) =
      dependencies.countP (fun dependency => dependency ∉ node :: visited) +
        dependencies.count node := by
  induction dependencies with
  | nil => rfl
  | cons dependency dependencies induction =>
    rw [List.countP_cons, List.countP_cons, List.count_cons, induction]
    by_cases same : dependency = node
    · subst same
      simp only [unvisited, List.mem_cons_self]
      simp
      omega
    · simp only [List.mem_cons, same, false_or]
      simp [same]
      omega

theorem mem_released {nodes : List Node} {visited : Node} {waiting : Node → Int} :
    node ∈ Frontier.released nodes visited waiting dependencies ↔
      ∃ entry ∈ dependencies, entry.1 = node ∧ entry.1 ∈ nodes ∧ 0 < entry.2.count visited ∧
        waiting entry.1 = entry.2.count visited := by
  simp only [Frontier.released, List.mem_map, List.mem_filter, Bool.and_eq_true,
    decide_eq_true_eq, Frontier.lastOf]
  constructor
  · rintro ⟨entry, ⟨there, inside, last⟩, key⟩
    exact ⟨entry, there, key, inside, last⟩
  · rintro ⟨entry, there, key, inside, last⟩
    exact ⟨entry, ⟨there, inside, last⟩, key⟩

section Visiting

variable {nodes : List Node} {dependencies : List (Node × List Node)} {visited : List Node}
  {frontier : Frontier Node} {node : Node} {queue : List Node}

variable {fuel : Nat}

theorem Sorted.waiting_eq (sorted : Sorted nodes dependencies visited frontier)
    (unvisited : node ∉ visited) (there : entry ∈ dependencies) (inside : entry.1 ∈ nodes) :
    frontier.waiting entry.1 =
      entry.2.countP (fun dependency => dependency ∉ node :: visited) + entry.2.count node := by
  rw [sorted.waiting entry there inside, countP_unvisited unvisited]
  push_cast
  rfl

theorem Sorted.met (sorted : Sorted nodes dependencies visited frontier)
    (there : entry ∈ dependencies) (ready : entry.1 ∈ frontier.queue) :
    ∀ dependency ∈ entry.2, dependency ∈ visited := by
  have member := List.mem_append_right visited ready
  have inside := sorted.known entry.1 member
  have zero := (sorted.ready entry there inside).mp member
  rw [sorted.waiting entry there inside, Int.natCast_eq_zero, List.countP_eq_zero] at zero
  intro dependency listed
  by_contra unvisited
  exact zero dependency listed (decide_eq_true unvisited)

theorem Sorted.unvisited (sorted : Sorted nodes dependencies visited frontier)
    (next : frontier.queue = node :: queue) : node ∉ visited := by
  have distinct := sorted.distinct
  rw [next] at distinct
  intro earlier
  exact List.disjoint_of_nodup_append distinct earlier (List.mem_cons_self ..)

theorem Sorted.releases (sorted : Sorted nodes dependencies visited frontier)
    (keys : (dependencies.map Prod.fst).Nodup) (next : frontier.queue = node :: queue) :
    Frontier.Releases nodes node dependencies { frontier with queue }
      (Frontier.releaseAll nodes node dependencies { frontier with queue }) := by
  apply Frontier.releases_releaseAll keys
  intro entry there inside
  have count := sorted.waiting_eq (sorted.unvisited next) there inside
  dsimp only
  omega

theorem Sorted.step (sorted : Sorted nodes dependencies visited frontier)
    (keys : (dependencies.map Prod.fst).Nodup) (next : frontier.queue = node :: queue) :
    Sorted nodes dependencies (node :: visited)
      (Frontier.releaseAll nodes node dependencies { frontier with queue }) := by
  have distinct := sorted.distinct
  rw [next] at distinct
  have unvisited := sorted.unvisited next
  have releases := sorted.releases keys next
  have queued : (Frontier.releaseAll nodes node dependencies { frontier with queue }).queue =
      queue ++ Frontier.released nodes node frontier.waiting dependencies := releases.queue
  have moved : (node :: visited ++ (queue ++ Frontier.released nodes node frontier.waiting
      dependencies)).Perm ((visited ++ node :: queue) ++
        Frontier.released nodes node frontier.waiting dependencies) := by
    rw [← List.append_assoc]
    exact List.perm_middle.symm.append_right _
  have fresh : ∀ other ∈ Frontier.released nodes node frontier.waiting dependencies,
      other ∉ visited ++ frontier.queue := by
    intro other member earlier
    rcases mem_released.mp member with ⟨entry, there, key, inside, positive, last⟩
    rw [← key, sorted.ready entry there inside] at earlier
    omega
  constructor
  · intro entry there inside
    have count := sorted.waiting_eq unvisited there inside
    rw [releases.children entry there inside]
    dsimp only
    omega
  · rw [queued, moved.nodup_iff, List.nodup_append]
    refine ⟨distinct, keys.sublist (List.filter_sublist.map Prod.fst), ?_⟩
    intro earlier member other new same
    rw [← next] at member
    exact fresh other new (same ▸ member)
  · rw [queued]
    intro other member
    rcases List.mem_append.mp (moved.mem_iff.mp member) with earlier | new
    · rw [← next] at earlier
      exact sorted.known other earlier
    · rcases mem_released.mp new with ⟨entry, _, key, inside, _⟩
      exact key ▸ inside
  · intro entry there inside
    have count := sorted.waiting_eq unvisited there inside
    rw [queued, moved.mem_iff, List.mem_append, ← next, sorted.ready entry there inside,
      mem_released, releases.children entry there inside]
    constructor
    · rintro (zero | ⟨other, otherThere, key, _, _, last⟩)
      · dsimp only
        omega
      · have same : other = entry := List.inj_on_of_nodup_map keys otherThere there key
        subst same
        exact Int.sub_eq_zero.mpr last
    · intro zero
      by_cases none : entry.2.count node = 0
      · left
        dsimp only at zero
        omega
      · exact .inr ⟨entry, there, rfl, inside, Nat.pos_of_ne_zero none, Int.sub_eq_zero.mp zero⟩
  · refine ⟨?_, sorted.ordered⟩
    intro entry there key
    apply sorted.met there
    rw [key, next]
    exact List.mem_cons_self ..

theorem Sorted.all (sorted : Sorted nodes dependencies visited frontier)
    (enough : nodes.length ≤ visited.length) : ∀ node ∈ nodes, node ∈ visited := by
  have distinct := (List.nodup_append.mp sorted.distinct).1
  have part : visited.Subperm nodes := List.subperm_of_subset distinct fun node member =>
    sorted.known node (List.mem_append_left _ member)
  intro node member
  exact (part.perm_of_length_le enough).mem_iff.mpr member

/-- If as many nodes are visited as there are, they are visited in an order in
which every dependency comes first. -/
theorem Sorted.order (keys : (dependencies.map Prod.fst).Nodup)
    (sorted : Sorted nodes dependencies visited frontier)
    (all : nodes.length ≤ visited.length + frontier.visit nodes dependencies fuel) :
    ∃ order, Ordered dependencies order ∧ ∀ node ∈ nodes, node ∈ order := by
  induction fuel generalizing visited frontier with
  | zero => exact ⟨visited, sorted.ordered, sorted.all all⟩
  | succ fuel induction =>
    rw [Frontier.visit] at all
    split at all
    · exact ⟨visited, sorted.ordered, sorted.all all⟩
    · next node queue next =>
      apply induction (sorted.step keys next)
      rw [List.length_cons]
      omega

theorem Sorted.queue_eq_nil (sorted : Sorted nodes dependencies visited frontier)
    (enough : nodes.length ≤ visited.length) : frontier.queue = [] := by
  have part := (List.subperm_of_subset sorted.distinct sorted.known).length_le
  rw [List.length_append] at part
  exact List.length_eq_zero_iff.mp (by omega)

/-- No node is visited twice: fuel for every node is enough. -/
theorem Sorted.visit_add (keys : (dependencies.map Prod.fst).Nodup)
    (sorted : Sorted nodes dependencies visited frontier)
    (enough : nodes.length ≤ visited.length + fuel) (extra : Nat) :
    frontier.visit nodes dependencies (fuel + extra) = frontier.visit nodes dependencies fuel := by
  induction fuel generalizing visited frontier with
  | zero =>
    have empty := sorted.queue_eq_nil enough
    rw [Nat.zero_add]
    cases extra with
    | zero => rfl
    | succ extra =>
      rw [Frontier.visit, Frontier.visit]
      simp only [empty]
  | succ fuel induction =>
    rw [Nat.add_right_comm, Frontier.visit, Frontier.visit]
    cases next : frontier.queue with
    | nil => rfl
    | cons =>
      dsimp only
      congr 1
      apply induction (sorted.step keys next)
      rw [List.length_cons]
      omega

theorem sorted_initial (distinct : nodes.Nodup) (keys : (dependencies.map Prod.fst).Nodup) :
    Sorted nodes dependencies [] (Frontier.initial nodes dependencies) := by
  have waiting : ∀ entry ∈ dependencies,
      (Frontier.initial nodes dependencies).waiting entry.1 = entry.2.length := by
    intro entry there
    rw [Frontier.initial]
    dsimp only
    split
    · next other found =>
      have key : other.1 = entry.1 := by simpa using List.find?_some found
      have same : other = entry :=
        List.inj_on_of_nodup_map keys (List.mem_of_find?_eq_some found) there key
      rw [same]
    · next missing =>
      exact absurd (decide_eq_true rfl) (List.find?_eq_none.mp missing entry there)
  constructor
  · intro entry there _
    rw [waiting entry there]
    simp
  · exact distinct.filter _
  · intro node member
    exact (List.mem_filter.mp member).1
  · intro entry there inside
    rw [List.nil_append, Frontier.initial, List.mem_filter]
    exact ⟨fun ready => of_decide_eq_true ready.2, fun zero => ⟨inside, decide_eq_true zero⟩⟩
  · trivial

theorem acyclic_of_visit (distinct : nodes.Nodup) (keys : (dependencies.map Prod.fst).Nodup)
    (known : ∀ entry ∈ dependencies, entry.1 ∈ nodes)
    (all : (Frontier.initial nodes dependencies).visit nodes dependencies fuel = nodes.length)
    (node : Node) : ¬Relation.TransGen (DependsOn dependencies) node node := by
  rcases (sorted_initial distinct keys).order keys (by rw [all]; exact Nat.le_add_left ..) with
    ⟨order, ordered, complete⟩
  intro cycle
  have inside : node ∈ nodes := by
    rcases Relation.TransGen.head'_iff.mp cycle with ⟨_, ⟨entry, there, key, _⟩, _⟩
    exact key ▸ known entry there
  exact ordered.acyclic (complete node inside) cycle

def DependsWithin (nodes : List Node) (dependencies : List (Node × List Node))
    (node dependency : Node) : Prop :=
  node ∈ nodes ∧ dependency ∈ nodes ∧ DependsOn dependencies node dependency

theorem Sorted.visited_at_end (keys : (dependencies.map Prod.fst).Nodup) (fuel : Nat)
    (sorted : Sorted nodes dependencies visited frontier)
    (enough : nodes.length ≤ visited.length + fuel) :
    ∃ last final, Sorted nodes dependencies last final ∧ final.queue = [] ∧
      last.length = visited.length + frontier.visit nodes dependencies fuel ∧
      ∀ node ∈ visited ++ frontier.queue, node ∈ last := by
  induction fuel generalizing visited frontier with
  | zero =>
    have empty := sorted.queue_eq_nil enough
    refine ⟨visited, frontier, sorted, empty, rfl, fun node member => ?_⟩
    rwa [empty, List.append_nil] at member
  | succ fuel induction =>
    rw [Frontier.visit]
    cases next : frontier.queue with
    | nil =>
      refine ⟨visited, frontier, sorted, next, rfl, fun node member => ?_⟩
      rwa [List.append_nil] at member
    | cons node queue =>
      have stepped := sorted.step keys next
      rcases induction stepped (by rw [List.length_cons]; omega) with
        ⟨last, final, finished, empty, count, kept⟩
      refine ⟨last, final, finished, empty, ?_, ?_⟩
      · rw [count, List.length_cons]
        dsimp only
        omega
      · intro other member
        apply kept
        rcases List.mem_append.mp member with earlier | queued
        · exact List.mem_append_left _ (List.mem_cons_of_mem node earlier)
        · rcases List.mem_cons.mp queued with same | waiting
          · rw [same]
            exact List.mem_append_left _ List.mem_cons_self
          · apply List.mem_append_right
            rw [(sorted.releases keys next).queue]
            exact List.mem_append_left _ waiting

theorem initial_ready (inside : node ∈ nodes) (none : ∀ entry ∈ dependencies, entry.1 ≠ node) :
    node ∈ (Frontier.initial nodes dependencies).queue := by
  have missing : (dependencies.find? fun entry => entry.1 = node) = Option.none := by
    rw [List.find?_eq_none]
    intro entry there
    simpa using none entry there
  rw [Frontier.initial, List.mem_filter]
  refine ⟨inside, decide_eq_true ?_⟩
  dsimp only
  rw [missing]

theorem wellFounded_dependsWithin
    (acyclic : ∀ node, ¬Relation.TransGen (DependsWithin nodes dependencies) node node) :
    WellFounded fun dependency node : { node // node ∈ nodes } =>
      Relation.TransGen (DependsWithin nodes dependencies) node.1 dependency.1 := by
  have transitive : IsTrans { node // node ∈ nodes } fun dependency node =>
      Relation.TransGen (DependsWithin nodes dependencies) node.1 dependency.1 :=
    ⟨fun _ _ _ first second => second.trans first⟩
  have irreflexive : Std.Irrefl fun dependency node : { node // node ∈ nodes } =>
      Relation.TransGen (DependsWithin nodes dependencies) node.1 dependency.1 :=
    ⟨fun node => acyclic node.1⟩
  exact Finite.wellFounded_of_trans_of_irrefl _

theorem visit_of_acyclic (distinct : nodes.Nodup) (keys : (dependencies.map Prod.fst).Nodup)
    (known : ∀ entry ∈ dependencies, entry.1 ∈ nodes → ∀ dependency ∈ entry.2, dependency ∈ nodes)
    (acyclic : ∀ node, ¬Relation.TransGen (DependsWithin nodes dependencies) node node) :
    (Frontier.initial nodes dependencies).visit nodes dependencies nodes.length = nodes.length := by
  rcases (sorted_initial distinct keys).visited_at_end keys nodes.length (by simp) with
    ⟨last, final, finished, empty, count, kept⟩
  have all : ∀ node : { node // node ∈ nodes }, node.1 ∈ last := by
    intro node
    induction node using (wellFounded_dependsWithin acyclic).induction with
    | _ node induction =>
      by_cases entered : ∃ entry ∈ dependencies, entry.1 = node.1
      · rcases entered with ⟨entry, there, key⟩
        have inside : entry.1 ∈ nodes := key ▸ node.2
        have met : entry.2.countP (fun dependency => dependency ∉ last) = 0 := by
          rw [List.countP_eq_zero]
          intro dependency listed
          have target := known entry there inside dependency listed
          have depends : DependsWithin nodes dependencies node.1 dependency :=
            ⟨node.2, target, entry, there, key, listed⟩
          have visited := induction ⟨dependency, target⟩ (.single depends)
          simpa using visited
        have ready := (finished.ready entry there inside).mpr (by
          rw [finished.waiting entry there inside, met]
          rfl)
        rw [empty, List.append_nil] at ready
        exact key ▸ ready
      · apply kept
        apply List.mem_append_right
        exact initial_ready node.2 fun entry there key => entered ⟨entry, there, key⟩
  have fits := finished.known
  have unique := finished.distinct
  rw [empty, List.append_nil] at fits unique
  have same : last.Perm nodes := (List.perm_ext_iff_of_nodup unique distinct).mpr fun node =>
    ⟨fits node, fun inside => all ⟨node, inside⟩⟩
  rw [List.length_nil, Nat.zero_add] at count
  exact count.symm.trans same.length_eq

end Visiting

end AgentC
