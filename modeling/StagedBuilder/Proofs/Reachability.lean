/-
This file shows that the breadth-first search of a list of edges finds exactly the
nodes to which a chain of edges leads, and finds each of them once.

That nothing else is found is an induction along the search. That everything is
found rests on two facts which every round keeps: what a visited node leads to is
visited or queued, and the queued nodes together with the edges of nodes not yet
visited are no more than the fuel that is left. When the fuel is used up the queue
is therefore empty, and the visited nodes are closed under the edges.
-/

import Mathlib.Data.List.Basic
import Mathlib.Logic.Relation
import StagedBuilder.Reachability

namespace StagedBuilder.Reachability

variable {Node : Type}

/-- Whether an edge leads from one node to another. -/
def Leads (edges : List (Node × Node)) (source target : Node) : Prop := (source, target) ∈ edges

variable [DecidableEq Node]

theorem mem_successors {edges : List (Node × Node)} {source target : Node} :
    target ∈ successors edges source ↔ Leads edges source target := by
  unfold successors Leads
  simp only [List.mem_map, List.mem_filter, decide_eq_true_eq, Prod.exists, exists_eq_right]

/-! ### Nothing else is found -/

/-- A property of all queued and visited nodes that passes along the edges holds of everything
the search finds. -/
theorem search_forall {edges : List (Node × Node)} {property : Node → Prop}
    (passes : ∀ source target, property source → Leads edges source target → property target)
    (fuel : Nat) (queue visited : List Node) (ofQueue : ∀ node ∈ queue, property node)
    (ofVisited : ∀ node ∈ visited, property node) :
    ∀ node ∈ search edges fuel queue visited, property node := by
  fun_induction search edges fuel queue visited with
  | case1 queue visited => exact ofVisited
  | case2 fuel visited => exact ofVisited
  | case3 fuel node queue visited seen inductionHypothesis =>
    exact inductionHypothesis (fun other member => ofQueue other (List.mem_cons_of_mem _ member))
      ofVisited
  | case4 fuel node queue visited unseen inductionHypothesis =>
    have ofNode : property node := ofQueue node List.mem_cons_self
    refine inductionHypothesis (fun other member => ?_) (fun other member => ?_)
    · rcases List.mem_append.1 member with inQueue | isSuccessor
      · exact ofQueue other (List.mem_cons_of_mem _ inQueue)
      · exact passes node other ofNode (mem_successors.1 isSuccessor)
    · rcases List.mem_append.1 member with inVisited | isNode
      · exact ofVisited other inVisited
      · exact List.mem_singleton.1 isNode ▸ ofNode

/-- No node is visited twice. -/
theorem nodup_search (edges : List (Node × Node)) (fuel : Nat) (queue visited : List Node)
    (distinct : visited.Nodup) : (search edges fuel queue visited).Nodup := by
  fun_induction search edges fuel queue visited with
  | case1 queue visited => exact distinct
  | case2 fuel visited => exact distinct
  | case3 fuel node queue visited seen inductionHypothesis => exact inductionHypothesis distinct
  | case4 fuel node queue visited unseen inductionHypothesis =>
    refine inductionHypothesis ?_
    rw [List.nodup_append]
    refine ⟨distinct, by simp, ?_⟩
    intro visitedNode member other isNode same
    rw [List.mem_singleton] at isNode
    exact unseen (isNode ▸ same ▸ member)

/-! ### One round after another -/

/-- The edges that start at nodes not yet visited. -/
def untaken (edges : List (Node × Node)) (visited : List Node) : List (Node × Node) :=
  edges.filter (·.1 ∉ visited)

/-- Visiting a node takes exactly its own edges. -/
theorem length_untaken (edges : List (Node × Node)) {visited : List Node} {node : Node}
    (unseen : node ∉ visited) :
    (untaken edges visited).length =
      (successors edges node).length + (untaken edges (visited ++ [node])).length := by
  have taken : (untaken edges visited).filter (·.1 = node) = edges.filter (·.1 = node) := by
    unfold untaken
    rw [List.filter_filter]
    refine List.filter_congr fun edge _ => ?_
    by_cases same : edge.1 = node
    · simp [same, unseen]
    · simp [same]
  have left : (untaken edges visited).filter (fun edge => !decide (edge.1 = node)) =
      untaken edges (visited ++ [node]) := by
    unfold untaken
    rw [List.filter_filter]
    refine List.filter_congr fun edge _ => ?_
    by_cases same : edge.1 = node <;> simp [same]
  rw [List.length_eq_length_filter_add (l := untaken edges visited) (fun edge => edge.1 = node),
    taken, left, successors, List.length_map]

/-- One round of the search: the first queued node is left out if it has been visited, and is
visited otherwise. -/
inductive Round (edges : List (Node × Node)) :
    List Node × List Node → List Node × List Node → Prop
  | skip {node : Node} {queue visited : List Node} (seen : node ∈ visited) :
      Round edges (node :: queue, visited) (queue, visited)
  | visit {node : Node} {queue visited : List Node} (unseen : node ∉ visited) :
      Round edges (node :: queue, visited)
        (queue ++ successors edges node, visited ++ [node])

/-- The rounds of a search with enough fuel lead to where nothing is queued any more. -/
theorem rounds_search (edges : List (Node × Node)) (fuel : Nat) (queue visited : List Node)
    (enough : queue.length + (untaken edges visited).length ≤ fuel) :
    Relation.ReflTransGen (Round edges) (queue, visited)
      ([], search edges fuel queue visited) := by
  fun_induction search edges fuel queue visited with
  | case1 queue visited =>
    have noQueue : queue = [] := List.length_eq_zero_iff.1 (by omega)
    rw [noQueue]
  | case2 fuel visited => exact .refl
  | case3 fuel node queue visited seen inductionHypothesis =>
    rw [List.length_cons] at enough
    exact .head (.skip seen) (inductionHypothesis (by omega))
  | case4 fuel node queue visited unseen inductionHypothesis =>
    have taken := length_untaken edges unseen
    rw [List.length_cons] at enough
    exact .head (.visit unseen) (inductionHypothesis (by rw [List.length_append]; omega))

/-! ### Everything is found -/

/-- Every edge from a visited node leads to a node that is visited or queued. -/
def Pending (edges : List (Node × Node)) (queue visited : List Node) : Prop :=
  ∀ source ∈ visited, ∀ target, Leads edges source target → target ∈ visited ∨ target ∈ queue

omit [DecidableEq Node] in
theorem Pending.skip {edges : List (Node × Node)} {node : Node} {queue visited : List Node}
    (pending : Pending edges (node :: queue) visited) (seen : node ∈ visited) :
    Pending edges queue visited := by
  intro source member target leads
  rcases pending source member target leads with inVisited | inQueue
  · exact Or.inl inVisited
  · rcases List.mem_cons.1 inQueue with isNode | inRest
    · exact Or.inl (isNode ▸ seen)
    · exact Or.inr inRest

theorem Pending.visit {edges : List (Node × Node)} {node : Node} {queue visited : List Node}
    (pending : Pending edges (node :: queue) visited) :
    Pending edges (queue ++ successors edges node) (visited ++ [node]) := by
  intro source member target leads
  rcases List.mem_append.1 member with inVisited | isNode
  · rcases pending source inVisited target leads with targetVisited | targetQueued
    · exact Or.inl (List.mem_append_left _ targetVisited)
    · rcases List.mem_cons.1 targetQueued with isNode | inRest
      · exact Or.inl (List.mem_append_right _ (List.mem_singleton.2 isNode))
      · exact Or.inr (List.mem_append_left _ inRest)
  · rw [List.mem_singleton.1 isNode] at leads
    exact Or.inr (List.mem_append_right _ (mem_successors.2 leads))

/-- Where the rounds come to an end there is a set of nodes that is closed under the edges and holds
all that was queued or visited. -/
theorem closed_of_rounds {edges : List (Node × Node)} {state : List Node × List Node}
    {final : List Node} (rounds : Relation.ReflTransGen (Round edges) state ([], final))
    (pending : Pending edges state.1 state.2) :
    (∀ node ∈ state.1, node ∈ final) ∧ (∀ node ∈ state.2, node ∈ final) ∧
      ∀ source ∈ final, ∀ target, Leads edges source target → target ∈ final := by
  induction rounds using Relation.ReflTransGen.head_induction_on with
  | refl =>
    refine ⟨by simp, fun node member => member, fun source member target leads => ?_⟩
    simpa using pending source member target leads
  | head round _ inductionHypothesis =>
    cases round with
    | skip seen =>
      obtain ⟨ofQueue, ofVisited, closed⟩ := inductionHypothesis (pending.skip seen)
      exact ⟨List.forall_mem_cons.2 ⟨ofVisited _ seen, ofQueue⟩, ofVisited, closed⟩
    | visit unseen =>
      obtain ⟨ofQueue, ofVisited, closed⟩ := inductionHypothesis pending.visit
      obtain ⟨ofRest, -⟩ := List.forall_mem_append.1 ofQueue
      obtain ⟨ofEarlier, ofNode⟩ := List.forall_mem_append.1 ofVisited
      exact ⟨List.forall_mem_cons.2 ⟨ofNode _ (List.mem_singleton_self _), ofRest⟩, ofEarlier,
        closed⟩

/-- The search ends because nothing is queued any more: further fuel is left over. -/
theorem search_add_fuel (edges : List (Node × Node)) (fuel extra : Nat)
    (queue visited : List Node)
    (enough : queue.length + (untaken edges visited).length ≤ fuel) :
    search edges (fuel + extra) queue visited = search edges fuel queue visited := by
  fun_induction search edges fuel queue visited with
  | case1 queue visited =>
    have noQueue : queue = [] := List.length_eq_zero_iff.1 (by omega)
    subst noQueue
    cases extra <;> rfl
  | case2 fuel visited => rw [Nat.succ_add, search]
  | case3 fuel node queue visited seen inductionHypothesis =>
    rw [List.length_cons] at enough
    rw [Nat.succ_add, search, if_pos seen]
    exact inductionHypothesis (by omega)
  | case4 fuel node queue visited unseen inductionHypothesis =>
    have taken := length_untaken edges unseen
    rw [List.length_cons] at enough
    rw [Nat.succ_add, search, if_neg unseen]
    exact inductionHypothesis (by rw [List.length_append]; omega)

/-- One unit of fuel for every edge and one more are enough for a search from one node. -/
theorem enough_fuel (edges : List (Node × Node)) (start : Node) :
    [start].length + (untaken edges []).length ≤ edges.length + 1 := by
  have bound := List.length_filter_le (fun edge => edge.1 ∉ ([] : List Node)) edges
  rw [List.length_singleton, untaken]
  omega

/-- The search from a node ends because nothing is queued any more. -/
theorem rounds_reachableFrom (edges : List (Node × Node)) (start : Node) :
    Relation.ReflTransGen (Round edges) ([start], []) ([], reachableFrom edges start) :=
  rounds_search edges _ [start] [] (enough_fuel edges start)

/-! ### The search and chains of edges -/

/-- The search finds exactly the nodes to which a chain of edges leads. -/
theorem mem_reachableFrom {edges : List (Node × Node)} {start node : Node} :
    node ∈ reachableFrom edges start ↔ Relation.ReflTransGen (Leads edges) start node := by
  constructor
  · intro member
    have passes : ∀ source target, Relation.ReflTransGen (Leads edges) start source →
        Leads edges source target → Relation.ReflTransGen (Leads edges) start target :=
      fun source target chain leads => chain.tail leads
    refine search_forall passes _ [start] [] (fun other isStart => ?_) (by simp) node member
    rw [List.mem_singleton.1 isStart]
  · intro chain
    obtain ⟨ofQueue, -, closed⟩ := closed_of_rounds (rounds_reachableFrom edges start)
      fun source member => absurd member List.not_mem_nil
    induction chain with
    | refl => exact ofQueue start (List.mem_singleton_self start)
    | tail _ leads inductionHypothesis => exact closed _ inductionHypothesis _ leads

/-- No node is found twice. -/
theorem nodup_reachableFrom (edges : List (Node × Node)) (start : Node) :
    (reachableFrom edges start).Nodup :=
  nodup_search edges _ [start] [] List.nodup_nil

end StagedBuilder.Reachability
