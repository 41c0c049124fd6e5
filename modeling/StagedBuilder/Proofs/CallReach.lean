/-
This file collects what the graph that is built from the root's methods and a table
of steps says about chains of calls.

Building it is a search of the table, and whatever is read off it is a search of its
edges. Either search ends because nothing is queued any more. What the searches find
are the ends of chains of calls: from the root for what is reachable and for the
steps and targets among that, and from the step that a method returns for what the
method can still lead to.
-/

import StagedBuilder.Proofs.CallGraph

namespace StagedBuilder.CallGraph

open Relation (ReflTransGen)

variable {rootMethods : List Method} {table : Table}

/-! ### Nodes and edges -/

theorem reached_of_mem_discovered {node : CallNode}
    (member : node ∈ discovered rootMethods table) : Reached rootMethods table node := by
  have chain := Reachability.mem_reachableFrom.1 member
  refine ReflTransGen.mono (fun source target leads => ?_) _ _ chain
  obtain ⟨method, offered, index, returns, rfl⟩ := leads_stepEdges.1 leads
  rw [← node_of_step? returns]
  exact .call offered

/-- The edges of the graph are the calls from what chains of calls come to. -/
theorem mem_edges_build_iff {source target : CallNode} :
    (source, target) ∈ (build rootMethods table).edges ↔
      Reached rootMethods table source ∧ Calls rootMethods table source target := by
  refine ⟨fun edge => ⟨?_, calls_of_leads edge⟩,
    fun ⟨reached, calls⟩ => leads_of_calls reached calls⟩
  obtain ⟨node, found, method, offered, listed⟩ := mem_edges_build.1 edge
  have reached := reached_of_mem_discovered found
  rcases List.mem_cons.1 listed with same | onward
  · rw [(Prod.mk.inj same).1]
    exact reached
  · obtain ⟨constructor, -, same⟩ := List.mem_map.1 onward
    rw [← (Prod.mk.inj same).1]
    exact reached.tail (.call offered)

theorem mem_nodes_build {node : CallNode} :
    node ∈ (build rootMethods table).nodes ↔ Reached rootMethods table node := by
  have listed : node ∈ (build rootMethods table).nodes ↔ node = .root ∨
      ∃ source target, (source, target) ∈ (build rootMethods table).edges ∧
        (node = source ∨ node = target) := by
    simp [build]
  rw [listed]
  refine ⟨?_, fun reached => ?_⟩
  · rintro (rfl | ⟨source, target, edge, rfl | rfl⟩)
    · exact .refl
    · exact (mem_edges_build_iff.1 edge).1
    · obtain ⟨reached, calls⟩ := mem_edges_build_iff.1 edge
      exact reached.tail calls
  · rcases ReflTransGen.cases_tail reached with isRoot | ⟨before, reachedBefore, calls⟩
    · exact .inl isRoot
    · exact .inr ⟨before, node, mem_edges_build_iff.2 ⟨reachedBefore, calls⟩, .inr rfl⟩

/-- The steps of the graph are those that the search of the table has found. -/
theorem mem_discovered_iff {index : Nat} :
    .step index ∈ discovered rootMethods table ↔ .step index ∈ (build rootMethods table).nodes := by
  refine ⟨fun found => mem_nodes_build.2 (reached_of_mem_discovered found), fun isNode => ?_⟩
  exact mem_discovered (mem_nodes_build.1 isNode) fun constructor => CallNode.noConfusion

/-! ### Methods -/

theorem methodReach_of_step {graph : CallGraph} {method : Method} {index : Nat}
    (returns : method.result = .step index) :
    graph.methodReach method =
      if CallNode.step index ∈ graph.nodes then graph.constructorsFrom (.step index) else [] := by
  simp [methodReach, returns]

/-- What a graph says is what chains of calls come to, whatever the table of steps: steps may lead
back to each other, be missing from the table, or be led to by nothing. -/
structure ReachesByCalls (rootMethods : List Method) (table : Table) : Prop where
  /-- The table is searched until nothing is queued any more, and so is the graph from any node. -/
  discovers : ReflTransGen (Reachability.Round (stepEdges rootMethods table)) ([.root], [])
    ([], discovered rootMethods table)
  searches : ∀ start, ReflTransGen (Reachability.Round (build rootMethods table).edges)
    ([start], []) ([], (build rootMethods table).reachableFrom start)
  found : ∀ index, .step index ∈ discovered rootMethods table ↔
    .step index ∈ (build rootMethods table).nodes
  /-- The nodes are those that chains of calls come to, and the edges are the calls from there. -/
  nodes : ∀ node, node ∈ (build rootMethods table).nodes ↔ Reached rootMethods table node
  edges : ∀ source target, (source, target) ∈ (build rootMethods table).edges ↔
    Reached rootMethods table source ∧ Calls rootMethods table source target
  reachable : (build rootMethods table).reachable.Nodup ∧
    ∀ node, node ∈ (build rootMethods table).reachable ↔ Reached rootMethods table node
  liveSteps : Lists.Enumerates (build rootMethods table).liveSteps fun index =>
    .step index ∈ (build rootMethods table).reachable
  reachableConstructors : Lists.Enumerates (build rootMethods table).reachableConstructors fun id =>
    .target id ∈ (build rootMethods table).reachable
  /-- From a method that returns a step which has been found, chains of calls go on from the
  step. -/
  throughStep : ∀ method index, method.result = .step index →
    .step index ∈ discovered rootMethods table →
      Lists.Enumerates ((build rootMethods table).methodReach method) fun id =>
        ReflTransGen (Calls rootMethods table) (.step index) (.target id)
  /-- Other steps lead nowhere. -/
  throughNothing : ∀ method index, method.result = .step index →
    .step index ∉ discovered rootMethods table →
      (build rootMethods table).methodReach method = []
  toTarget : ∀ method value, method.result = .product value →
    (build rootMethods table).methodReach method = [value.constructor]

/-- Reachability in the graph that is built from any methods and any table is reachability by chains
of calls. -/
theorem reachesByCalls_build (rootMethods : List Method) (table : Table) :
    ReachesByCalls rootMethods table where
  discovers := Reachability.rounds_reachableFrom _ _
  searches start := Reachability.rounds_reachableFrom _ start
  found _ := mem_discovered_iff
  nodes _ := mem_nodes_build
  edges _ _ := mem_edges_build_iff
  reachable := ⟨Reachability.nodup_reachableFrom _ _, fun _ => mem_reachable_build⟩
  liveSteps := enumerates_liveSteps _
  reachableConstructors := enumerates_constructorsFrom _ .root
  throughStep method index returns found := by
    have reached : Reached rootMethods table (.step index) := reached_of_mem_discovered found
    rw [methodReach_of_step returns, if_pos (mem_discovered_iff.1 found)]
    refine (enumerates_constructorsFrom _ _).congr fun id => ?_
    exact mem_reachableFrom_build reached
  throughNothing method index returns unfound := by
    rw [methodReach_of_step returns, if_neg (mt mem_discovered_iff.2 unfound)]
  toTarget method value returns := by
    rw [methodReach, returns]

/-- Two steps lead to each other, one of them to a step that the table does not have, and nothing
leads to the last one. -/
example :
    let leading (index : Nat) : Method := .supply {
      name := "With", source := ⟨0, 0, "id", .simple "Int"⟩, arguments := []
      typeParameters := [], result := .step index, documentation := none, priority := 0
      location := {} }
    let table : Table := [some ⟨[leading 1, leading 7], none⟩, some ⟨[leading 0], some 4⟩,
      some ⟨[leading 0], some 5⟩]
    let graph := build [leading 0] table
    graph.liveSteps = [0, 1, 7] ∧ graph.reachableConstructors = [4] ∧
      graph.methodReach (leading 1) = [4] ∧ graph.methodReach (leading 2) = [] := by
  cbv

end StagedBuilder.CallGraph
