/-
This file shows that call graphs commute with views. A view renames nothing in a graph but
its targets, and it gives different targets different numbers. A search asks nothing of
nodes but whether they are the same, so it goes through the graph as seen just as it goes
through the graph itself. What is live, what is kept and what numbers the kept steps get is
therefore the same however it is looked at.
-/

import StagedBuilder.Assembly.Basic
import StagedBuilder.Proofs.Lists
import StagedBuilder.Proofs.View

namespace StagedBuilder

/-! ### Searches -/

namespace Reachability

variable {Node Image : Type} [DecidableEq Node] [DecidableEq Image] {image : Node → Image}

/-- The edges with both ends seen through a function. -/
def mapEdges (image : Node → Image) (edges : List (Node × Node)) : List (Image × Image) :=
  edges.map fun edge => (image edge.1, image edge.2)

theorem successors_mapEdges (injective : Function.Injective image) (edges : List (Node × Node))
    (node : Node) :
    successors (mapEdges image edges) (image node) = (successors edges node).map image := by
  have leaving : (mapEdges image edges).filter (·.1 = image node) =
      mapEdges image (edges.filter (·.1 = node)) := by
    rw [mapEdges, List.filter_map, mapEdges]
    refine congrArg (List.map _) (List.filter_congr fun edge _ => ?_)
    exact decide_eq_decide.2 injective.eq_iff
  rw [successors, leaving, mapEdges, List.map_map, successors, List.map_map]
  rfl

theorem search_mapEdges (injective : Function.Injective image) (edges : List (Node × Node))
    (fuel : Nat) (queue visited : List Node) :
    search (mapEdges image edges) fuel (queue.map image) (visited.map image) =
      (search edges fuel queue visited).map image := by
  fun_induction search edges fuel queue visited with
  | case1 queue visited => rfl
  | case2 fuel visited => rfl
  | case3 fuel node queue visited seen inductionHypothesis =>
    rw [List.map_cons, search, if_pos (List.mem_map_of_mem seen), inductionHypothesis]
  | case4 fuel node queue visited unseen inductionHypothesis =>
    have unseenImage : image node ∉ visited.map image := fun seen =>
      unseen ((List.mem_map_of_injective injective).1 seen)
    rw [List.map_cons, search, if_neg unseenImage, successors_mapEdges injective,
      ← inductionHypothesis, List.map_append, List.map_append, List.map_singleton]

theorem reachableFrom_mapEdges (injective : Function.Injective image)
    (edges : List (Node × Node)) (start : Node) :
    reachableFrom (mapEdges image edges) (image start) = (reachableFrom edges start).map image := by
  have length : (mapEdges image edges).length = edges.length := List.length_map _
  rw [reachableFrom, length, reachableFrom, ← search_mapEdges injective]
  rfl

end Reachability

namespace View

open CallGraph Reachability

/-! ### Nodes and stops -/

/-- A node of a graph, targets by the numbers by which they are seen. -/
def node (view : View) : CallNode → CallNode
  | .root => .root
  | .step index => .step index
  | .target constructor => .target (view.number constructor)

def stop (view : View) (stop : Stop) : Stop :=
  ⟨stop.methods.map view.method, stop.arrival.map view.number⟩

def table (view : View) (table : Table) : Table := table.map (Option.map view.stop)

def graph (view : View) (graph : CallGraph) : CallGraph :=
  ⟨graph.nodes.map view.node, mapEdges view.node graph.edges⟩

variable (view : View)

theorem node_injective : Function.Injective view.node := by
  intro left right same
  cases left <;> cases right <;> simp [node, view.increasing.injective.eq_iff] at same ⊢
  all_goals exact same

theorem node_result (result : Result) : (view.result result).node = view.node result.node := by
  cases result <;> rfl

theorem stop_step (step : Step) : (view.step step).stop = view.stop step.stop := by
  cases step <;> rfl

theorem table_walk (walk : Walk) : (view.walk walk).table = view.table walk.table := by
  unfold Walk.table View.table View.walk
  rw [List.map_map, List.map_map]
  refine List.map_congr_left fun place _ => ?_
  cases place with
  | none => rfl
  | some step => exact congrArg some (view.stop_step step)

theorem stop?_table (table : Table) (index : Nat) :
    (view.table table).stop? index = (table.stop? index).map view.stop := by
  unfold Table.stop? View.table
  rw [List.getElem?_map]
  cases table[index]? with
  | none => rfl
  | some place => rfl

/-! ### Graphs -/

variable (rootMethods : List Method) (table : Table)

theorem methodEdges_method (source : CallNode) (method : Method) :
    methodEdges (view.table table) (view.node source) (view.method method) =
      mapEdges view.node (methodEdges table source method) := by
  have arrival : ((method.step?.bind (view.table table).stop?).bind Stop.arrival) =
      ((method.step?.bind table.stop?).bind Stop.arrival).map view.number := by
    cases method.step? with
    | none => rfl
    | some index =>
      rw [Option.bind_some, stop?_table, Option.bind_some]
      cases table.stop? index <;> rfl
  simp only [methodEdges, mapEdges, step?_method, result_method, node_result, arrival,
    List.map_cons]
  cases (method.step?.bind table.stop?).bind Stop.arrival <;> rfl

theorem methodsAt_node (node : CallNode) :
    methodsAt (rootMethods.map view.method) (view.table table) (view.node node) =
      (methodsAt rootMethods table node).map view.method := by
  cases node with
  | root => rfl
  | step index =>
    show (((view.table table).stop? index).map Stop.methods).getD [] =
      (((table.stop? index).map Stop.methods).getD []).map view.method
    rw [stop?_table]
    cases table.stop? index <;> rfl
  | target constructor => rfl

theorem nodeEdges_node (node : CallNode) :
    nodeEdges (rootMethods.map view.method) (view.table table) (view.node node) =
      mapEdges view.node (nodeEdges rootMethods table node) := by
  rw [nodeEdges, methodsAt_node, List.flatMap_map, nodeEdges, mapEdges, List.map_flatMap]
  exact List.flatMap_congr fun method _ => view.methodEdges_method table node method

/-- The nodes that the first search starts from are seen as they are. -/
theorem stepEdges_eq :
    stepEdges (rootMethods.map view.method) (view.table table) =
      mapEdges view.node (stepEdges rootMethods table) := by
  have length : (view.table table).length = table.length := List.length_map _
  have places : ∀ node ∈ CallNode.root :: (List.range table.length).map CallNode.step,
      view.node node = node := by
    intro node member
    rcases List.mem_cons.1 member with rfl | isStep
    · rfl
    · obtain ⟨index, -, rfl⟩ := List.mem_map.1 isStep
      rfl
  rw [stepEdges, length, stepEdges, mapEdges, List.map_flatMap]
  refine List.flatMap_congr fun node member => ?_
  have methods := view.methodsAt_node rootMethods table node
  rw [places node member] at methods
  rw [methods, List.filterMap_map, List.map_filterMap]
  refine List.filterMap_congr fun method _ => ?_
  show (view.method method).step?.map _ = _
  rw [step?_method, Option.map_map]
  refine congrArg (Option.map · method.step?) (funext fun index => ?_)
  show (node, CallNode.step index) = (view.node node, CallNode.step index)
  rw [places node member]

theorem discovered_eq :
    discovered (rootMethods.map view.method) (view.table table) =
      (discovered rootMethods table).map view.node := by
  rw [discovered, stepEdges_eq, discovered]
  exact reachableFrom_mapEdges view.node_injective _ .root

theorem build_eq :
    CallGraph.build (rootMethods.map view.method) (view.table table) =
      view.graph (CallGraph.build rootMethods table) := by
  have edges : ((discovered (rootMethods.map view.method) (view.table table)).flatMap
      (nodeEdges (rootMethods.map view.method) (view.table table))).eraseDups =
        mapEdges view.node
          ((discovered rootMethods table).flatMap (nodeEdges rootMethods table)).eraseDups := by
    have listed : (discovered (rootMethods.map view.method) (view.table table)).flatMap
        (nodeEdges (rootMethods.map view.method) (view.table table)) =
          mapEdges view.node
            ((discovered rootMethods table).flatMap (nodeEdges rootMethods table)) := by
      rw [discovered_eq, List.flatMap_map, mapEdges, List.map_flatMap]
      exact List.flatMap_congr fun node _ => view.nodeEdges_node rootMethods table node
    rw [listed]
    refine Lists.eraseDups_map fun left _ right _ same => ?_
    rw [Prod.mk.injEq, view.node_injective.eq_iff, view.node_injective.eq_iff] at same
    exact Prod.ext same.1 same.2
  unfold CallGraph.build
  simp only [edges]
  generalize ((discovered rootMethods table).flatMap (nodeEdges rootMethods table)).eraseDups = held
  have ends : (mapEdges view.node held).flatMap (fun edge => [edge.1, edge.2]) =
      (held.flatMap fun edge => [edge.1, edge.2]).map view.node := by
    rw [mapEdges, List.flatMap_map, List.map_flatMap]
    rfl
  have nodes : ((CallNode.root :: held.flatMap fun edge => [edge.1, edge.2]).map
      view.node).eraseDups = (CallNode.root :: held.flatMap
        fun edge => [edge.1, edge.2]).eraseDups.map view.node :=
    Lists.eraseDups_map fun left _ right _ same => view.node_injective same
  rw [List.map_cons, ← ends] at nodes
  exact congrArg (CallGraph.mk · _) nodes

/-! ### What a graph leads to -/

variable (graph : CallGraph)

theorem reachableFrom_graph (start : CallNode) :
    (view.graph graph).reachableFrom (view.node start) =
      (graph.reachableFrom start).map view.node :=
  reachableFrom_mapEdges view.node_injective graph.edges start

theorem liveSteps_graph : (view.graph graph).liveSteps = graph.liveSteps := by
  have reached : (view.graph graph).reachable = graph.reachable.map view.node :=
    view.reachableFrom_graph graph .root
  rw [liveSteps, reached, List.filterMap_map, liveSteps]
  refine congrArg (List.mergeSort · _) (List.filterMap_congr fun node _ => ?_)
  cases node <;> rfl

theorem constructorsFrom_graph (start : CallNode) :
    (view.graph graph).constructorsFrom (view.node start) =
      (graph.constructorsFrom start).map view.number := by
  have ends : ((view.graph graph).reachableFrom (view.node start)).filterMap CallNode.target? =
      ((graph.reachableFrom start).filterMap CallNode.target?).map view.number := by
    rw [reachableFrom_graph, List.filterMap_map, List.map_filterMap]
    refine List.filterMap_congr fun node _ => ?_
    cases node <;> rfl
  rw [constructorsFrom, ends, constructorsFrom]
  refine (List.map_mergeSort fun left _ right _ => ?_).symm
  exact decide_eq_decide.2 view.increasing.le_iff_le.symm

theorem reachableConstructors_graph :
    (view.graph graph).reachableConstructors = graph.reachableConstructors.map view.number :=
  view.constructorsFrom_graph graph .root

theorem methodReach_graph (method : Method) :
    (view.graph graph).methodReach (view.method method) =
      (graph.methodReach method).map view.number := by
  unfold CallGraph.methodReach
  rw [result_method]
  cases method.result with
  | product value => rfl
  | step index =>
    have held : (view.graph graph).nodes.contains (.step index) =
        graph.nodes.contains (.step index) := by
      rw [Bool.eq_iff_iff, List.contains_iff_mem, List.contains_iff_mem]
      exact List.mem_map_of_injective view.node_injective (a := CallNode.step index)
    show (if (view.graph graph).nodes.contains (.step index) = true then
      (view.graph graph).constructorsFrom (view.node (.step index)) else []) =
        (if graph.nodes.contains (.step index) = true then
          graph.constructorsFrom (.step index) else []).map view.number
    rw [held, constructorsFrom_graph, apply_ite (List.map view.number)]
    rfl

/-! ### Kept steps -/

theorem keptSteps_walk (walk : Walk) :
    keptSteps (view.graph graph) (view.walk walk) = keptSteps graph walk := by
  rw [keptSteps, liveSteps_graph, keptSteps]
  refine List.filter_congr fun index _ => ?_
  rw [step?_walk, Option.isSome_map]

theorem step_number_mapMethods (stepPrefix rootName : String) (index : Nat)
    (renumber : Nat → Nat) (step : Step) :
    view.step ((step.number stepPrefix rootName index).mapMethods (·.mapStep renumber)) =
      ((view.step step).number stepPrefix rootName index).mapMethods (·.mapStep renumber) := by
  have methods : ∀ methods : List Method, (methods.map (·.mapStep renumber)).map view.method =
      (methods.map view.method).map (·.mapStep renumber) := by
    intro methods
    rw [List.map_map, List.map_map]
    exact List.map_congr_left fun method _ => view.method_mapStep renumber method
  cases step with
  | synthesized step => simp only [Step.number, Step.mapMethods, View.step, methods]
  | existing step => simp only [Step.number, Step.mapMethods, View.step, methods]

theorem finalSteps_walk (naming : Naming) (root : Root) (kept : List Nat) (walk : Walk) :
    finalSteps naming root kept (view.walk walk) =
      (finalSteps naming root kept walk).map view.step := by
  have steps : kept.filterMap (view.walk walk).step? =
      (kept.filterMap walk.step?).map view.step := by
    rw [List.map_filterMap]
    exact List.filterMap_congr fun index _ => view.step?_walk walk index
  rw [finalSteps, steps, List.zipIdx_map, List.map_map, finalSteps, List.map_map]
  refine List.map_congr_left fun (step, index) _ => ?_
  exact (view.step_number_mapMethods naming.stepPrefix root.name index (finalNumber kept) step).symm

end View

end StagedBuilder
