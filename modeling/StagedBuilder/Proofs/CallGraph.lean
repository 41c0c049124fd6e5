/-
This file says what a call graph is about, and shows that the graph built from a
table of steps is about exactly that.

From a node one call leads to whatever one of its methods returns, and arriving at
an existing step finishes a target. This relation knows nothing of lists of edges
and of searches. The nodes that the built graph can reach are the ends of chains in
it: the graph is built by a search of its own, which only follows calls that return
steps, so it has to be shown that every node with methods that a chain comes to is
found by that first search and has all its edges listed.
-/

import StagedBuilder.Builder.CallGraph
import StagedBuilder.Proofs.Lists
import StagedBuilder.Proofs.Reachability

namespace StagedBuilder.CallGraph

open Relation (ReflTransGen)

/-! ### One call -/

/-- One step of a chain of calls: from a node to what one of its methods returns, or from an
existing step to the target that is finished there. -/
inductive Calls (rootMethods : List Method) (table : Table) : CallNode → CallNode → Prop
  | call {source : CallNode} {method : Method}
      (member : method ∈ methodsAt rootMethods table source) :
      Calls rootMethods table source method.result.node
  | arrive {index : Nat} {stop : Stop} {constructor : Nat}
      (held : table.stop? index = some stop) (arrives : stop.arrival = some constructor) :
      Calls rootMethods table (.step index) (.target constructor)

/-- A chain of calls from the root. -/
abbrev Reached (rootMethods : List Method) (table : Table) : CallNode → Prop :=
  ReflTransGen (Calls rootMethods table) .root

variable {rootMethods : List Method} {table : Table}

theorem stop?_of_mem_methodsAt {index : Nat} {method : Method}
    (member : method ∈ methodsAt rootMethods table (.step index)) :
    ∃ stop, table.stop? index = some stop ∧ method ∈ stop.methods := by
  unfold methodsAt at member
  cases held : table.stop? index with
  | none => simp [held] at member
  | some stop => exact ⟨stop, rfl, by simpa [held] using member⟩

theorem node_of_step? {method : Method} {index : Nat} (returns : method.step? = some index) :
    method.result.node = .step index := by
  unfold Method.step? at returns
  cases result : method.result with
  | product value => simp [result, Result.step?] at returns
  | step other =>
    simp only [result, Result.step?, Option.some.injEq] at returns
    rw [returns]
    rfl

theorem step?_of_node {method : Method} {index : Nat}
    (leads : method.result.node = .step index) : method.step? = some index := by
  unfold Method.step?
  cases result : method.result with
  | product value => simp [result, Result.node] at leads
  | step other =>
    simp only [result, Result.node, CallNode.step.injEq] at leads
    rw [leads]
    rfl

/-! ### The first search -/

/-- The first search follows exactly the calls that return steps. -/
theorem leads_stepEdges {source target : CallNode} :
    Reachability.Leads (stepEdges rootMethods table) source target ↔
      ∃ method ∈ methodsAt rootMethods table source, ∃ index,
        method.step? = some index ∧ target = .step index := by
  unfold Reachability.Leads stepEdges
  simp only [List.mem_flatMap, List.mem_filterMap, Option.map_eq_some_iff, Prod.mk.injEq]
  constructor
  · rintro ⟨node, -, method, member, index, returns, rfl, rfl⟩
    exact ⟨method, member, index, returns, rfl⟩
  · rintro ⟨method, member, index, returns, rfl⟩
    refine ⟨source, ?_, method, member, index, returns, rfl, rfl⟩
    cases source with
    | root => exact List.mem_cons_self
    | step place =>
      obtain ⟨stop, held, -⟩ := stop?_of_mem_methodsAt member
      have bound : place < table.length := by
        by_contra outside
        rw [Table.stop?, List.getElem?_eq_none (by omega)] at held
        simp at held
      exact List.mem_cons_of_mem _ (List.mem_map_of_mem (List.mem_range.2 bound))
    | target constructor => exact absurd member List.not_mem_nil

/-- Whatever a chain of calls comes to, if it is not a target, is found by the first search. -/
theorem mem_discovered {node : CallNode} (reached : Reached rootMethods table node)
    (noTarget : ∀ constructor, node ≠ .target constructor) :
    node ∈ discovered rootMethods table := by
  refine Reachability.mem_reachableFrom.2 ?_
  induction reached with
  | refl => exact .refl
  | tail _ calls inductionHypothesis =>
    cases calls with
    | @call source method member =>
      have sourceFound := inductionHypothesis fun constructor same => by
        rw [same] at member
        exact absurd member List.not_mem_nil
      refine sourceFound.tail (leads_stepEdges.2 ⟨method, member, ?_⟩)
      cases result : method.result with
      | product value => exact absurd (by rw [result]; rfl) (noTarget value.constructor)
      | step index => exact ⟨index, by rw [Method.step?, result]; rfl, rfl⟩
    | arrive held arrives => exact absurd rfl (noTarget _)

/-! ### The edges of the graph -/

theorem mem_edges_build {source target : CallNode} :
    (source, target) ∈ (build rootMethods table).edges ↔
      ∃ node ∈ discovered rootMethods table, ∃ method ∈ methodsAt rootMethods table node,
        (source, target) ∈ methodEdges table node method := by
  simp only [build, nodeEdges, List.mem_eraseDups, List.mem_flatMap]

/-- Every edge of the graph is a call. -/
theorem calls_of_leads {source target : CallNode}
    (leads : Reachability.Leads (build rootMethods table).edges source target) :
    Calls rootMethods table source target := by
  obtain ⟨node, -, method, member, edge⟩ := mem_edges_build.1 leads
  simp only [methodEdges, List.mem_cons, Prod.mk.injEq, List.mem_map, Option.mem_toList] at edge
  rcases edge with ⟨rfl, rfl⟩ | ⟨constructor, arrives, rfl, rfl⟩
  · exact .call member
  · obtain ⟨stop, held, arrives⟩ := Option.bind_eq_some_iff.1 arrives
    obtain ⟨index, returns, held⟩ := Option.bind_eq_some_iff.1 held
    rw [node_of_step? returns]
    exact .arrive held arrives

/-- Every call from a node that a chain of calls comes to is an edge of the graph. -/
theorem leads_of_calls {source target : CallNode} (reached : Reached rootMethods table source)
    (calls : Calls rootMethods table source target) :
    Reachability.Leads (build rootMethods table).edges source target := by
  cases calls with
  | @call _ method member =>
    refine mem_edges_build.2 ⟨source, mem_discovered reached fun constructor same => ?_, method,
      member, List.mem_cons_self⟩
    rw [same] at member
    exact absurd member List.not_mem_nil
  | @arrive index stop constructor held arrives =>
    -- The edge to the target is listed with the call that leads to the step.
    obtain same | ⟨node, nodeReached, last⟩ := ReflTransGen.cases_tail reached
    · cases same
    generalize stepNode : CallNode.step index = stepAt at last
    cases last with
    | @call _ method member =>
      refine mem_edges_build.2 ⟨node, mem_discovered nodeReached fun constructor same => ?_,
        method, member, ?_⟩
      · rw [same] at member
        exact absurd member List.not_mem_nil
      · have returns : method.step? = some index := step?_of_node stepNode.symm
        simp only [methodEdges, List.mem_cons, List.mem_map, Option.mem_toList]
        refine Or.inr ⟨constructor, ?_, rfl⟩
        rw [returns, Option.bind_some, held, Option.bind_some, arrives]
    | arrive => cases stepNode

/-! ### Reachability in the graph -/

/-- In the graph, the nodes that can be reached from a node that a chain of calls comes to are
the ends of chains of calls from there. -/
theorem mem_reachableFrom_build {start node : CallNode}
    (reached : Reached rootMethods table start) :
    node ∈ (build rootMethods table).reachableFrom start ↔
      ReflTransGen (Calls rootMethods table) start node := by
  refine Reachability.mem_reachableFrom.trans ⟨fun chain => ?_, fun chain => ?_⟩
  · exact ReflTransGen.mono (fun source target => calls_of_leads) _ _ chain
  · induction chain with
    | refl => exact .refl
    | tail chain calls inductionHypothesis =>
      exact inductionHypothesis.tail (leads_of_calls (reached.trans chain) calls)

theorem mem_reachable_build {node : CallNode} :
    node ∈ (build rootMethods table).reachable ↔ Reached rootMethods table node :=
  mem_reachableFrom_build .refl

/-! ### Steps and targets in order -/

/-- The same with a sorting that evaluates by structural recursion. -/
theorem liveSteps_eq : liveSteps = fun graph =>
    (graph.reachable.filterMap CallNode.step?).insertionSort (· ≤ ·) :=
  funext fun _ => List.mergeSort_eq_insertionSort (· ≤ ·) _

theorem constructorsFrom_eq : constructorsFrom = fun graph start =>
    ((graph.reachableFrom start).filterMap CallNode.target?).insertionSort (· ≤ ·) :=
  funext fun _ => funext fun _ => List.mergeSort_eq_insertionSort (· ≤ ·) _

theorem enumerates_liveSteps (graph : CallGraph) :
    Lists.Enumerates graph.liveSteps fun index => .step index ∈ graph.reachable := by
  refine Lists.enumerates_mergeSort (Reachability.nodup_reachableFrom _ _) fun node index => ?_
  cases node <;> simp [CallNode.step?]

theorem enumerates_constructorsFrom (graph : CallGraph) (start : CallNode) :
    Lists.Enumerates (graph.constructorsFrom start) fun id =>
      .target id ∈ graph.reachableFrom start := by
  refine Lists.enumerates_mergeSort (Reachability.nodup_reachableFrom _ _) fun node id => ?_
  cases node <;> simp [CallNode.target?]

theorem nodup_liveSteps (graph : CallGraph) : graph.liveSteps.Nodup :=
  (enumerates_liveSteps graph).increasing.imp Nat.ne_of_lt

theorem pairwise_liveSteps (graph : CallGraph) : graph.liveSteps.Pairwise (· ≤ ·) :=
  (enumerates_liveSteps graph).increasing.imp Nat.le_of_lt

theorem mem_liveSteps_build {index : Nat} :
    index ∈ (build rootMethods table).liveSteps ↔ Reached rootMethods table (.step index) :=
  ((enumerates_liveSteps _).mem_iff index).trans mem_reachable_build

/-- The constructors that can be reached from a node that a chain of calls comes to. -/
theorem mem_constructorsFrom_build {start : CallNode} (reached : Reached rootMethods table start)
    {constructor : Nat} :
    constructor ∈ (build rootMethods table).constructorsFrom start ↔
      ReflTransGen (Calls rootMethods table) start (.target constructor) :=
  ((enumerates_constructorsFrom _ start).mem_iff constructor).trans
    (mem_reachableFrom_build reached)

theorem mem_reachableConstructors_build {constructor : Nat} :
    constructor ∈ (build rootMethods table).reachableConstructors ↔
      Reached rootMethods table (.target constructor) := mem_constructorsFrom_build .refl

end StagedBuilder.CallGraph
