/-
This file turns methods and steps into a graph. The nodes are the root, the steps
and the finished targets, and there is an edge wherever a call leads: from the
root or a step to what one of its methods returns. Arriving at an existing step
finishes a target, so such a step has an edge to its constructor as well.

The graph of a table of steps holds only what the root's methods lead to. It is
found by searching the table breadth first; the edges of a node are listed when
the search visits it, and an existing step's edge to its target right after the
first edge that leads to the step. Neither nodes nor edges are repeated.
-/

import StagedBuilder.Builder.Basic
import StagedBuilder.Reachability

namespace StagedBuilder

/-- A node of a call graph. -/
inductive CallNode where
  | root
  | step (index : Nat)
  | target (constructor : Nat)
deriving DecidableEq, Inhabited

namespace CallNode

/-- The text that stands for a node. -/
def display : CallNode → String
  | .root => "root"
  | .step index => "step#" ++ toString index
  | .target constructor => "ctor#" ++ toString constructor

def step? : CallNode → Option Nat
  | .step index => some index
  | _ => none

/-- The constructor whose target the node is. -/
def target? : CallNode → Option Nat
  | .target constructor => some constructor
  | _ => none

/-- The root comes first, then the steps, then the targets, each by number. -/
def precedes : CallNode → CallNode → Bool
  | .root, _ => true
  | .step _, .root => false
  | .step left, .step right => left ≤ right
  | .step _, .target _ => true
  | .target left, .target right => left ≤ right
  | .target _, _ => false

end CallNode

/-- The node that a result leads to. -/
def Result.node : Result → CallNode
  | .product value => .target value.constructor
  | .step index => .step index

/-- What a call graph needs to know of a step. -/
structure Stop where
  methods : List Method
  /-- The constructor that has been called on arrival. -/
  arrival : Option Nat := none
deriving DecidableEq, Inhabited

/-- What a call graph needs to know of a step, taken from the step. -/
def Step.stop (step : Step) : Stop := ⟨step.methods, step.arrival?⟩

/-- A graph of calls. -/
structure CallGraph where
  nodes : List CallNode := [.root]
  edges : List (CallNode × CallNode) := []
deriving DecidableEq, Inhabited

namespace CallGraph

/-! ### Construction -/

/-- A table of steps: what is known of the step of each number. -/
abbrev Table := List (Option Stop)

/-- What is known of a step. -/
def Table.stop? (table : Table) (index : Nat) : Option Stop := (table[index]?).join

/-- The edges of one method: to what it returns, and on to the target of an existing step. -/
def methodEdges (table : Table) (source : CallNode) (method : Method) :
    List (CallNode × CallNode) :=
  let reached := method.result.node
  let arrival := (method.step?.bind table.stop?).bind Stop.arrival
  (source, reached) :: arrival.toList.map fun constructor => (reached, .target constructor)

/-- The methods that can be called at a node. -/
def methodsAt (rootMethods : List Method) (table : Table) : CallNode → List Method
  | .root => rootMethods
  | .step index => ((table.stop? index).map Stop.methods).getD []
  | .target _ => []

/-- The edges of all methods of a node. -/
def nodeEdges (rootMethods : List Method) (table : Table) (node : CallNode) :
    List (CallNode × CallNode) :=
  (methodsAt rootMethods table node).flatMap (methodEdges table node)

/-- From every node of the table to the steps that its methods return. -/
def stepEdges (rootMethods : List Method) (table : Table) : List (CallNode × CallNode) :=
  (CallNode.root :: (List.range table.length).map CallNode.step).flatMap fun node =>
    (methodsAt rootMethods table node).filterMap fun method =>
      method.step?.map fun index => (node, .step index)

/-- The root and the steps that calls lead to, in the order of a breadth-first search. -/
def discovered (rootMethods : List Method) (table : Table) : List CallNode :=
  Reachability.reachableFrom (stepEdges rootMethods table) .root

/-- The graph of everything that the root's methods lead to. -/
def build (rootMethods : List Method) (table : Table) : CallGraph :=
  let edges :=
    ((discovered rootMethods table).flatMap (nodeEdges rootMethods table)).eraseDups
  { nodes := (.root :: edges.flatMap fun (source, reached) => [source, reached]).eraseDups
    edges }

/-- The graph of a finished builder. -/
def ofBuilder (builder : Builder) : CallGraph :=
  build builder.methods (builder.steps.map fun step => some step.stop)

/-! ### Reachability -/

/-- The nodes that chains of calls lead to from a node, the node itself included. -/
def reachableFrom (graph : CallGraph) (start : CallNode) : List CallNode :=
  Reachability.reachableFrom graph.edges start

/-- The nodes that chains of calls lead to from the root. -/
def reachable (graph : CallGraph) : List CallNode := graph.reachableFrom .root

/-- The steps that chains of calls lead to, by increasing number. -/
def liveSteps (graph : CallGraph) : List Nat :=
  (graph.reachable.filterMap CallNode.step?).mergeSort

/-- The constructors that chains of calls from a node end at, by increasing number. -/
def constructorsFrom (graph : CallGraph) (start : CallNode) : List Nat :=
  ((graph.reachableFrom start).filterMap CallNode.target?).mergeSort

/-- The constructors that chains of calls from the root end at, by increasing number. -/
def reachableConstructors (graph : CallGraph) : List Nat := graph.constructorsFrom .root

/-- The constructors that chains of calls beginning with a method end at. A step that the
graph does not hold leads nowhere. -/
def methodReach (graph : CallGraph) (method : Method) : List Nat :=
  match method.result with
  | .product value => [value.constructor]
  | .step index =>
    if graph.nodes.contains (.step index) then graph.constructorsFrom (.step index) else []

end CallGraph

end StagedBuilder
