/-
This file searches finite directed graphs. A graph is the list of its edges, and
the search visits, breadth first, every node to which a chain of edges leads
from a start node. The start node itself is visited, whether or not an edge
touches it.

A node's edges are queued only when the node is visited for the first time, so
over the whole search every edge is queued at most once. The number of edges
and one more is therefore enough fuel, and cycles need no care of their own.
-/

namespace StagedBuilder.Reachability

variable {Node : Type} [DecidableEq Node]

/-- The nodes to which an edge leads from the given node, in the order of the edges. -/
def successors (edges : List (Node × Node)) (node : Node) : List Node :=
  (edges.filter (·.1 = node)).map (·.2)

/-- Visits the queued nodes and what they lead to, after the nodes visited already. -/
def search (edges : List (Node × Node)) : Nat → List Node → List Node → List Node
  | 0, _, visited => visited
  | _ + 1, [], visited => visited
  | fuel + 1, node :: queue, visited =>
    if node ∈ visited then search edges fuel queue visited
    else search edges fuel (queue ++ successors edges node) (visited ++ [node])

/-- The nodes that can be reached from a start node, in the order of a breadth-first search. -/
def reachableFrom (edges : List (Node × Node)) (start : Node) : List Node :=
  search edges (edges.length + 1) [start] []

end StagedBuilder.Reachability
