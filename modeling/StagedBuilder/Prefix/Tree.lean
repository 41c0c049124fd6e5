/-
This file holds prefix trees. A value is inserted under a sequence of keys, and
sequences that begin alike share their way down from the root for as long as they
do. Keys are compared by a test that need be neither symmetric nor transitive, so
what "alike" means has to be said: a key goes down the first edge whose
representative, the first key that ever made the edge, tests equal to it. The
edge remembers every key that took it.

Every node carries a label, the number of nodes that were there before it. Labels
identify nodes; the shape of the tree does not depend on them.
-/

namespace StagedBuilder

/-- A node of a prefix tree with everything below it: its label, the keys that took the edge
to it, oldest first, the values that end here, and its children, oldest first. -/
inductive PrefixTree (Key Value : Type) where
  | node (label : Nat) (keys : List Key) (endings : List Value)
      (children : List (PrefixTree Key Value))
deriving Inhabited

namespace PrefixTree

variable {Key Value : Type}

/-! ### Parts of a node -/

def label : PrefixTree Key Value → Nat
  | .node label _ _ _ => label

/-- The keys that took the edge to the top node; the root has none. -/
def keys : PrefixTree Key Value → List Key
  | .node _ keys _ _ => keys

/-- The values whose sequence ends at the top node. -/
def endings : PrefixTree Key Value → List Value
  | .node _ _ endings _ => endings

def children : PrefixTree Key Value → List (PrefixTree Key Value)
  | .node _ _ _ children => children

/-- The key that made the edge to the top node. -/
def representative? (tree : PrefixTree Key Value) : Option Key := tree.keys.head?

/-- The tree with one more key on the edge to its top node. -/
def addKey (key : Key) : PrefixTree Key Value → PrefixTree Key Value
  | .node label keys endings children => .node label (keys ++ [key]) endings children

def empty : PrefixTree Key Value := .node 0 [] [] []

/-! ### Everything below a node -/

mutual

def size : PrefixTree Key Value → Nat
  | .node _ _ _ children => 1 + sizeOfAll children

/-- The number of nodes of several trees. -/
def sizeOfAll : List (PrefixTree Key Value) → Nat
  | [] => 0
  | first :: rest => first.size + sizeOfAll rest

end

mutual

/-- The values at the top node and below it, parents before children, older children
first. -/
def values : PrefixTree Key Value → List Value
  | .node _ _ endings children => endings ++ valuesOfAll children

/-- The values of several trees, one tree after another. -/
def valuesOfAll : List (PrefixTree Key Value) → List Value
  | [] => []
  | first :: rest => first.values ++ valuesOfAll rest

end

/-- A node as it is met on the way down: with the label of its parent and the representative
keys that lead to it. -/
structure Visit (Key Value : Type) where
  tree : PrefixTree Key Value
  parent : Option Nat
  path : List Key

mutual

/-- All nodes, parents before children, older children first. -/
def visits (parent : Option Nat) (above : List Key) (tree : PrefixTree Key Value) :
    List (Visit Key Value) :=
  match tree with
  | .node label keys endings children =>
    let path := above ++ keys.head?.toList
    ⟨.node label keys endings children, parent, path⟩ :: visitsOfAll (some label) path children

/-- The nodes of several trees with the same parent, one tree after another. -/
def visitsOfAll (parent : Option Nat) (above : List Key) :
    List (PrefixTree Key Value) → List (Visit Key Value)
  | [] => []
  | first :: rest => visits parent above first ++ visitsOfAll parent above rest

end

/-- The labels of all nodes, parents before children, older children first. -/
def preorder (tree : PrefixTree Key Value) : List Nat :=
  (tree.visits none []).map (·.tree.label)

def visit? (tree : PrefixTree Key Value) (label : Nat) : Option (Visit Key Value) :=
  (tree.visits none []).find? (·.tree.label = label)

/-- Whether nothing was ever inserted. -/
def isEmpty (tree : PrefixTree Key Value) : Bool :=
  tree.size = 1 && tree.endings.isEmpty

/-- The nodes other than the root that neither end a value nor have children. -/
def deadNodes (tree : PrefixTree Key Value) : List Nat :=
  ((tree.visits none []).drop 1).filterMap fun visit =>
    if visit.tree.children.isEmpty && visit.tree.endings.isEmpty then some visit.tree.label
    else none

/-! ### Insertion -/

variable [BEq Key]

/-- Whether a key goes down the edge to the top node. -/
def admits (tree : PrefixTree Key Value) (key : Key) : Bool :=
  tree.representative?.any (· == key)

def child? (tree : PrefixTree Key Value) (key : Key) : Option (PrefixTree Key Value) :=
  tree.children.find? (·.admits key)

/-- A new chain of nodes, labelled upwards from `label`, with a value at its end. -/
def chain (label : Nat) (value : Value) (key : Key) : List Key → PrefixTree Key Value
  | [] => .node label [key] [value] []
  | next :: rest => .node label [key] [] [chain (label + 1) value next rest]

/-- Changes the first tree that admits a key, once the key is on its edge, or adds a tree
after all others. -/
def descend (key : Key) (change : PrefixTree Key Value → PrefixTree Key Value)
    (added : PrefixTree Key Value) : List (PrefixTree Key Value) → List (PrefixTree Key Value)
  | [] => [added]
  | first :: rest =>
    if first.admits key then change (first.addKey key) :: rest
    else first :: descend key change added rest

/-- Inserts a value below the top node; new nodes are labelled upwards from `fresh`. -/
def insertFrom (fresh : Nat) (value : Value) :
    List Key → PrefixTree Key Value → PrefixTree Key Value
  | [], .node label keys endings children => .node label keys (endings ++ [value]) children
  | key :: rest, .node label keys endings children =>
    .node label keys endings
      (descend key (insertFrom fresh value rest) (chain fresh value key rest) children)

def insert (tree : PrefixTree Key Value) (sequence : List Key) (value : Value) :
    PrefixTree Key Value :=
  insertFrom tree.size value sequence tree

/-- The label of the node at which an insertion ends, new nodes being labelled upwards from
`fresh`. -/
def landingFrom (fresh : Nat) : List Key → PrefixTree Key Value → Nat
  | [], tree => tree.label
  | key :: rest, tree =>
    match tree.child? key with
    | some child => landingFrom fresh rest child
    | none => fresh + rest.length

/-- The label of the node at which an insertion into the tree ends. -/
def landing (tree : PrefixTree Key Value) (sequence : List Key) : Nat :=
  landingFrom tree.size sequence tree

end PrefixTree

end StagedBuilder
