/-
This file follows the inserted sequences through the nodes of a prefix tree. A sequence
that leads to a node goes through the nodes above it, one for each of its beginnings. So
what ends at a node or below it are values whose sequences go through the node, whatever
the test by which keys are compared, and the last key of a beginning is found on the edge
to the node only if a sequence with the key goes that way.

What ends at one node stands there in the order of insertion.
-/

import StagedBuilder.Proofs.PrefixHistory

namespace StagedBuilder.PrefixTree

variable {Key Value : Type}

/-! ### Ways through nodes -/

section

variable {tree node : PrefixTree Key Value} {sequence : List Key} {label depth : Nat}

/-- What leads to a node below leads first to the node and then on from there. -/
theorem Leads.parts (leads : Leads tree sequence label) (distinct : tree.preorder.Nodup)
    (atDepth : node ∈ tree.level depth) (below : label ∈ node.preorder) :
    depth ≤ sequence.length ∧ Leads tree (sequence.take depth) node.label ∧
      Leads node (sequence.drop depth) label := by
  induction depth generalizing tree sequence with
  | zero =>
    cases List.mem_singleton.1 atDepth
    exact ⟨Nat.zero_le _, .here, leads⟩
  | succ depth inductionHypothesis =>
    obtain ⟨child, isChild, belowChild⟩ := mem_level_succ.1 atDepth
    obtain ⟨key, rest, rfl, taken, further⟩ :=
      leads.exists_cons distinct isChild (mem_preorder_of_level belowChild below)
    obtain ⟨long, first, second⟩ :=
      inductionHypothesis further (nodup_preorder_of_child distinct isChild) belowChild
    exact ⟨Nat.succ_le_succ long, .down isChild taken first, second⟩

/-- The last key of a way is on the edge to the node where the way ends. -/
theorem Leads.exists_last {key : Key} (leads : Leads tree (sequence ++ [key]) label) :
    ∃ parent ∈ tree.level sequence.length, ∃ child ∈ parent.children,
      child ∈ tree.level (sequence.length + 1) ∧ child.label = label ∧ key ∈ child.keys := by
  induction sequence generalizing tree with
  | nil =>
    obtain _ | ⟨isChild, taken, below⟩ := leads
    cases below
    exact ⟨tree, List.mem_singleton_self tree, _, isChild,
      mem_level_succ.2 ⟨_, isChild, List.mem_singleton_self _⟩, rfl, taken⟩
  | cons first rest inductionHypothesis =>
    obtain _ | ⟨isChild, taken, below⟩ := leads
    obtain ⟨parent, atDepth, child, isGrandchild, belowChild, found⟩ := inductionHypothesis below
    exact ⟨parent, mem_level_succ.2 ⟨_, isChild, atDepth⟩, child, isGrandchild,
      mem_level_succ.2 ⟨_, isChild, belowChild⟩, found⟩

end

/-! ### Values and the nodes where they end -/

section

variable {tree node : PrefixTree Key Value} {depth : Nat} {value : Value}

/-- The values of a tree, node after node. -/
theorem values_eq_flatMap_nodes (tree : PrefixTree Key Value) :
    tree.values = tree.nodes.flatMap endings := by
  induction tree using inductionOn with
  | node tree inductionHypothesis =>
    rw [values_eq, nodes_eq, List.flatMap_cons, List.flatMap_assoc]
    exact congrArg (tree.endings ++ ·) (List.flatMap_congr inductionHypothesis)

theorem mem_nodes (tree : PrefixTree Key Value) : tree ∈ tree.nodes := by
  rw [nodes_eq]
  exact List.mem_cons_self

theorem mem_nodes_of_level (atDepth : node ∈ tree.level depth) : ∀ other ∈ node.nodes,
    other ∈ tree.nodes := by
  induction depth generalizing tree with
  | zero =>
    rw [List.mem_singleton.1 atDepth]
    exact fun _ member => member
  | succ depth inductionHypothesis =>
    obtain ⟨child, isChild, belowChild⟩ := mem_level_succ.1 atDepth
    intro other member
    rw [nodes_eq]
    have inChild := inductionHypothesis belowChild other member
    exact List.mem_cons_of_mem _ (List.mem_flatMap.2 ⟨child, isChild, inChild⟩)

theorem mem_placed {label : Nat} :
    (label, value) ∈ tree.placed ↔
      ∃ node ∈ tree.nodes, node.label = label ∧ value ∈ node.endings := by
  simp [placed, and_comm]

/-- A value at a node or below it ends at some node there. -/
theorem exists_placed (atDepth : node ∈ tree.level depth) (below : value ∈ node.values) :
    ∃ label ∈ node.preorder, (label, value) ∈ tree.placed := by
  rw [values_eq_flatMap_nodes, List.mem_flatMap] at below
  obtain ⟨holder, isNode, ends⟩ := below
  refine ⟨holder.label, ?_, mem_placed.2 ⟨holder, ?_, rfl, ends⟩⟩
  · rw [preorder_eq_map]
    exact List.mem_map_of_mem isNode
  · exact mem_nodes_of_level atDepth holder isNode

end

/-! ### Values that end at one node -/

section

variable {tree : PrefixTree Key Value} {before : List Value}

/-- Every node has endings that were inserted one after another. -/
def EndsInOrder (before : List Value) (tree : PrefixTree Key Value) : Prop :=
  ∀ node ∈ tree.nodes, node.endings.Sublist before

theorem endsInOrder_iff : EndsInOrder before tree ↔
    tree.endings.Sublist before ∧ ∀ child ∈ tree.children, EndsInOrder before child :=
  forall_mem_nodes

theorem EndsInOrder.append (ordered : EndsInOrder before tree) (value : Value) :
    EndsInOrder (before ++ [value]) tree :=
  fun node member => (ordered node member).trans (List.sublist_append_left _ _)

theorem EndsInOrder.addKey (ordered : EndsInOrder before tree) (key : Key) :
    EndsInOrder before (tree.addKey key) := by
  obtain ⟨label, keys, endings, children⟩ := tree
  obtain ⟨here, below⟩ := endsInOrder_iff.1 ordered
  exact endsInOrder_iff.2 ⟨here, below⟩

theorem endsInOrder_chain (before : List Value) (label : Nat) (value : Value) (key : Key)
    (rest : List Key) :
    EndsInOrder (before ++ [value]) (chain label value key rest) := by
  induction rest generalizing label key with
  | nil =>
    refine endsInOrder_iff.2 ⟨List.sublist_append_right _ _, fun child member => ?_⟩
    exact absurd member List.not_mem_nil
  | cons next rest inductionHypothesis =>
    refine endsInOrder_iff.2 ⟨List.nil_sublist _, fun child member => ?_⟩
    rw [List.mem_singleton.1 member]
    exact inductionHypothesis (label + 1) next

variable [BEq Key]

/-- A value is inserted after all others at its node. -/
theorem EndsInOrder.insertFrom (ordered : EndsInOrder before tree) (fresh : Nat) (value : Value)
    (sequence : List Key) :
    EndsInOrder (before ++ [value]) (insertFrom fresh value sequence tree) := by
  induction sequence generalizing tree with
  | nil =>
    obtain ⟨label, keys, endings, children⟩ := tree
    obtain ⟨here, below⟩ := endsInOrder_iff.1 ordered
    exact endsInOrder_iff.2 ⟨here.append (List.Sublist.refl _),
      fun child member => (below child member).append value⟩
  | cons key rest inductionHypothesis =>
    obtain ⟨label, keys, endings, children⟩ := tree
    obtain ⟨here, below⟩ := endsInOrder_iff.1 ordered
    refine endsInOrder_iff.2 ⟨here.trans (List.sublist_append_left _ _), fun child member => ?_⟩
    obtain wasThere | rfl | ⟨first, wasThere, -, rfl⟩ := mem_descend member
    · exact (below child wasThere).append value
    · exact endsInOrder_chain before fresh value key rest
    · exact inductionHypothesis ((below first wasThere).addKey key)

theorem EndsInOrder.insertAll (ordered : EndsInOrder before tree)
    (inserted : List (List Key × Value)) :
    EndsInOrder (before ++ inserted.map Prod.snd) (tree.insertAll inserted) := by
  induction inserted generalizing tree before with
  | nil => exact (List.append_nil before).symm ▸ ordered
  | cons entry rest inductionHypothesis =>
    have first := inductionHypothesis (ordered.insertFrom tree.size entry.2 entry.1)
    rwa [List.append_assoc] at first

end

/-! ### The tree after insertions -/

section

variable [BEq Key] {inserted : List (List Key × Value)} {node : PrefixTree Key Value} {depth : Nat}
  {value : Value}

/-- What ends at a node stands there in the order of insertion. -/
theorem endsInOrder_insertAll (inserted : List (List Key × Value)) :
    EndsInOrder (inserted.map Prod.snd) (empty.insertAll inserted) := by
  have nothing : EndsInOrder [] (empty : PrefixTree Key Value) :=
    endsInOrder_iff.2 ⟨List.Sublist.refl _, fun child member => absurd member List.not_mem_nil⟩
  exact nothing.insertAll inserted

/-- What ends somewhere was inserted under a sequence that leads there. -/
theorem exists_leads_of_placed {label : Nat}
    (ends : (label, value) ∈ (empty.insertAll inserted).placed) :
    ∃ sequence, (sequence, value) ∈ inserted ∧ Leads (empty.insertAll inserted) sequence label := by
  have returned := (placed_insertAll_empty_perm inserted).mem_iff.1 ends
  rw [List.zip_map_right, ← List.zip_swap, List.map_map] at returned
  obtain ⟨⟨entry, place⟩, member, same⟩ := List.mem_map.1 returned
  cases same
  exact ⟨entry.1, (List.of_mem_zip member).1, leads_insertAll member⟩

/-- A value at a node or below it was inserted under a sequence that leads through the node, and it
ends at the node if the sequence goes no further. -/
theorem exists_way_of_mem_values (atDepth : node ∈ (empty.insertAll inserted).level depth)
    (below : value ∈ node.values) :
    ∃ sequence, (sequence, value) ∈ inserted ∧ depth ≤ sequence.length ∧
      Leads (empty.insertAll inserted) (sequence.take depth) node.label ∧
        (sequence.length = depth → value ∈ node.endings) := by
  have distinct := nodup_preorder_insertAll inserted
  obtain ⟨label, isBelow, ends⟩ := exists_placed atDepth below
  obtain ⟨sequence, isInserted, leads⟩ := exists_leads_of_placed ends
  obtain ⟨long, first, second⟩ := leads.parts distinct atDepth isBelow
  refine ⟨sequence, isInserted, long, first, fun short => ?_⟩
  rw [List.drop_of_length_le (Nat.le_of_eq short)] at second
  cases second
  obtain ⟨holder, isNode, sameLabel, isEnding⟩ := mem_placed.1 ends
  obtain ⟨otherDepth, otherAtDepth⟩ := exists_level isNode
  rwa [← (eq_of_label distinct otherAtDepth atDepth sameLabel).2]

/-- A key on the edge to a node belongs to a sequence whose value is at the node or below it. -/
theorem exists_of_leads {sequence : List Key} {key : Key}
    (atDepth : node ∈ (empty.insertAll inserted).level depth)
    (leads : Leads (empty.insertAll inserted) (sequence ++ [key]) node.label) :
    ∃ entry ∈ inserted, key ∈ entry.1 ∧ entry.2 ∈ node.values := by
  obtain ⟨parent, parentAtDepth, child, isChild, childAtDepth, sameLabel, onEdge⟩ :=
    leads.exists_last
  cases (eq_of_label (nodup_preorder_insertAll inserted) childAtDepth atDepth sameLabel).2
  have isNode := mem_nodes_of_level parentAtDepth parent parent.mem_nodes
  obtain ⟨above, recorded⟩ := exists_recorded inserted parent isNode
  obtain ⟨representative, made⟩ := recorded.made node isChild
  obtain ⟨-, before, after, value, isInserted, -, below⟩ :=
    recorded.taken node isChild representative made key onEdge
  exact ⟨_, isInserted, List.mem_append_right _ List.mem_cons_self, below⟩

end

end StagedBuilder.PrefixTree
