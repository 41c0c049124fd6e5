/-
This file says what the labels of a prefix tree are. After any insertions the labels of
the nodes are the numbers up to the size of the tree, each once, so a label is as good as
the node itself. A node is met before the nodes below it, and the representative keys that
lead to it are as many as there are edges above it.

The values of a tree are looked at together with the labels of the nodes at which they
end. An insertion adds one such pair, the value with the label that the insertion returns,
and takes none away.
-/

import StagedBuilder.Proofs.PrefixVisits

namespace StagedBuilder.PrefixTree

variable {Key Value : Type}

/-! ### Nodes -/

/-- All nodes, parents before children, older children first. -/
def nodes (tree : PrefixTree Key Value) : List (PrefixTree Key Value) :=
  (tree.visits none []).map (·.tree)

/-- The nodes that are met do not depend on where the way began. -/
theorem map_tree_visits (parent : Option Nat) (above : List Key) (tree : PrefixTree Key Value) :
    (tree.visits parent above).map (·.tree) = tree.nodes := by
  induction tree using inductionOn generalizing parent above with
  | node tree inductionHypothesis =>
    rw [nodes, visits_eq, visits_eq, visitsOfAll_eq_flatMap, visitsOfAll_eq_flatMap, List.map_cons,
      List.map_cons, List.map_flatMap, List.map_flatMap]
    refine congrArg (tree :: ·) (List.flatMap_congr fun child member => ?_)
    rw [inductionHypothesis child member, inductionHypothesis child member]

theorem nodes_eq (tree : PrefixTree Key Value) :
    tree.nodes = tree :: tree.children.flatMap nodes := by
  rw [nodes, visits_eq, visitsOfAll_eq_flatMap, List.map_cons, List.map_flatMap]
  exact congrArg (tree :: ·) (List.flatMap_congr fun child _ => map_tree_visits _ _ child)

/-- A property of all nodes is one of the top node and of all nodes below its children. -/
theorem forall_mem_nodes {property : PrefixTree Key Value → Prop} {tree : PrefixTree Key Value} :
    (∀ node ∈ tree.nodes, property node) ↔
      property tree ∧ ∀ child ∈ tree.children, ∀ node ∈ child.nodes, property node := by
  rw [nodes_eq, List.forall_mem_cons, List.forall_mem_flatMap]

theorem preorder_eq_map (tree : PrefixTree Key Value) : tree.preorder = tree.nodes.map label := by
  rw [preorder, nodes, List.map_map]
  rfl

theorem preorder_eq (tree : PrefixTree Key Value) :
    tree.preorder = tree.label :: tree.children.flatMap preorder := by
  rw [preorder_eq_map, nodes_eq, List.map_cons, List.map_flatMap]
  exact congrArg (tree.label :: ·) (List.flatMap_congr fun child _ => (preorder_eq_map child).symm)

theorem mem_preorder {tree : PrefixTree Key Value} {label : Nat} :
    label ∈ tree.preorder ↔
      label = tree.label ∨ ∃ child ∈ tree.children, label ∈ child.preorder := by
  rw [preorder_eq, List.mem_cons, List.mem_flatMap]

/-- Every node is met. -/
theorem length_preorder (tree : PrefixTree Key Value) : tree.preorder.length = tree.size := by
  have together : ∀ children : List (PrefixTree Key Value),
      (∀ child ∈ children, child.preorder.length = child.size) →
        (children.flatMap preorder).length = sizeOfAll children := by
    intro children
    induction children with
    | nil => exact fun _ => rfl
    | cons first rest inductionHypothesis =>
      intro each
      obtain ⟨ofFirst, ofRest⟩ := List.forall_mem_cons.1 each
      rw [List.flatMap_cons, List.length_append, ofFirst, inductionHypothesis ofRest, sizeOfAll]
  induction tree using inductionOn with
  | node tree inductionHypothesis =>
    obtain ⟨label, keys, endings, children⟩ := tree
    rw [preorder_eq, List.length_cons, size, Nat.add_comm]
    exact congrArg (1 + ·) (together children inductionHypothesis)

/-! ### Depth -/

/-- The nodes that stand the given number of edges below the top node. -/
def level : Nat → PrefixTree Key Value → List (PrefixTree Key Value)
  | 0, tree => [tree]
  | depth + 1, tree => tree.children.flatMap (level depth)

theorem mem_level_succ {tree node : PrefixTree Key Value} {depth : Nat} :
    node ∈ tree.level (depth + 1) ↔ ∃ child ∈ tree.children, node ∈ child.level depth :=
  List.mem_flatMap

/-- Every node stands at some depth. -/
theorem exists_level {tree node : PrefixTree Key Value} (member : node ∈ tree.nodes) :
    ∃ depth, node ∈ tree.level depth := by
  induction tree using inductionOn with
  | node tree inductionHypothesis =>
    rw [nodes_eq, List.mem_cons, List.mem_flatMap] at member
    rcases member with rfl | ⟨child, isChild, below⟩
    · exact ⟨0, List.mem_singleton_self _⟩
    · obtain ⟨depth, atDepth⟩ := inductionHypothesis child isChild below
      exact ⟨depth + 1, mem_level_succ.2 ⟨child, isChild, atDepth⟩⟩

/-- What stands below a node has its labels there. -/
theorem mem_preorder_of_level {tree node : PrefixTree Key Value} {depth : Nat}
    (atDepth : node ∈ tree.level depth) {label : Nat} (below : label ∈ node.preorder) :
    label ∈ tree.preorder := by
  induction depth generalizing tree with
  | zero =>
    rw [List.mem_singleton.1 atDepth] at below
    exact below
  | succ depth inductionHypothesis =>
    obtain ⟨child, isChild, belowChild⟩ := mem_level_succ.1 atDepth
    exact mem_preorder.2 (.inr ⟨child, isChild, inductionHypothesis belowChild⟩)

theorem label_mem_preorder (tree : PrefixTree Key Value) : tree.label ∈ tree.preorder :=
  mem_preorder.2 (.inl rfl)

/-- As many representative keys lead to a node that is met as there are edges above it. -/
theorem exists_level_of_mem_visits {tree : PrefixTree Key Value} {parent : Option Nat}
    {above : List Key} (keyed : ∀ node ∈ tree.nodes, ∀ child ∈ node.children,
      ∃ representative, child.representative? = some representative)
    {visit : Visit Key Value} (met : visit ∈ tree.visits parent above) :
    ∃ depth, visit.path.length = (tree.pathFrom above).length + depth ∧
      visit.tree ∈ tree.level depth := by
  induction tree using inductionOn generalizing parent above with
  | node tree inductionHypothesis =>
    rcases mem_visits.1 met with rfl | ⟨child, isChild, metBelow⟩
    · exact ⟨0, rfl, List.mem_singleton_self _⟩
    · obtain ⟨keyedHere, keyedBelow⟩ := forall_mem_nodes.1 keyed
      obtain ⟨representative, made⟩ := keyedHere child isChild
      obtain ⟨depth, length, atDepth⟩ :=
        inductionHypothesis child isChild (keyedBelow child isChild) metBelow
      refine ⟨depth + 1, ?_, mem_level_succ.2 ⟨child, isChild, atDepth⟩⟩
      rw [length, pathFrom_of_made made, List.length_append, List.length_singleton, Nat.add_assoc,
        Nat.add_comm 1]

/-! ### One node for a label -/

section

variable {tree node child other : PrefixTree Key Value}

theorem nodup_preorder_of_child (distinct : tree.preorder.Nodup) (member : child ∈ tree.children) :
    child.preorder.Nodup := by
  rw [preorder_eq, List.nodup_cons, List.nodup_flatMap] at distinct
  exact distinct.2.1 child member

/-- The label of a node is not found below it. -/
theorem label_not_mem_of_child (distinct : tree.preorder.Nodup) (member : child ∈ tree.children) :
    tree.label ∉ child.preorder := by
  rw [preorder_eq, List.nodup_cons] at distinct
  exact fun below => distinct.1 (List.mem_flatMap.2 ⟨child, member, below⟩)

/-- A label is found below one child only. -/
theorem child_eq_of_label (distinct : tree.preorder.Nodup) (member : child ∈ tree.children)
    (otherMember : other ∈ tree.children) {label : Nat} (below : label ∈ child.preorder)
    (otherBelow : label ∈ other.preorder) : child = other := by
  rw [preorder_eq, List.nodup_cons, List.nodup_flatMap] at distinct
  have symmetric : Std.Symm fun first second : PrefixTree Key Value =>
      first.preorder.Disjoint second.preorder := ⟨fun _ _ disjoint => List.disjoint_symm disjoint⟩
  by_contra differ
  exact distinct.2.2.forall member otherMember differ below otherBelow

/-- Nodes with one label are one node. -/
theorem eq_of_label (distinct : tree.preorder.Nodup) {depth otherDepth : Nat}
    (atDepth : node ∈ tree.level depth) (otherAtDepth : other ∈ tree.level otherDepth)
    (same : node.label = other.label) : depth = otherDepth ∧ node = other := by
  induction depth generalizing tree otherDepth with
  | zero =>
    cases List.mem_singleton.1 atDepth
    cases otherDepth with
    | zero => exact ⟨rfl, (List.mem_singleton.1 otherAtDepth).symm⟩
    | succ otherDepth =>
      obtain ⟨child, isChild, below⟩ := mem_level_succ.1 otherAtDepth
      have inChild := mem_preorder_of_level below other.label_mem_preorder
      rw [← same] at inChild
      exact absurd inChild (label_not_mem_of_child distinct isChild)
  | succ depth inductionHypothesis =>
    obtain ⟨child, isChild, below⟩ := mem_level_succ.1 atDepth
    have inChild := mem_preorder_of_level below node.label_mem_preorder
    cases otherDepth with
    | zero =>
      cases List.mem_singleton.1 otherAtDepth
      rw [same] at inChild
      exact absurd inChild (label_not_mem_of_child distinct isChild)
    | succ otherDepth =>
      obtain ⟨otherChild, isOtherChild, otherBelow⟩ := mem_level_succ.1 otherAtDepth
      have inOtherChild := mem_preorder_of_level otherBelow other.label_mem_preorder
      rw [← same] at inOtherChild
      cases child_eq_of_label distinct isChild isOtherChild inChild inOtherChild
      obtain ⟨sameDepth, sameNode⟩ :=
        inductionHypothesis (nodup_preorder_of_child distinct isChild) below otherBelow
      exact ⟨congrArg (· + 1) sameDepth, sameNode⟩

end

/-! ### Ways that are shared -/

/-- The ways to the nodes with the two labels lead through one node of the given depth. -/
def Meets (tree : PrefixTree Key Value) (depth label otherLabel : Nat) : Prop :=
  ∃ node ∈ tree.level depth, label ∈ node.preorder ∧ otherLabel ∈ node.preorder

theorem meets_zero {tree : PrefixTree Key Value} {label otherLabel : Nat} :
    tree.Meets 0 label otherLabel ↔ label ∈ tree.preorder ∧ otherLabel ∈ tree.preorder := by
  rw [Meets, level]
  simp only [List.mem_singleton, exists_eq_left]

theorem meets_succ {tree : PrefixTree Key Value} {depth label otherLabel : Nat} :
    tree.Meets (depth + 1) label otherLabel ↔
      ∃ child ∈ tree.children, child.Meets depth label otherLabel := by
  constructor
  · rintro ⟨node, atDepth, below, otherBelow⟩
    obtain ⟨child, isChild, inChild⟩ := mem_level_succ.1 atDepth
    exact ⟨child, isChild, node, inChild, below, otherBelow⟩
  · rintro ⟨child, isChild, node, inChild, below, otherBelow⟩
    exact ⟨node, mem_level_succ.2 ⟨child, isChild, inChild⟩, below, otherBelow⟩

theorem Meets.mem_preorder {tree : PrefixTree Key Value} {depth label otherLabel : Nat}
    (meets : tree.Meets depth label otherLabel) :
    label ∈ tree.preorder ∧ otherLabel ∈ tree.preorder := by
  obtain ⟨node, atDepth, below, otherBelow⟩ := meets
  exact ⟨mem_preorder_of_level atDepth below, mem_preorder_of_level atDepth otherBelow⟩

/-! ### Parents -/

/-- A parent is met before its children. -/
theorem parent_before {tree : PrefixTree Key Value} {parent : Option Nat} {above : List Key}
    {visit : Visit Key Value} (met : visit ∈ tree.visits parent above) :
    (visit.tree = tree ∧ visit.parent = parent) ∨
      ∃ label, visit.parent = some label ∧ [label, visit.tree.label].Sublist tree.preorder := by
  induction tree using inductionOn generalizing parent above with
  | node tree inductionHypothesis =>
    rcases mem_visits.1 met with rfl | ⟨child, isChild, metBelow⟩
    · exact .inl ⟨rfl, rfl⟩
    · refine .inr ?_
      have inChildren : child.preorder.Sublist (tree.children.flatMap preorder) :=
        List.sublist_flatten_of_mem (List.mem_map_of_mem isChild)
      rw [preorder_eq]
      rcases inductionHypothesis child isChild metBelow with
        ⟨isTop, isParent⟩ | ⟨label, isParent, below⟩
      · refine ⟨tree.label, isParent, List.Sublist.cons_cons _ (List.singleton_sublist.2 ?_)⟩
        rw [isTop]
        exact inChildren.subset child.label_mem_preorder
      · exact ⟨label, isParent, (below.trans inChildren).cons _⟩

/-! ### New chains -/

theorem preorder_addKey (key : Key) (tree : PrefixTree Key Value) :
    (tree.addKey key).preorder = tree.preorder := by
  obtain ⟨label, keys, endings, children⟩ := tree
  rw [preorder_eq, preorder_eq]
  rfl

theorem preorder_chain (label : Nat) (value : Value) (key : Key) (rest : List Key) :
    (chain label value key rest).preorder = List.range' label (rest.length + 1) := by
  induction rest generalizing label key with
  | nil => rfl
  | cons next rest inductionHypothesis =>
    rw [preorder_eq, List.length_cons, List.range'_succ, ← inductionHypothesis (label + 1) next]
    exact congrArg (label :: ·) (List.flatMap_singleton _ _)

/-! ### Values with the labels of their nodes -/

/-- The values of the tree, each with the label of the node at which it ends. -/
def placed (tree : PrefixTree Key Value) : List (Nat × Value) :=
  tree.nodes.flatMap fun node => node.endings.map fun value => (node.label, value)

theorem placed_eq (tree : PrefixTree Key Value) :
    tree.placed = tree.endings.map (fun value => (tree.label, value)) ++
      tree.children.flatMap placed := by
  rw [placed, nodes_eq, List.flatMap_cons, List.flatMap_assoc]
  rfl

theorem placed_addKey (key : Key) (tree : PrefixTree Key Value) :
    (tree.addKey key).placed = tree.placed := by
  obtain ⟨label, keys, endings, children⟩ := tree
  rw [placed_eq, placed_eq]
  rfl

theorem placed_chain (label : Nat) (value : Value) (key : Key) (rest : List Key) :
    (chain label value key rest).placed = [(label + rest.length, value)] := by
  induction rest generalizing label key with
  | nil => rfl
  | cons next rest inductionHypothesis =>
    have ofNext := inductionHypothesis (label + 1) next
    rw [Nat.add_assoc, Nat.add_comm 1] at ofNext
    rw [placed_eq, List.length_cons, ← ofNext]
    exact List.flatMap_singleton _ _

/-! ### Labels and insertion -/

variable [BEq Key]

/-- If a change adds labels upwards from one, and so does the new tree, then such labels are added
to the trees among which one is changed or the new one is put. -/
theorem preorder_descend_perm {key : Key} {fresh : Nat}
    {change : PrefixTree Key Value → PrefixTree Key Value} {added : PrefixTree Key Value}
    (changes : ∀ tree, ∃ count,
      (change tree).preorder.Perm (tree.preorder ++ List.range' fresh count))
    (adds : ∃ count, added.preorder = List.range' fresh count)
    (children : List (PrefixTree Key Value)) :
    ∃ count, ((descend key change added children).flatMap preorder).Perm
      (children.flatMap preorder ++ List.range' fresh count) := by
  induction children with
  | nil =>
    obtain ⟨count, labels⟩ := adds
    refine ⟨count, ?_⟩
    rw [descend, List.flatMap_singleton, labels]
    exact List.Perm.refl _
  | cons first rest inductionHypothesis =>
    rw [descend]
    split
    · obtain ⟨count, changed⟩ := changes (first.addKey key)
      rw [preorder_addKey] at changed
      refine ⟨count, ?_⟩
      rw [List.flatMap_cons, List.flatMap_cons, List.append_assoc]
      refine (changed.append_right _).trans ?_
      rw [List.append_assoc]
      exact List.perm_append_comm.append_left _
    · obtain ⟨count, below⟩ := inductionHypothesis
      refine ⟨count, ?_⟩
      rw [List.flatMap_cons, List.flatMap_cons, List.append_assoc]
      exact below.append_left _

/-- The new nodes of an insertion are labelled upwards from the given label. -/
theorem preorder_insertFrom_perm (fresh : Nat) (value : Value) (sequence : List Key)
    (tree : PrefixTree Key Value) :
    ∃ count, (insertFrom fresh value sequence tree).preorder.Perm
      (tree.preorder ++ List.range' fresh count) := by
  induction sequence generalizing tree with
  | nil =>
    obtain ⟨label, keys, endings, children⟩ := tree
    refine ⟨0, ?_⟩
    rw [preorder_eq, preorder_eq, List.range'_zero, List.append_nil]
    exact List.Perm.refl _
  | cons key rest inductionHypothesis =>
    obtain ⟨label, keys, endings, children⟩ := tree
    obtain ⟨count, below⟩ : ∃ count, ((descend key (insertFrom fresh value rest)
        (chain fresh value key rest) children).flatMap preorder).Perm
          (children.flatMap preorder ++ List.range' fresh count) :=
      preorder_descend_perm inductionHypothesis
        ⟨rest.length + 1, preorder_chain fresh value key rest⟩ children
    refine ⟨count, ?_⟩
    rw [preorder_eq, preorder_eq]
    exact below.cons _

/-- If the labels are the numbers up to the size, they are so after an insertion. -/
theorem preorder_insert_perm {tree : PrefixTree Key Value}
    (counted : tree.preorder.Perm (List.range tree.size)) (sequence : List Key) (value : Value) :
    (tree.insert sequence value).preorder.Perm
      (List.range (tree.insert sequence value).size) := by
  obtain ⟨count, grown⟩ := preorder_insertFrom_perm tree.size value sequence tree
  have size : (tree.insert sequence value).size = tree.size + count := by
    rw [← length_preorder, ← length_preorder tree, insert, grown.length_eq, List.length_append,
      List.length_range']
  rw [size, List.range_add]
  refine grown.trans (counted.append ?_)
  rw [List.range'_eq_map_range]

/-! ### Values and insertion -/

theorem landingFrom_addKey (fresh : Nat) (sequence : List Key) (key : Key)
    (tree : PrefixTree Key Value) :
    landingFrom fresh sequence (tree.addKey key) = landingFrom fresh sequence tree := by
  obtain ⟨label, keys, endings, children⟩ := tree
  cases sequence <;> rfl

/-- If a change puts one value at a place, and so does the new tree, then one value is put among
the trees of which one is changed or to which the new one is added. -/
theorem placed_descend_perm {key : Key} {value : Value} {place : Nat}
    {lands : PrefixTree Key Value → Nat}
    {change : PrefixTree Key Value → PrefixTree Key Value} {added : PrefixTree Key Value}
    (changes : ∀ tree, (change (tree.addKey key)).placed.Perm ((lands tree, value) :: tree.placed))
    (adds : added.placed = [(place, value)]) (children : List (PrefixTree Key Value)) :
    ((descend key change added children).flatMap placed).Perm
      ((((children.find? (·.admits key)).map lands).getD place, value) ::
        children.flatMap placed) := by
  induction children with
  | nil =>
    rw [descend, List.flatMap_singleton, adds]
    exact List.Perm.refl _
  | cons first rest inductionHypothesis =>
    rw [descend]
    split
    · next admits =>
      have found : (first :: rest).find? (·.admits key) = some first :=
        List.find?_cons_of_pos admits
      rw [found, List.flatMap_cons, List.flatMap_cons]
      exact (changes first).append_right _
    · next refuses =>
      have sought : (first :: rest).find? (·.admits key) = rest.find? (·.admits key) :=
        List.find?_cons_of_neg refuses
      rw [sought, List.flatMap_cons, List.flatMap_cons]
      exact (inductionHypothesis.append_left _).trans List.perm_middle

/-- An insertion puts the value at the node at which it ends, and nowhere else. -/
theorem placed_insertFrom_perm (fresh : Nat) (value : Value) (sequence : List Key)
    (tree : PrefixTree Key Value) :
    (insertFrom fresh value sequence tree).placed.Perm
      ((landingFrom fresh sequence tree, value) :: tree.placed) := by
  induction sequence generalizing tree with
  | nil =>
    obtain ⟨label, keys, endings, children⟩ := tree
    rw [placed_eq, placed_eq]
    show ((endings ++ [value]).map _ ++ children.flatMap placed).Perm _
    rw [List.map_append, List.append_assoc]
    exact List.perm_middle
  | cons key rest inductionHypothesis =>
    obtain ⟨label, keys, endings, children⟩ := tree
    have changes : ∀ tree : PrefixTree Key Value,
        (insertFrom fresh value rest (tree.addKey key)).placed.Perm
          ((landingFrom fresh rest tree, value) :: tree.placed) := by
      intro tree
      have below := inductionHypothesis (tree.addKey key)
      rwa [landingFrom_addKey, placed_addKey] at below
    have below := placed_descend_perm changes (placed_chain fresh value key rest) children
    have lands : landingFrom fresh (key :: rest) (.node label keys endings children) =
        ((children.find? (·.admits key)).map (landingFrom fresh rest)).getD
          (fresh + rest.length) := by
      rw [landingFrom, child?, PrefixTree.children]
      cases children.find? (·.admits key) <;> rfl
    rw [placed_eq, placed_eq, lands]
    exact (below.append_left _).trans List.perm_middle

end StagedBuilder.PrefixTree
