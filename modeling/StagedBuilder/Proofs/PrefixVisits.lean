/-
This file says which nodes are met on the way down a prefix tree. They are the nodes that
stand below representative keys, and with a node its children are met, too.

A node is met once. If no value is in the tree twice this can be said without labels: of
two nodes that are met at one depth, no value is at or below both, so a node is known by
its depth and any one value at or below it.
-/

import Mathlib.Data.List.Nodup
import Mathlib.Data.List.Pairwise
import StagedBuilder.Proofs.PrefixTree

namespace StagedBuilder.PrefixTree

variable {Key Value : Type}

/-- A property holds of every tree if it passes from the children of a node to the node. -/
theorem inductionOn {property : PrefixTree Key Value → Prop} (tree : PrefixTree Key Value)
    (node : ∀ tree, (∀ child ∈ tree.children, property child) → property tree) : property tree :=
  @PrefixTree.rec Key Value property (fun children => ∀ child ∈ children, property child)
    (fun label keys endings children ofChildren => node (.node label keys endings children)
      ofChildren)
    (fun _ member => absurd member List.not_mem_nil)
    (fun _ _ ofFirst ofRest child member =>
      (List.mem_cons.1 member).elim (fun isFirst => isFirst ▸ ofFirst) (ofRest child))
    tree

/-! ### The nodes that are met -/

/-- The representative keys that lead to a node, given those that lead to its parent. -/
def pathFrom (above : List Key) (tree : PrefixTree Key Value) : List Key :=
  above ++ tree.representative?.toList

theorem pathFrom_of_made {above : List Key} {tree : PrefixTree Key Value} {representative : Key}
    (made : tree.representative? = some representative) :
    tree.pathFrom above = above ++ [representative] := by
  rw [pathFrom, made, Option.toList_some]

theorem visitsOfAll_eq_flatMap (parent : Option Nat) (above : List Key)
    (trees : List (PrefixTree Key Value)) :
    visitsOfAll parent above trees = trees.flatMap (visits parent above) := by
  induction trees with
  | nil => rfl
  | cons first rest inductionHypothesis =>
    rw [visitsOfAll, inductionHypothesis, List.flatMap_cons]

/-- First the node is met and then, one after another, all that is below its children. -/
theorem visits_eq (parent : Option Nat) (above : List Key) (tree : PrefixTree Key Value) :
    tree.visits parent above =
      ⟨tree, parent, tree.pathFrom above⟩ ::
        visitsOfAll (some tree.label) (tree.pathFrom above) tree.children := by
  obtain ⟨label, keys, endings, children⟩ := tree
  rfl

theorem mem_visits {parent : Option Nat} {above : List Key} {tree : PrefixTree Key Value}
    {visit : Visit Key Value} :
    visit ∈ tree.visits parent above ↔
      visit = ⟨tree, parent, tree.pathFrom above⟩ ∨
        ∃ child ∈ tree.children,
          visit ∈ child.visits (some tree.label) (tree.pathFrom above) := by
  rw [visits_eq, visitsOfAll_eq_flatMap, List.mem_cons, List.mem_flatMap]

/-- The children of a node that is met are met. -/
theorem child_mem_visits {parent : Option Nat} {above : List Key} {tree : PrefixTree Key Value}
    {visit : Visit Key Value} (met : visit ∈ tree.visits parent above)
    {child : PrefixTree Key Value} (member : child ∈ visit.tree.children) :
    ⟨child, some visit.tree.label, child.pathFrom visit.path⟩ ∈ tree.visits parent above := by
  induction tree using inductionOn generalizing parent above with
  | node tree inductionHypothesis =>
    rcases mem_visits.1 met with rfl | ⟨other, isChild, metBelow⟩
    · exact mem_visits.2 (Or.inr ⟨child, member, mem_visits.2 (Or.inl rfl)⟩)
    · exact mem_visits.2 (Or.inr ⟨other, isChild, inductionHypothesis other isChild metBelow⟩)

/-- What is at or below a node that is met is at or below the node where the way began. -/
theorem mem_values_of_mem_visits {parent : Option Nat} {above : List Key}
    {tree : PrefixTree Key Value} {visit : Visit Key Value}
    (met : visit ∈ tree.visits parent above) {value : Value} (below : value ∈ visit.tree.values) :
    value ∈ tree.values := by
  induction tree using inductionOn generalizing parent above with
  | node tree inductionHypothesis =>
    rcases mem_visits.1 met with rfl | ⟨child, isChild, metBelow⟩
    · exact below
    · exact mem_values_of_child isChild (inductionHypothesis child isChild metBelow)

theorem length_path_of_mem_visits {parent : Option Nat} {above : List Key}
    {tree : PrefixTree Key Value} {visit : Visit Key Value}
    (met : visit ∈ tree.visits parent above) :
    (tree.pathFrom above).length ≤ visit.path.length := by
  induction tree using inductionOn generalizing parent above with
  | node tree inductionHypothesis =>
    rcases mem_visits.1 met with rfl | ⟨child, isChild, metBelow⟩
    · exact Nat.le_refl _
    · refine Nat.le_trans ?_ (inductionHypothesis child isChild metBelow)
      rw [pathFrom, pathFrom, List.length_append, List.length_append, List.length_append]
      exact Nat.le_add_right _ _

/-! ### Nodes that are met and nodes below keys -/

/-- The root has no key, and every other node has one. -/
structure Keyed (tree : PrefixTree Key Value) : Prop where
  root : tree.representative? = none
  made : ∀ above node, Under tree above node → ∀ child ∈ node.children,
    ∃ representative, child.representative? = some representative

namespace Keyed

variable {tree node : PrefixTree Key Value} {above : List Key} {parent : Option Nat}

/-- A child stands below one more key than the node. -/
theorem under_child (keyed : tree.Keyed) (under : Under tree above node)
    {child : PrefixTree Key Value} (member : child ∈ node.children) :
    Under tree (child.pathFrom above) child ∧
      (child.pathFrom above).length = above.length + 1 := by
  obtain ⟨representative, made⟩ := keyed.made above node under child member
  rw [pathFrom_of_made made]
  exact ⟨.down under member made, List.length_append⟩

/-- What is met below a node stands below keys. -/
theorem under_of_mem_visits (keyed : tree.Keyed) {visit : Visit Key Value}
    (under : Under tree (node.pathFrom above) node) (met : visit ∈ node.visits parent above) :
    Under tree visit.path visit.tree := by
  induction node using inductionOn generalizing parent above with
  | node node inductionHypothesis =>
    rcases mem_visits.1 met with rfl | ⟨child, isChild, metBelow⟩
    · exact under
    · exact inductionHypothesis child isChild (keyed.under_child under isChild).1 metBelow

theorem under_root (keyed : tree.Keyed) : Under tree (tree.pathFrom []) tree := by
  rw [pathFrom, keyed.root]
  exact .top

/-- Every node that stands below keys is met. -/
theorem exists_visit (keyed : tree.Keyed) (under : Under tree above node) :
    ∃ parent, ⟨node, parent, above⟩ ∈ tree.visits none [] := by
  induction under with
  | top =>
    refine ⟨none, mem_visits.2 (Or.inl ?_)⟩
    rw [pathFrom, keyed.root]
    rfl
  | down _ member made inductionHypothesis =>
    obtain ⟨parent, met⟩ := inductionHypothesis
    have childMet := child_mem_visits met member
    rw [pathFrom_of_made made] at childMet
    exact ⟨_, childMet⟩

end Keyed

theorem keyed_insertions [BEq Key] (inserted : List (List Key × Value)) :
    (inserted.foldl (fun tree entry => tree.insert entry.1 entry.2) empty).Keyed where
  root := by
    have unchanged : ∀ (rest : List (List Key × Value)) (tree : PrefixTree Key Value),
        (rest.foldl (fun tree entry => tree.insert entry.1 entry.2) tree).keys = tree.keys := by
      intro rest
      induction rest with
      | nil => exact fun tree => rfl
      | cons first rest inductionHypothesis =>
        exact fun tree => (inductionHypothesis _).trans (keys_insertFrom _ _ _ _)
    rw [representative?, unchanged]
    rfl
  made above node under := (recorded_insertions inserted).of_under under |>.here.made

/-! ### One node for a depth and a value -/

/-- No value is at or below both nodes if they stand at one depth. -/
def Visit.Apart (first second : Visit Key Value) : Prop :=
  first.path.length = second.path.length → first.tree.values.Disjoint second.tree.values

theorem Visit.Apart.symm {first second : Visit Key Value} (apart : first.Apart second) :
    second.Apart first :=
  fun sameDepth => List.disjoint_symm (apart sameDepth.symm)

/-- If no value is there twice, the nodes that are met are apart. -/
theorem Keyed.pairwise_visits {tree node : PrefixTree Key Value} {above : List Key}
    {parent : Option Nat} (keyed : tree.Keyed) (under : Under tree (node.pathFrom above) node)
    (distinct : node.values.Nodup) : (node.visits parent above).Pairwise Visit.Apart := by
  induction node using inductionOn generalizing parent above with
  | node node inductionHypothesis =>
    rw [values_eq, List.nodup_append] at distinct
    obtain ⟨eachDistinct, siblings⟩ := List.nodup_flatMap.1 distinct.2.1
    rw [visits_eq, visitsOfAll_eq_flatMap, List.pairwise_cons, List.pairwise_flatMap]
    refine ⟨fun visit met sameDepth => ?_, fun child isChild => ?_, ?_⟩
    · -- What is met below the node is deeper than the node.
      obtain ⟨child, isChild, metBelow⟩ := List.mem_flatMap.1 met
      have deeper := length_path_of_mem_visits metBelow
      rw [(keyed.under_child under isChild).2] at deeper
      exact absurd sameDepth (Nat.ne_of_lt deeper)
    · exact inductionHypothesis child isChild (keyed.under_child under isChild).1
        (eachDistinct child isChild)
    · refine siblings.imp fun disjoint first metFirst second metSecond _ value => ?_
      intro inFirst inSecond
      exact disjoint (mem_values_of_mem_visits metFirst inFirst)
        (mem_values_of_mem_visits metSecond inSecond)

/-- If no value is there twice, one node is left for a depth and a value. -/
theorem Keyed.eq_of_under {tree node other : PrefixTree Key Value} {above before : List Key}
    (keyed : tree.Keyed) (distinct : tree.values.Nodup) (under : Under tree above node)
    (otherUnder : Under tree before other) (sameDepth : above.length = before.length)
    {value : Value} (inNode : value ∈ node.values) (inOther : value ∈ other.values) :
    node = other := by
  obtain ⟨parent, met⟩ := keyed.exists_visit under
  obtain ⟨otherParent, otherMet⟩ := keyed.exists_visit otherUnder
  have apart : (tree.visits none []).Pairwise Visit.Apart :=
    keyed.pairwise_visits keyed.under_root distinct
  have symmetric : Std.Symm fun first second : Visit Key Value => first.Apart second :=
    ⟨fun _ _ apart => apart.symm⟩
  by_contra differ
  exact apart.forall met otherMet (fun same => differ (congrArg Visit.tree same)) sameDepth inNode
    inOther

end StagedBuilder.PrefixTree
