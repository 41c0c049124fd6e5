/-
This file says that insertion loses nothing and invents nothing. Whatever the test by
which keys are compared, and wherever a sequence goes down, the values of the tree
afterwards are those before and the one that was inserted. After any insertions the
values are therefore the inserted ones in some order, and a value that was inserted once
is found at one node only.
-/

import Mathlib.Data.List.Perm.Basic
import StagedBuilder.Prefix.Tree

namespace StagedBuilder.PrefixTree

variable {Key Value : Type}

/-! ### The values of a node and of its children -/

theorem valuesOfAll_eq_flatMap (trees : List (PrefixTree Key Value)) :
    valuesOfAll trees = trees.flatMap values := by
  induction trees with
  | nil => rfl
  | cons first rest inductionHypothesis =>
    rw [valuesOfAll, inductionHypothesis, List.flatMap_cons]

theorem values_eq (tree : PrefixTree Key Value) :
    tree.values = tree.endings ++ tree.children.flatMap values := by
  obtain ⟨label, keys, endings, children⟩ := tree
  rw [values, valuesOfAll_eq_flatMap, PrefixTree.endings, PrefixTree.children]

theorem mem_values {tree : PrefixTree Key Value} {value : Value} :
    value ∈ tree.values ↔ value ∈ tree.endings ∨ ∃ child ∈ tree.children, value ∈ child.values := by
  rw [values_eq, List.mem_append, List.mem_flatMap]

/-- What is at a child or below it is at the node or below it. -/
theorem mem_values_of_child {tree child : PrefixTree Key Value} (member : child ∈ tree.children)
    {value : Value} (below : value ∈ child.values) : value ∈ tree.values :=
  mem_values.2 (Or.inr ⟨child, member, below⟩)

theorem values_empty : (empty : PrefixTree Key Value).values = [] := rfl

theorem values_addKey (key : Key) (tree : PrefixTree Key Value) :
    (tree.addKey key).values = tree.values := by
  obtain ⟨label, keys, endings, children⟩ := tree
  rfl

theorem values_chain (label : Nat) (value : Value) (key : Key) (rest : List Key) :
    (chain label value key rest).values = [value] := by
  induction rest generalizing label key with
  | nil => rfl
  | cons next rest inductionHypothesis =>
    rw [chain, values, valuesOfAll, valuesOfAll, inductionHypothesis]
    rfl

/-! ### Insertion -/

variable [BEq Key]

/-- If a change adds one value to every tree, and so does the new tree, then one value is added
to the trees among which one is changed or the new one is put. -/
theorem valuesOfAll_descend_perm {key : Key} {value : Value}
    {change : PrefixTree Key Value → PrefixTree Key Value} {added : PrefixTree Key Value}
    (changes : ∀ tree, (change tree).values.Perm (value :: tree.values))
    (adds : added.values = [value]) (children : List (PrefixTree Key Value)) :
    (valuesOfAll (descend key change added children)).Perm (value :: valuesOfAll children) := by
  induction children with
  | nil =>
    show (added.values ++ []).Perm [value]
    rw [adds]
    exact List.Perm.refl _
  | cons first rest inductionHypothesis =>
    rw [descend]
    split
    · rw [valuesOfAll, valuesOfAll, ← values_addKey key first, ← List.cons_append]
      exact (changes _).append_right _
    · rw [valuesOfAll, valuesOfAll]
      exact (inductionHypothesis.append_left _).trans List.perm_middle

/-- An insertion adds the inserted value. -/
theorem values_insertFrom_perm (fresh : Nat) (value : Value) (sequence : List Key)
    (tree : PrefixTree Key Value) :
    (insertFrom fresh value sequence tree).values.Perm (value :: tree.values) := by
  induction sequence generalizing tree with
  | nil =>
    obtain ⟨label, keys, endings, children⟩ := tree
    rw [insertFrom, values, values, List.append_assoc, List.singleton_append]
    exact List.perm_middle
  | cons key rest inductionHypothesis =>
    obtain ⟨label, keys, endings, children⟩ := tree
    rw [insertFrom, values, values]
    have below : (valuesOfAll (descend key (insertFrom fresh value rest)
        (chain fresh value key rest) children)).Perm (value :: valuesOfAll children) :=
      valuesOfAll_descend_perm inductionHypothesis (values_chain fresh value key rest) children
    exact (below.append_left _).trans List.perm_middle

theorem mem_values_insertFrom {fresh : Nat} {value other : Value} {sequence : List Key}
    {tree : PrefixTree Key Value} :
    other ∈ (insertFrom fresh value sequence tree).values ↔
      other = value ∨ other ∈ tree.values := by
  rw [(values_insertFrom_perm fresh value sequence tree).mem_iff, List.mem_cons]

/-- After insertions the tree holds what it held and the inserted values. -/
theorem values_foldl_insert_perm (inserted : List (List Key × Value))
    (tree : PrefixTree Key Value) :
    (inserted.foldl (fun tree entry => tree.insert entry.1 entry.2) tree).values.Perm
      (inserted.map (·.2) ++ tree.values) := by
  induction inserted generalizing tree with
  | nil => exact List.Perm.refl _
  | cons first rest inductionHypothesis =>
    have once := values_insertFrom_perm tree.size first.2 first.1 tree
    exact ((inductionHypothesis _).trans (once.append_left _)).trans List.perm_middle

end StagedBuilder.PrefixTree
