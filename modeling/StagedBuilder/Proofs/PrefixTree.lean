/-
This file says where in a prefix tree things are. A node stands below the
representative keys of the edges that lead to it. After any insertions, whatever is
found at a node was put there by a sequence that goes along these edges: a value
that ends at the node has a sequence as long as the way to the node, and a key on
an edge is the next key of a sequence that takes the same way and whose value is found
at the end of the edge or below it.

A key goes along an edge if it made the edge or if the representative tests equal to
it. Nothing is assumed of the test, so in particular two keys on one edge need not
test equal to each other.
-/

import Mathlib.Data.List.Forall2
import StagedBuilder.Proofs.PrefixValues

namespace StagedBuilder.PrefixTree

variable {Key Value : Type}

/-! ### Places in a tree -/

/-- The node stands below the given representative keys in the tree. -/
inductive Under (tree : PrefixTree Key Value) : List Key → PrefixTree Key Value → Prop
  | top : Under tree [] tree
  | down {above : List Key} {node child : PrefixTree Key Value} {representative : Key}
      (under : Under tree above node) (member : child ∈ node.children)
      (made : child.representative? = some representative) :
      Under tree (above ++ [representative]) child

/-- A condition on nodes and the keys above them that holds everywhere below a place. -/
inductive Everywhere (condition : List Key → PrefixTree Key Value → Prop) :
    List Key → PrefixTree Key Value → Prop
  | intro {above : List Key} {tree : PrefixTree Key Value} (here : condition above tree)
      (below : ∀ child ∈ tree.children, ∀ representative,
        child.representative? = some representative →
          Everywhere condition (above ++ [representative]) child) :
      Everywhere condition above tree

theorem Everywhere.here {condition : List Key → PrefixTree Key Value → Prop} {above : List Key}
    {tree : PrefixTree Key Value} (everywhere : Everywhere condition above tree) :
    condition above tree := by
  cases everywhere with
  | intro here below => exact here

theorem Everywhere.ofChild {condition : List Key → PrefixTree Key Value → Prop} {above : List Key}
    {tree child : PrefixTree Key Value} {representative : Key}
    (everywhere : Everywhere condition above tree) (member : child ∈ tree.children)
    (made : child.representative? = some representative) :
    Everywhere condition (above ++ [representative]) child := by
  cases everywhere with
  | intro here below => exact below child member representative made

theorem Everywhere.of_under {condition : List Key → PrefixTree Key Value → Prop}
    {above : List Key} {tree node : PrefixTree Key Value}
    (everywhere : Everywhere condition [] tree) (under : Under tree above node) :
    Everywhere condition above node := by
  induction under with
  | top => exact everywhere
  | down _ member made inductionHypothesis => exact inductionHypothesis.ofChild member made

/-! ### What insertions leave behind -/

variable [BEq Key]

/-- The key goes along the edge that the representative made. -/
def Agrees (representative key : Key) : Prop :=
  key = representative ∨ (representative == key) = true

/-- The keys go along the edges made by the representatives. -/
abbrev Follows (above keys : List Key) : Prop := List.Forall₂ Agrees above keys

/-- Everything at a node comes from an insertion that went this way. -/
structure Recorded (inserted : List (List Key × Value)) (above : List Key)
    (tree : PrefixTree Key Value) : Prop where
  ended : ∀ value ∈ tree.endings, ∃ sequence, (sequence, value) ∈ inserted ∧ Follows above sequence
  made : ∀ child ∈ tree.children, ∃ representative, child.representative? = some representative
  taken : ∀ child ∈ tree.children, ∀ representative, child.representative? = some representative →
    ∀ key ∈ child.keys, Agrees representative key ∧
      ∃ before after value, (before ++ key :: after, value) ∈ inserted ∧ Follows above before ∧
        value ∈ child.values

/-- The edge that the representative made, and all that is below it, come from insertions that
went this way. -/
structure Branch (inserted : List (List Key × Value)) (above : List Key) (representative : Key)
    (child : PrefixTree Key Value) : Prop where
  made : child.representative? = some representative
  taken : ∀ key ∈ child.keys, Agrees representative key ∧
    ∃ before after value, (before ++ key :: after, value) ∈ inserted ∧ Follows above before ∧
      value ∈ child.values
  below : Everywhere (Recorded inserted) (above ++ [representative]) child

section

variable {inserted : List (List Key × Value)} {above before : List Key}
  {tree child : PrefixTree Key Value}

theorem follows_concat (follows : Follows above before) {representative key : Key}
    (agrees : Agrees representative key) :
    Follows (above ++ [representative]) (before ++ [key]) :=
  List.rel_append follows (List.Forall₂.cons agrees .nil)

theorem Everywhere.branch (everywhere : Everywhere (Recorded inserted) above tree)
    (member : child ∈ tree.children) :
    ∃ representative, Branch inserted above representative child := by
  have recorded := everywhere.here
  obtain ⟨representative, made⟩ := recorded.made child member
  exact ⟨representative, made, recorded.taken child member representative made,
    everywhere.ofChild member made⟩

/-- It is enough to look at what ends at a node and at each of its branches. -/
theorem Everywhere.of_branches
    (ended : ∀ value ∈ tree.endings, ∃ sequence,
      (sequence, value) ∈ inserted ∧ Follows above sequence)
    (branches : ∀ child ∈ tree.children, ∃ representative,
      Branch inserted above representative child) :
    Everywhere (Recorded inserted) above tree := by
  refine .intro ⟨ended, fun child member => ?_, fun child member representative made => ?_⟩
    fun child member representative made => ?_
  all_goals
    obtain ⟨other, branch⟩ := branches child member
  · exact ⟨other, branch.made⟩
  · cases made.symm.trans branch.made
    exact branch.taken
  · cases made.symm.trans branch.made
    exact branch.below

end

/-- What is at a node does not depend on the edge to it. -/
theorem recorded_addKey {inserted : List (List Key × Value)} {above : List Key} {key : Key}
    {tree : PrefixTree Key Value} (everywhere : Everywhere (Recorded inserted) above tree) :
    Everywhere (Recorded inserted) above (tree.addKey key) := by
  obtain ⟨label, keys, endings, children⟩ := tree
  have recorded := everywhere.here
  exact .intro ⟨recorded.ended, recorded.made, recorded.taken⟩
    fun child member representative made => everywhere.ofChild member made

theorem mem_descend {key : Key} {change : PrefixTree Key Value → PrefixTree Key Value}
    {added child : PrefixTree Key Value} {children : List (PrefixTree Key Value)}
    (member : child ∈ descend key change added children) :
    child ∈ children ∨ child = added ∨
      ∃ first ∈ children, first.admits key = true ∧ child = change (first.addKey key) := by
  induction children with
  | nil => exact Or.inr (Or.inl (List.mem_singleton.1 member))
  | cons first rest inductionHypothesis =>
    rw [descend] at member
    split at member
    · next admits =>
      rcases List.mem_cons.1 member with isChanged | inRest
      · exact Or.inr (Or.inr ⟨first, List.mem_cons_self, admits, isChanged⟩)
      · exact Or.inl (List.mem_cons_of_mem _ inRest)
    · rcases List.mem_cons.1 member with isFirst | inRest
      · exact Or.inl (isFirst ▸ List.mem_cons_self)
      · rcases inductionHypothesis inRest with inChildren | isAdded | ⟨other, inChildren, changed⟩
        · exact Or.inl (List.mem_cons_of_mem _ inChildren)
        · exact Or.inr (Or.inl isAdded)
        · exact Or.inr (Or.inr ⟨other, List.mem_cons_of_mem _ inChildren, changed⟩)

theorem keys_insertFrom (fresh : Nat) (value : Value) (sequence : List Key)
    (tree : PrefixTree Key Value) : (insertFrom fresh value sequence tree).keys = tree.keys := by
  obtain ⟨label, keys, endings, children⟩ := tree
  cases sequence <;> rfl

omit [BEq Key] in
theorem keys_addKey (key : Key) (tree : PrefixTree Key Value) :
    (tree.addKey key).keys = tree.keys ++ [key] := by
  obtain ⟨label, keys, endings, children⟩ := tree
  rfl

omit [BEq Key] in
theorem keys_chain (label : Nat) (value : Value) (key : Key) (rest : List Key) :
    (chain label value key rest).keys = [key] := by
  cases rest <;> rfl

theorem admits_of_made {tree : PrefixTree Key Value} {key representative : Key}
    (made : tree.representative? = some representative) (admits : tree.admits key = true) :
    (representative == key) = true := by
  unfold PrefixTree.admits at admits
  rwa [made] at admits

/-- A further key does not change the representative. -/
theorem representative?_insertFrom_addKey {fresh : Nat} {value : Value} {sequence : List Key}
    {key representative : Key} {tree : PrefixTree Key Value}
    (made : tree.representative? = some representative) :
    (insertFrom fresh value sequence (tree.addKey key)).representative? = some representative := by
  unfold representative? at made ⊢
  rw [keys_insertFrom, keys_addKey, List.head?_append, made, Option.some_or]

/-! ### What is at a node after insertions -/

variable {inserted : List (List Key × Value)} {value : Value} {above before : List Key}

theorem branch_chain {label : Nat} {key : Key} {rest : List Key}
    (follows : Follows above before) (isInserted : (before ++ key :: rest, value) ∈ inserted)
    (below : Everywhere (Recorded inserted) (above ++ [key]) (chain label value key rest)) :
    Branch inserted above key (chain label value key rest) where
  made := by
    rw [representative?, keys_chain]
    rfl
  taken other onEdge := by
    rw [keys_chain, List.mem_singleton] at onEdge
    subst onEdge
    refine ⟨Or.inl rfl, before, rest, value, isInserted, follows, ?_⟩
    rw [values_chain]
    exact List.mem_singleton_self value
  below := below

/-- A new chain of nodes holds what was inserted and nothing else. -/
theorem recorded_chain (follows : Follows above before) (label : Nat) (key : Key)
    (rest : List Key) (isInserted : (before ++ key :: rest, value) ∈ inserted) :
    Everywhere (Recorded inserted) (above ++ [key]) (chain label value key rest) := by
  induction rest generalizing label key above before with
  | nil =>
    refine .of_branches (fun ending member => ?_) (by simp [chain, children])
    rw [List.mem_singleton.1 member]
    exact ⟨before ++ [key], isInserted, follows_concat follows (Or.inl rfl)⟩
  | cons next rest inductionHypothesis =>
    have followsKey : Follows (above ++ [key]) (before ++ [key]) :=
      follows_concat follows (Or.inl rfl)
    have isInsertedNext : ((before ++ [key]) ++ next :: rest, value) ∈ inserted := by
      rwa [List.append_assoc]
    refine .of_branches (by simp [chain, endings]) fun child member => ⟨next, ?_⟩
    rw [List.mem_singleton.1 member]
    exact branch_chain followsKey isInsertedNext
      (inductionHypothesis followsKey (label + 1) next isInsertedNext)

/-- A key that the representative tests equal to may be added to its edge. -/
theorem Branch.insertFrom_addKey {fresh : Nat} {representative key : Key} {rest : List Key}
    {child : PrefixTree Key Value} (branch : Branch inserted above representative child)
    (tested : (representative == key) = true) (follows : Follows above before)
    (isInserted : (before ++ key :: rest, value) ∈ inserted)
    (below : Everywhere (Recorded inserted) (above ++ [representative])
      (insertFrom fresh value rest (child.addKey key))) :
    Branch inserted above representative (insertFrom fresh value rest (child.addKey key)) where
  made := representative?_insertFrom_addKey branch.made
  taken other onEdge := by
    rw [keys_insertFrom, keys_addKey] at onEdge
    rcases List.mem_append.1 onEdge with wasOnEdge | isKey
    · obtain ⟨agrees, earlier, later, held, wasInserted, went, below⟩ :=
        branch.taken other wasOnEdge
      have stillBelow : held ∈ (insertFrom fresh value rest (child.addKey key)).values := by
        rw [mem_values_insertFrom, values_addKey]
        exact Or.inr below
      exact ⟨agrees, earlier, later, held, wasInserted, went, stillBelow⟩
    · rw [List.mem_singleton.1 isKey]
      exact ⟨Or.inr tested, before, rest, value, isInserted, follows,
        mem_values_insertFrom.2 (Or.inl rfl)⟩
  below := below

/-- An insertion leaves behind what was there and what is inserted. -/
theorem recorded_insertFrom (fresh : Nat) (sequence : List Key) {tree : PrefixTree Key Value}
    (everywhere : Everywhere (Recorded inserted) above tree) (follows : Follows above before)
    (isInserted : (before ++ sequence, value) ∈ inserted) :
    Everywhere (Recorded inserted) above (insertFrom fresh value sequence tree) := by
  induction sequence generalizing above before tree with
  | nil =>
    obtain ⟨label, keys, endings, children⟩ := tree
    refine .of_branches (fun ending member => ?_) fun child member => everywhere.branch member
    rcases List.mem_append.1 member with wasThere | isNew
    · exact everywhere.here.ended ending wasThere
    · rw [List.mem_singleton.1 isNew]
      exact ⟨before, by rwa [List.append_nil] at isInserted, follows⟩
  | cons key rest inductionHypothesis =>
    obtain ⟨label, keys, endings, children⟩ := tree
    refine .of_branches everywhere.here.ended fun child member => ?_
    -- A child is one that was there, the new chain, or the one that the key goes down to.
    obtain wasThere | rfl | ⟨first, wasThere, admits, rfl⟩ := mem_descend member
    · exact everywhere.branch wasThere
    · exact ⟨key, branch_chain follows isInserted
        (recorded_chain follows fresh key rest isInserted)⟩
    · obtain ⟨representative, branch⟩ := everywhere.branch wasThere
      have tested := admits_of_made branch.made admits
      have isInsertedNext : ((before ++ [key]) ++ rest, value) ∈ inserted := by
        rwa [List.append_assoc]
      exact ⟨representative, branch.insertFrom_addKey tested follows isInserted
        (inductionHypothesis (recorded_addKey branch.below)
          (follows_concat follows (Or.inr tested)) isInsertedNext)⟩

theorem recorded_empty (inserted : List (List Key × Value)) :
    Everywhere (Recorded inserted) [] (empty : PrefixTree Key Value) :=
  .intro ⟨by simp [empty, endings], by simp [empty, children], by simp [empty, children]⟩
    (by simp [empty, children])

/-- After any insertions, whatever is at a node was inserted along the way to it. -/
theorem recorded_insertions (inserted : List (List Key × Value)) :
    Everywhere (Recorded inserted) []
      (inserted.foldl (fun tree entry => tree.insert entry.1 entry.2) empty) := by
  have general : ∀ (rest : List (List Key × Value)) (tree : PrefixTree Key Value),
      (∀ entry ∈ rest, entry ∈ inserted) → Everywhere (Recorded inserted) [] tree →
        Everywhere (Recorded inserted) []
          (rest.foldl (fun tree entry => tree.insert entry.1 entry.2) tree) := by
    intro rest
    induction rest with
    | nil => exact fun tree _ everywhere => everywhere
    | cons first rest inductionHypothesis =>
      intro tree included everywhere
      refine inductionHypothesis _
        (fun entry member => included entry (List.mem_cons_of_mem _ member))
        (recorded_insertFrom tree.size first.1 everywhere .nil ?_)
      exact included first List.mem_cons_self
  exact general inserted empty (fun entry member => member) (recorded_empty inserted)

end StagedBuilder.PrefixTree
