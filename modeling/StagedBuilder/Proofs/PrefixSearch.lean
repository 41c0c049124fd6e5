/-
This file says what a key finds in a prefix tree and what it finds after an insertion. A key
goes down the first child whose representative tests equal to it. A child keeps its
representative, and later children come after it, so a key that has found a child finds this
child ever after. Two keys find the same child after an insertion only if they did before or
both found none.

The test need be neither symmetric nor transitive, and not every key need test equal to
itself.
-/

import StagedBuilder.Proofs.Lists
import StagedBuilder.Proofs.PrefixTree

namespace StagedBuilder.PrefixTree

variable {Key Value : Type} [BEq Key]

/-! ### Searching -/

/-- The node that a sequence of keys leads to. -/
def search? : List Key → PrefixTree Key Value → Option (PrefixTree Key Value)
  | [], tree => some tree
  | key :: rest, tree => (tree.child? key).bind (search? rest)

section

variable {tree child node : PrefixTree Key Value} {keys : List Key}

theorem mem_children_of_child? {key : Key} (found : tree.child? key = some child) :
    child ∈ tree.children ∧ child.admits key = true := by
  have admits := List.find?_some found
  exact ⟨List.mem_of_find?_eq_some found, admits⟩

theorem find?_cons_of_refuses {key : Key} (refuses : ¬ child.admits key = true)
    (rest : List (PrefixTree Key Value)) :
    (child :: rest).find? (·.admits key) = rest.find? (·.admits key) :=
  List.find?_cons_of_neg refuses

theorem exists_representative_of_admits {key : Key} (admits : tree.admits key = true) :
    ∃ representative, tree.representative? = some representative := by
  unfold PrefixTree.admits at admits
  cases made : tree.representative? with
  | none =>
    rw [made] at admits
    exact absurd admits Bool.false_ne_true
  | some representative => exact ⟨representative, rfl⟩

/-- Where a sequence leads is below a node below as many keys. -/
theorem Under.search? {above : List Key} (under : Under tree above child)
    (found : child.search? keys = some node) :
    ∃ before, Under tree before node ∧ before.length = above.length + keys.length := by
  induction keys generalizing above child with
  | nil =>
    cases found
    exact ⟨above, under, rfl⟩
  | cons key rest inductionHypothesis =>
    obtain ⟨next, isNext, found⟩ := Option.bind_eq_some_iff.1 found
    obtain ⟨member, admits⟩ := mem_children_of_child? isNext
    obtain ⟨representative, made⟩ := exists_representative_of_admits admits
    obtain ⟨before, isUnder, length⟩ := inductionHypothesis (under.down member made) found
    rw [List.length_append, List.length_singleton, Nat.add_assoc, Nat.add_comm 1] at length
    exact ⟨before, isUnder, length⟩

theorem mem_values_of_search? (found : tree.search? keys = some node) {value : Value}
    (below : value ∈ node.values) : value ∈ tree.values := by
  induction keys generalizing tree with
  | nil =>
    cases found
    exact below
  | cons key rest inductionHypothesis =>
    obtain ⟨next, isNext, found⟩ := Option.bind_eq_some_iff.1 found
    exact mem_values_of_child (mem_children_of_child? isNext).1 (inductionHypothesis found)

end

/-! ### Children and one change -/

/-- A change, once it is made to a tree that admits a key, leaves what the tree admits as it is. -/
def Keeps (key : Key) (change : PrefixTree Key Value → PrefixTree Key Value) : Prop :=
  ∀ tree : PrefixTree Key Value, tree.admits key = true → ∀ query,
    (change (tree.addKey key)).admits query = tree.admits query

section

variable {key : Key} {change : PrefixTree Key Value → PrefixTree Key Value}
  {added : PrefixTree Key Value} {children : List (PrefixTree Key Value)}

/-- The key finds the new child or the changed one. -/
theorem find?_descend_self (keeps : Keeps key change) (admitsAdded : added.admits key = true) :
    (descend key change added children).find? (·.admits key) =
      some (((children.find? (·.admits key)).map fun child => change (child.addKey key)).getD
        added) := by
  induction children with
  | nil => exact List.find?_cons_of_pos admitsAdded
  | cons first rest inductionHypothesis =>
    rw [descend]
    by_cases admits : first.admits key = true
    · have found : (first :: rest).find? (·.admits key) = some first :=
        List.find?_cons_of_pos admits
      rw [if_pos admits, found]
      exact List.find?_cons_of_pos ((keeps first admits key).trans admits)
    · rw [if_neg admits, find?_cons_of_refuses admits, find?_cons_of_refuses admits,
        inductionHypothesis]

/-- A key that has found a child finds the same one, perhaps changed. -/
theorem find?_descend_of_some (keeps : Keeps key change) {query : Key}
    {child : PrefixTree Key Value} (found : children.find? (·.admits query) = some child) :
    (descend key change added children).find? (·.admits query) = some child ∨
      (descend key change added children).find? (·.admits query) =
        some (change (child.addKey key)) := by
  induction children with
  | nil => cases found
  | cons first rest inductionHypothesis =>
    rw [descend]
    by_cases admitsQuery : first.admits query = true
    · have isFirst : (first :: rest).find? (·.admits query) = some first :=
        List.find?_cons_of_pos admitsQuery
      rw [isFirst, Option.some.injEq] at found
      subst found
      split
      · next admits =>
        exact Or.inr (List.find?_cons_of_pos ((keeps first admits query).trans admitsQuery))
      · exact Or.inl (List.find?_cons_of_pos admitsQuery)
    · rw [find?_cons_of_refuses admitsQuery] at found
      split
      · next admits =>
        have changed : ¬ (change (first.addKey key)).admits query = true := by
          rwa [keeps first admits query]
        exact Or.inl ((find?_cons_of_refuses changed rest).trans found)
      · rw [find?_cons_of_refuses admitsQuery]
        exact inductionHypothesis found

/-- Keys that find the same child still do; if they find none, the new one must not part them. -/
theorem find?_descend_congr (keeps : Keeps key change) {query other : Key}
    (same : children.find? (·.admits query) = children.find? (·.admits other))
    (alike : children.find? (·.admits query) = none → added.admits query = added.admits other) :
    (descend key change added children).find? (·.admits query) =
      (descend key change added children).find? (·.admits other) := by
  induction children with
  | nil => exact Lists.find?_cons_eq_find?_cons.2 ⟨alike rfl, Or.inr rfl⟩
  | cons first rest inductionHypothesis =>
    obtain ⟨sameFirst, sameRest⟩ := Lists.find?_cons_eq_find?_cons.1 same
    rw [descend]
    split
    · next admits =>
      refine Lists.find?_cons_eq_find?_cons.2 ⟨?_, ?_⟩
      · rw [keeps first admits, keeps first admits, sameFirst]
      · rw [keeps first admits]
        exact sameRest
    · refine Lists.find?_cons_eq_find?_cons.2 ⟨sameFirst, ?_⟩
      by_cases admitsQuery : first.admits query = true
      · exact Or.inl admitsQuery
      · refine Or.inr (inductionHypothesis (sameRest.resolve_left admitsQuery) fun none => ?_)
        exact alike ((find?_cons_of_refuses admitsQuery rest).trans none)

/-- Keys that find the same child, or both none, did so before. -/
theorem find?_of_descend (keeps : Keeps key change) {query other : Key}
    (same : (descend key change added children).find? (·.admits query) =
      (descend key change added children).find? (·.admits other)) :
    children.find? (·.admits query) = children.find? (·.admits other) := by
  induction children with
  | nil => rfl
  | cons first rest inductionHypothesis =>
    rw [descend] at same
    split at same
    · next admits =>
      have changed := Lists.find?_cons_eq_find?_cons.1 same
      rw [keeps first admits, keeps first admits] at changed
      exact Lists.find?_cons_eq_find?_cons.2 changed
    · obtain ⟨sameFirst, sameRest⟩ := Lists.find?_cons_eq_find?_cons.1 same
      exact Lists.find?_cons_eq_find?_cons.2 ⟨sameFirst, sameRest.imp_right inductionHypothesis⟩

end

/-! ### Children and one insertion -/

section

variable {tree child : PrefixTree Key Value} {key query other : Key} {fresh : Nat} {value : Value}
  {rest : List Key}

theorem admits_chain (label : Nat) (value : Value) (key : Key) (rest : List Key) (query : Key) :
    (chain label value key rest).admits query = (key == query) := by
  rw [PrefixTree.admits, representative?, keys_chain]
  rfl

/-- The child that an insertion goes down to keeps its representative. -/
theorem keeps_insertFrom (fresh : Nat) (value : Value) (sequence : List Key) (key : Key) :
    Keeps key (insertFrom fresh value sequence) := by
  intro tree admits query
  obtain ⟨representative, made⟩ := exists_representative_of_admits admits
  rw [PrefixTree.admits, PrefixTree.admits, representative?_insertFrom_addKey made, made]

theorem insertFrom_addKey (fresh : Nat) (value : Value) (sequence : List Key) (key : Key)
    (tree : PrefixTree Key Value) :
    insertFrom fresh value sequence (tree.addKey key) =
      (insertFrom fresh value sequence tree).addKey key := by
  obtain ⟨label, keys, endings, children⟩ := tree
  cases sequence <;> rfl

omit [BEq Key] in
theorem children_addKey (key : Key) (tree : PrefixTree Key Value) :
    (tree.addKey key).children = tree.children := by
  obtain ⟨label, keys, endings, children⟩ := tree
  rfl

/-- The children of a node do not depend on the edge to it. -/
theorem child?_addKey (key : Key) (tree : PrefixTree Key Value) (query : Key) :
    (tree.addKey key).child? query = tree.child? query := by
  rw [child?, child?, children_addKey]

/-- An insertion that ends at a node leaves its children alone. -/
theorem child?_insertFrom_nil (fresh : Nat) (value : Value) (tree : PrefixTree Key Value)
    (query : Key) : (insertFrom fresh value [] tree).child? query = tree.child? query := by
  obtain ⟨label, keys, endings, children⟩ := tree
  rfl

theorem child?_insertFrom_cons (fresh : Nat) (value : Value) (key : Key) (rest : List Key)
    (tree : PrefixTree Key Value) (query : Key) :
    (insertFrom fresh value (key :: rest) tree).child? query =
      (descend key (insertFrom fresh value rest) (chain fresh value key rest)
        tree.children).find? (·.admits query) := by
  obtain ⟨label, keys, endings, children⟩ := tree
  rfl

/-- The inserted key goes down to the child that it found, or to a new chain. -/
theorem child?_insertFrom_self (self : (key == key) = true) :
    (insertFrom fresh value (key :: rest) tree).child? key =
      some (((tree.child? key).map fun child => (insertFrom fresh value rest child).addKey key).getD
        (chain fresh value key rest)) := by
  have admitsChain := (admits_chain fresh value key rest key).trans self
  rw [child?_insertFrom_cons,
    find?_descend_self (keeps_insertFrom fresh value rest key) admitsChain, child?]
  simp only [insertFrom_addKey]

theorem child?_insertFrom_of_some (found : tree.child? query = some child) :
    (insertFrom fresh value (key :: rest) tree).child? query = some child ∨
      (insertFrom fresh value (key :: rest) tree).child? query =
        some ((insertFrom fresh value rest child).addKey key) := by
  rw [child?_insertFrom_cons, ← insertFrom_addKey]
  exact find?_descend_of_some (keeps_insertFrom fresh value rest key) found

/-- Keys that go down to the same child still do. If they go down to none, the inserted key must
not part them. -/
theorem child?_insertFrom_congr (same : tree.child? query = tree.child? other)
    (alike : tree.child? query = none → (key == query) = (key == other)) :
    (insertFrom fresh value (key :: rest) tree).child? query =
      (insertFrom fresh value (key :: rest) tree).child? other := by
  rw [child?_insertFrom_cons, child?_insertFrom_cons]
  refine find?_descend_congr (keeps_insertFrom fresh value rest key) same fun none => ?_
  rw [admits_chain, admits_chain, alike none]

theorem child?_of_insertFrom
    (same : (insertFrom fresh value (key :: rest) tree).child? query =
      (insertFrom fresh value (key :: rest) tree).child? other) :
    tree.child? query = tree.child? other := by
  rw [child?_insertFrom_cons, child?_insertFrom_cons] at same
  exact find?_of_descend (keeps_insertFrom fresh value rest key) same

end

end StagedBuilder.PrefixTree
