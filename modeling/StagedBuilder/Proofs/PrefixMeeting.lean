/-
This file says when two sequences go the same way down a prefix tree. Their keys may test
equal to each other and still part, because a child that was there before may admit one of
them only.

What happens is settled when the first of the two sequences is inserted. If up to then no
child parts them, they go down the children that the insertion takes or makes, and both
values are at or below one node, whatever is inserted later. If a child parts them, no later
insertion can bring them together.
-/

import StagedBuilder.Proofs.PrefixSearch
import StagedBuilder.Proofs.PrefixVisits

namespace StagedBuilder.PrefixTree

variable {Key Value : Type}

/-! ### Values below one node -/

/-- Two values are at or below one node of the given depth. -/
def Gathers (tree : PrefixTree Key Value) (depth : Nat) (first second : Value) : Prop :=
  ∃ above node, Under tree above node ∧ above.length = depth ∧ first ∈ node.values ∧
    second ∈ node.values

/-- There is a node above with all that is at or below a node, at every smaller depth. -/
theorem Under.exists_above {tree node : PrefixTree Key Value} {above : List Key}
    (under : Under tree above node) {depth : Nat} (bound : depth ≤ above.length) :
    ∃ before higher, Under tree before higher ∧ before.length = depth ∧
      ∀ value ∈ node.values, value ∈ higher.values := by
  induction under with
  | top =>
    have atTop : depth = 0 := Nat.le_zero.1 bound
    exact ⟨[], tree, .top, atTop.symm, fun value member => member⟩
  | @down above node child representative under member made inductionHypothesis =>
    rw [List.length_append, List.length_singleton] at bound
    rcases Nat.lt_or_ge above.length depth with atChild | higher
    · have sameDepth : depth = above.length + 1 := Nat.le_antisymm bound atChild
      exact ⟨above ++ [representative], child, .down under member made,
        List.length_append.trans sameDepth.symm, fun value below => below⟩
    · obtain ⟨before, node, isUnder, sameDepth, below⟩ := inductionHypothesis higher
      exact ⟨before, node, isUnder, sameDepth, fun value isBelow =>
        below value (mem_values_of_child member isBelow)⟩

theorem Gathers.of_le {tree : PrefixTree Key Value} {depth smaller : Nat} {first second : Value}
    (gathers : tree.Gathers depth first second) (bound : smaller ≤ depth) :
    tree.Gathers smaller first second := by
  obtain ⟨above, node, under, rfl, isFirst, isSecond⟩ := gathers
  obtain ⟨before, higher, isUnder, sameDepth, below⟩ := under.exists_above bound
  exact ⟨before, higher, isUnder, sameDepth, below first isFirst, below second isSecond⟩

variable [BEq Key]

/-! ### Sequences that go the same way -/

/-- Two sequences lead down the same children, and to the given node. -/
inductive Together : PrefixTree Key Value → List Key → List Key → PrefixTree Key Value → Prop
  | here {tree : PrefixTree Key Value} : Together tree [] [] tree
  | down {tree child node : PrefixTree Key Value} {key other : Key} {keys others : List Key}
      (first : tree.child? key = some child) (second : tree.child? other = some child)
      (below : Together child keys others node) :
      Together tree (key :: keys) (other :: others) node

/-- As long as the first sequence leads down children that are there, each next key of the second
one leads to the same child, and where the one leads to none the other does not either. -/
def Undivided : List Key → List Key → PrefixTree Key Value → Prop
  | key :: keys, other :: others, tree =>
    tree.child? key = tree.child? other ∧
      ∀ child, tree.child? key = some child → Undivided keys others child
  | _, _, _ => True

/-- The keys of two sequences test equal to themselves and those of the first to those of the
second. -/
abbrev Matching (keys others : List Key) : Prop :=
  List.Forall₂ (fun key other =>
    (key == key) = true ∧ (key == other) = true ∧ (other == other) = true) keys others

section

variable {tree node other : PrefixTree Key Value} {keys others : List Key}

theorem Undivided.refl (keys : List Key) (tree : PrefixTree Key Value) :
    Undivided keys keys tree := by
  induction keys generalizing tree with
  | nil => trivial
  | cons key rest inductionHypothesis =>
    exact ⟨rfl, fun child _ => inductionHypothesis child⟩

theorem Matching.first (matching : Matching keys others) : Matching keys keys := by
  induction matching with
  | nil => exact .nil
  | cons same _ inductionHypothesis =>
    exact .cons ⟨same.1, same.1, same.1⟩ inductionHypothesis

theorem Matching.second (matching : Matching keys others) : Matching others others := by
  induction matching with
  | nil => exact .nil
  | cons same _ inductionHypothesis =>
    exact .cons ⟨same.2.2, same.2.2, same.2.2⟩ inductionHypothesis

namespace Together

theorem search_first (together : Together tree keys others node) :
    tree.search? keys = some node := by
  induction together with
  | here => rfl
  | down first _ _ inductionHypothesis =>
    exact Option.bind_eq_some_iff.2 ⟨_, first, inductionHypothesis⟩

theorem search_second (together : Together tree keys others node) :
    tree.search? others = some node := by
  induction together with
  | here => rfl
  | down _ second _ inductionHypothesis =>
    exact Option.bind_eq_some_iff.2 ⟨_, second, inductionHypothesis⟩

theorem undivided (together : Together tree keys others node) : Undivided keys others tree := by
  induction together with
  | here => trivial
  | @down tree child node key other keys others first second _ inductionHypothesis =>
    refine ⟨first.trans second.symm, fun found isFound => ?_⟩
    rw [first, Option.some.injEq] at isFound
    exact isFound ▸ inductionHypothesis

/-- If no value is there twice, sequences of one length that lead to the same value lead down the
same children. -/
theorem of_search? (distinct : tree.values.Nodup) (sameLength : keys.length = others.length)
    (first : tree.search? keys = some node) (second : tree.search? others = some other)
    {value : Value} (inFirst : value ∈ node.values) (inSecond : value ∈ other.values) :
    Together tree keys others node := by
  induction keys generalizing others tree with
  | nil =>
    obtain rfl := List.length_eq_zero_iff.1 sameLength.symm
    cases first
    exact .here
  | cons key rest inductionHypothesis =>
    obtain ⟨otherKey, otherRest, rfl⟩ := List.exists_cons_of_length_eq_add_one sameLength.symm
    obtain ⟨child, isChild, first⟩ := Option.bind_eq_some_iff.1 first
    obtain ⟨otherChild, isOtherChild, second⟩ := Option.bind_eq_some_iff.1 second
    rw [values_eq, List.nodup_append] at distinct
    obtain ⟨eachDistinct, siblings⟩ := List.nodup_flatMap.1 distinct.2.1
    have member := (mem_children_of_child? isChild).1
    have otherMember := (mem_children_of_child? isOtherChild).1
    have symmetric : Std.Symm fun first second : PrefixTree Key Value =>
        first.values.Disjoint second.values := ⟨fun _ _ disjoint => List.disjoint_symm disjoint⟩
    have sameChild : child = otherChild := by
      by_contra differ
      exact siblings.forall member otherMember differ (mem_values_of_search? first inFirst)
        (mem_values_of_search? second inSecond)
    subst sameChild
    exact .down isChild isOtherChild (inductionHypothesis (eachDistinct child member)
      (Nat.succ.inj sameLength) first second)

end Together

end

/-! ### Sequences and one insertion -/

variable {tree node : PrefixTree Key Value} {keys others : List Key}

theorem Undivided.addKey_iff {key : Key} :
    Undivided keys others (tree.addKey key) ↔ Undivided keys others tree := by
  cases keys with
  | nil => exact Iff.rfl
  | cons first rest =>
    cases others with
    | nil => exact Iff.rfl
    | cons second otherRest => rw [Undivided, Undivided, child?_addKey, child?_addKey]

theorem Together.exists_addKey (together : Together tree keys others node) (key : Key) :
    ∃ later, Together (tree.addKey key) keys others later ∧
      ∀ value ∈ node.values, value ∈ later.values := by
  cases together with
  | here =>
    refine ⟨tree.addKey key, .here, fun value member => ?_⟩
    rwa [values_addKey]
  | down first second below =>
    exact ⟨node, .down ((child?_addKey key tree _).trans first)
      ((child?_addKey key tree _).trans second) below, fun value member => member⟩

/-- Two matching sequences lead down a new chain to the value that ends there. -/
theorem exists_together_chain (matching : Matching keys others) (label : Nat) (value : Value)
    (key : Key) (rest : List Key) :
    ∃ node, Together (chain label value key (keys ++ rest)) keys others node ∧
      value ∈ node.values := by
  induction matching generalizing label key with
  | nil =>
    refine ⟨_, .here, ?_⟩
    rw [values_chain]
    exact List.mem_singleton_self value
  | @cons next other keys others same matching inductionHypothesis =>
    obtain ⟨node, together, isBelow⟩ := inductionHypothesis (label + 1) next
    have admitsNext := (admits_chain (label + 1) value next (keys ++ rest) next).trans same.1
    have admitsOther := (admits_chain (label + 1) value next (keys ++ rest) other).trans same.2.1
    exact ⟨node, .down (List.find?_cons_of_pos admitsNext) (List.find?_cons_of_pos admitsOther)
      together, isBelow⟩

/-- If no child parts them, two matching sequences lead to the value that is inserted under the
first of them. -/
theorem exists_together_insertFrom (fresh : Nat) (value : Value) (matching : Matching keys others)
    (undivided : Undivided keys others tree) (rest : List Key) :
    ∃ node, Together (insertFrom fresh value (keys ++ rest) tree) keys others node ∧
      value ∈ node.values := by
  induction matching generalizing tree with
  | nil => exact ⟨_, .here, mem_values_insertFrom.2 (Or.inl rfl)⟩
  | @cons key other keys others same matching inductionHypothesis =>
    have found : (insertFrom fresh value (key :: (keys ++ rest)) tree).child? key = _ :=
      child?_insertFrom_self same.1
    have foundOther := (child?_insertFrom_congr undivided.1 fun _ =>
      same.1.trans same.2.1.symm).symm.trans found
    cases before : tree.child? key with
    | none =>
      rw [before] at found foundOther
      obtain ⟨node, together, isBelow⟩ := exists_together_chain matching fresh value key rest
      exact ⟨node, .down found foundOther together, isBelow⟩
    | some child =>
      rw [before] at found foundOther
      obtain ⟨node, together, isBelow⟩ := inductionHypothesis (undivided.2 child before)
      obtain ⟨later, withKey, stillBelow⟩ := together.exists_addKey key
      exact ⟨later, .down found foundOther withKey, stillBelow value isBelow⟩

/-- Sequences that lead down the same children do so after every insertion. -/
theorem Together.exists_insertFrom (together : Together tree keys others node) (fresh : Nat)
    (value : Value) (sequence : List Key) :
    ∃ later, Together (insertFrom fresh value sequence tree) keys others later ∧
      ∀ value ∈ node.values, value ∈ later.values := by
  induction together generalizing sequence with
  | here => exact ⟨_, .here, fun other member => mem_values_insertFrom.2 (Or.inr member)⟩
  | @down tree child node first second keys others isFirst isSecond below inductionHypothesis =>
    cases sequence with
    | nil =>
      exact ⟨node, .down ((child?_insertFrom_nil fresh value tree first).trans isFirst)
        ((child?_insertFrom_nil fresh value tree second).trans isSecond) below,
        fun value member => member⟩
    | cons key rest =>
      have same : (insertFrom fresh value (key :: rest) tree).child? first = _ :=
        child?_insertFrom_congr (isFirst.trans isSecond.symm) fun none =>
          absurd (none.symm.trans isFirst) nofun
      rcases child?_insertFrom_of_some isFirst with found | found
      · exact ⟨node, .down found (same.symm.trans found) below, fun value member => member⟩
      · obtain ⟨later, together, isBelow⟩ := inductionHypothesis rest
        obtain ⟨last, withKey, stillBelow⟩ := together.exists_addKey key
        exact ⟨last, .down found (same.symm.trans found) withKey, fun value member =>
          stillBelow value (isBelow value member)⟩

/-- No insertion takes away a child that parts two sequences. -/
theorem Undivided.of_insertFrom {fresh : Nat} {value : Value} {sequence : List Key}
    (undivided : Undivided keys others (insertFrom fresh value sequence tree)) :
    Undivided keys others tree := by
  induction keys generalizing others tree sequence with
  | nil => trivial
  | cons first keys inductionHypothesis =>
    cases others with
    | nil => trivial
    | cons second others =>
      cases sequence with
      | nil =>
        rw [Undivided, child?_insertFrom_nil, child?_insertFrom_nil] at undivided
        exact undivided
      | cons key rest =>
        obtain ⟨same, below⟩ := undivided
        refine ⟨child?_of_insertFrom same, fun child isChild => ?_⟩
        rcases child?_insertFrom_of_some isChild with found | found
        · exact below child found
        · exact inductionHypothesis (Undivided.addKey_iff.1 (below _ found))

/-! ### Many insertions -/

/-- The tree after insertions one after another. -/
abbrev insertAll (inserted : List (List Key × Value)) (tree : PrefixTree Key Value) :
    PrefixTree Key Value :=
  inserted.foldl (fun tree entry => tree.insert entry.1 entry.2) tree

theorem Together.exists_insertAll (together : Together tree keys others node)
    (inserted : List (List Key × Value)) :
    ∃ later, Together (tree.insertAll inserted) keys others later ∧
      ∀ value ∈ node.values, value ∈ later.values := by
  induction inserted generalizing tree node with
  | nil => exact ⟨node, together, fun value member => member⟩
  | cons entry rest inductionHypothesis =>
    obtain ⟨next, afterFirst, isBelow⟩ := together.exists_insertFrom tree.size entry.2 entry.1
    obtain ⟨later, afterAll, stillBelow⟩ := inductionHypothesis afterFirst
    exact ⟨later, afterAll, fun value member => stillBelow value (isBelow value member)⟩

theorem Undivided.of_insertAll {inserted : List (List Key × Value)}
    (undivided : Undivided keys others (tree.insertAll inserted)) :
    Undivided keys others tree := by
  induction inserted generalizing tree with
  | nil => exact undivided
  | cons entry rest inductionHypothesis => exact (inductionHypothesis undivided).of_insertFrom

/-- If no child parts them when a value is inserted, the beginning of its sequence and one that
matches it lead to the value ever after. -/
theorem exists_together_insertAll (entry : List Key × Value) {depth : Nat}
    (matching : Matching (entry.1.take depth) others)
    (undivided : Undivided (entry.1.take depth) others tree) (later : List (List Key × Value)) :
    ∃ node, Together ((tree.insert entry.1 entry.2).insertAll later) (entry.1.take depth) others
      node ∧ entry.2 ∈ node.values := by
  obtain ⟨node, together, isThere⟩ :=
    exists_together_insertFrom tree.size entry.2 matching undivided (entry.1.drop depth)
  rw [List.take_append_drop] at together
  obtain ⟨last, afterAll, isBelow⟩ := together.exists_insertAll later
  exact ⟨last, afterAll, isBelow entry.2 isThere⟩

/-- If no value is there twice, two values are gathered below sequences of one length if and only
if the sequences lead there together. -/
theorem Keyed.gathers_iff (keyed : tree.Keyed) (distinct : tree.values.Nodup) {depth : Nat}
    (length : keys.length = depth) (otherLength : others.length = depth)
    {firstNode secondNode : PrefixTree Key Value} (toFirst : tree.search? keys = some firstNode)
    (toSecond : tree.search? others = some secondNode) {first second : Value}
    (isFirst : first ∈ firstNode.values) (isSecond : second ∈ secondNode.values) :
    tree.Gathers depth first second ↔ ∃ node, Together tree keys others node := by
  obtain ⟨above, under, aboveLength⟩ := Under.top.search? toFirst
  obtain ⟨otherAbove, otherUnder, otherAboveLength⟩ := Under.top.search? toSecond
  rw [List.length_nil, Nat.zero_add] at aboveLength otherAboveLength
  constructor
  · rintro ⟨path, node, isUnder, atDepth, holdsFirst, holdsSecond⟩
    have sameFirst := keyed.eq_of_under distinct under isUnder
      (aboveLength.trans (length.trans atDepth.symm)) isFirst holdsFirst
    have sameSecond := keyed.eq_of_under distinct otherUnder isUnder
      (otherAboveLength.trans (otherLength.trans atDepth.symm)) isSecond holdsSecond
    rw [sameFirst] at toFirst
    rw [sameSecond] at toSecond
    exact ⟨node, .of_search? distinct (length.trans otherLength.symm) toFirst toSecond holdsFirst
      holdsFirst⟩
  · rintro ⟨node, together⟩
    cases toFirst.symm.trans together.search_first
    cases toSecond.symm.trans together.search_second
    exact ⟨above, _, under, aboveLength.trans length, isFirst, isSecond⟩

/-- The insertions before an entry are followed by its own and by those after it. -/
theorem insertAll_middle (tree : PrefixTree Key Value) (before after : List (List Key × Value))
    (entry : List Key × Value) :
    tree.insertAll (before ++ entry :: after) =
      ((tree.insertAll before).insert entry.1 entry.2).insertAll after :=
  List.foldl_append

theorem nodup_values_insertAll {inserted : List (List Key × Value)}
    (distinct : (inserted.map (·.2)).Nodup) : (empty.insertAll inserted).values.Nodup := by
  refine (values_foldl_insert_perm inserted empty).nodup_iff.2 ?_
  rw [values_empty, List.append_nil]
  exact distinct

/-- The beginning of an inserted sequence leads to its value. -/
theorem exists_search?_insertAll (before after : List (List Key × Value))
    {entry : List Key × Value} {depth : Nat}
    (matching : Matching (entry.1.take depth) (entry.1.take depth)) :
    ∃ node, (empty.insertAll (before ++ entry :: after)).search? (entry.1.take depth) = some node ∧
      entry.2 ∈ node.values := by
  rw [insertAll_middle]
  obtain ⟨node, together, isThere⟩ :=
    exists_together_insertAll entry matching (.refl _ (empty.insertAll before)) after
  exact ⟨node, together.search_first, isThere⟩

/-- Two values that were inserted under sequences that match as far as a depth are at or below one
node of this depth if and only if no child parted the sequences at the time when the first value
was inserted. -/
theorem gathers_iff_undivided {before between after : List (List Key × Value)}
    {first second : List Key × Value} {depth : Nat} (long : depth ≤ first.1.length)
    (matching : Matching (first.1.take depth) (second.1.take depth))
    (distinct : ((before ++ first :: (between ++ second :: after)).map (·.2)).Nodup) :
    (empty.insertAll (before ++ first :: (between ++ second :: after))).Gathers depth first.2
        second.2 ↔
      Undivided (first.1.take depth) (second.1.take depth) (empty.insertAll before) := by
  have length : (first.1.take depth).length = depth := List.length_take_of_le long
  have otherLength : (second.1.take depth).length = depth := matching.length_eq.symm.trans length
  obtain ⟨firstNode, toFirst, isFirst⟩ :=
    exists_search?_insertAll before (between ++ second :: after) matching.first
  obtain ⟨secondNode, toSecond, isSecond⟩ :=
    exists_search?_insertAll (before ++ first :: between) after matching.second
  rw [List.append_assoc, List.cons_append] at toSecond
  have keyed : (empty.insertAll (before ++ first :: (between ++ second :: after))).Keyed :=
    keyed_insertions _
  rw [keyed.gathers_iff (nodup_values_insertAll distinct) length otherLength toFirst toSecond
    isFirst isSecond, insertAll_middle]
  constructor
  · rintro ⟨node, together⟩
    exact together.undivided.of_insertAll.of_insertFrom
  · intro undivided
    obtain ⟨node, together, -⟩ := exists_together_insertAll first matching undivided
      (between ++ second :: after)
    exact ⟨node, together⟩

end StagedBuilder.PrefixTree
