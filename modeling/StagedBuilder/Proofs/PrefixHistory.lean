/-
This file says what a prefix tree is after any insertions, whatever the test by which
keys are compared. Each value ends at one node, the one that its insertion returned, and
its sequence leads there. The tree has no other nodes than those on such ways.

If the test is an equivalence, the tree is what one expects of a prefix tree: two sequences
share their way for exactly as long as their keys test equal one by one.
-/

import Mathlib.Data.List.Zip
import StagedBuilder.Proofs.PrefixGrowth
import StagedBuilder.Proofs.PrefixMeeting

namespace StagedBuilder.PrefixTree

variable {Key Value : Type} [BEq Key]

/-! ### Many insertions -/

/-- What insertions return one after another: the labels of the nodes at which they end. -/
def landings : List (List Key × Value) → PrefixTree Key Value → List Nat
  | [], _ => []
  | entry :: rest, tree => tree.landing entry.1 :: landings rest (tree.insert entry.1 entry.2)

section

variable {tree : PrefixTree Key Value}

theorem length_landings (inserted : List (List Key × Value)) :
    (tree.landings inserted).length = inserted.length := by
  induction inserted generalizing tree with
  | nil => rfl
  | cons entry rest inductionHypothesis => exact congrArg (· + 1) inductionHypothesis

/-- After any insertions the labels are the numbers up to the size. -/
theorem preorder_insertAll_perm (counted : tree.preorder.Perm (List.range tree.size))
    (inserted : List (List Key × Value)) :
    (tree.insertAll inserted).preorder.Perm (List.range (tree.insertAll inserted).size) := by
  induction inserted generalizing tree with
  | nil => exact counted
  | cons entry rest inductionHypothesis =>
    exact inductionHypothesis (preorder_insert_perm counted entry.1 entry.2)

theorem tidy_nodes_insertAll (tidy : ∀ node ∈ tree.nodes, node.Tidy)
    (inserted : List (List Key × Value)) : ∀ node ∈ (tree.insertAll inserted).nodes, node.Tidy := by
  induction inserted generalizing tree with
  | nil => exact tidy
  | cons entry rest inductionHypothesis =>
    exact inductionHypothesis (tidy_nodes_insertFrom tree.size entry.2 entry.1 tidy)

/-- Every value is put at the node that its insertion returns, and nowhere else. -/
theorem placed_insertAll_perm (inserted : List (List Key × Value)) :
    (tree.insertAll inserted).placed.Perm
      ((tree.landings inserted).zip (inserted.map Prod.snd) ++ tree.placed) := by
  induction inserted generalizing tree with
  | nil => exact List.Perm.refl _
  | cons entry rest inductionHypothesis =>
    have once := placed_insertFrom_perm tree.size entry.2 entry.1 tree
    exact (inductionHypothesis.trans (once.append_left _)).trans List.perm_middle

theorem Leads.insertAll {sequence : List Key} {label : Nat} (leads : Leads tree sequence label)
    (inserted : List (List Key × Value)) : Leads (tree.insertAll inserted) sequence label := by
  induction inserted generalizing tree with
  | nil => exact leads
  | cons entry rest inductionHypothesis =>
    exact inductionHypothesis (leads.insertFrom tree.size entry.2 entry.1)

/-- Every sequence leads to the node that its insertion returned. -/
theorem leads_insertAll {inserted : List (List Key × Value)} {entry : List Key × Value}
    {label : Nat} (member : (entry, label) ∈ inserted.zip (tree.landings inserted)) :
    Leads (tree.insertAll inserted) entry.1 label := by
  induction inserted generalizing tree with
  | nil => exact absurd member List.not_mem_nil
  | cons first rest inductionHypothesis =>
    rcases List.mem_cons.1 member with isFirst | inRest
    · cases isFirst
      exact (leads_insertFrom tree.size entry.2 entry.1 tree).insertAll rest
    · exact inductionHypothesis inRest

end

/-- Everything at a node comes from insertions that went along the keys above it. -/
theorem exists_recorded (inserted : List (List Key × Value)) :
    ∀ node ∈ (empty.insertAll inserted).nodes, ∃ above, Recorded inserted above node := by
  intro node member
  obtain ⟨visit, met, rfl⟩ := List.mem_map.1 member
  have keyed : (empty.insertAll inserted).Keyed := keyed_insertions inserted
  have under := keyed.under_of_mem_visits keyed.under_root met
  exact ⟨visit.path, ((recorded_insertions inserted).of_under under).here⟩

/-- What is on an edge comes from an inserted sequence. -/
theorem exists_inserted (inserted : List (List Key × Value)) :
    ∀ node ∈ (empty.insertAll inserted).nodes, ∀ child ∈ node.children, ∀ key ∈ child.keys,
      ∃ entry ∈ inserted, key ∈ entry.1 := by
  intro node member child isChild key onEdge
  obtain ⟨above, recorded⟩ := exists_recorded inserted node member
  obtain ⟨representative, made⟩ := recorded.made child isChild
  obtain ⟨-, before, after, value, isInserted, -⟩ :=
    recorded.taken child isChild representative made key onEdge
  exact ⟨_, isInserted, List.mem_append_right _ List.mem_cons_self⟩

/-! ### Ways that are shared -/

/-- The test is an equivalence among the known keys. -/
structure EquivalentOn (known : Key → Prop) : Prop where
  refl : ∀ key, known key → (key == key) = true
  symm : ∀ key other, known key → known other → (key == other) = true → (other == key) = true
  trans : ∀ key other third, known key → known other → known third →
    (key == other) = true → (other == third) = true → (key == third) = true

/-- Equality is an equivalence. -/
theorem EquivalentOn.of_lawful [LawfulBEq Key] (known : Key → Prop) : EquivalentOn known where
  refl _ _ := beq_self_eq_true _
  symm _ _ _ _ same := beq_iff_eq.2 (beq_iff_eq.1 same).symm
  trans _ _ _ _ _ _ same alike := beq_iff_eq.2 ((beq_iff_eq.1 same).trans (beq_iff_eq.1 alike))

section

variable {tree child : PrefixTree Key Value} {known : Key → Prop}

/-- The representative of an edge tests equal to all keys on the edge. -/
theorem Tidy.exists_representative (tidy : tree.Tidy) (equivalent : EquivalentOn known)
    (allKnown : ∀ child ∈ tree.children, ∀ key ∈ child.keys, known key)
    (isChild : child ∈ tree.children) :
    ∃ representative, child.representative? = some representative ∧ known representative ∧
      ∀ key ∈ child.keys, (representative == key) = true := by
  obtain ⟨representative, later, keys, tested⟩ := tidy.taken child isChild
  have isKnown : known representative := allKnown child isChild representative (by
    rw [keys]
    exact List.mem_cons_self)
  refine ⟨representative, by rw [representative?, keys]; rfl, isKnown, ?_⟩
  rw [keys]
  exact List.forall_mem_cons.2 ⟨equivalent.refl representative isKnown, tested⟩

/-- Keys on one edge test equal to each other. -/
theorem Tidy.beq_of_mem_keys (tidy : tree.Tidy) (equivalent : EquivalentOn known)
    (allKnown : ∀ child ∈ tree.children, ∀ key ∈ child.keys, known key)
    (isChild : child ∈ tree.children) {key other : Key} (onEdge : key ∈ child.keys)
    (otherOnEdge : other ∈ child.keys) : (key == other) = true := by
  obtain ⟨representative, -, isKnown, tested⟩ :=
    tidy.exists_representative equivalent allKnown isChild
  have keyKnown := allKnown child isChild key onEdge
  exact equivalent.trans key representative other keyKnown isKnown
    (allKnown child isChild other otherOnEdge)
    (equivalent.symm representative key isKnown keyKnown (tested key onEdge))
    (tested other otherOnEdge)

/-- Keys that test equal to each other are on one edge. -/
theorem Tidy.child_eq_of_beq (tidy : tree.Tidy) (equivalent : EquivalentOn known)
    (allKnown : ∀ child ∈ tree.children, ∀ key ∈ child.keys, known key)
    (isChild : child ∈ tree.children) {otherChild : PrefixTree Key Value}
    (isOtherChild : otherChild ∈ tree.children) {key other : Key} (onEdge : key ∈ child.keys)
    (otherOnEdge : other ∈ otherChild.keys) (same : (key == other) = true) :
    child = otherChild := by
  obtain ⟨first, isFirst, firstKnown, testedFirst⟩ :=
    tidy.exists_representative equivalent allKnown isChild
  obtain ⟨second, isSecond, secondKnown, testedSecond⟩ :=
    tidy.exists_representative equivalent allKnown isOtherChild
  have keyKnown := allKnown child isChild key onEdge
  have otherKnown := allKnown otherChild isOtherChild other otherOnEdge
  have toOther : (first == other) = true :=
    equivalent.trans first key other firstKnown keyKnown otherKnown (testedFirst key onEdge) same
  have alike : (first == second) = true :=
    equivalent.trans first other second firstKnown otherKnown secondKnown toOther
      (equivalent.symm second other secondKnown otherKnown (testedSecond other otherOnEdge))
  have unlike : tree.children.Pairwise fun older younger =>
      ∀ first ∈ older.representative?, ∀ second ∈ younger.representative?,
        known first → known second → ¬ (first == second) = true :=
    tidy.siblings.imp fun refuses first isFirst second isSecond _ _ =>
      Bool.eq_false_iff.1 (refuses first isFirst second isSecond)
  have symmetric : Std.Symm fun older younger : PrefixTree Key Value =>
      ∀ first ∈ older.representative?, ∀ second ∈ younger.representative?,
        known first → known second → ¬ (first == second) = true :=
    ⟨fun _ _ unlike first isFirst second isSecond firstKnown secondKnown same =>
      unlike second isSecond first isFirst secondKnown firstKnown
        (equivalent.symm first second firstKnown secondKnown same)⟩
  by_contra differ
  exact unlike.forall isChild isOtherChild differ first isFirst second isSecond firstKnown
    secondKnown alike

end

/-- If the test is an equivalence, two ways lead through one node of a depth if and only if so
many of their keys test equal one by one. -/
theorem meets_iff {tree : PrefixTree Key Value} {known : Key → Prop}
    (equivalent : EquivalentOn known) (distinct : tree.preorder.Nodup)
    (tidy : ∀ node ∈ tree.nodes, node.Tidy)
    (allKnown : ∀ node ∈ tree.nodes, ∀ child ∈ node.children, ∀ key ∈ child.keys, known key)
    {sequence other : List Key} {label otherLabel : Nat} (leads : Leads tree sequence label)
    (otherLeads : Leads tree other otherLabel) (depth : Nat) :
    tree.Meets depth label otherLabel ↔ depth ≤ sequence.length ∧ depth ≤ other.length ∧
      List.Forall₂ (fun key other => (key == other) = true) (sequence.take depth)
        (other.take depth) := by
  induction depth generalizing tree sequence other with
  | zero =>
    rw [meets_zero, List.take_zero, List.take_zero]
    exact ⟨fun _ => ⟨Nat.zero_le _, Nat.zero_le _, .nil⟩,
      fun _ => ⟨leads.mem_preorder, otherLeads.mem_preorder⟩⟩
  | succ depth inductionHypothesis =>
    obtain ⟨tidyHere, tidyBelow⟩ := forall_mem_nodes.1 tidy
    obtain ⟨knownHere, knownBelow⟩ := forall_mem_nodes.1 allKnown
    rw [meets_succ]
    constructor
    · rintro ⟨child, isChild, meets⟩
      obtain ⟨below, otherBelow⟩ := meets.mem_preorder
      obtain ⟨key, rest, rfl, taken, further⟩ := leads.exists_cons distinct isChild below
      obtain ⟨otherKey, otherRest, rfl, otherTaken, otherFurther⟩ :=
        otherLeads.exists_cons distinct isChild otherBelow
      obtain ⟨long, otherLong, same⟩ := (inductionHypothesis
        (nodup_preorder_of_child distinct isChild) (tidyBelow child isChild)
        (knownBelow child isChild) further otherFurther).1 meets
      exact ⟨Nat.succ_le_succ long, Nat.succ_le_succ otherLong,
        .cons (tidyHere.beq_of_mem_keys equivalent knownHere isChild taken otherTaken) same⟩
    · rintro ⟨long, otherLong, same⟩
      cases leads with
      | here => exact absurd long (Nat.not_succ_le_zero depth)
      | @down _ child key rest _ isChild taken further =>
      cases otherLeads with
      | here => exact absurd otherLong (Nat.not_succ_le_zero depth)
      | @down _ otherChild otherKey otherRest _ isOtherChild otherTaken otherFurther =>
      obtain ⟨sameKey, sameRest⟩ := List.forall₂_cons.1 same
      cases tidyHere.child_eq_of_beq equivalent knownHere isChild isOtherChild taken otherTaken
        sameKey
      exact ⟨child, isChild, (inductionHypothesis (nodup_preorder_of_child distinct isChild)
        (tidyBelow child isChild) (knownBelow child isChild) further otherFurther).2
          ⟨Nat.le_of_succ_le_succ long, Nat.le_of_succ_le_succ otherLong, sameRest⟩⟩

/-! ### What a tree is after insertions -/

/-- The tree is what insertions one after another have to leave behind. -/
structure Reflects (tree : PrefixTree Key Value) (inserted : List (List Key × Value)) : Prop where
  /-- Each insertion returns a label. -/
  returned : (empty.landings inserted).length = inserted.length
  /-- Each value ends at the node that its insertion returned, and nothing else ends anywhere. -/
  placed : tree.placed.Perm ((empty.landings inserted).zip (inserted.map Prod.snd))
  /-- There is one such node, as deep as the sequence is long, and the edges above it took the keys
  of the sequence. -/
  landed : ∀ entry label, (entry, label) ∈ inserted.zip (empty.landings inserted) →
    Leads tree entry.1 label ∧ ∃ node ∈ tree.level entry.1.length,
      node.label = label ∧ entry.2 ∈ node.endings ∧
        ∀ other ∈ tree.nodes, other.label = label → other = node
  /-- A key on an edge is the first one there, or the first one tests equal to it. -/
  taken : ∀ node ∈ tree.nodes, ∀ child ∈ node.children, ∃ representative later,
    child.keys = representative :: later ∧ ∀ key ∈ later, (representative == key) = true
  values : tree.values.Perm (inserted.map Prod.snd)
  /-- Every node is met once, since the labels count the nodes. -/
  once : tree.preorder.Perm (List.range tree.size)
  /-- Every node but the top one has a parent and is met after it. -/
  parents : ∀ visit ∈ tree.visits none [], (visit.tree = tree ∧ visit.parent = none) ∨
    ∃ label, visit.parent = some label ∧ [label, visit.tree.label].Sublist tree.preorder
  depths : ∀ visit ∈ tree.visits none [], ∀ depth,
    visit.tree ∈ tree.level depth ↔ visit.path.length = depth
  dead : tree.deadNodes = []
  /-- The representative of an older sibling does not test equal to that of a younger one. -/
  siblings : ∀ node ∈ tree.nodes, node.children.Pairwise fun older younger =>
    ∀ first ∈ older.representative?, ∀ second ∈ younger.representative?, (first == second) = false

section

variable {tree : PrefixTree Key Value}

/-- Where nodes are tidy something ends or goes on everywhere below a node. -/
theorem alive_of_mem_nodes (tidy : ∀ node ∈ tree.nodes, node.Tidy)
    (here : tree.endings ≠ [] ∨ tree.children ≠ []) :
    ∀ node ∈ tree.nodes, node.endings ≠ [] ∨ node.children ≠ [] := by
  induction tree using inductionOn with
  | node tree inductionHypothesis =>
    obtain ⟨tidyHere, tidyBelow⟩ := forall_mem_nodes.1 tidy
    exact forall_mem_nodes.2 ⟨here, fun child isChild =>
      inductionHypothesis child isChild (tidyBelow child isChild) (tidyHere.alive child isChild)⟩

theorem deadNodes_eq_nil (tidy : ∀ node ∈ tree.nodes, node.Tidy) : tree.deadNodes = [] := by
  obtain ⟨tidyHere, tidyBelow⟩ := forall_mem_nodes.1 tidy
  rw [deadNodes, visits_eq, visitsOfAll_eq_flatMap, List.drop_one, List.tail_cons,
    List.filterMap_eq_nil_iff]
  intro visit met
  obtain ⟨child, isChild, metBelow⟩ := List.mem_flatMap.1 met
  have isNode : visit.tree ∈ child.nodes := by
    rw [← map_tree_visits]
    exact List.mem_map_of_mem metBelow
  have alive := alive_of_mem_nodes (tidyBelow child isChild) (tidyHere.alive child isChild) _ isNode
  refine if_neg fun dead => ?_
  obtain ⟨noChildren, noEndings⟩ := Bool.and_eq_true_iff.1 dead
  exact alive.elim (· (List.isEmpty_iff.1 noEndings)) (· (List.isEmpty_iff.1 noChildren))

/-- A node that is met stands at one depth, and as many representative keys lead to it. -/
theorem mem_level_iff (keyed : tree.Keyed) (distinct : tree.preorder.Nodup)
    (tidy : ∀ node ∈ tree.nodes, node.Tidy) {visit : Visit Key Value}
    (met : visit ∈ tree.visits none []) (depth : Nat) :
    visit.tree ∈ tree.level depth ↔ visit.path.length = depth := by
  have made : ∀ node ∈ tree.nodes, ∀ child ∈ node.children,
      ∃ representative, child.representative? = some representative := by
    intro node member child isChild
    obtain ⟨representative, later, keys, -⟩ := (tidy node member).taken child isChild
    exact ⟨representative, by rw [representative?, keys]; rfl⟩
  obtain ⟨standing, length, atDepth⟩ := exists_level_of_mem_visits made met
  have isPath : visit.path.length = standing := by
    rw [length, pathFrom, keyed.root]
    exact Nat.zero_add standing
  rw [isPath]
  refine ⟨fun otherDepth => (eq_of_label distinct atDepth otherDepth rfl).1, ?_⟩
  rintro rfl
  exact atDepth

end

section

variable (inserted : List (List Key × Value))

theorem preorder_insertAll_empty_perm :
    (empty.insertAll inserted).preorder.Perm (List.range (empty.insertAll inserted).size) := by
  have none : (empty : PrefixTree Key Value).preorder.Perm
      (List.range (empty : PrefixTree Key Value).size) := List.Perm.refl [0]
  exact preorder_insertAll_perm none inserted

theorem nodup_preorder_insertAll : (empty.insertAll inserted).preorder.Nodup :=
  (preorder_insertAll_empty_perm inserted).nodup_iff.2 List.nodup_range

theorem tidy_nodes_insertAll_empty : ∀ node ∈ (empty.insertAll inserted).nodes, node.Tidy := by
  refine tidy_nodes_insertAll (forall_mem_nodes.2 ⟨⟨?_, .nil, ?_⟩, ?_⟩) inserted
  all_goals exact fun child member => absurd member List.not_mem_nil

theorem placed_insertAll_empty_perm : (empty.insertAll inserted).placed.Perm
    ((empty.landings inserted).zip (inserted.map Prod.snd)) := by
  have perm : (empty.insertAll inserted).placed.Perm
      ((empty.landings inserted).zip (inserted.map Prod.snd) ++ []) :=
    placed_insertAll_perm inserted
  rwa [List.append_nil] at perm

variable {inserted}

/-- The node to which a sequence leads is the one node with the label that its insertion returned,
and its value ends there. -/
theorem exists_landed {entry : List Key × Value} {label : Nat}
    (member : (entry, label) ∈ inserted.zip (empty.landings inserted)) :
    ∃ node ∈ (empty.insertAll inserted).level entry.1.length,
      node.label = label ∧ entry.2 ∈ node.endings ∧
        ∀ other ∈ (empty.insertAll inserted).nodes, other.label = label → other = node := by
  have distinct := nodup_preorder_insertAll inserted
  obtain ⟨node, atDepth, isLabel⟩ := (leads_insertAll member).exists_level
  have unique : ∀ other ∈ (empty.insertAll inserted).nodes, other.label = label →
      other = node := by
    intro other isNode same
    obtain ⟨depth, otherAtDepth⟩ := exists_level isNode
    exact (eq_of_label distinct otherAtDepth atDepth (same.trans isLabel.symm)).2
  refine ⟨node, atDepth, isLabel, ?_, unique⟩
  have returned : (label, entry.2) ∈ (empty.landings inserted).zip (inserted.map Prod.snd) := by
    rw [List.zip_map_right, ← List.zip_swap, List.map_map]
    exact List.mem_map.2 ⟨(entry, label), member, rfl⟩
  have isPlaced := (placed_insertAll_empty_perm inserted).mem_iff.2 returned
  obtain ⟨holder, isNode, ends⟩ := List.mem_flatMap.1 isPlaced
  obtain ⟨value, ending, same⟩ := List.mem_map.1 ends
  obtain ⟨sameLabel, rfl⟩ := Prod.mk.inj same
  rw [← unique holder isNode sameLabel]
  exact ending

end

/-- Whatever the test, the tree after insertions is what they have to leave behind. If moreover
the test is an equivalence among the inserted keys, the ways of two sequences lead through one node
of a depth if and only if so many of their keys test equal one by one. -/
theorem reflects_insertAll (inserted : List (List Key × Value)) :
    Reflects (empty.insertAll inserted) inserted ∧
      (EquivalentOn (fun key : Key => ∃ entry ∈ inserted, key ∈ entry.1) →
        ∀ first label, (first, label) ∈ inserted.zip (empty.landings inserted) →
          ∀ second otherLabel, (second, otherLabel) ∈ inserted.zip (empty.landings inserted) →
            ∀ depth, (empty.insertAll inserted).Meets depth label otherLabel ↔
              depth ≤ first.1.length ∧ depth ≤ second.1.length ∧
                List.Forall₂ (fun key other => (key == other) = true) (first.1.take depth)
                  (second.1.take depth)) := by
  have keyed : (empty.insertAll inserted).Keyed := keyed_insertions inserted
  have distinct := nodup_preorder_insertAll inserted
  have tidy := tidy_nodes_insertAll_empty inserted
  refine ⟨?_, fun equivalent first label member second otherLabel otherMember depth =>
    meets_iff equivalent distinct tidy (exists_inserted inserted) (leads_insertAll member)
      (leads_insertAll otherMember) depth⟩
  have values : (empty.insertAll inserted).values.Perm (inserted.map Prod.snd) := by
    have perm := values_foldl_insert_perm inserted (empty : PrefixTree Key Value)
    rwa [values_empty, List.append_nil] at perm
  exact {
    returned := length_landings inserted
    placed := placed_insertAll_empty_perm inserted
    landed := fun entry label member => ⟨leads_insertAll member, exists_landed member⟩
    taken := fun node member => (tidy node member).taken
    values
    once := preorder_insertAll_empty_perm inserted
    parents := fun visit met => parent_before met
    depths := fun visit met => mem_level_iff keyed distinct tidy met
    dead := deadNodes_eq_nil tidy
    siblings := fun node member => (tidy node member).siblings }

/-- Two sequences with one first key go down one edge and then part. -/
theorem reflects_insertAll_fork :
    let inserted : List (List Nat × String) := [([1, 2], "left"), ([1, 3], "right")]
    EquivalentOn (fun key : Nat => ∃ entry ∈ inserted, key ∈ entry.1) ∧
      (([1, 2], "left"), 2) ∈ inserted.zip (empty.landings inserted) ∧
      (([1, 3], "right"), 3) ∈ inserted.zip (empty.landings inserted) ∧
      (empty.insertAll inserted).Meets 1 2 3 ∧ ¬ (empty.insertAll inserted).Meets 2 2 3 := by
  intro inserted
  have equivalent : EquivalentOn (fun key : Nat => ∃ entry ∈ inserted, key ∈ entry.1) :=
    .of_lawful _
  have left : (([1, 2], "left"), 2) ∈ inserted.zip (empty.landings inserted) := by decide
  have right : (([1, 3], "right"), 3) ∈ inserted.zip (empty.landings inserted) := by decide
  have meets := (reflects_insertAll inserted).2 equivalent _ _ left _ _ right
  refine ⟨equivalent, left, right, (meets 1).2 (by decide), fun both => ?_⟩
  exact absurd ((meets 2).1 both).2.2 (by decide)

end StagedBuilder.PrefixTree
