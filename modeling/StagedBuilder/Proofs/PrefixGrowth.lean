/-
This file says what one insertion does to the nodes of a prefix tree, whatever the test by
which keys are compared. The inserted sequence leads to the node at which the insertion
ends, along edges that take its keys one by one, and whatever led to a node before still
does. No edge is made where an older one would do, and no node is left over at which
nothing ends or goes on.
-/

import StagedBuilder.Proofs.PrefixLabels
import StagedBuilder.Proofs.PrefixSearch

namespace StagedBuilder.PrefixTree

variable {Key Value : Type}

/-! ### Leading to a node -/

/-- The edges from the top node to the node with a label took the keys of a sequence one by
one. -/
inductive Leads : PrefixTree Key Value → List Key → Nat → Prop
  | here {tree : PrefixTree Key Value} : Leads tree [] tree.label
  | down {tree child : PrefixTree Key Value} {key : Key} {rest : List Key} {label : Nat}
      (member : child ∈ tree.children) (taken : key ∈ child.keys) (below : Leads child rest label) :
      Leads tree (key :: rest) label

section

variable {tree : PrefixTree Key Value} {sequence : List Key} {label : Nat}

/-- The node stands as deep as the sequence is long. -/
theorem Leads.exists_level (leads : Leads tree sequence label) :
    ∃ node ∈ tree.level sequence.length, node.label = label := by
  induction leads with
  | here => exact ⟨_, List.mem_singleton_self _, rfl⟩
  | down member _ _ inductionHypothesis =>
    obtain ⟨node, atDepth, isLabel⟩ := inductionHypothesis
    exact ⟨node, mem_level_succ.2 ⟨_, member, atDepth⟩, isLabel⟩

theorem Leads.mem_preorder (leads : Leads tree sequence label) : label ∈ tree.preorder := by
  obtain ⟨node, atDepth, rfl⟩ := leads.exists_level
  exact mem_preorder_of_level atDepth node.label_mem_preorder

/-- A way to a node below a child begins with a key on the edge to the child. -/
theorem Leads.exists_cons (leads : Leads tree sequence label)
    (distinct : tree.preorder.Nodup) {child : PrefixTree Key Value}
    (isChild : child ∈ tree.children) (below : label ∈ child.preorder) :
    ∃ key rest, sequence = key :: rest ∧ key ∈ child.keys ∧ Leads child rest label := by
  cases leads with
  | here => exact absurd below (label_not_mem_of_child distinct isChild)
  | down member taken further =>
    cases child_eq_of_label distinct isChild member below further.mem_preorder
    exact ⟨_, _, rfl, taken, further⟩

theorem Leads.addKey (leads : Leads tree sequence label) (key : Key) :
    Leads (tree.addKey key) sequence label := by
  obtain ⟨ofTree, keys, endings, children⟩ := tree
  cases leads with
  | here => exact .here
  | down member taken below => exact .down member taken below

theorem leads_chain (label : Nat) (value : Value) (key : Key) (rest : List Key) :
    Leads (chain label value key rest) rest (label + rest.length) := by
  induction rest generalizing label key with
  | nil => exact .here
  | cons next rest inductionHypothesis =>
    have below := inductionHypothesis (label + 1) next
    rw [Nat.add_assoc, Nat.add_comm 1] at below
    refine .down (List.mem_singleton_self _) ?_ below
    rw [keys_chain]
    exact List.mem_singleton_self next

end

/-! ### Tidy nodes -/

variable [BEq Key]

/-- The representative of the older of two siblings does not test equal to that of the younger. -/
def Refuses (older younger : PrefixTree Key Value) : Prop :=
  ∀ first ∈ older.representative?, ∀ second ∈ younger.representative?, (first == second) = false

/-- What is true of the edges from a node down, after any insertions. -/
structure Tidy (node : PrefixTree Key Value) : Prop where
  /-- A key on an edge is the first one there, or the first one tests equal to it. -/
  taken : ∀ child ∈ node.children, ∃ representative later,
    child.keys = representative :: later ∧ ∀ key ∈ later, (representative == key) = true
  siblings : node.children.Pairwise Refuses
  /-- Something ends at a child or goes on there. -/
  alive : ∀ child ∈ node.children, child.endings ≠ [] ∨ child.children ≠ []

theorem Tidy.congr {tree other : PrefixTree Key Value} (tidy : tree.Tidy)
    (same : other.children = tree.children) : other.Tidy where
  taken := by
    rw [same]
    exact tidy.taken
  siblings := by
    rw [same]
    exact tidy.siblings
  alive := by
    rw [same]
    exact tidy.alive

section

variable {tree : PrefixTree Key Value} {fresh : Nat} {value : Value} {key : Key}
  {rest : List Key}

theorem tidy_nodes_addKey (tidy : ∀ node ∈ tree.nodes, node.Tidy) (key : Key) :
    ∀ node ∈ (tree.addKey key).nodes, node.Tidy := by
  obtain ⟨here, below⟩ := forall_mem_nodes.1 tidy
  refine forall_mem_nodes.2 ⟨here.congr (children_addKey key tree), ?_⟩
  rw [children_addKey]
  exact below

theorem tidy_nodes_chain (label : Nat) (value : Value) (key : Key) (rest : List Key) :
    ∀ node ∈ (chain label value key rest).nodes, node.Tidy := by
  induction rest generalizing label key with
  | nil =>
    refine forall_mem_nodes.2 ⟨⟨?_, .nil, ?_⟩, ?_⟩
    all_goals exact fun child member => absurd member List.not_mem_nil
  | cons next rest inductionHypothesis =>
    have only : ∀ child ∈ (chain label value key (next :: rest)).children,
        child = chain (label + 1) value next rest := fun child member => List.mem_singleton.1 member
    refine forall_mem_nodes.2 ⟨⟨fun child member => ?_, List.pairwise_singleton _ _,
      fun child member => ?_⟩, fun child member => ?_⟩
    all_goals rw [only child member]
    · exact ⟨next, [], keys_chain _ _ _ _, fun key later => absurd later List.not_mem_nil⟩
    · cases rest with
      | nil => exact .inl (List.cons_ne_nil _ _)
      | cons further rest => exact .inr (List.cons_ne_nil _ _)
    · exact inductionHypothesis (label + 1) next

/-- A sibling still refuses after a further key has gone down to one of the two. -/
theorem representative?_insertFrom_addKey_eq (admits : tree.admits key = true) :
    (insertFrom fresh value rest (tree.addKey key)).representative? = tree.representative? := by
  obtain ⟨representative, made⟩ := exists_representative_of_admits admits
  rw [representative?_insertFrom_addKey made, made]

/-- A child that does not admit the key refuses the new chain. -/
theorem refuses_chain (refuses : ¬ tree.admits key = true) :
    Refuses tree (chain fresh value key rest) := by
  intro first isFirst second isSecond
  rw [representative?, keys_chain] at isSecond
  cases isSecond
  rw [admits, Option.mem_def.1 isFirst] at refuses
  exact Bool.eq_false_iff.2 refuses

/-- A key is put on the first edge that takes it, and only if none does an edge is made for it. -/
theorem pairwise_refuses_descend (fresh : Nat) (value : Value) (key : Key) (rest : List Key)
    {children : List (PrefixTree Key Value)} (siblings : children.Pairwise Refuses) :
    (descend key (insertFrom fresh value rest) (chain fresh value key rest) children).Pairwise
      Refuses := by
  induction children with
  | nil => exact List.pairwise_singleton _ _
  | cons first others inductionHypothesis =>
    obtain ⟨ofFirst, ofOthers⟩ := List.pairwise_cons.1 siblings
    rw [descend]
    split
    · next admits =>
      refine List.pairwise_cons.2 ⟨fun other member => ?_, ofOthers⟩
      rw [Refuses, representative?_insertFrom_addKey_eq admits]
      exact ofFirst other member
    · next refuses =>
      refine List.pairwise_cons.2 ⟨fun other member => ?_, inductionHypothesis ofOthers⟩
      obtain wasThere | rfl | ⟨changed, wasThere, admits, rfl⟩ := mem_descend member
      · exact ofFirst other wasThere
      · exact refuses_chain refuses
      · rw [Refuses, representative?_insertFrom_addKey_eq admits]
        exact ofFirst changed wasThere

/-- Where a value is inserted something ends or goes on. -/
theorem alive_insertFrom (fresh : Nat) (value : Value) (sequence : List Key)
    (tree : PrefixTree Key Value) :
    (insertFrom fresh value sequence tree).endings ≠ [] ∨
      (insertFrom fresh value sequence tree).children ≠ [] := by
  obtain ⟨label, keys, endings, children⟩ := tree
  cases sequence with
  | nil => exact .inl (List.append_ne_nil_of_right_ne_nil _ (List.cons_ne_nil _ _))
  | cons key rest =>
    refine .inr ?_
    show descend key _ _ children ≠ []
    cases children with
    | nil => exact List.cons_ne_nil _ _
    | cons first others =>
      rw [descend]
      split <;> exact List.cons_ne_nil _ _

/-- An insertion leaves all nodes tidy. -/
theorem tidy_nodes_insertFrom (fresh : Nat) (value : Value) (sequence : List Key)
    {tree : PrefixTree Key Value} (tidy : ∀ node ∈ tree.nodes, node.Tidy) :
    ∀ node ∈ (insertFrom fresh value sequence tree).nodes, node.Tidy := by
  induction sequence generalizing tree with
  | nil =>
    obtain ⟨label, keys, endings, children⟩ := tree
    obtain ⟨here, below⟩ := forall_mem_nodes.1 tidy
    exact forall_mem_nodes.2 ⟨here.congr rfl, below⟩
  | cons key rest inductionHypothesis =>
    obtain ⟨label, keys, endings, children⟩ := tree
    obtain ⟨here, below⟩ := forall_mem_nodes.1 tidy
    refine forall_mem_nodes.2 ⟨⟨fun child member => ?_,
      pairwise_refuses_descend fresh value key rest here.siblings, fun child member => ?_⟩,
      fun child member => ?_⟩
    -- A child is one that was there, the new chain, or the one that the key goes down to.
    all_goals obtain wasThere | rfl | ⟨first, wasThere, admits, rfl⟩ := mem_descend member
    · exact here.taken child wasThere
    · exact ⟨key, [], keys_chain _ _ _ _, fun other later => absurd later List.not_mem_nil⟩
    · obtain ⟨representative, later, keys, tested⟩ := here.taken first wasThere
      have made : first.representative? = some representative := by
        rw [representative?, keys]
        rfl
      refine ⟨representative, later ++ [key], ?_, List.forall_mem_append.2 ⟨tested, ?_⟩⟩
      · rw [keys_insertFrom, keys_addKey, keys, List.cons_append]
      · exact List.forall_mem_singleton.2 (admits_of_made made admits)
    · exact here.alive child wasThere
    · cases rest with
      | nil => exact .inl (List.cons_ne_nil _ _)
      | cons further rest => exact .inr (List.cons_ne_nil _ _)
    · exact alive_insertFrom fresh value rest _
    · exact below child wasThere
    · exact tidy_nodes_chain fresh value key rest
    · exact inductionHypothesis (tidy_nodes_addKey (below first wasThere) key)

end

/-! ### Insertion leads to a node -/

section

variable {tree : PrefixTree Key Value} {fresh : Nat} {value : Value}

/-- The child that the key goes down to, or the new chain, is a child afterwards. -/
theorem mem_descend_self (key : Key) (change : PrefixTree Key Value → PrefixTree Key Value)
    (added : PrefixTree Key Value) (children : List (PrefixTree Key Value)) :
    ((children.find? (·.admits key)).map fun child => change (child.addKey key)).getD added ∈
      descend key change added children := by
  induction children with
  | nil => exact List.mem_singleton_self added
  | cons first rest inductionHypothesis =>
    rw [descend]
    split
    · next admits =>
      have found : (first :: rest).find? (·.admits key) = some first :=
        List.find?_cons_of_pos admits
      rw [found]
      exact List.mem_cons_self
    · next refuses =>
      rw [find?_cons_of_refuses refuses]
      exact List.mem_cons_of_mem _ inductionHypothesis

/-- A child is still there afterwards, perhaps with the key on its edge and changed. -/
theorem mem_descend_of_mem {key : Key} {change : PrefixTree Key Value → PrefixTree Key Value}
    {added child : PrefixTree Key Value} {children : List (PrefixTree Key Value)}
    (member : child ∈ children) :
    child ∈ descend key change added children ∨
      change (child.addKey key) ∈ descend key change added children := by
  induction children with
  | nil => exact absurd member List.not_mem_nil
  | cons first rest inductionHypothesis =>
    rw [descend]
    split
    · rcases List.mem_cons.1 member with rfl | inRest
      · exact .inr List.mem_cons_self
      · exact .inl (List.mem_cons_of_mem _ inRest)
    · rcases List.mem_cons.1 member with rfl | inRest
      · exact .inl List.mem_cons_self
      · exact (inductionHypothesis inRest).imp (List.mem_cons_of_mem _) (List.mem_cons_of_mem _)

/-- The inserted sequence leads to the node at which the insertion ends. -/
theorem leads_insertFrom (fresh : Nat) (value : Value) (sequence : List Key)
    (tree : PrefixTree Key Value) :
    Leads (insertFrom fresh value sequence tree) sequence (landingFrom fresh sequence tree) := by
  induction sequence generalizing tree with
  | nil =>
    obtain ⟨label, keys, endings, children⟩ := tree
    exact .here
  | cons key rest inductionHypothesis =>
    obtain ⟨label, keys, endings, children⟩ := tree
    have member := mem_descend_self key (insertFrom fresh value rest)
      (chain fresh value key rest) children
    rw [landingFrom, child?, PrefixTree.children]
    cases found : children.find? (·.admits key) with
    | none =>
      rw [found] at member
      refine .down member ?_ (leads_chain fresh value key rest)
      rw [Option.map_none, Option.getD_none, keys_chain]
      exact List.mem_singleton_self key
    | some child =>
      rw [found] at member
      have below := inductionHypothesis (child.addKey key)
      rw [landingFrom_addKey] at below
      refine .down member ?_ below
      rw [Option.map_some, Option.getD_some, keys_insertFrom, keys_addKey]
      exact List.mem_append_right _ (List.mem_singleton_self key)

/-- A sequence that leads to a node still does after another insertion. -/
theorem Leads.insertFrom {sequence : List Key} {label : Nat} (leads : Leads tree sequence label)
    (fresh : Nat) (value : Value) (inserted : List Key) :
    Leads (insertFrom fresh value inserted tree) sequence label := by
  induction leads generalizing inserted with
  | @here tree =>
    obtain ⟨label, keys, endings, children⟩ := tree
    cases inserted <;> exact .here
  | @down tree child key rest label member taken below inductionHypothesis =>
    obtain ⟨ofTree, keys, endings, children⟩ := tree
    cases inserted with
    | nil => exact .down member taken below
    | cons other others =>
      rcases mem_descend_of_mem member with unchanged | changed
      · exact .down unchanged taken below
      · refine .down changed ?_ ?_
        · rw [keys_insertFrom, keys_addKey]
          exact List.mem_append_left _ taken
        · rw [insertFrom_addKey]
          exact (inductionHypothesis others).addKey other

end

end StagedBuilder.PrefixTree
