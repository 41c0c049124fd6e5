/-
This file says what the digest of a node holds. Merging adds candidates and options and
changes the representative at most once, to the first constructor that ends at the node;
so what several digests come to can be said without following the merging, and hardly
depends on their order.

The constructors below a node are those whose keys lead through it, because a key on an
edge knows which constructor it belongs to. One of them ends at the node if and only if
it is as long as the node is deep. What ends at the node is met before what is below and
stands there in the order of insertion, so the representative is always the first
constructor that is met.
-/

import StagedBuilder.Proofs.Candidates
import StagedBuilder.Proofs.Lists
import StagedBuilder.Proofs.Merging
import StagedBuilder.Proofs.PrefixWays

namespace StagedBuilder

open PrefixTree (Leads Visit endsInOrder_insertAll eq_of_label exists_leads_of_placed
  exists_of_leads exists_way_of_mem_values mem_level_iff mem_nodes_of_level mem_placed
  nodup_preorder_insertAll tidy_nodes_insertAll_empty)

/-! ### Merged digests -/

namespace Digest

variable {depth : Nat} {digests : List Digest} {merged : Digest}

theorem options_foldl_merge (depth : Nat) (first : Digest) (rest : List Digest) :
    (rest.foldl (merge depth) first).options =
      ⟨(first :: rest).any (·.options.noCreateMethod),
        (first :: rest).any (·.options.customCreateMethodName)⟩ := by
  induction rest generalizing first with
  | nil => simp
  | cons second rest inductionHypothesis =>
    rw [List.foldl_cons, inductionHypothesis]
    simp [merge, Options.union, Bool.or_assoc]

/-- The representative is the first one that is as long as the node is deep, or else the first one
of all. -/
theorem representative_foldl_merge (depth : Nat) (first : Digest) (rest : List Digest) :
    let chosen := ((first :: rest).find? (·.parameterCount = depth)).getD first
    (rest.foldl (merge depth) first).constructor = chosen.constructor ∧
      (rest.foldl (merge depth) first).parameterCount = chosen.parameterCount := by
  induction rest generalizing first with
  | nil => by_cases ends : first.parameterCount = depth <;> simp [ends]
  | cons second rest inductionHypothesis =>
    have chosen := inductionHypothesis (first.merge depth second)
    rw [List.foldl_cons]
    by_cases ends : first.parameterCount = depth
    · simpa [merge, ends] using chosen
    · by_cases arrives : second.parameterCount = depth
      · simpa [merge, ends, arrives] using chosen
      · cases found : rest.find? (·.parameterCount = depth) <;>
          simpa [merge, ends, arrives, found] using chosen

/-- A digest is what several digests come to at a node of the given depth. -/
structure Merges (depth : Nat) (digests : List Digest) (merged : Digest) : Prop where
  candidates : Lists.Enumerates merged.candidates fun id =>
    ∃ digest ∈ digests, id ∈ digest.candidates
  options : merged.options = ⟨digests.any (·.options.noCreateMethod),
    digests.any (·.options.customCreateMethodName)⟩
  representative : ∃ chosen ∈ digests,
    merged.constructor = chosen.constructor ∧ merged.parameterCount = chosen.parameterCount
  /-- The representative ends at the node if any of the constructors does. -/
  arrives : (∃ digest ∈ digests, digest.parameterCount = depth) → merged.parameterCount = depth

theorem merges_foldl_merge (depth : Nat) {first : Digest} (rest : List Digest)
    (increasing : first.candidates.Pairwise (· < ·)) :
    Merges depth (first :: rest) (rest.foldl (merge depth) first) := by
  obtain ⟨constructor, parameterCount⟩ := representative_foldl_merge depth first rest
  refine ⟨⟨?_, fun id => ?_⟩, options_foldl_merge depth first rest, ⟨_, ?_, constructor,
    parameterCount⟩, fun ⟨digest, member, ends⟩ => parameterCount.trans ?_⟩
  · exact increasing_candidates_foldl_merge rest increasing
  · rw [mem_candidates_foldl_merge, List.exists_mem_cons_iff]
  · cases found : (first :: rest).find? (·.parameterCount = depth) with
    | none => exact List.mem_cons_self
    | some chosen => exact List.mem_of_find?_eq_some found
  · cases found : (first :: rest).find? (·.parameterCount = depth) with
    | none => exact absurd (decide_eq_true ends) (List.find?_eq_none.1 found digest member)
    | some chosen => simpa using List.find?_some found

/-- Digests can be merged unless there are none. -/
theorem exists_mergeAll? (depth : Nat) (nonempty : digests ≠ [])
    (increasing : ∀ digest ∈ digests, digest.candidates.Pairwise (· < ·)) :
    ∃ merged, mergeAll? depth digests = some merged ∧ Merges depth digests merged := by
  obtain ⟨first, rest, rfl⟩ := List.exists_cons_of_ne_nil nonempty
  exact ⟨_, rfl, merges_foldl_merge depth rest (increasing first List.mem_cons_self)⟩

theorem Merges.of_perm {reordered : List Digest} (merges : Merges depth reordered merged)
    (perm : reordered.Perm digests) : Merges depth digests merged where
  candidates := merges.candidates.congr fun id => by simp only [perm.mem_iff]
  options := by rw [merges.options, perm.any_eq, perm.any_eq]
  representative := by
    obtain ⟨chosen, member, same⟩ := merges.representative
    exact ⟨chosen, perm.mem_iff.1 member, same⟩
  arrives := fun ⟨digest, member, ends⟩ => merges.arrives ⟨digest, perm.mem_iff.2 member, ends⟩

end Digest

/-! ### Constructors that go through a node -/

namespace ConstructorPlan

/-- The keys of the constructor lead to the node of the given depth or on through it. -/
def LeadsThrough (tree : PlanTree) (depth : Nat) (node : PlanTree) (plan : ConstructorPlan) :
    Prop :=
  depth ≤ plan.parameters.length ∧ Leads tree (plan.parameters.take depth) node.label

/-- The keys of the constructor lead to the node and no further. -/
def EndsAt (tree node : PlanTree) (plan : ConstructorPlan) : Prop :=
  Leads tree plan.parameters node.label

end ConstructorPlan

/-- Plans whose numbers increase and whose keys know the number of the plan. -/
structure Numbered (plans : List ConstructorPlan) : Prop where
  ordered : plans.Pairwise fun earlier later => earlier.id < later.id
  constructor : ∀ plan ∈ plans, ∀ parameter ∈ plan.parameters, parameter.key.constructor = plan.id

theorem numbered_planAll (system : TypeSystem) (naming : Naming) (declarations : List Declaration) :
    Numbered (planAll system naming declarations) where
  ordered := pairwise_id_planAll system naming declarations
  constructor _ member := (declared_of_mem_planAll member).constructor

theorem Numbered.eq_of_id {plans : List ConstructorPlan} (numbered : Numbered plans)
    {plan other : ConstructorPlan} (member : plan ∈ plans) (otherMember : other ∈ plans)
    (same : plan.id = other.id) : plan = other :=
  List.inj_on_of_nodup_map (nodup_map_id numbered.ordered) member otherMember same

namespace PlanTree

variable {plans : List ConstructorPlan} {node : PlanTree} {depth : Nat} {plan : ConstructorPlan}

/-- What is inserted into the tree of the plans. -/
def entries (plans : List ConstructorPlan) : List (List ParameterPlan × ConstructorPlan) :=
  (plans.filter ConstructorPlan.isUsable).map fun plan => (plan.parameters, plan)

theorem mem_entries {sequence : List ParameterPlan} :
    (sequence, plan) ∈ entries plans ↔
      plan ∈ plans.filter ConstructorPlan.isUsable ∧ sequence = plan.parameters := by
  rw [entries, List.mem_map]
  constructor
  · rintro ⟨other, isPlan, same⟩
    cases same
    exact ⟨isPlan, rfl⟩
  · rintro ⟨isPlan, rfl⟩
    exact ⟨plan, isPlan, rfl⟩

/-- The constructors that end at a node or below it are those whose keys lead to it or through
it. -/
theorem mem_values_iff (numbered : Numbered plans) (atDepth : node ∈ (planTree plans).level depth) :
    plan ∈ node.values ↔
      plan ∈ plans.filter ConstructorPlan.isUsable ∧
        plan.LeadsThrough (planTree plans) depth node := by
  rw [planTree_eq_insertAll] at atDepth ⊢
  constructor
  · intro below
    obtain ⟨sequence, isInserted, long, leads, -⟩ := exists_way_of_mem_values atDepth below
    obtain ⟨isPlan, rfl⟩ := mem_entries.1 isInserted
    exact ⟨isPlan, long, leads⟩
  · rintro ⟨isPlan, long, leads⟩
    cases depth with
    | zero =>
      rw [List.mem_singleton.1 atDepth, ← planTree_eq_insertAll]
      exact (values_planTree_perm plans).mem_iff.2 isPlan
    | succ depth =>
      rw [List.take_succ_eq_append_getElem long] at leads
      obtain ⟨⟨sequence, other⟩, isEntry, inEntry, below⟩ := exists_of_leads atDepth leads
      obtain ⟨isOther, rfl⟩ := mem_entries.1 isEntry
      have member := (List.mem_filter.1 isPlan).1
      have otherMember := (List.mem_filter.1 isOther).1
      have same : plan.id = other.id :=
        (numbered.constructor plan member _ (List.getElem_mem long)).symm.trans
          (numbered.constructor other otherMember _ inEntry)
      rwa [numbered.eq_of_id member otherMember same]

/-- A constructor that ends at a node is as long as the node is deep. -/
theorem length_of_endsAt (atDepth : node ∈ (planTree plans).level depth)
    (ends : plan.EndsAt (planTree plans) node) : plan.parameters.length = depth := by
  have distinct : (planTree plans).preorder.Nodup :=
    planTree_eq_insertAll plans ▸ nodup_preorder_insertAll _
  obtain ⟨other, otherAtDepth, same⟩ := Leads.exists_level ends
  exact (eq_of_label distinct otherAtDepth atDepth same).1

theorem mem_endings_of_length (atDepth : node ∈ (planTree plans).level depth)
    (below : plan ∈ node.values) (length : plan.parameters.length = depth) :
    plan ∈ node.endings := by
  rw [planTree_eq_insertAll] at atDepth
  obtain ⟨sequence, isInserted, -, -, reached⟩ := exists_way_of_mem_values atDepth below
  obtain ⟨-, rfl⟩ := mem_entries.1 isInserted
  exact reached length

/-- The constructors that end at a node are those whose keys lead to it and no further. -/
theorem mem_endings_iff (numbered : Numbered plans)
    (atDepth : node ∈ (planTree plans).level depth) :
    plan ∈ node.endings ↔
      plan ∈ plans.filter ConstructorPlan.isUsable ∧ plan.EndsAt (planTree plans) node := by
  constructor
  · intro ends
    rw [planTree_eq_insertAll] at atDepth ⊢
    obtain ⟨sequence, isInserted, leads⟩ := exists_leads_of_placed
      (mem_placed.2 ⟨node, mem_nodes_of_level atDepth _ node.mem_nodes, rfl, ends⟩)
    obtain ⟨isPlan, rfl⟩ := mem_entries.1 isInserted
    exact ⟨isPlan, leads⟩
  · rintro ⟨isPlan, ends⟩
    have length := length_of_endsAt atDepth ends
    refine mem_endings_of_length atDepth ?_ length
    refine (mem_values_iff numbered atDepth).2 ⟨isPlan, Nat.le_of_eq length.symm, ?_⟩
    rw [List.take_of_length_le (Nat.le_of_eq length)]
    exact ends

/-- What ends at a node stands there in the order of the plans. -/
theorem sublist_endings (atDepth : node ∈ (planTree plans).level depth) :
    node.endings.Sublist (plans.filter ConstructorPlan.isUsable) := by
  rw [planTree_eq_insertAll] at atDepth
  have ordered := endsInOrder_insertAll (entries plans) node
    (mem_nodes_of_level atDepth _ node.mem_nodes)
  have forget : (entries plans).map Prod.snd = plans.filter ConstructorPlan.isUsable := by
    rw [entries, List.map_map]
    exact List.map_id _
  rwa [forget] at ordered

/-- The first of the plans that end at a node stands first there. -/
theorem head?_endings (numbered : Numbered plans) (atDepth : node ∈ (planTree plans).level depth)
    {before after : List ConstructorPlan}
    (parts : plans.filter ConstructorPlan.isUsable = before ++ plan :: after)
    (ends : plan.EndsAt (planTree plans) node)
    (noEarlier : ∀ earlier ∈ before, ¬ earlier.EndsAt (planTree plans) node) :
    node.endings.head? = some plan := by
  have isPlan : plan ∈ plans.filter ConstructorPlan.isUsable := by
    rw [parts]
    exact List.mem_append_right _ List.mem_cons_self
  have distinct : (plans.filter ConstructorPlan.isUsable).Nodup :=
    (nodup_map_id numbered.ordered).of_map.filter _
  have ordered := sublist_endings atDepth
  have ending := (mem_endings_iff numbered atDepth).2 ⟨isPlan, ends⟩
  rw [parts] at distinct ordered
  refine Lists.head?_of_sublist ordered ending distinct fun earlier inBefore isEnding => ?_
  exact noEarlier earlier inBefore ((mem_endings_iff numbered atDepth).1 isEnding).2

/-! ### The digest of a node -/

/-- No other constructor at or below a node is preferred to the first one there. -/
theorem find?_digest_values (numbered : Numbered plans)
    (atDepth : node ∈ (planTree plans).level depth) {first : ConstructorPlan}
    {rest : List ConstructorPlan} (values : node.values = first :: rest) :
    (((first :: rest).map ConstructorPlan.digest).find? (·.parameterCount = depth)).getD
      first.digest = first.digest := by
  by_cases length : first.parameters.length = depth
  · simp [ConstructorPlan.digest, Digest.single, length]
  · have noEnding : node.endings = [] := by
      cases endings : node.endings with
      | nil => rfl
      | cons ending others =>
        rw [PrefixTree.values_eq, endings] at values
        cases values
        have ends := (mem_endings_iff numbered atDepth).1 (endings ▸ List.mem_cons_self)
        exact absurd (length_of_endsAt atDepth ends.2) length
    have noneFound : ((first :: rest).map ConstructorPlan.digest).find?
        (·.parameterCount = depth) = none := by
      rw [← values, List.find?_eq_none]
      intro digest member isLong
      obtain ⟨plan, below, rfl⟩ := List.mem_map.1 member
      have ending := mem_endings_of_length atDepth below (of_decide_eq_true isLong)
      rw [noEnding] at ending
      exact absurd ending List.not_mem_nil
    rw [noneFound, Option.getD_none]

theorem mem_level_planTree {visit : Visit ParameterPlan ConstructorPlan}
    (met : visit ∈ (planTree plans).visits none []) (depth : Nat) :
    visit.tree ∈ (planTree plans).level depth ↔ visit.path.length = depth := by
  have keyed := keyed_planTree plans
  rw [planTree_eq_insertAll] at met keyed ⊢
  exact mem_level_iff keyed (nodup_preorder_insertAll _) (tidy_nodes_insertAll_empty _) met depth

end PlanTree

/-- A digest says of a node what the constructors say that end at the node or go on through it. -/
structure Digest.SumsUp (plans : List ConstructorPlan) (depth : Nat) (node : PlanTree)
    (digest : Digest) : Prop where
  candidates : Lists.Enumerates digest.candidates fun id =>
    ∃ plan ∈ plans.filter ConstructorPlan.isUsable,
      plan.LeadsThrough (planTree plans) depth node ∧ plan.id = id
  noCreateMethod : digest.options.noCreateMethod = true ↔
    ∃ plan ∈ plans.filter ConstructorPlan.isUsable,
      plan.LeadsThrough (planTree plans) depth node ∧
        plan.declaration.options.noCreateMethod = true
  customCreateMethodName : digest.options.customCreateMethodName = true ↔
    ∃ plan ∈ plans.filter ConstructorPlan.isUsable,
      plan.LeadsThrough (planTree plans) depth node ∧
        plan.declaration.options.customCreateMethodName = true
  /-- The first constructor inserted that ends at the node represents it. -/
  ending : ∀ before plan after, plans.filter ConstructorPlan.isUsable = before ++ plan :: after →
    plan.EndsAt (planTree plans) node →
      (∀ earlier ∈ before, ¬ earlier.EndsAt (planTree plans) node) →
        digest.constructor = plan.id ∧ digest.parameterCount = plan.parameters.length
  /-- If none ends there, the first one that is met below represents it. -/
  passing : (∀ plan ∈ plans.filter ConstructorPlan.isUsable,
      ¬ plan.EndsAt (planTree plans) node) →
    ∃ plan rest, node.nodes.flatMap PrefixTree.endings = plan :: rest ∧
      digest.constructor = plan.id ∧ digest.parameterCount = plan.parameters.length

theorem exists_sumsUp {plans : List ConstructorPlan} (numbered : Numbered plans)
    {depth : Nat} {node : PlanTree} (atDepth : node ∈ (planTree plans).level depth)
    (nonempty : node.values ≠ []) :
    ∃ digest, nodeDigest? depth node.endings node.children = some digest ∧
      digest.SumsUp plans depth node := by
  obtain ⟨first, rest, values⟩ := List.exists_cons_of_ne_nil nonempty
  have below : ∀ plan, plan ∈ first :: rest ↔ plan ∈ plans.filter ConstructorPlan.isUsable ∧
      plan.LeadsThrough (planTree plans) depth node := fun plan => by
    rw [← values, PlanTree.mem_values_iff numbered atDepth]
  have isMerged : nodeDigest? depth node.endings node.children =
      Digest.mergeAll? depth ((first :: rest).map ConstructorPlan.digest) := by
    rw [nodeDigest?, ← values, PrefixTree.valuesOfAll_eq_flatMap, PrefixTree.values_eq]
  have representative := Digest.representative_foldl_merge depth first.digest
    (rest.map ConstructorPlan.digest)
  rw [← List.map_cons, PlanTree.find?_digest_values numbered atDepth values] at representative
  have single : first.digest.candidates.Pairwise (· < ·) := List.pairwise_singleton _ _
  have merges := Digest.merges_foldl_merge depth (rest.map ConstructorPlan.digest) single
  rw [← List.map_cons] at merges
  have anyAsks : ∀ asks : Options → Bool,
      ((first :: rest).map ConstructorPlan.digest).any (fun digest => asks digest.options) = true ↔
        ∃ plan ∈ plans.filter ConstructorPlan.isUsable,
          plan.LeadsThrough (planTree plans) depth node ∧ asks plan.declaration.options = true := by
    intro asks
    rw [List.any_map, List.any_eq_true]
    simp only [below, and_assoc]
    rfl
  refine ⟨_, isMerged, merges.candidates.congr fun id => ?_, ?_, ?_, ?_, fun _ => ?_⟩
  · have isCandidate : ∀ plan : ConstructorPlan, id ∈ plan.digest.candidates ↔ plan.id = id :=
      fun plan => List.mem_singleton.trans eq_comm
    simp only [List.mem_map, exists_exists_and_eq_and]
    simp only [isCandidate, below, and_assoc]
  · rw [merges.options]
    exact anyAsks (·.noCreateMethod)
  · rw [merges.options]
    exact anyAsks (·.customCreateMethodName)
  · intro before plan after parts ends noEarlier
    have head := PlanTree.head?_endings numbered atDepth parts ends noEarlier
    obtain ⟨others, endings⟩ := List.head?_eq_some_iff.1 head
    rw [PrefixTree.values_eq, endings] at values
    cases values
    exact representative
  · rw [← PrefixTree.values_eq_flatMap_nodes]
    exact ⟨first, rest, values, representative⟩

/-- Every node at or below which a constructor ends has a digest, which says what the constructors
say that end at the node or go on through it. Merging any digests comes to the same in any order,
the representative apart, and the representative ends at the node if any of the constructors
does. -/
theorem sumsUp_planTree (system : TypeSystem) (naming : Naming) (declarations : List Declaration) :
    (∀ visit ∈ (planTree (planAll system naming declarations)).visits none [],
      (∃ node ∈ visit.tree.nodes, node.endings ≠ []) →
        ∃ digest,
          nodeDigest? visit.path.length visit.tree.endings visit.tree.children = some digest ∧
            digest.SumsUp (planAll system naming declarations) visit.path.length visit.tree) ∧
      ∀ depth digests, digests ≠ [] →
        (∀ digest ∈ digests, digest.candidates.Pairwise (· < ·)) →
          ∃ merged, Digest.mergeAll? depth digests = some merged ∧
            ∀ reordered, reordered.Perm digests →
              ∃ other, Digest.mergeAll? depth reordered = some other ∧
                Digest.Merges depth digests other ∧ other.candidates = merged.candidates ∧
                  other.options = merged.options := by
  refine ⟨fun visit met alive => ?_, fun depth digests nonempty increasing => ?_⟩
  · have atDepth := (PlanTree.mem_level_planTree met visit.path.length).2 rfl
    refine exists_sumsUp (numbered_planAll system naming declarations) atDepth ?_
    rw [PrefixTree.values_eq_flatMap_nodes]
    obtain ⟨node, isNode, ends⟩ := alive
    exact fun nothing => ends (List.flatMap_eq_nil_iff.1 nothing node isNode)
  · obtain ⟨merged, isMerged, merges⟩ := Digest.exists_mergeAll? depth nonempty increasing
    refine ⟨merged, isMerged, fun reordered perm => ?_⟩
    have stillNonempty : reordered ≠ [] := by
      rintro rfl
      exact nonempty perm.nil_eq.symm
    have stillIncreasing : ∀ digest ∈ reordered, digest.candidates.Pairwise (· < ·) :=
      fun digest member => increasing digest (perm.mem_iff.1 member)
    obtain ⟨other, isOther, otherMerges⟩ :=
      Digest.exists_mergeAll? depth stillNonempty stillIncreasing
    have reorderedMerges := otherMerges.of_perm perm
    exact ⟨other, isOther, reorderedMerges, reorderedMerges.candidates.unique merges.candidates,
      reorderedMerges.options.trans merges.options.symm⟩

/-- A gift goes on through the node at which an order ends, whose digest is that of the order even
though the gift was declared first. -/
theorem sumsUp_planTree_gift :
    let gift := Declaration.taking "Gift" [.number "id", .number "sender"]
    let order := Declaration.taking "Order" [.number "id"]
    let tree := planTree (planAll {} {} [gift, order])
    (∃ visit ∈ tree.visits none [], visit.path.length = 1 ∧
      ∃ digest, nodeDigest? 1 visit.tree.endings visit.tree.children = some digest ∧
        digest.SumsUp (planAll {} {} [gift, order]) 1 visit.tree ∧
          digest.constructor = 1 ∧ digest.candidates = [0, 1]) ∧
      ∃ merged, Digest.mergeAll? 1 [.single 4 2 {}, .single 3 1 {}] = some merged ∧
        ∃ other, Digest.mergeAll? 1 [.single 3 1 {}, .single 4 2 {}] = some other ∧
          other.candidates = merged.candidates ∧ other.parameterCount = 1 := by
  intro gift order tree
  obtain ⟨visit, found, depth, ends, isDigest⟩ : ∃ visit, (tree.visits none [])[1]? = some visit ∧
      visit.path.length = 1 ∧ visit.tree.endings.map (·.id) = [1] ∧
        nodeDigest? 1 visit.tree.endings visit.tree.children = some ⟨1, 1, [0, 1], {}⟩ :=
    ⟨_, rfl, rfl, rfl, rfl⟩
  have alive : visit.tree.endings ≠ [] := fun nothing => by simp [nothing] at ends
  have theory := sumsUp_planTree {} {} [gift, order]
  constructor
  · have met : visit ∈ tree.visits none [] := List.mem_of_getElem? found
    obtain ⟨digest, isSum, sumsUp⟩ := theory.1 visit met ⟨_, visit.tree.mem_nodes, alive⟩
    rw [depth] at isSum sumsUp
    cases isDigest.symm.trans isSum
    exact ⟨visit, met, depth, _, isDigest, sumsUp, rfl, rfl⟩
  · obtain ⟨merged, isMerged, anyOrder⟩ := theory.2 1 [.single 4 2 {}, .single 3 1 {}]
      (List.cons_ne_nil _ _) (by decide)
    obtain ⟨other, isOther, merges, candidates, -⟩ := anyOrder _ (List.Perm.swap _ _ [])
    refine ⟨merged, isMerged, other, isOther, candidates, merges.arrives ?_⟩
    exact ⟨_, List.mem_cons_of_mem _ List.mem_cons_self, rfl⟩

end StagedBuilder
