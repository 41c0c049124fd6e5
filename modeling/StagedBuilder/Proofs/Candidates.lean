/-
This file says which constructors a synthesized step names as candidates. Along the way
to a step there can be several nodes, because different edges may have keys of one type
and one name. Those of them that are synthesized steps to a caller share the step, each
adding what ends at it or below it, and nothing else is ever added. So the candidates of
a step are, by increasing number, the constructors that pass a synthesized node along the
way, whatever the order in which the nodes are met.

The walk is followed operation by operation: reserving a place, resolving collisions and
putting an existing step change no candidates, and putting a shared step changes those of
one way.
-/

import StagedBuilder.Proofs.Soundness

namespace StagedBuilder

open PrefixTree (Under)

/-! ### Increasing lists of numbers -/

theorem mem_insertCandidate {candidate number : Nat} {numbers : List Nat} :
    number ∈ insertCandidate candidate numbers ↔ number = candidate ∨ number ∈ numbers := by
  induction numbers with
  | nil => rw [insertCandidate, List.mem_cons]
  | cons first rest inductionHypothesis =>
    rw [insertCandidate]
    split
    · rw [List.mem_cons]
    · split
      · rw [List.mem_cons, List.mem_cons, inductionHypothesis, or_left_comm]
      · next notBelow notAbove =>
        have same : candidate = first :=
          Nat.le_antisymm (Nat.le_of_not_lt notAbove) (Nat.le_of_not_lt notBelow)
        rw [same, List.mem_cons, or_self_left]

theorem increasing_insertCandidate (candidate : Nat) {numbers : List Nat}
    (increasing : numbers.Pairwise (· < ·)) :
    (insertCandidate candidate numbers).Pairwise (· < ·) := by
  induction numbers with
  | nil => exact List.pairwise_singleton _ _
  | cons first rest inductionHypothesis =>
    obtain ⟨firstBelow, restIncreasing⟩ := List.pairwise_cons.1 increasing
    rw [insertCandidate]
    split
    · next below =>
      refine List.pairwise_cons.2 ⟨fun number member => ?_, increasing⟩
      rcases List.mem_cons.1 member with rfl | inRest
      · exact below
      · exact Nat.lt_trans below (firstBelow number inRest)
    · split
      · next above =>
        refine List.pairwise_cons.2 ⟨fun number member => ?_, inductionHypothesis restIncreasing⟩
        rcases mem_insertCandidate.1 member with rfl | inRest
        · exact above
        · exact firstBelow number inRest
      · exact increasing

theorem mem_insertCandidates {candidates numbers : List Nat} {number : Nat} :
    number ∈ insertCandidates candidates numbers ↔ number ∈ candidates ∨ number ∈ numbers := by
  unfold insertCandidates
  induction candidates generalizing numbers with
  | nil => simp
  | cons first rest inductionHypothesis =>
    rw [List.foldl_cons, inductionHypothesis, mem_insertCandidate, List.mem_cons, or_assoc,
      or_left_comm]

theorem increasing_insertCandidates (candidates : List Nat) {numbers : List Nat}
    (increasing : numbers.Pairwise (· < ·)) :
    (insertCandidates candidates numbers).Pairwise (· < ·) := by
  unfold insertCandidates
  induction candidates generalizing numbers with
  | nil => exact increasing
  | cons first rest inductionHypothesis =>
    exact inductionHypothesis (increasing_insertCandidate first increasing)

/-! ### The candidates of a node -/

theorem mem_candidates_foldl_merge {depth : Nat} {digest : Digest} {others : List Digest}
    {id : Nat} :
    id ∈ (others.foldl (Digest.merge depth) digest).candidates ↔
      id ∈ digest.candidates ∨ ∃ other ∈ others, id ∈ other.candidates := by
  induction others generalizing digest with
  | nil => simp
  | cons first rest inductionHypothesis =>
    rw [List.foldl_cons, inductionHypothesis, Digest.merge, mem_insertCandidates,
      List.exists_mem_cons_iff, or_comm (a := id ∈ first.candidates), or_assoc]

theorem increasing_candidates_foldl_merge {depth : Nat} {digest : Digest} (others : List Digest)
    (increasing : digest.candidates.Pairwise (· < ·)) :
    (others.foldl (Digest.merge depth) digest).candidates.Pairwise (· < ·) := by
  induction others generalizing digest with
  | nil => exact increasing
  | cons first rest inductionHypothesis =>
    exact inductionHypothesis (increasing_insertCandidates _ increasing)

/-- The candidates of a node are the constructors that end at it or below it. -/
theorem mem_candidates_nodeDigest? {depth : Nat} {node : PlanTree} {id : Nat} :
    id ∈ ((nodeDigest? depth node.endings node.children).map Digest.candidates).getD [] ↔
      ∃ plan ∈ node.values, plan.id = id := by
  obtain ⟨label, keys, endings, children⟩ := node
  rw [nodeDigest?, PrefixTree.endings, PrefixTree.children, PrefixTree.values]
  cases endings ++ PrefixTree.valuesOfAll children with
  | nil => simp [Digest.mergeAll?]
  | cons first rest =>
    show id ∈ ((rest.map ConstructorPlan.digest).foldl (Digest.merge depth)
      first.digest).candidates ↔ _
    rw [mem_candidates_foldl_merge, List.exists_mem_cons_iff]
    simp [ConstructorPlan.digest, Digest.single, eq_comm]

theorem increasing_nodeDigest? (depth : Nat) (endings : List ConstructorPlan)
    (children : List PlanTree) :
    (((nodeDigest? depth endings children).map Digest.candidates).getD []).Pairwise (· < ·) := by
  rw [nodeDigest?]
  cases endings ++ PrefixTree.valuesOfAll children with
  | nil => exact List.Pairwise.nil
  | cons first rest =>
    exact increasing_candidates_foldl_merge _ (List.pairwise_singleton _ first.id)

/-! ### Constructors that pass a node -/

namespace NodeRole

def isSynthesized : NodeRole → Bool
  | .synthesized => true
  | _ => false

def isExisting : NodeRole → Bool
  | .existing _ => true
  | _ => false

/-- Whether a caller who arrives at the node can call something there. -/
def isStep : NodeRole → Bool
  | .finish _ => false
  | _ => true

end NodeRole

/-- What a node is to a caller who arrives there. -/
def PlanTree.role (node : PlanTree) : NodeRole := nodeRole node.endings node.children.isEmpty

/-- Along the key there is a node of the given kind, and the constructor ends at it or below
it. -/
def PlanTree.Passes (kind : NodeRole → Bool) : PlanTree → StepKey → Nat → Prop
  | node, [], id => kind node.role = true ∧ ∃ plan ∈ node.values, plan.id = id
  | node, edge :: rest, id => ∃ child ∈ node.children, ∃ representative,
      child.representative? = some representative ∧
        (representative.key.type, representative.key.name) = edge ∧ Passes kind child rest id

/-- Along the key there is such a node below one of the children. -/
def PassesBelow (kind : NodeRole → Bool) (children : List PlanTree) : StepKey → Nat → Prop
  | [], _ => False
  | edge :: rest, id => ∃ child ∈ children, ∃ representative,
      child.representative? = some representative ∧
        (representative.key.type, representative.key.name) = edge ∧
          PlanTree.Passes kind child rest id

theorem passes_iff {kind : NodeRole → Bool} {node : PlanTree} {key : StepKey} {id : Nat} :
    node.Passes kind key id ↔
      (key = [] ∧ kind node.role = true ∧ ∃ plan ∈ node.values, plan.id = id) ∨
        PassesBelow kind node.children key id := by
  cases key with
  | nil =>
    show _ ∧ _ ↔ (([] : StepKey) = [] ∧ _) ∨ False
    rw [or_false, eq_self_iff_true, true_and]
  | cons edge rest =>
    show (∃ child ∈ node.children, _) ↔ (edge :: rest = [] ∧ _) ∨ ∃ child ∈ node.children, _
    rw [eq_false (List.cons_ne_nil edge rest), false_and, false_or]

theorem not_passesBelow_nil {kind : NodeRole → Bool} {key : StepKey} {id : Nat} :
    ¬ PassesBelow kind [] key id := by
  cases key with
  | nil => exact not_false
  | cons edge rest =>
    rintro ⟨child, member, -⟩
    exact List.not_mem_nil member

theorem passesBelow_cons {kind : NodeRole → Bool} {child : PlanTree} {rest : List PlanTree}
    {representative : ParameterPlan} (made : child.representative? = some representative)
    {key : StepKey} {id : Nat} :
    PassesBelow kind (child :: rest) key id ↔
      (∃ further, (representative.key.type, representative.key.name) :: further = key ∧
        child.Passes kind further id) ∨ PassesBelow kind rest key id := by
  cases key with
  | nil =>
    show False ↔ (∃ further, _ :: further = ([] : StepKey) ∧ _) ∨ False
    simp
  | cons edge others =>
    show (∃ other ∈ child :: rest, _) ↔ _ ∨ ∃ other ∈ rest, _
    rw [List.exists_mem_cons_iff, made]
    refine or_congr_left ⟨?_, ?_⟩
    · rintro ⟨_, isMade, sameEdge, passes⟩
      cases isMade
      exact ⟨others, congrArg (· :: others) sameEdge, passes⟩
    · rintro ⟨further, same, passes⟩
      obtain ⟨rfl, rfl⟩ := List.cons.inj same
      exact ⟨representative, rfl, rfl, passes⟩

theorem passesBelow_cons_of_none {kind : NodeRole → Bool} {child : PlanTree}
    {rest : List PlanTree} (made : child.representative? = none) {key : StepKey} {id : Nat} :
    PassesBelow kind (child :: rest) key id ↔ PassesBelow kind rest key id := by
  cases key with
  | nil => exact Iff.rfl
  | cons edge others =>
    show (∃ other ∈ child :: rest, _) ↔ ∃ other ∈ rest, _
    rw [List.exists_mem_cons_iff, made]
    simp

/-! ### Candidates along a way -/

/-- The candidates of the step that is shared along a way. -/
def Walk.candidatesAt (walk : Walk) (key : StepKey) : List Nat :=
  match (walk.shared? key).bind fun shared => walk.step? shared.index with
  | some (.synthesized step) => step.candidates
  | _ => []

namespace Walk

variable {walk later : Walk} {key : StepKey} {shared : SharedStep} {step : SynthesizedStep}

theorem candidatesAt_of_filled (found : walk.shared? key = some shared)
    (filled : walk.step? shared.index = some (.synthesized step)) :
    walk.candidatesAt key = step.candidates := by
  rw [candidatesAt, found, Option.bind_some, filled]

theorem candidatesAt_of_unshared (unshared : walk.shared? key = none) :
    walk.candidatesAt key = [] := by
  rw [candidatesAt, unshared]
  rfl

/-- Candidates depend on the steps that are shared alone. -/
theorem candidatesAt_congr (sameShared : later.shared? key = walk.shared? key)
    (sameSteps : ∀ shared, walk.shared? key = some shared →
      later.step? shared.index = walk.step? shared.index) :
    later.candidatesAt key = walk.candidatesAt key := by
  rw [candidatesAt, candidatesAt, sameShared]
  cases found : walk.shared? key with
  | none => rfl
  | some shared => rw [Option.bind_some, Option.bind_some, sameSteps shared found]

variable {naming : Naming} {tree : PlanTree}

/-- An existing step that is put where a place is reserved changes no candidates. -/
theorem Sound.candidatesAt_putExisting (sound : walk.Sound naming tree) {index : Nat}
    (reserved : walk.step? index = none) (existing : ExistingStep) (key : StepKey) :
    (walk.put index (.existing existing)).candidatesAt key = walk.candidatesAt key := by
  refine candidatesAt_congr rfl fun shared found => step?_put_of_ne ?_ _ _
  rintro rfl
  obtain ⟨filled, isFilled, -⟩ := (sound.shared key shared found).filled
  exact Option.some_ne_none _ (isFilled.symm.trans reserved)

/-- A step that is put and recorded for a way has its candidates along this way. -/
theorem Placeable.candidatesAt_self (place : walk.Placeable key shared)
    (step : SynthesizedStep) :
    ((walk.put shared.index (.synthesized step)).share key shared).candidatesAt key =
      step.candidates :=
  candidatesAt_of_filled (shared?_share_self _ key shared)
    (step?_put_self place.bound (.synthesized step))

/-- Along other ways it changes no candidates. -/
theorem Placeable.candidatesAt_of_ne (place : walk.Placeable key shared) {other : StepKey}
    (differ : other ≠ key) (step : SynthesizedStep) :
    ((walk.put shared.index (.synthesized step)).share key shared).candidatesAt other =
      walk.candidatesAt other :=
  candidatesAt_congr (shared?_share_of_ne differ _ _) fun otherShared found =>
    step?_put_of_ne (place.others other otherShared found differ) walk (.synthesized step)

end Walk

/-! ### What the walk does to candidates -/

/-- Along the ways that begin with a key the later walk has, in addition to the candidates that
were there, exactly the given ones; and the candidates are still increasing if they were. -/
structure Walk.Gathers (walk : Walk) (key : StepKey) (more : StepKey → Nat → Prop)
    (later : Walk) : Prop where
  mem_iff : ∀ way id, id ∈ later.candidatesAt way ↔
    id ∈ walk.candidatesAt way ∨ ∃ rest, key ++ rest = way ∧ more rest id
  increasing : (∀ way, (walk.candidatesAt way).Pairwise (· < ·)) →
    ∀ way, (later.candidatesAt way).Pairwise (· < ·)

namespace Walk.Gathers

variable {walk later latest : Walk} {key : StepKey} {more : StepKey → Nat → Prop}

/-- Nothing is added by what leaves the candidates alone. -/
theorem of_same (same : ∀ way, later.candidatesAt way = walk.candidatesAt way)
    (nothing : ∀ rest id, ¬ more rest id) : walk.Gathers key more later where
  mem_iff way id := by
    rw [same, or_iff_left]
    rintro ⟨rest, -, isMore⟩
    exact nothing rest id isMore
  increasing before way := by
    rw [same]
    exact before way

theorem congr (gathers : walk.Gathers key more later) {other : StepKey → Nat → Prop}
    (same : ∀ rest id, more rest id ↔ other rest id) : walk.Gathers key other later where
  mem_iff way id := by
    rw [gathers.mem_iff]
    simp only [same]
  increasing := gathers.increasing

/-- Reserving a place adds nothing. -/
theorem of_reserve (gathers : walk.reserve.2.Gathers key more later) :
    walk.Gathers key more later := by
  have same : ∀ way, walk.reserve.2.candidatesAt way = walk.candidatesAt way :=
    fun way => candidatesAt_congr rfl fun shared _ => walk.step?_reserve shared.index
  refine ⟨fun way id => ?_, fun before => gathers.increasing fun way => ?_⟩
  · rw [gathers.mem_iff, same]
  · rw [same]
    exact before way

theorem select (gathers : walk.Gathers key more later) (candidates : List Candidate) :
    walk.Gathers key more (later.select candidates).2 :=
  ⟨gathers.mem_iff, gathers.increasing⟩

/-- An existing step that is put where a place is reserved adds nothing. -/
theorem putExisting {naming : Naming} {tree : PlanTree} (gathers : walk.Gathers key more later)
    (sound : later.Sound naming tree) {index : Nat} (reserved : later.step? index = none)
    (existing : ExistingStep) : walk.Gathers key more (later.put index (.existing existing)) := by
  refine ⟨fun way id => ?_, fun before way => ?_⟩
  · rw [sound.candidatesAt_putExisting reserved, gathers.mem_iff]
  · rw [sound.candidatesAt_putExisting reserved]
    exact gathers.increasing before way

/-- First below the first child, then below the others. -/
theorem branch {child : PlanTree} {rest : List PlanTree} {kind : NodeRole → Bool}
    {representative : ParameterPlan} (made : child.representative? = some representative)
    (first : walk.Gathers (key ++ [(representative.key.type, representative.key.name)])
      (child.Passes kind) later)
    (second : later.Gathers key (PassesBelow kind rest) latest) :
    walk.Gathers key (PassesBelow kind (child :: rest)) latest where
  mem_iff way id := by
    rw [second.mem_iff, first.mem_iff, or_assoc]
    refine or_congr_right ⟨?_, ?_⟩
    · rintro (⟨further, rfl, passes⟩ | ⟨further, rfl, passes⟩)
      · rw [List.append_assoc, List.singleton_append]
        exact ⟨_, rfl, (passesBelow_cons made).2 (.inl ⟨further, rfl, passes⟩)⟩
      · exact ⟨further, rfl, (passesBelow_cons made).2 (.inr passes)⟩
    · rintro ⟨further, rfl, passes⟩
      rcases (passesBelow_cons made).1 passes with ⟨others, rfl, passesFirst⟩ | passesRest
      · refine .inl ⟨others, ?_, passesFirst⟩
        rw [List.append_assoc, List.singleton_append]
      · exact .inr ⟨further, rfl, passesRest⟩
  increasing before := second.increasing (first.increasing before)

/-- A step for the key itself adds its own candidates. -/
theorem putShared {kind : NodeRole → Bool} {node : PlanTree} (isKind : kind node.role = true)
    (gathers : walk.Gathers key (PassesBelow kind node.children) later) {shared : SharedStep}
    (place : later.Placeable key shared) {step : SynthesizedStep}
    (candidates : ∀ id, id ∈ step.candidates ↔
      id ∈ later.candidatesAt key ∨ ∃ plan ∈ node.values, plan.id = id)
    (increasing : (later.candidatesAt key).Pairwise (· < ·) → step.candidates.Pairwise (· < ·)) :
    walk.Gathers key (node.Passes kind)
      ((later.put shared.index (.synthesized step)).share key shared) where
  mem_iff way id := by
    by_cases isKey : way = key
    · subst isKey
      rw [place.candidatesAt_self, candidates, gathers.mem_iff, or_assoc]
      refine or_congr_right ⟨?_, ?_⟩
      · rintro (⟨rest, same, passes⟩ | passes)
        · exact ⟨rest, same, passes_iff.2 (.inr passes)⟩
        · exact ⟨[], List.append_nil _, isKind, passes⟩
      · rintro ⟨rest, same, passes⟩
        rcases passes_iff.1 passes with ⟨-, -, here⟩ | below
        · exact .inr here
        · exact .inl ⟨rest, same, below⟩
    · rw [place.candidatesAt_of_ne isKey, gathers.mem_iff]
      refine or_congr_right (exists_congr fun rest => and_congr_right fun same => ?_)
      rw [passes_iff, or_iff_right]
      rintro ⟨rfl, -⟩
      exact isKey (same.symm.trans (List.append_nil _))
  increasing before way := by
    have after := gathers.increasing before
    by_cases isKey : way = key
    · subst isKey
      rw [place.candidatesAt_self]
      exact increasing (after way)
    · rw [place.candidatesAt_of_ne isKey]
      exact after way

end Walk.Gathers

section

variable {naming : Naming} {tree node : PlanTree} {path : Path} {walk : Walk} {descend : Descent}

/-- A descent that adds what passes synthesized steps below children, from every path of one
key. -/
def GathersFrom (naming : Naming) (tree : PlanTree) (key : StepKey) (children : List PlanTree)
    (descend : Descent) : Prop :=
  ∀ (path : Path) (ambient : List TypeParameter) (proposed : List Candidate) (walk : Walk),
    path.key = key → Walked tree path → walk.Sound naming tree →
      (∀ candidate ∈ proposed, Offered naming tree walk path candidate.method) →
        walk.Gathers key (PassesBelow NodeRole.isSynthesized children)
          (descend path ambient proposed walk).2

theorem GathersFrom.reserved {children : List PlanTree}
    (gathers : GathersFrom naming tree path.key children descend) (walked : Walked tree path)
    (sound : walk.Sound naming tree) :
    walk.Gathers path.key (PassesBelow NodeRole.isSynthesized children)
      (descend path path.scope.declarations [] walk.reserve.2).2 :=
  (gathers path _ [] _ rfl walked sound.reserve
    fun _ member => absurd member List.not_mem_nil).of_reserve

theorem gathers_enterExisting (walked : Walked tree path) (sound : walk.Sound naming tree)
    {plan : ConstructorPlan} (isExisting : node.role = .existing plan)
    (below : DescendsFrom naming tree path.key descend)
    (gathers : GathersFrom naming tree path.key node.children descend) :
    walk.Gathers path.key (node.Passes NodeRole.isSynthesized)
      (enterExisting path plan descend walk).2 := by
  let outcome := descend path path.scope.declarations [] walk.reserve.2
  have descends : Descends naming tree path walk.reserve.2 outcome := below.reserved walked sound
  have after : walk.Gathers path.key (PassesBelow NodeRole.isSynthesized node.children)
      (outcome.2.select outcome.1).2 :=
    (gathers.reserved walked sound).select outcome.1
  refine (after.putExisting (descends.sound.select outcome.1) descends.reserved.1 _).congr
    fun rest id => ?_
  rw [passes_iff, isExisting, or_iff_right]
  exact fun here => Bool.false_ne_true here.2.1

theorem gathers_enterNew (walked : Walked tree path) (sound : walk.Sound naming tree)
    (isSynthesized : node.role = .synthesized) (unshared : walk.shared? path.key = none)
    (depth : Nat) (below : DescendsFrom naming tree path.key descend)
    (gathers : GathersFrom naming tree path.key node.children descend) :
    walk.Gathers path.key (node.Passes NodeRole.isSynthesized)
      (enterNew naming path node.endings (nodeDigest? depth node.endings node.children) descend
        walk).2 := by
  let outcome := descend path path.scope.declarations [] walk.reserve.2
  have descends : Descends naming tree path walk.reserve.2 outcome := below.reserved walked sound
  let candidates :=
    proposeCreations naming path.scope path.scope.declarations outcome.1 node.endings
  have stillUnshared : (outcome.2.select candidates).2.shared? path.key = none :=
    (descends.grows.shallow path.key (Nat.lt_succ_self _)).trans unshared
  have after : walk.Gathers path.key (PassesBelow NodeRole.isSynthesized node.children)
      (outcome.2.select candidates).2 :=
    (gathers.reserved walked sound).select candidates
  refine after.putShared (congrArg NodeRole.isSynthesized isSynthesized)
    (descends.placeable_reserved unshared candidates) (fun id => ?_) fun _ => ?_
  · rw [Walk.candidatesAt_of_unshared stillUnshared, or_iff_right List.not_mem_nil]
    exact mem_candidates_nodeDigest?
  · exact increasing_nodeDigest? depth node.endings node.children

theorem gathers_enterShared (sound : walk.Sound naming tree)
    (isSynthesized : node.role = .synthesized) {shared : SharedStep}
    (found : walk.shared? path.key = some shared) (depth : Nat)
    (below : DescendsFrom naming tree path.key descend)
    (gathers : GathersFrom naming tree path.key node.children descend) :
    walk.Gathers path.key (node.Passes NodeRole.isSynthesized)
      (enterShared naming path shared node.endings
        (nodeDigest? depth node.endings node.children) descend walk).2 := by
  let creator : Path := ⟨shared.scope, shared.known, path.key⟩
  have before := sound.shared path.key shared found
  let outcome :=
    descend creator shared.scope.declarations (Candidate.renumber shared.survivors) walk
  have descends : Descends naming tree creator walk outcome :=
    below creator _ _ _ rfl before.walked sound before.offered
  let candidates :=
    proposeCreations naming shared.scope shared.scope.declarations outcome.1 node.endings
  let selected := outcome.2.select candidates
  have after : walk.Gathers path.key (PassesBelow NodeRole.isSynthesized node.children)
      selected.2 :=
    (gathers creator _ _ _ rfl before.walked sound before.offered).select candidates
  obtain ⟨stillShared, ⟨filled, isFilled, -⟩, placeable⟩ :=
    descends.exists_filled found candidates
  have sameCandidates : selected.2.candidatesAt path.key = filled.candidates :=
    Walk.candidatesAt_of_filled stillShared isFilled
  rw [enterShared_of_filled rfl isFilled]
  refine after.putShared (congrArg NodeRole.isSynthesized isSynthesized)
    (placeable selected.1) (fun id => ?_) fun increasing => ?_
  · rw [sameCandidates, mem_insertCandidates, mem_candidates_nodeDigest?, or_comm]
  · rw [sameCandidates] at increasing
    exact increasing_insertCandidates _ increasing

end

/-! ### The whole tree -/

mutual

/-- Arriving at a node adds what passes synthesized steps at it and below it. -/
theorem gathers_arrive {naming : Naming} {tree : PlanTree} {above : List ParameterPlan} :
    (node : PlanTree) → (path : Path) → (walk : Walk) → Under tree above node →
      keyOf above = path.key → Walked tree path → walk.Sound naming tree →
        walk.Gathers path.key (node.Passes NodeRole.isSynthesized)
          (arrive naming path node walk).2
  | .node label keys endings children, path, walk, under, leads, walked, sound => by
    have below : DescendsFrom naming tree path.key fun path ambient proposed walk =>
        branches naming path ambient children proposed walk := descendsFrom_branches under leads
    have gathers : GathersFrom naming tree path.key children fun path ambient proposed walk =>
        branches naming path ambient children proposed walk := by
      intro other ambient proposed walk sameKey walked sound offered
      rw [← sameKey]
      exact gathers_branches children under other (leads.trans sameKey.symm)
        (fun child member => member) ambient proposed walk walked sound offered
    rw [arrive]
    cases role : nodeRole endings children.isEmpty with
    | finish plan =>
      -- Nothing is below a node that is finished, and the node itself is no step.
      refine .of_same (fun way => rfl) fun rest id passes => ?_
      have isLeaf := List.isEmpty_iff.1 (nodeRole_finish role).2.2
      rcases passes_iff.1 passes with ⟨-, isSynthesized, -⟩ | below
      · rw [PlanTree.role, PrefixTree.endings, PrefixTree.children, role] at isSynthesized
        exact Bool.false_ne_true isSynthesized
      · rw [PrefixTree.children, isLeaf] at below
        exact not_passesBelow_nil below
    | existing plan => exact gathers_enterExisting walked sound role below gathers
    | synthesized =>
      show walk.Gathers path.key _ (enterSynthesized naming path endings _ _ walk).2
      unfold enterSynthesized
      have isSynthesized : PlanTree.role (.node label keys endings children) = .synthesized := role
      cases found : walk.shared? path.key with
      | none =>
        exact gathers_enterNew walked sound isSynthesized found path.known.length below gathers
      | some shared =>
        exact gathers_enterShared sound isSynthesized found path.known.length below gathers

/-- Going down to children of a node adds what passes synthesized steps below them. -/
theorem gathers_branches {naming : Naming} {tree : PlanTree} {above : List ParameterPlan}
    {node : PlanTree} :
    (children : List PlanTree) → Under tree above node → (path : Path) → keyOf above = path.key →
      (∀ child ∈ children, child ∈ node.children) → (ambient : List TypeParameter) →
        (proposed : List Candidate) → (walk : Walk) → Walked tree path → walk.Sound naming tree →
          (∀ candidate ∈ proposed, Offered naming tree walk path candidate.method) →
            walk.Gathers path.key (PassesBelow NodeRole.isSynthesized children)
              (branches naming path ambient children proposed walk).2
  | [], _, path, _, _, ambient, proposed, walk, _, _, _ =>
    .of_same (fun way => rfl) fun rest id => not_passesBelow_nil
  | child :: rest, under, path, leads, included, ambient, proposed, walk, walked, sound,
    offered => by
    have includedRest : ∀ other ∈ rest, other ∈ node.children :=
      fun other member => included other (List.mem_cons_of_mem _ member)
    have member : child ∈ node.children := included child List.mem_cons_self
    rw [branches]
    cases made : child.representative? with
    | none =>
      exact (gathers_branches rest under path leads includedRest ambient proposed walk walked
        sound offered).congr fun key id => (passesBelow_cons_of_none made).symm
    | some representative =>
      have first := gathers_arrive child (path.extend representative) walk
        (under.down member made) (Walked.keyOf_append_singleton leads representative)
        (.extend walked under leads member made) sound
      obtain ⟨soundNext, offeredNext⟩ :=
        entered_child under leads walked sound offered member made ambient
      exact .branch made first (gathers_branches rest under path leads includedRest ambient _ _
        walked soundNext offeredNext)

end

section

variable (naming : Naming) (root : Root) (tree : PlanTree)

theorem gathers_walkTree :
    ({} : Walk).Gathers [] (PassesBelow NodeRole.isSynthesized tree.children)
      (walkTree naming root tree).2 :=
  (gathers_branches tree.children .top {} rfl (fun _ member => member) root.typeParameters [] {}
    .start (.start naming tree) fun _ member => absurd member List.not_mem_nil).select _

/-- After the walk of a tree a step names exactly the constructors that pass a synthesized node
along its way. -/
theorem mem_candidatesAt_walkTree {key : StepKey} (further : key ≠ []) {id : Nat} :
    id ∈ (walkTree naming root tree).2.candidatesAt key ↔
      tree.Passes NodeRole.isSynthesized key id := by
  rw [(gathers_walkTree naming root tree).mem_iff, Walk.candidatesAt_of_unshared rfl,
    or_iff_right List.not_mem_nil, passes_iff, or_iff_right fun here => further here.1]
  refine ⟨?_, fun passes => ⟨key, rfl, passes⟩⟩
  rintro ⟨rest, rfl, passes⟩
  exact passes

/-- It names them by increasing number. -/
theorem increasing_candidatesAt_walkTree (key : StepKey) :
    ((walkTree naming root tree).2.candidatesAt key).Pairwise (· < ·) := by
  refine (gathers_walkTree naming root tree).increasing (fun way => ?_) key
  rw [Walk.candidatesAt_of_unshared rfl]
  exact List.Pairwise.nil

/-- No step is shared by those who have supplied nothing. -/
theorem shared?_walkTree_nil : (walkTree naming root tree).2.shared? [] = none := by
  have descends := descends_branches tree.children .top {} rfl (fun _ member => member)
    root.typeParameters [] {} .start (.start naming tree)
    fun _ member => absurd member List.not_mem_nil
  exact descends.grows.shallow [] Nat.one_pos

end

end StagedBuilder
