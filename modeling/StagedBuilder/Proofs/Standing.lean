/-
This file says how the methods of a walk are made. What is offered on a path says which
parameter a method supplies or which target it creates; here the whole method is fixed:
with the scope of the path, the type parameters declared around it, and what the call
introduces. For a call that finishes a target this includes the target's own type
parameters, because arriving at a finished target tells which constructor finished it.

A step declares the type parameters that its path has bound, and its methods are made with
these around them. A step that several nodes share declares what the path that made it has
bound, and the methods that later nodes add are made along this path and not along theirs.
-/

import StagedBuilder.Proofs.Assembly

namespace StagedBuilder

open PrefixTree (Under)

/-! ### Methods as they are made -/

/-- A finished target comes with the constructor that finished it, and it is the target of this
constructor as the scope of the path sees it. -/
def Arrival.Finishes (path : Path) (arrival : Arrival) : Prop :=
  ∀ value, arrival.result = .product value →
    ∃ plan, arrival.finished = some plan ∧ value.target = plan.targetIn path.scope

/-- The methods that are made where a path leads, with the given type parameters declared
around them. -/
inductive Stands (naming : Naming) (tree : PlanTree) (path : Path)
    (ambient : List TypeParameter) : Method → Prop
  | edge {above : List ParameterPlan} {node child : PlanTree} {representative plan : ParameterPlan}
      {supply : SupplyPlan} {arrival : Arrival} (order : Nat) (under : Under tree above node)
      (leads : keyOf above = path.key) (member : child ∈ node.children)
      (made : child.representative? = some representative) (onEdge : plan ∈ child.keys)
      (supplied : supply ∈ plan.supplies)
      (finishes : arrival.Finishes (path.extend representative)) :
      Stands naming tree path ambient
        ((edgeCall path (path.extend representative) ambient arrival.result
          arrival.finished).candidate plan order supply).method
  | ending {above : List ParameterPlan} {node : PlanTree} {plan : ConstructorPlan}
      (under : Under tree above node) (leads : keyOf above = path.key)
      (ends : plan ∈ node.endings) :
      Stands naming tree path ambient (plan.creation naming path.scope ambient)

/-- The methods of a step that a path leads to are made with the path's type parameters around
them, and the step declares these. -/
structure Step.StandsOn (naming : Naming) (tree : PlanTree) (path : Path) (step : Step) : Prop where
  typeParameters : step.typeParameters = path.scope.declarations
  stands : ∀ method ∈ step.methods, Stands naming tree path path.scope.declarations method

/-- The methods of every step are made where the path of the step leads. -/
structure Walk.Settled (naming : Naming) (tree : PlanTree) (walk : Walk) : Prop where
  shared : ∀ key shared step, walk.shared? key = some shared →
    walk.step? shared.index = some (.synthesized step) →
      Step.StandsOn naming tree ⟨shared.scope, shared.known, key⟩ (.synthesized step)
  existing : ∀ index step, walk.step? index = some (.existing step) →
    ∃ path plan, step.Sound naming tree walk path plan ∧
      Step.StandsOn naming tree path (.existing step)

namespace Walk.Settled

variable {naming : Naming} {tree : PlanTree} {walk : Walk}

theorem start (naming : Naming) (tree : PlanTree) : Walk.Settled naming tree {} where
  shared _ _ _ found := absurd found (Option.some_ne_none _).symm
  existing _ _ found := absurd found (Option.some_ne_none _).symm

theorem of_same (settled : walk.Settled naming tree) {later : Walk}
    (steps : ∀ index, later.step? index = walk.step? index)
    (shared : ∀ key, later.shared? key = walk.shared? key) : later.Settled naming tree where
  shared key shared' step found filled := by
    rw [shared] at found
    rw [steps] at filled
    exact settled.shared key shared' step found filled
  existing index step found := by
    rw [steps] at found
    obtain ⟨path, plan, sound, standsOn⟩ := settled.existing index step found
    exact ⟨path, plan, sound.keeps (.of_same steps shared), standsOn⟩

theorem reserve (settled : walk.Settled naming tree) : walk.reserve.2.Settled naming tree :=
  settled.of_same walk.step?_reserve fun _ => rfl

theorem select (settled : walk.Settled naming tree) (candidates : List Candidate) :
    (walk.select candidates).2.Settled naming tree := settled.of_same (fun _ => rfl) fun _ => rfl

theorem putExisting (settled : walk.Settled naming tree) {index : Nat}
    (reserved : walk.step? index = none) {path : Path} {plan : ConstructorPlan}
    {step : ExistingStep} (sound : step.Sound naming tree walk path plan)
    (standsOn : Step.StandsOn naming tree path (.existing step)) :
    (walk.put index (.existing step)).Settled naming tree := by
  have free : ∀ existing, walk.step? index ≠ some (.existing existing) :=
    fun existing found => Option.some_ne_none _ (found.symm.trans reserved)
  have keeps : walk.Keeps (walk.put index (.existing step)) := .put free _
  refine ⟨fun key shared other found filled => ?_, fun other existing found => ?_⟩
  · rcases eq_or_step?_of_step?_put filled with ⟨-, same⟩ | ⟨-, filledBefore⟩
    · cases same
    · exact settled.shared key shared other found filledBefore
  · rcases eq_or_step?_of_step?_put found with ⟨-, same⟩ | ⟨-, foundBefore⟩
    · cases same
      exact ⟨path, plan, sound.keeps keeps, standsOn⟩
    · obtain ⟨otherPath, otherPlan, before, otherStands⟩ :=
        settled.existing other existing foundBefore
      exact ⟨otherPath, otherPlan, before.keeps keeps, otherStands⟩

theorem putShared (settled : walk.Settled naming tree) {key : StepKey} {shared : SharedStep}
    {step : SynthesizedStep} (place : walk.Placeable key shared)
    (standsOn : Step.StandsOn naming tree ⟨shared.scope, shared.known, key⟩ (.synthesized step)) :
    ((walk.put shared.index (.synthesized step)).share key shared).Settled naming tree := by
  have keeps : walk.Keeps ((walk.put shared.index (.synthesized step)).share key shared) :=
    Keeps.trans (.put place.free _) (.share place.same)
  refine ⟨fun other otherShared filled found isFilled => ?_, fun index existing found => ?_⟩
  · rcases eq_or_step?_of_step?_put isFilled with ⟨sameIndex, same⟩ | ⟨differ, filledBefore⟩
    · rcases eq_or_shared?_of_shared?_share found with ⟨rfl, rfl⟩ | ⟨isOther, foundBefore⟩
      · exact same ▸ standsOn
      · exact absurd sameIndex (place.others other otherShared foundBefore isOther)
    · rcases eq_or_shared?_of_shared?_share found with ⟨-, rfl⟩ | ⟨-, foundBefore⟩
      · exact absurd rfl differ
      · exact settled.shared other otherShared filled foundBefore filledBefore
  · rcases eq_or_step?_of_step?_put found with ⟨-, same⟩ | ⟨-, foundBefore⟩
    · cases same
    · obtain ⟨path, plan, before, otherStands⟩ := settled.existing index existing foundBefore
      exact ⟨path, plan, before.keeps keeps, otherStands⟩

end Walk.Settled

/-! ### Nodes -/

section

variable {naming : Naming} {tree node : PlanTree} {path : Path} {walk : Walk}
  {ambient : List TypeParameter}

/-- The survivors among candidates that are made somewhere are made there. -/
theorem stands_survivors {candidates : List Candidate}
    (stands : ∀ candidate ∈ candidates, Stands naming tree path ambient candidate.method) :
    ∀ method ∈ (Collision.survivors (Collision.resolve candidates)).map Candidate.method,
      Stands naming tree path ambient method := by
  intro method member
  obtain ⟨candidate, survived, rfl⟩ := List.mem_map.1 member
  exact stands candidate (Collision.survivor_mem survived)

theorem stands_creations {above : List ParameterPlan} (under : Under tree above node)
    (leads : keyOf above = path.key) {candidates : List Candidate}
    (stands : ∀ candidate ∈ candidates, Stands naming tree path ambient candidate.method) :
    ∀ candidate ∈ proposeCreations naming path.scope ambient candidates node.endings,
      Stands naming tree path ambient candidate.method := by
  intro candidate member
  rcases mem_proposeCreations member with inProposed | ⟨plan, ends, -, isCreation⟩
  · exact stands candidate inProposed
  · rw [isCreation]
    exact .ending under leads ends

/-- With the keys on the edge to a child, everything proposed is made where the path leads. -/
theorem stands_foldl_propose {proposed : List Candidate}
    (stands : ∀ candidate ∈ proposed, Stands naming tree path ambient candidate.method)
    {above : List ParameterPlan} (under : Under tree above node) (leads : keyOf above = path.key)
    {child : PlanTree} (member : child ∈ node.children) {representative : ParameterPlan}
    (made : child.representative? = some representative) {arrival : Arrival}
    (finishes : arrival.Finishes (path.extend representative)) :
    ∀ candidate ∈ child.keys.foldl (edgeCall path (path.extend representative) ambient
        arrival.result arrival.finished).propose proposed,
      Stands naming tree path ambient candidate.method := by
  intro candidate proposedThere
  rcases mem_foldl_propose proposedThere with
    wasProposed | ⟨plan, onEdge, supply, supplied, order, rfl⟩
  · exact stands candidate wasProposed
  · exact .edge order under leads member made onEdge supplied finishes

/-- Going down from a path leaves a walk settled and proposes what is made there. -/
structure Settles (naming : Naming) (tree : PlanTree) (path : Path) (ambient : List TypeParameter)
    (outcome : List Candidate × Walk) : Prop where
  settled : outcome.2.Settled naming tree
  stands : ∀ candidate ∈ outcome.1, Stands naming tree path ambient candidate.method

/-- A descent that does so from every path of one key. -/
def SettlesFrom (naming : Naming) (tree : PlanTree) (key : StepKey) (descend : Descent) : Prop :=
  ∀ (path : Path) (ambient : List TypeParameter) (proposed : List Candidate) (walk : Walk),
    path.key = key → Walked tree path → walk.Sound naming tree →
      (∀ candidate ∈ proposed, Offered naming tree walk path candidate.method) →
        walk.Settled naming tree →
          (∀ candidate ∈ proposed, Stands naming tree path ambient candidate.method) →
            Settles naming tree path ambient (descend path ambient proposed walk)

theorem settled_enterExisting {above : List ParameterPlan} (under : Under tree above node)
    (leads : keyOf above = path.key) (walked : Walked tree path) (sound : walk.Sound naming tree)
    (settled : walk.Settled naming tree) {plan : ConstructorPlan} (ends : plan ∈ node.endings)
    {descend : Descent} (below : DescendsFrom naming tree path.key descend)
    (settles : SettlesFrom naming tree path.key descend) :
    (enterExisting path plan descend walk).2.Settled naming tree := by
  let outcome := descend path path.scope.declarations [] walk.reserve.2
  have nothing : ∀ {property : Candidate → Prop}, ∀ candidate ∈ ([] : List Candidate),
      property candidate := fun _ member => absurd member List.not_mem_nil
  have descends : Descends naming tree path walk.reserve.2 outcome := below.reserved walked sound
  have after : Settles naming tree path path.scope.declarations outcome :=
    settles path _ [] _ rfl walked sound.reserve nothing settled.reserve nothing
  let selected := outcome.2.select outcome.1
  let step : ExistingStep := {
    index := walk.steps.length
    target := plan.targetIn path.scope
    constructor := plan.id
    known := existingKnown path.known plan.declaration.constructor
    typeParameters := path.scope.declarations
    methods := selected.1.map Candidate.method }
  have known : step.Sound naming tree selected.2 path plan :=
    ⟨walked, ⟨above, node, under, leads, ends⟩, furnished_select descends.offered, rfl, rfl, rfl⟩
  exact (after.settled.select outcome.1).putExisting descends.reserved.1 known
    ⟨rfl, stands_survivors after.stands⟩

theorem settled_enterNew {above : List ParameterPlan} (under : Under tree above node)
    (leads : keyOf above = path.key) (walked : Walked tree path) (sound : walk.Sound naming tree)
    (settled : walk.Settled naming tree) (unshared : walk.shared? path.key = none)
    (digest : Option Digest) {descend : Descent}
    (below : DescendsFrom naming tree path.key descend)
    (settles : SettlesFrom naming tree path.key descend) :
    (enterNew naming path node.endings digest descend walk).2.Settled naming tree := by
  let outcome := descend path path.scope.declarations [] walk.reserve.2
  have nothing : ∀ {property : Candidate → Prop}, ∀ candidate ∈ ([] : List Candidate),
      property candidate := fun _ member => absurd member List.not_mem_nil
  have descends : Descends naming tree path walk.reserve.2 outcome := below.reserved walked sound
  have after : Settles naming tree path path.scope.declarations outcome :=
    settles path _ [] _ rfl walked sound.reserve nothing settled.reserve nothing
  let candidates :=
    proposeCreations naming path.scope path.scope.declarations outcome.1 node.endings
  exact (after.settled.select candidates).putShared
    (descends.placeable_reserved unshared candidates)
    ⟨rfl, stands_survivors (stands_creations under leads after.stands)⟩

theorem settled_enterShared {above : List ParameterPlan} (under : Under tree above node)
    (leads : keyOf above = path.key) (sound : walk.Sound naming tree)
    (settled : walk.Settled naming tree) {shared : SharedStep}
    (found : walk.shared? path.key = some shared) (digest : Option Digest) {descend : Descent}
    (below : DescendsFrom naming tree path.key descend)
    (settles : SettlesFrom naming tree path.key descend) :
    (enterShared naming path shared node.endings digest descend walk).2.Settled naming tree := by
  let creator : Path := ⟨shared.scope, shared.known, path.key⟩
  have before := sound.shared path.key shared found
  obtain ⟨step, isStep, -, sameMethods⟩ := before.filled
  have standsBefore := settled.shared path.key shared step found isStep
  let renumbered := Candidate.renumber shared.survivors
  have onStep : ∀ candidate ∈ renumbered, candidate.method ∈ step.methods :=
    fun candidate member => sameMethods ▸ Candidate.method_mem_of_mem_renumber member
  let outcome := descend creator shared.scope.declarations renumbered walk
  have descends : Descends naming tree creator walk outcome :=
    below creator _ _ _ rfl before.walked sound before.offered
  have after : Settles naming tree creator shared.scope.declarations outcome :=
    settles creator _ _ _ rfl before.walked sound before.offered settled
      fun candidate member => standsBefore.stands candidate.method (onStep candidate member)
  let candidates :=
    proposeCreations naming shared.scope shared.scope.declarations outcome.1 node.endings
  let selected := outcome.2.select candidates
  have settledSelected : selected.2.Settled naming tree := after.settled.select candidates
  obtain ⟨stillShared, ⟨filled, isFilled, -⟩, placeable⟩ :=
    descends.exists_filled found candidates
  have sameDeclarations : filled.typeParameters = shared.scope.declarations :=
    (settledSelected.shared path.key shared filled stillShared isFilled).typeParameters
  have leadsCreator : keyOf above = creator.key := leads
  have standsAll : ∀ candidate ∈ candidates,
      Stands naming tree creator shared.scope.declarations candidate.method :=
    stands_creations under leadsCreator after.stands
  rw [enterShared_of_filled rfl isFilled]
  exact settledSelected.putShared (placeable selected.1)
    ⟨sameDeclarations, stands_survivors standsAll⟩

end

/-! ### The whole tree -/

variable {naming : Naming} {tree : PlanTree}

mutual

/-- Arriving at a node leaves a walk settled, and what is finished by it is known. -/
theorem settled_arrive {above : List ParameterPlan} : (node : PlanTree) → (path : Path) →
    (walk : Walk) → Under tree above node → keyOf above = path.key → Walked tree path →
      walk.Sound naming tree → walk.Settled naming tree →
        (arrive naming path node walk).2.Settled naming tree ∧
          (arrive naming path node walk).1.Finishes path
  | .node label keys endings children, path, walk, under, leads, walked, sound, settled => by
    have below : DescendsFrom naming tree path.key fun path ambient proposed walk =>
        branches naming path ambient children proposed walk := descendsFrom_branches under leads
    have settles : SettlesFrom naming tree path.key fun path ambient proposed walk =>
        branches naming path ambient children proposed walk := by
      intro other ambient proposed walk sameKey walked sound offered settled stands
      exact settles_branches children under other (leads.trans sameKey.symm)
        (fun child member => member) ambient proposed walk walked sound offered settled stands
    rw [arrive]
    cases role : nodeRole endings children.isEmpty with
    | finish plan =>
      refine ⟨settled, fun value isProduct => ⟨plan, rfl, ?_⟩⟩
      cases isProduct
      rfl
    | existing plan =>
      exact ⟨settled_enterExisting under leads walked sound settled (nodeRole_existing role).1
        below settles, fun value isProduct => nomatch isProduct⟩
    | synthesized =>
      show (enterSynthesized naming path endings _ _ walk).2.Settled naming tree ∧
        (enterSynthesized naming path endings _ _ walk).1.Finishes path
      unfold enterSynthesized
      cases found : walk.shared? path.key with
      | none =>
        exact ⟨settled_enterNew under leads walked sound settled found _ below settles,
          fun value isProduct => nomatch isProduct⟩
      | some shared =>
        exact ⟨settled_enterShared under leads sound settled found _ below settles,
          fun value isProduct => nomatch isProduct⟩

/-- Going down to children of a node leaves a walk settled and proposes what is made there. -/
theorem settles_branches {above : List ParameterPlan} {node : PlanTree} :
    (children : List PlanTree) → Under tree above node → (path : Path) → keyOf above = path.key →
      (∀ child ∈ children, child ∈ node.children) → (ambient : List TypeParameter) →
        (proposed : List Candidate) → (walk : Walk) → Walked tree path → walk.Sound naming tree →
          (∀ candidate ∈ proposed, Offered naming tree walk path candidate.method) →
            walk.Settled naming tree →
              (∀ candidate ∈ proposed, Stands naming tree path ambient candidate.method) →
                Settles naming tree path ambient
                  (branches naming path ambient children proposed walk)
  | [], _, path, _, _, ambient, proposed, walk, _, _, _, settled, stands => ⟨settled, stands⟩
  | child :: rest, under, path, leads, included, ambient, proposed, walk, walked, sound, offered,
    settled, stands => by
    have includedRest : ∀ other ∈ rest, other ∈ node.children :=
      fun other member => included other (List.mem_cons_of_mem _ member)
    have member : child ∈ node.children := included child List.mem_cons_self
    rw [branches]
    cases made : child.representative? with
    | none =>
      exact settles_branches rest under path leads includedRest ambient proposed walk walked sound
        offered settled stands
    | some representative =>
      obtain ⟨settledChild, finishes⟩ := settled_arrive child (path.extend representative) walk
        (under.down member made) (Walked.keyOf_append_singleton leads representative)
        (.extend walked under leads member made) sound settled
      obtain ⟨soundNext, offeredNext⟩ :=
        entered_child under leads walked sound offered member made ambient
      exact settles_branches rest under path leads includedRest ambient _ _ walked soundNext
        offeredNext settledChild (stands_foldl_propose stands under leads member made finishes)

end

/-- The walk of a tree is settled, and the methods of the root are made with the root's type
parameters around them. -/
theorem settled_walkTree (naming : Naming) (root : Root) (tree : PlanTree) :
    (walkTree naming root tree).2.Settled naming tree ∧
      ∀ method ∈ (walkTree naming root tree).1,
        Stands naming tree {} root.typeParameters method := by
  have settles : Settles naming tree {} root.typeParameters
      (branches naming {} root.typeParameters tree.children [] {}) :=
    settles_branches tree.children .top {} rfl (fun _ member => member) root.typeParameters [] {}
      .start (.start naming tree) (fun _ member => absurd member List.not_mem_nil)
      (.start naming tree) fun _ member => absurd member List.not_mem_nil
  exact ⟨settles.settled.select _,
    stands_survivors (stands_creations .top rfl settles.stands)⟩

end StagedBuilder
