/-
This file proves that the walk of a prefix tree is sound. Arriving at a node keeps a
walk sound, returns what the node is, and does nothing to the steps of shorter ways;
going down from a path does the same for everything below and adds only methods that
the path may offer. Each of the three ways to enter a node is treated once, for any
descent that behaves well, and the induction over the tree puts them together.

A node that shares a step goes down from the path that made the step, not from its own,
which is possible because both have one key.
-/

import StagedBuilder.Assembly.Basic
import StagedBuilder.Proofs.Lists
import StagedBuilder.Proofs.Offer

namespace StagedBuilder

open PrefixTree (Under)

/-! ### Proposals -/

theorem mem_propose {call : EdgeCall} {plan : ParameterPlan} {proposed : List Candidate}
    {candidate : Candidate} (member : candidate ∈ call.propose proposed plan) :
    candidate ∈ proposed ∨
      ∃ supply ∈ plan.supplies, ∃ order, candidate = call.candidate plan order supply :=
  Lists.mem_foldl_append (fun order supply => call.candidate plan order supply) member

theorem mem_foldl_propose {call : EdgeCall} {keys : List ParameterPlan} {proposed : List Candidate}
    {candidate : Candidate} (member : candidate ∈ keys.foldl call.propose proposed) :
    candidate ∈ proposed ∨ ∃ plan ∈ keys, ∃ supply ∈ plan.supplies, ∃ order,
      candidate = call.candidate plan order supply := by
  induction keys generalizing proposed with
  | nil => exact Or.inl member
  | cons first rest inductionHypothesis =>
    rcases inductionHypothesis member with atFirst | ⟨plan, inRest, made⟩
    · rcases mem_propose atFirst with inProposed | made
      · exact Or.inl inProposed
      · exact Or.inr ⟨first, List.mem_cons_self, made⟩
    · exact Or.inr ⟨plan, List.mem_cons_of_mem _ inRest, made⟩

theorem mem_proposeCreations {naming : Naming} {scope : Scope} {ambient : List TypeParameter}
    {proposed : List Candidate} {endings : List ConstructorPlan} {candidate : Candidate}
    (member : candidate ∈ proposeCreations naming scope ambient proposed endings) :
    candidate ∈ proposed ∨ ∃ plan ∈ endings, plan.declaration.options.noCreateMethod = false ∧
      candidate.method = plan.creation naming scope ambient := by
  rcases Lists.mem_foldl_append (fun order (plan : ConstructorPlan) =>
      (⟨plan.creation naming scope ambient, plan.declaration.target.qualifiedName, order⟩ :
        Candidate)) member with inProposed | ⟨plan, creatable, order, rfl⟩
  · exact Or.inl inProposed
  · obtain ⟨ends, creates⟩ := List.mem_filter.1 creatable
    rw [Bool.not_eq_true'] at creates
    exact Or.inr ⟨plan, ends, creates, rfl⟩

/-- A node is a finished target by a constructor without create method that ends there, and only
if nothing goes on. -/
theorem nodeRole_finish {endings : List ConstructorPlan} {isLeaf : Bool} {plan : ConstructorPlan}
    (role : nodeRole endings isLeaf = .finish plan) :
    plan ∈ endings ∧ plan.declaration.options.noCreateMethod = true ∧ isLeaf = true := by
  have direct : plan ∈ endings.filter (fun plan => plan.declaration.options.noCreateMethod) ∧
      isLeaf = true := by
    grind [nodeRole]
  obtain ⟨ends, withoutCreate⟩ := List.mem_filter.1 direct.1
  exact ⟨ends, withoutCreate, direct.2⟩

/-- A node is an existing step by a constructor without create method that ends there, whose
target takes further members, and only if something goes on. -/
theorem nodeRole_existing {endings : List ConstructorPlan} {isLeaf : Bool}
    {plan : ConstructorPlan} (role : nodeRole endings isLeaf = .existing plan) :
    plan ∈ endings ∧ plan.declaration.options.noCreateMethod = true ∧
      plan.declaration.target.acceptsMembers = true ∧ isLeaf = false := by
  have direct : plan ∈ endings.filter (fun plan => plan.declaration.options.noCreateMethod) ∧
      plan.declaration.target.acceptsMembers = true ∧ isLeaf = false := by
    grind [nodeRole]
  obtain ⟨ends, withoutCreate⟩ := List.mem_filter.1 direct.1
  exact ⟨ends, withoutCreate, direct.2⟩

/-! ### What the walk does at a node and below -/

variable {naming : Naming} {tree node : PlanTree} {path : Path} {walk : Walk}

/-- Going down from a path keeps a walk sound, leaves steps of ways up to this one alone and
proposes what the path may offer. -/
structure Descends (naming : Naming) (tree : PlanTree) (path : Path) (walk : Walk)
    (outcome : List Candidate × Walk) : Prop where
  sound : outcome.2.Sound naming tree
  grows : walk.Extends (path.key.length + 1) outcome.2
  offered : ∀ candidate ∈ outcome.1, Offered naming tree outcome.2 path candidate.method

/-- Arriving at a node keeps a walk sound, leaves the steps of shorter ways alone and returns
what the node is. -/
structure Entered (naming : Naming) (tree : PlanTree) (path : Path) (node : PlanTree) (walk : Walk)
    (outcome : Arrival × Walk) : Prop where
  sound : outcome.2.Sound naming tree
  grows : walk.Extends path.key.length outcome.2
  arrives : Arrives outcome.2 path node outcome.1.result

/-- A descent that behaves well from every path of one key. -/
def DescendsFrom (naming : Naming) (tree : PlanTree) (key : StepKey) (descend : Descent) : Prop :=
  ∀ (path : Path) (ambient : List TypeParameter) (proposed : List Candidate) (walk : Walk),
    path.key = key → Walked tree path → walk.Sound naming tree →
      (∀ candidate ∈ proposed, Offered naming tree walk path candidate.method) →
        Descends naming tree path walk (descend path ambient proposed walk)

/-- At a step that is new nothing has been proposed yet. -/
theorem DescendsFrom.reserved {descend : Descent}
    (below : DescendsFrom naming tree path.key descend) (walked : Walked tree path)
    (sound : walk.Sound naming tree) :
    Descends naming tree path walk.reserve.2
      (descend path path.scope.declarations [] walk.reserve.2) :=
  below path _ [] _ rfl walked sound.reserve fun _ member => absurd member List.not_mem_nil

/-- The place that is reserved before a descent is still reserved after it. -/
theorem Descends.reserved {outcome : List Candidate × Walk}
    (descends : Descends naming tree path walk.reserve.2 outcome) :
    outcome.2.step? walk.steps.length = none ∧ walk.steps.length < outcome.2.steps.length := by
  have bound : walk.steps.length < walk.reserve.2.steps.length := by
    show walk.steps.length < (walk.steps ++ [none]).length
    rw [List.length_append, List.length_singleton]
    exact Nat.lt_succ_self _
  refine ⟨descends.grows.reserved _ bound ?_, Nat.lt_of_lt_of_le bound descends.grows.longer⟩
  rw [walk.step?_reserve, walk.step?_length]

/-- From a step that is reserved, the descent and the selection leave shorter ways alone. -/
theorem Descends.grows_select {outcome : List Candidate × Walk}
    (descends : Descends naming tree path walk.reserve.2 outcome) (candidates : List Candidate) :
    walk.Extends path.key.length (outcome.2.select candidates).2 :=
  ((Walk.Extends.reserve _ walk).trans (descends.grows.mono (Nat.le_succ _))).trans
    (.select _ _ _)

/-- With the constructors that end at the node, all that a path offers at it is proposed. -/
theorem Descends.offered_creations {outcome : List Candidate × Walk}
    (descends : Descends naming tree path walk outcome) {above : List ParameterPlan}
    (under : Under tree above node) (leads : keyOf above = path.key)
    (ambient : List TypeParameter) :
    ∀ candidate ∈ proposeCreations naming path.scope ambient outcome.1 node.endings,
      Offered naming tree outcome.2 path candidate.method := by
  intro candidate member
  rcases mem_proposeCreations member with inProposed | ⟨plan, ends, creates, isCreation⟩
  · exact descends.offered candidate inProposed
  · rw [isCreation]
    exact .ending ambient under leads ends creates

/-- After the descent and the selection, a step may be recorded for a way that was not shared
where it is reserved. -/
theorem Descends.placeable_reserved {outcome : List Candidate × Walk}
    (descends : Descends naming tree path walk.reserve.2 outcome)
    (unshared : walk.shared? path.key = none) (candidates : List Candidate) :
    (outcome.2.select candidates).2.Placeable path.key
      ⟨walk.steps.length, path.scope, path.known, (outcome.2.select candidates).1⟩ := by
  obtain ⟨reserved, bound⟩ := descends.reserved
  have stillUnshared : (outcome.2.select candidates).2.shared? path.key = none :=
    (descends.grows.shallow path.key (Nat.lt_succ_self _)).trans unshared
  exact (descends.sound.select candidates).placeable_of_reserved bound reserved stillUnshared

/-- A step that was shared before the descent is shared after the selection and filled, and may be
recorded again with other methods. -/
theorem Descends.exists_filled {outcome : List Candidate × Walk} {shared : SharedStep}
    {creator : Path} (descends : Descends naming tree creator walk outcome)
    (found : walk.shared? creator.key = some shared) (candidates : List Candidate) :
    (outcome.2.select candidates).2.shared? creator.key = some shared ∧
    (∃ filled, (outcome.2.select candidates).2.step? shared.index = some (.synthesized filled) ∧
      filled.known = shared.known ∧
      filled.methods = shared.survivors.map Candidate.method) ∧
    ∀ survivors, (outcome.2.select candidates).2.Placeable creator.key
      { shared with survivors } := by
  have sound := descends.sound.select candidates
  have stillShared : (outcome.2.select candidates).2.shared? creator.key = some shared :=
    (descends.grows.shallow creator.key (Nat.lt_succ_self _)).trans found
  exact ⟨stillShared, (sound.shared creator.key shared stillShared).filled,
    fun survivors => sound.placeable_of_shared stillShared survivors⟩

theorem entered_enterExisting {above : List ParameterPlan} (under : Under tree above node)
    (leads : keyOf above = path.key) (walked : Walked tree path) (sound : walk.Sound naming tree)
    {plan : ConstructorPlan} (ends : plan ∈ node.endings) {descend : Descent}
    (below : DescendsFrom naming tree path.key descend) :
    Entered naming tree path node walk (enterExisting path plan descend walk) := by
  let outcome := descend path path.scope.declarations [] walk.reserve.2
  have descends : Descends naming tree path walk.reserve.2 outcome := below.reserved walked sound
  obtain ⟨reserved, bound⟩ := descends.reserved
  let selected := outcome.2.select outcome.1
  let step : ExistingStep := {
    index := walk.steps.length
    target := plan.targetIn path.scope
    constructor := plan.id
    known := existingKnown path.known plan.declaration.constructor
    typeParameters := path.scope.declarations
    methods := selected.1.map Candidate.method }
  have known : step.Sound naming tree selected.2 path plan := {
    walked
    ends := ⟨above, node, under, leads, ends⟩
    furnished := furnished_select descends.offered
    known := rfl
    target := rfl
    constructor := rfl }
  have grows : walk.Extends path.key.length selected.2 := descends.grows_select outcome.1
  have free : ∀ existing, selected.2.step? walk.steps.length ≠ some (.existing existing) :=
    fun existing found => Option.some_ne_none _ (found.symm.trans reserved)
  have found : (selected.2.put walk.steps.length (.existing step)).step? walk.steps.length =
      some (.existing step) := Walk.step?_put_self bound _
  exact ⟨(descends.sound.select outcome.1).putExisting reserved known,
    grows.put free (fun old => absurd old (Nat.lt_irrefl _)) _, .existing ends found rfl rfl⟩

theorem entered_enterNew {above : List ParameterPlan} (under : Under tree above node)
    (leads : keyOf above = path.key) (walked : Walked tree path) (sound : walk.Sound naming tree)
    (unshared : walk.shared? path.key = none) (digest : Option Digest) {descend : Descent}
    (below : DescendsFrom naming tree path.key descend) :
    Entered naming tree path node walk
      (enterNew naming path node.endings digest descend walk) := by
  let outcome := descend path path.scope.declarations [] walk.reserve.2
  have descends : Descends naming tree path walk.reserve.2 outcome := below.reserved walked sound
  let candidates :=
    proposeCreations naming path.scope path.scope.declarations outcome.1 node.endings
  have furnished :=
    furnished_select (descends.offered_creations under leads path.scope.declarations)
  let selected := outcome.2.select candidates
  have soundSelected : selected.2.Sound naming tree := descends.sound.select candidates
  have grows : walk.Extends path.key.length selected.2 := descends.grows_select candidates
  have place := descends.placeable_reserved unshared candidates
  exact ⟨soundSelected.putShared place walked furnished rfl rfl,
    (grows.put place.free (fun old => absurd old (Nat.lt_irrefl _)) _).share (Nat.le_refl _)
      place.same,
    .synthesized (Walk.shared?_share_self _ path.key _) rfl⟩

/-- A shared step that is filled gets the methods that survive. -/
theorem enterShared_of_filled {shared : SharedStep} {endings : List ConstructorPlan}
    {digest : Option Digest} {descend : Descent} {outcome : List Candidate × Walk}
    {filled : SynthesizedStep}
    (descended : descend ⟨shared.scope, shared.known, path.key⟩ shared.scope.declarations
      (Candidate.renumber shared.survivors) walk = outcome)
    (isFilled : outcome.2.step? shared.index = some (.synthesized filled)) :
    enterShared naming path shared endings digest descend walk =
      let selected := outcome.2.select
        (proposeCreations naming shared.scope shared.scope.declarations outcome.1 endings)
      (⟨.step shared.index, none⟩,
        (selected.2.put shared.index (.synthesized { filled with
            methods := selected.1.map Candidate.method
            candidates := insertCandidates ((digest.map Digest.candidates).getD [])
              filled.candidates })).share path.key
          { shared with survivors := selected.1 }) := by
  obtain ⟨candidates, later⟩ := outcome
  unfold enterShared
  simp only [descended, Walk.select]
  have stays : ∀ displaced : List Collision,
      Walk.step? { later with displaced } shared.index = some (.synthesized filled) :=
    fun _ => isFilled
  rw [stays]

theorem entered_enterShared {above : List ParameterPlan} (under : Under tree above node)
    (leads : keyOf above = path.key) (sound : walk.Sound naming tree) {shared : SharedStep}
    (found : walk.shared? path.key = some shared) (digest : Option Digest) {descend : Descent}
    (below : DescendsFrom naming tree path.key descend) :
    Entered naming tree path node walk
      (enterShared naming path shared node.endings digest descend walk) := by
  let creator : Path := ⟨shared.scope, shared.known, path.key⟩
  have before := sound.shared path.key shared found
  let outcome :=
    descend creator shared.scope.declarations (Candidate.renumber shared.survivors) walk
  have descends : Descends naming tree creator walk outcome :=
    below creator _ _ _ rfl before.walked sound before.offered
  let candidates :=
    proposeCreations naming shared.scope shared.scope.declarations outcome.1 node.endings
  have furnished :=
    furnished_select (descends.offered_creations under leads shared.scope.declarations)
  let selected := outcome.2.select candidates
  have soundSelected : selected.2.Sound naming tree := descends.sound.select candidates
  obtain ⟨-, ⟨filled, isFilled, sameKnown, -⟩, placeable⟩ :=
    descends.exists_filled found candidates
  have place := placeable selected.1
  have grows : walk.Extends path.key.length selected.2 :=
    (descends.grows.mono (Nat.le_succ _)).trans (.select _ _ _)
  rw [enterShared_of_filled rfl isFilled]
  exact ⟨soundSelected.putShared place before.walked furnished sameKnown rfl,
    (grows.put place.free (fun _ => by rw [isFilled]; exact Option.some_ne_none _) _).share
      (Nat.le_refl _) place.same,
    .synthesized (Walk.shared?_share_self _ path.key _) rfl⟩

/-- With the keys on the edge to a child, all that was offered is offered once the child has been
entered. -/
theorem offered_foldl_propose {later : Walk} {proposed : List Candidate}
    (offered : ∀ candidate ∈ proposed, Offered naming tree walk path candidate.method)
    (keeps : walk.Keeps later) {above : List ParameterPlan} (under : Under tree above node)
    (leads : keyOf above = path.key) {child : PlanTree} (member : child ∈ node.children)
    {representative : ParameterPlan} (made : child.representative? = some representative)
    {call : EdgeCall} (scope : call.scope = (path.extend representative).scope)
    (arrives : Arrives later (path.extend representative) child call.result) :
    ∀ candidate ∈ child.keys.foldl call.propose proposed,
      Offered naming tree later path candidate.method := by
  intro candidate proposedThere
  rcases mem_foldl_propose proposedThere with
    wasProposed | ⟨plan, onEdge, supply, supplied, order, rfl⟩
  · exact (offered candidate wasProposed).keeps keeps
  · exact .edge order under leads member made onEdge supplied scope arrives

/-! ### The whole tree -/

mutual

/-- Arriving at a node enters it. -/
theorem entered_arrive {above : List ParameterPlan} : (node : PlanTree) → (path : Path) →
    (walk : Walk) → Under tree above node → keyOf above = path.key → Walked tree path →
      walk.Sound naming tree → Entered naming tree path node walk (arrive naming path node walk)
  | .node label keys endings children, path, walk, under, leads, walked, sound => by
    have below : DescendsFrom naming tree path.key fun path ambient proposed walk =>
        branches naming path ambient children proposed walk := by
      intro other ambient proposed walk sameKey walked sound offered
      exact descends_branches children under other (leads.trans sameKey.symm)
        (fun child member => member) ambient proposed walk walked sound offered
    rw [arrive]
    cases role : nodeRole endings children.isEmpty with
    | finish plan =>
      exact ⟨sound, .of_same (Nat.le_refl _) (fun _ => rfl) fun _ => rfl,
        .finish _ (nodeRole_finish role).1⟩
    | existing plan =>
      exact entered_enterExisting under leads walked sound (nodeRole_existing role).1 below
    | synthesized =>
      show Entered naming tree path _ walk (enterSynthesized naming path endings _ _ walk)
      unfold enterSynthesized
      cases found : walk.shared? path.key with
      | none => exact entered_enterNew under leads walked sound found _ below
      | some shared => exact entered_enterShared under leads sound found _ below

/-- Going down to children of a node descends. -/
theorem descends_branches {above : List ParameterPlan} {node : PlanTree} :
    (children : List PlanTree) → Under tree above node → (path : Path) → keyOf above = path.key →
      (∀ child ∈ children, child ∈ node.children) → (ambient : List TypeParameter) →
        (proposed : List Candidate) → (walk : Walk) → Walked tree path → walk.Sound naming tree →
          (∀ candidate ∈ proposed, Offered naming tree walk path candidate.method) →
            Descends naming tree path walk (branches naming path ambient children proposed walk)
  | [], _, path, _, _, ambient, proposed, walk, _, sound, offered =>
    ⟨sound, .of_same (Nat.le_refl _) (fun _ => rfl) fun _ => rfl, offered⟩
  | child :: rest, under, path, leads, included, ambient, proposed, walk, walked, sound,
    offered => by
    have includedRest : ∀ other ∈ rest, other ∈ node.children :=
      fun other member => included other (List.mem_cons_of_mem _ member)
    have member : child ∈ node.children := included child List.mem_cons_self
    rw [branches]
    cases made : child.representative? with
    | none =>
      exact descends_branches rest under path leads includedRest ambient proposed walk walked sound
        offered
    | some representative =>
      have below : Walked tree (path.extend representative) :=
        .extend walked under leads member made
      have entered := entered_arrive child (path.extend representative) walk
        (.down under member made) (Walked.keyOf_append_singleton leads representative) below sound
      have grows : walk.Extends (path.key.length + 1)
          (arrive naming (path.extend representative) child walk).2 := by
        have longer := entered.grows
        rwa [Path.key_extend, List.length_append] at longer
      have descends := descends_branches rest under path leads includedRest ambient
        (child.keys.foldl (edgeCall path (path.extend representative) ambient
          (arrive naming (path.extend representative) child walk).1.result
          (arrive naming (path.extend representative) child walk).1.finished).propose proposed)
        (arrive naming (path.extend representative) child walk).2 walked entered.sound
        (offered_foldl_propose offered grows.toKeeps under leads member made rfl entered.arrives)
      exact ⟨descends.sound, grows.trans descends.grows, descends.offered⟩

end

/-- Going down to the children of a node behaves well from every path that leads to the node. -/
theorem descendsFrom_branches {above : List ParameterPlan} (under : Under tree above node)
    (leads : keyOf above = path.key) :
    DescendsFrom naming tree path.key fun path ambient proposed walk =>
      branches naming path ambient node.children proposed walk :=
  fun other ambient proposed walk sameKey walked sound offered =>
    descends_branches node.children under other (leads.trans sameKey.symm)
      (fun _ member => member) ambient proposed walk walked sound offered

/-- After arriving at a child the walk is sound, and all that is proposed with the keys on the
edge to the child is offered. -/
theorem entered_child {above : List ParameterPlan} (under : Under tree above node)
    (leads : keyOf above = path.key) (walked : Walked tree path) (sound : walk.Sound naming tree)
    {proposed : List Candidate}
    (offered : ∀ candidate ∈ proposed, Offered naming tree walk path candidate.method)
    {child : PlanTree} (member : child ∈ node.children) {representative : ParameterPlan}
    (made : child.representative? = some representative) (ambient : List TypeParameter) :
    let arrived := arrive naming (path.extend representative) child walk
    arrived.2.Sound naming tree ∧
      ∀ candidate ∈ child.keys.foldl (edgeCall path (path.extend representative) ambient
          arrived.1.result arrived.1.finished).propose proposed,
        Offered naming tree arrived.2 path candidate.method := by
  have entered := entered_arrive child (path.extend representative) walk (under.down member made)
    (Walked.keyOf_append_singleton leads representative)
    (.extend walked under leads member made) sound
  exact ⟨entered.sound, offered_foldl_propose offered entered.grows.toKeeps under leads member
    made rfl entered.arrives⟩

/-- The walk of a tree is sound, and the methods of the root furnish the empty path. -/
theorem sound_walkTree (naming : Naming) (root : Root) (tree : PlanTree) :
    (walkTree naming root tree).2.Sound naming tree ∧
      Furnished naming tree (walkTree naming root tree).2 {} (walkTree naming root tree).1 := by
  have descends : Descends naming tree {} {}
      (branches naming {} root.typeParameters tree.children [] {}) :=
    descends_branches tree.children .top {} rfl (fun _ member => member) root.typeParameters [] {}
      .start (.start naming tree) fun _ member => absurd member List.not_mem_nil
  exact ⟨descends.sound.select _,
    furnished_select (descends.offered_creations .top rfl root.typeParameters)⟩

end StagedBuilder
