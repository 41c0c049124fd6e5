/-
This file says what a walk of the prefix tree offers. On a path a method may stand for
two reasons: it supplies a key on an edge at a node that the path leads to, and returns
what is found on arriving below the edge; or it creates the target of a constructor that
ends at such a node. Which of the nodes that share a step it comes from is left open.

A walk is sound if every step in it is one that a walked path leads to and holds, for the
known values of this path, only methods that the path may offer, no two of them with one
signature. Soundness speaks of shared steps by the way that leads to them, because this
is how the methods that return such a step found it.
-/

import StagedBuilder.Proofs.Collision
import StagedBuilder.Proofs.Path
import StagedBuilder.Proofs.Walk

namespace StagedBuilder

open PrefixTree (Under)

/-! ### Offers -/

/-- What a call into a node returns: a target that is finished there, the target as an existing
step, or the step that is shared by all nodes with the same way. -/
inductive Arrives (walk : Walk) (path : Path) (node : PlanTree) : Result → Prop
  | finish {plan : ConstructorPlan} (candidates : List Nat) (ends : plan ∈ node.endings) :
      Arrives walk path node (.product ⟨plan.targetIn path.scope, plan.id, candidates⟩)
  | existing {plan : ConstructorPlan} {index : Nat} {step : ExistingStep}
      (ends : plan ∈ node.endings) (found : walk.step? index = some (.existing step))
      (known : step.known = existingKnown path.known plan.declaration.constructor)
      (constructs : step.constructor = plan.id) : Arrives walk path node (.step index)
  | synthesized {index : Nat} {shared : SharedStep} (found : walk.shared? path.key = some shared)
      (sameIndex : shared.index = index) : Arrives walk path node (.step index)

/-- The methods that may stand where a path leads. -/
inductive Offered (naming : Naming) (tree : PlanTree) (walk : Walk) (path : Path) : Method → Prop
  | edge {above : List ParameterPlan} {node child : PlanTree} {representative plan : ParameterPlan}
      {supply : SupplyPlan} {call : EdgeCall} (order : Nat) (under : Under tree above node)
      (leads : keyOf above = path.key) (member : child ∈ node.children)
      (made : child.representative? = some representative) (onEdge : plan ∈ child.keys)
      (supplied : supply ∈ plan.supplies) (scope : call.scope = (path.extend representative).scope)
      (arrives : Arrives walk (path.extend representative) child call.result) :
      Offered naming tree walk path (call.candidate plan order supply).method
  | ending {above : List ParameterPlan} {node : PlanTree} {plan : ConstructorPlan}
      (ambient : List TypeParameter) (under : Under tree above node)
      (leads : keyOf above = path.key) (ends : plan ∈ node.endings)
      (creates : plan.declaration.options.noCreateMethod = false) :
      Offered naming tree walk path (plan.creation naming path.scope ambient)

/-- The methods of a place: offered there, and no two of them with one signature. -/
structure Furnished (naming : Naming) (tree : PlanTree) (walk : Walk) (path : Path)
    (methods : List Method) : Prop where
  offered : ∀ method ∈ methods, Offered naming tree walk path method
  distinct : (methods.map Method.signature).Nodup

theorem Arrives.keeps {walk later : Walk} (keeps : walk.Keeps later) {path : Path}
    {node : PlanTree} {result : Result} (arrives : Arrives walk path node result) :
    Arrives later path node result := by
  cases arrives with
  | finish candidates ends => exact .finish candidates ends
  | existing ends found known constructs =>
    exact .existing ends (keeps.existing _ _ found) known constructs
  | synthesized found sameIndex =>
    obtain ⟨survivors, foundLater⟩ := keeps.shared _ _ found
    exact .synthesized foundLater sameIndex

section

variable {naming : Naming} {tree : PlanTree} {walk later : Walk} {path : Path}

theorem Offered.keeps (keeps : walk.Keeps later) {method : Method}
    (offered : Offered naming tree walk path method) : Offered naming tree later path method := by
  cases offered with
  | edge order under leads member made onEdge supplied scope arrives =>
    exact .edge order under leads member made onEdge supplied scope (arrives.keeps keeps)
  | ending ambient under leads ends creates => exact .ending ambient under leads ends creates

theorem Furnished.keeps (keeps : walk.Keeps later) {methods : List Method}
    (furnished : Furnished naming tree walk path methods) :
    Furnished naming tree later path methods :=
  ⟨fun method member => (furnished.offered method member).keeps keeps, furnished.distinct⟩

/-- The survivors among candidates that are offered furnish a place. -/
theorem furnished_select {candidates : List Candidate}
    (offered : ∀ candidate ∈ candidates, Offered naming tree walk path candidate.method) :
    Furnished naming tree (walk.select candidates).2 path
      ((walk.select candidates).1.map Candidate.method) where
  offered method member := by
    obtain ⟨candidate, survived, rfl⟩ := List.mem_map.1 member
    have keeps : walk.Keeps (walk.select candidates).2 := .of_same (fun _ => rfl) fun _ => rfl
    exact (offered candidate (Collision.survivor_mem survived)).keeps keeps
  distinct := by
    rw [List.map_map]
    exact Collision.nodup_signature_survivors candidates

end

/-! ### Soundness -/

/-- What is found for a shared step: a walked path leads there, and the step of its number holds
what the path knows and what survived. -/
structure SharedStep.Sound (naming : Naming) (tree : PlanTree) (walk : Walk) (key : StepKey)
    (shared : SharedStep) : Prop where
  walked : Walked tree ⟨shared.scope, shared.known, key⟩
  furnished : Furnished naming tree walk ⟨shared.scope, shared.known, key⟩
    (shared.survivors.map Candidate.method)
  filled : ∃ step, walk.step? shared.index = some (.synthesized step) ∧
    step.known = shared.known ∧ step.methods = shared.survivors.map Candidate.method

/-- What is found for an existing step: a walked path leads to a node at which its constructor
ends. -/
structure ExistingStep.Sound (naming : Naming) (tree : PlanTree) (walk : Walk) (path : Path)
    (plan : ConstructorPlan) (step : ExistingStep) : Prop where
  walked : Walked tree path
  ends : ∃ above node, Under tree above node ∧ keyOf above = path.key ∧ plan ∈ node.endings
  furnished : Furnished naming tree walk path step.methods
  known : step.known = existingKnown path.known plan.declaration.constructor
  target : step.target = plan.targetIn path.scope
  constructor : step.constructor = plan.id

section

variable {naming : Naming} {tree : PlanTree} {walk later : Walk}

/-- Candidates that are numbered anew keep their methods. -/
theorem Candidate.method_mem_of_mem_renumber {candidates : List Candidate} {candidate : Candidate}
    (member : candidate ∈ Candidate.renumber candidates) :
    candidate.method ∈ candidates.map Candidate.method := by
  obtain ⟨⟨listed, order⟩, inPairs, rfl⟩ := List.mem_map.1 member
  exact List.mem_map.2 ⟨listed, List.fst_mem_of_mem_zipIdx inPairs, rfl⟩

/-- The methods of a shared step are offered where its path leads. -/
theorem SharedStep.Sound.offered {key : StepKey} {shared : SharedStep}
    (sound : shared.Sound naming tree walk key) :
    ∀ candidate ∈ Candidate.renumber shared.survivors,
      Offered naming tree walk ⟨shared.scope, shared.known, key⟩ candidate.method :=
  fun candidate member =>
    sound.furnished.offered candidate.method (Candidate.method_mem_of_mem_renumber member)

/-- A shared step stays sound as long as the step with its number is left alone. -/
theorem SharedStep.Sound.keeps {key : StepKey} {shared : SharedStep}
    (sound : shared.Sound naming tree walk key) (keeps : walk.Keeps later)
    (unchanged : later.step? shared.index = walk.step? shared.index) :
    shared.Sound naming tree later key where
  walked := sound.walked
  furnished := sound.furnished.keeps keeps
  filled := by
    rw [unchanged]
    exact sound.filled

theorem ExistingStep.Sound.keeps {path : Path} {plan : ConstructorPlan} {step : ExistingStep}
    (sound : step.Sound naming tree walk path plan) (keeps : walk.Keeps later) :
    step.Sound naming tree later path plan :=
  { sound with furnished := sound.furnished.keeps keeps }

end

/-- Every step of a walk is one that a walked path leads to. -/
structure Walk.Sound (naming : Naming) (tree : PlanTree) (walk : Walk) : Prop where
  shared : ∀ key shared, walk.shared? key = some shared → shared.Sound naming tree walk key
  registered : ∀ index step, walk.step? index = some (.synthesized step) →
    ∃ key shared, walk.shared? key = some shared ∧ shared.index = index
  apart : ∀ key shared other otherShared, walk.shared? key = some shared →
    walk.shared? other = some otherShared → shared.index = otherShared.index → key = other
  existing : ∀ index step, walk.step? index = some (.existing step) →
    ∃ path plan, step.Sound naming tree walk path plan

/-- There is a place for a shared step: neither an existing step nor a step shared by another way
is there, and what is recorded for this way differs in its methods only. -/
structure Walk.Placeable (walk : Walk) (key : StepKey) (shared : SharedStep) : Prop where
  bound : shared.index < walk.steps.length
  free : ∀ existing, walk.step? shared.index ≠ some (.existing existing)
  others : ∀ other otherShared, walk.shared? other = some otherShared → other ≠ key →
    otherShared.index ≠ shared.index
  same : ∀ earlier, walk.shared? key = some earlier →
    ∃ survivors, shared = { earlier with survivors }

namespace Walk.Sound

variable {naming : Naming} {tree : PlanTree} {walk : Walk}

theorem start (naming : Naming) (tree : PlanTree) : Walk.Sound naming tree {} where
  shared _ _ found := absurd found (Option.some_ne_none _).symm
  registered _ _ found := absurd found (Option.some_ne_none _).symm
  apart _ _ _ _ found := absurd found (Option.some_ne_none _).symm
  existing _ _ found := absurd found (Option.some_ne_none _).symm

/-- Soundness depends on the steps alone. -/
theorem of_same (sound : walk.Sound naming tree) {later : Walk}
    (steps : ∀ index, later.step? index = walk.step? index)
    (shared : ∀ key, later.shared? key = walk.shared? key) : later.Sound naming tree where
  shared key shared' found := by
    rw [shared] at found
    exact (sound.shared key shared' found).keeps (.of_same steps shared) (steps _)
  registered index step found := by
    rw [steps] at found
    obtain ⟨key, shared', foundShared, sameIndex⟩ := sound.registered index step found
    exact ⟨key, shared', (shared key).trans foundShared, sameIndex⟩
  apart key first other second foundFirst foundSecond := by
    rw [shared] at foundFirst foundSecond
    exact sound.apart key first other second foundFirst foundSecond
  existing index step found := by
    rw [steps] at found
    obtain ⟨path, plan, known⟩ := sound.existing index step found
    exact ⟨path, plan, known.keeps (.of_same steps shared)⟩

theorem reserve (sound : walk.Sound naming tree) : walk.reserve.2.Sound naming tree :=
  sound.of_same walk.step?_reserve fun _ => rfl

theorem select (sound : walk.Sound naming tree) (candidates : List Candidate) :
    (walk.select candidates).2.Sound naming tree := sound.of_same (fun _ => rfl) fun _ => rfl

/-- An existing step may be put at a place that is reserved. -/
theorem putExisting (sound : walk.Sound naming tree) {index : Nat}
    (reserved : walk.step? index = none) {path : Path} {plan : ConstructorPlan}
    {step : ExistingStep} (known : step.Sound naming tree walk path plan) :
    (walk.put index (.existing step)).Sound naming tree := by
  have free : ∀ existing, walk.step? index ≠ some (.existing existing) :=
    fun existing found => Option.some_ne_none _ (found.symm.trans reserved)
  have keeps : walk.Keeps (walk.put index (.existing step)) := .put free _
  refine ⟨fun key shared found => ?_, fun other filled found => ?_, sound.apart,
    fun other filled found => ?_⟩
  · have before := sound.shared key shared found
    obtain ⟨filled, isFilled, -⟩ := before.filled
    have differ : shared.index ≠ index := by
      rintro rfl
      exact Option.some_ne_none _ (isFilled.symm.trans reserved)
    exact before.keeps keeps (step?_put_of_ne differ _ _)
  · rcases eq_or_step?_of_step?_put found with ⟨-, same⟩ | ⟨-, foundBefore⟩
    · cases same
    · exact sound.registered other filled foundBefore
  · rcases eq_or_step?_of_step?_put found with ⟨-, same⟩ | ⟨-, foundBefore⟩
    · cases same
      exact ⟨path, plan, known.keeps keeps⟩
    · obtain ⟨otherPath, otherPlan, before⟩ := sound.existing other filled foundBefore
      exact ⟨otherPath, otherPlan, before.keeps keeps⟩

/-- A step that is recorded for a way may be recorded for it again with other methods. -/
theorem placeable_of_shared (sound : walk.Sound naming tree) {key : StepKey}
    {shared : SharedStep} (found : walk.shared? key = some shared)
    (survivors : List Candidate) : walk.Placeable key { shared with survivors } := by
  obtain ⟨filled, isFilled, -⟩ := (sound.shared key shared found).filled
  refine ⟨lt_length_of_step? isFilled, fun existing isExisting => ?_,
    fun other otherShared isOther differ sameIndex => ?_, fun earlier isEarlier => ?_⟩
  · cases isFilled.symm.trans isExisting
  · exact differ (sound.apart other otherShared key shared isOther found sameIndex)
  · rw [found, Option.some.injEq] at isEarlier
    rw [← isEarlier]
    exact ⟨survivors, rfl⟩

/-- A step may be recorded for a new way at a place that is reserved: no step that is shared
already can have the number of such a place. -/
theorem placeable_of_reserved (sound : walk.Sound naming tree) {key : StepKey}
    {shared : SharedStep} (bound : shared.index < walk.steps.length)
    (reserved : walk.step? shared.index = none) (unshared : walk.shared? key = none) :
    walk.Placeable key shared := by
  refine ⟨bound, fun existing found => Option.some_ne_none _ (found.symm.trans reserved),
    fun other otherShared found _ sameIndex => ?_,
    fun earlier found => absurd (found.symm.trans unshared) (Option.some_ne_none _)⟩
  obtain ⟨filled, isFilled, -⟩ := (sound.shared other otherShared found).filled
  rw [sameIndex] at isFilled
  exact Option.some_ne_none _ (isFilled.symm.trans reserved)

/-- A synthesized step may be put where there is a place for it, and recorded for its way. -/
theorem putShared (sound : walk.Sound naming tree) {key : StepKey} {shared : SharedStep}
    {step : SynthesizedStep} (place : walk.Placeable key shared)
    (walked : Walked tree ⟨shared.scope, shared.known, key⟩)
    (furnished : Furnished naming tree walk ⟨shared.scope, shared.known, key⟩
      (shared.survivors.map Candidate.method))
    (known : step.known = shared.known)
    (methods : step.methods = shared.survivors.map Candidate.method) :
    ((walk.put shared.index (.synthesized step)).share key shared).Sound naming tree := by
  have keeps : walk.Keeps ((walk.put shared.index (.synthesized step)).share key shared) :=
    Keeps.trans (.put place.free _) (.share place.same)
  refine ⟨fun other otherShared found => ?_, fun index filled found => ?_,
    fun first firstShared second secondShared foundFirst foundSecond sameIndex => ?_,
    fun index filled found => ?_⟩
  · rcases eq_or_shared?_of_shared?_share found with ⟨rfl, rfl⟩ | ⟨isOther, foundBefore⟩
    · exact ⟨walked, furnished.keeps keeps, step, step?_put_self place.bound _, known, methods⟩
    · exact (sound.shared other otherShared foundBefore).keeps keeps
        (step?_put_of_ne (place.others other otherShared foundBefore isOther) walk _)
  · rcases eq_or_step?_of_step?_put found with ⟨rfl, -⟩ | ⟨-, foundBefore⟩
    · exact ⟨key, shared, shared?_share_self _ _ _, rfl⟩
    · obtain ⟨other, otherShared, foundOther, sameIndex⟩ :=
        sound.registered index filled foundBefore
      obtain ⟨survivors, foundLater⟩ := keeps.shared other otherShared foundOther
      exact ⟨other, _, foundLater, sameIndex⟩
  · rcases eq_or_shared?_of_shared?_share foundFirst with
      ⟨rfl, rfl⟩ | ⟨isOtherFirst, beforeFirst⟩ <;>
    rcases eq_or_shared?_of_shared?_share foundSecond with
      ⟨rfl, rfl⟩ | ⟨isOtherSecond, beforeSecond⟩
    · rfl
    · exact absurd sameIndex.symm (place.others second secondShared beforeSecond isOtherSecond)
    · exact absurd sameIndex (place.others first firstShared beforeFirst isOtherFirst)
    · exact sound.apart first firstShared second secondShared beforeFirst beforeSecond sameIndex
  · rcases eq_or_step?_of_step?_put found with ⟨-, same⟩ | ⟨-, foundBefore⟩
    · cases same
    · obtain ⟨path, plan, before⟩ := sound.existing index filled foundBefore
      exact ⟨path, plan, before.keeps keeps⟩

end Walk.Sound

end StagedBuilder
