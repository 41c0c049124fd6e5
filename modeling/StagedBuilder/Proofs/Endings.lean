/-
This file proves that constructors are called in the ways that their options ask for. A
constructor without create method is called by the last call that supplies one of its
parameters, or on arrival at an existing step, whose target then takes further members;
which of the two it is depends on the one node at which the constructor ends, so it is
never both. Every other constructor is called by a creation and by nothing else, and there
is one creation for it in the whole builder if a chain of calls ends at it, and otherwise
none: all its creations would stand at the place of one node, and they have one signature.
-/

import StagedBuilder.Proofs.Layers
import StagedBuilder.Proofs.Signatures
import StagedBuilder.Proofs.Survey

namespace StagedBuilder

open CallGraph (Calls Reached methodsAt)
open Relation (ReflTransGen)

/-! ### Ways to call a constructor -/

namespace Method

/-- The constructor that a creation calls. -/
def creates? : Method → Option Nat
  | .creation method => some method.product.constructor
  | _ => none

/-- The constructor that is called by a method which supplies one of its parameters. -/
def finishes? : Method → Option Nat
  | .creation _ => none
  | method => method.result.node.target?

theorem creates?_mapStep (renumber : Nat → Nat) (method : Method) :
    (method.mapStep renumber).creates? = method.creates? := by
  cases method <;> rfl

theorem finishes?_mapStep (renumber : Nat → Nat) (method : Method) :
    (method.mapStep renumber).finishes? = method.finishes? := by
  have sameTarget : ∀ result : Result,
      (mapStep.renumbered renumber result).node.target? = result.node.target? := by
    intro result
    cases result <;> rfl
  cases method with
  | supply method => exact sameTarget method.result
  | conversion method => exact sameTarget method.result
  | creation method => rfl

theorem node_of_creates? {method : Method} {id : Nat} (creates : method.creates? = some id) :
    method.result.node = .target id := by
  cases method with
  | creation method => exact congrArg CallNode.target (Option.some.inj creates)
  | supply method => cases creates
  | conversion method => cases creates

theorem node_of_finishes? {method : Method} {id : Nat} (finishes : method.finishes? = some id) :
    method.result.node = .target id := by
  have ofTarget : ∀ node : CallNode, node.target? = some id → node = .target id := by
    intro node isTarget
    cases node <;> cases isTarget
    rfl
  cases method with
  | creation method => cases finishes
  | supply method => exact ofTarget _ finishes
  | conversion method => exact ofTarget _ finishes

/-- A method that returns a target creates it or finishes it. -/
theorem creates?_or_finishes? {method : Method} {id : Nat}
    (returns : method.result.node = .target id) :
    method.creates? = some id ∨ method.finishes? = some id := by
  cases method with
  | creation method => exact Or.inl (congrArg CallNode.target? returns)
  | supply method => exact Or.inr (congrArg CallNode.target? returns)
  | conversion method => exact Or.inr (congrArg CallNode.target? returns)

end Method

/-- Constructors are called in the ways that their options ask for. -/
structure Builder.EndsAsAsked (declarations : List Declaration) (builder : Builder) : Prop where
  /-- Creations are for constructors that have a create method. -/
  created : ∀ method ∈ builder.allMethods, ∀ id, method.creates? = some id →
    ∃ declaration, declarations[id]? = some declaration ∧
      declaration.options.noCreateMethod = false
  /-- Supplying a parameter finishes constructors that have none. -/
  finished : ∀ method ∈ builder.allMethods, ∀ id, method.finishes? = some id →
    ∃ declaration, declarations[id]? = some declaration ∧
      declaration.options.noCreateMethod = true
  /-- Existing steps are for constructors that have none, of targets that take members. -/
  existing : ∀ index step, builder.step? index = some (.existing step) →
    ∃ declaration, declarations[step.constructor]? = some declaration ∧
      declaration.options.noCreateMethod = true ∧ declaration.target.isPartial = true ∧
        declaration.target.isStatic = false ∧ declaration.target.isSealed = false
  /-- No constructor is called in both ways. -/
  exclusive : ∀ method ∈ builder.allMethods, ∀ index step,
    builder.step? index = some (.existing step) → method.finishes? ≠ some step.constructor
  /-- There is one creation for every constructor that has a create method and that chains of
  calls end at, and none for the others. -/
  once : ∀ id declaration, declarations[id]? = some declaration →
    declaration.options.noCreateMethod = false →
      (builder.allMethods.filter (·.creates? = some id)).length =
        if id ∈ (CallGraph.ofBuilder builder).reachableConstructors then 1 else 0

/-! ### What the chart says -/

section

variable {naming : Naming} {chart : List Mark} {place : CallNode} {method : Method} {id : Nat}

/-- A creation stands at the place of a node at which its constructor ends. -/
theorem Placed.exists_mark_of_creates? (placed : Placed naming chart place method)
    (creates : method.creates? = some id) :
    ∃ mark ∈ chart, mark.place = place ∧ ∃ plan ∈ mark.node.endings, plan.id = id ∧
      plan.declaration.options.noCreateMethod = false ∧
        ∃ scope ambient, method = plan.creation naming scope ambient := by
  cases placed with
  | edge met here metBelow member deeper onEdge supplies leads =>
    cases method with
    | creation method => cases supplies
    | supply method => cases creates
    | conversion method => cases creates
  | @ending mark plan scope ambient met here ends creatable isCreation =>
    rw [isCreation] at creates
    exact ⟨mark, met, here, plan, ends, Option.some.inj creates, creatable, scope, ambient,
      isCreation⟩

/-- A call that supplies a parameter and finishes a target comes to a finished node. -/
theorem Placed.exists_mark_of_finishes? {walk : Walk} (placed : Placed naming chart place method)
    (charted : walk.Charted naming chart) (finishes : method.finishes? = some id) :
    ∃ mark ∈ chart, ∃ plan, mark.role = .finish plan ∧ plan.id = id := by
  cases placed with
  | @edge mark below key scope met here metBelow member deeper onEdge supplies leads =>
    rw [method.node_of_finishes? finishes] at leads
    exact ⟨below, metBelow, charted.finished below metBelow id leads.symm⟩
  | ending met here ends creatable isCreation =>
    rw [isCreation] at finishes
    cases finishes

end

namespace Builder.Survey

variable {naming : Naming} {root : Root} {declarations : List Declaration} {builder : Builder}
  (survey : builder.Survey naming root declarations)

include survey

/-- An existing step of the builder is the place of a node that is one to a caller. -/
theorem exists_mark_of_existing {index : Nat} {step : ExistingStep}
    (found : builder.step? index = some (.existing step)) :
    ∃ mark ∈ survey.chart, ∃ plan, mark.role = .existing plan ∧ plan.id = step.constructor := by
  obtain ⟨before, kept, -, -, isKept, isFinal⟩ := survey.exists_kept found
  cases kept with
  | synthesized kept => cases isFinal
  | existing kept =>
    cases isFinal
    obtain ⟨mark, met, -, role⟩ := survey.surveyed.charted.existing before kept isKept
    exact ⟨mark, met, role⟩

/-- All methods of the builder are placed by the chart. -/
theorem placed_of_mem_allMethods {method : Method} (member : method ∈ builder.allMethods) :
    ∃ source before, before.mapStep survey.number = method ∧
      Placed naming survey.chart source before := by
  obtain ⟨node, owner, found, isMethod⟩ := exists_place_of_mem_allMethods member
  obtain ⟨source, before, -, isFinal, placed⟩ := survey.placed found isMethod
  exact ⟨source, before, isFinal, placed⟩

theorem created {method : Method} (member : method ∈ builder.allMethods) {id : Nat}
    (creates : method.creates? = some id) :
    ∃ declaration, declarations[id]? = some declaration ∧
      declaration.options.noCreateMethod = false := by
  obtain ⟨source, before, rfl, placed⟩ := survey.placed_of_mem_allMethods member
  rw [Method.creates?_mapStep] at creates
  obtain ⟨mark, met, -, plan, ends, rfl, creatable, -⟩ := placed.exists_mark_of_creates? creates
  exact ⟨plan.declaration, survey.declared met ends, creatable⟩

theorem exists_mark_of_finishes? {method : Method} (member : method ∈ builder.allMethods) {id : Nat}
    (finishes : method.finishes? = some id) :
    ∃ mark ∈ survey.chart, ∃ plan, mark.role = .finish plan ∧ plan.id = id := by
  obtain ⟨source, before, rfl, placed⟩ := survey.placed_of_mem_allMethods member
  rw [Method.finishes?_mapStep] at finishes
  exact placed.exists_mark_of_finishes? survey.surveyed.charted finishes

theorem finished {method : Method} (member : method ∈ builder.allMethods) {id : Nat}
    (finishes : method.finishes? = some id) :
    ∃ declaration, declarations[id]? = some declaration ∧
      declaration.options.noCreateMethod = true := by
  obtain ⟨mark, met, plan, role, rfl⟩ := survey.exists_mark_of_finishes? member finishes
  obtain ⟨ends, withoutCreate, -⟩ := nodeRole_finish role
  exact ⟨plan.declaration, survey.declared met ends, withoutCreate⟩

theorem existing {index : Nat} {step : ExistingStep}
    (found : builder.step? index = some (.existing step)) :
    ∃ declaration, declarations[step.constructor]? = some declaration ∧
      declaration.options.noCreateMethod = true ∧ declaration.target.isPartial = true ∧
        declaration.target.isStatic = false ∧ declaration.target.isSealed = false := by
  obtain ⟨mark, met, plan, role, sameId⟩ := survey.exists_mark_of_existing found
  obtain ⟨ends, withoutCreate, takesMembers, -⟩ := nodeRole_existing role
  rw [Target.acceptsMembers, Bool.and_eq_true, Bool.and_eq_true, Bool.not_eq_true',
    Bool.not_eq_true'] at takesMembers
  obtain ⟨⟨isPartial, notStatic⟩, notSealed⟩ := takesMembers
  rw [← sameId]
  exact ⟨plan.declaration, survey.declared met ends, withoutCreate, isPartial, notStatic, notSealed⟩

/-- A constructor is not finished at one node and an existing step at another. -/
theorem exclusive {method : Method} (member : method ∈ builder.allMethods) {index : Nat}
    {step : ExistingStep} (found : builder.step? index = some (.existing step)) :
    method.finishes? ≠ some step.constructor := by
  intro finishes
  obtain ⟨finish, metFinish, plan, finishRole, sameId⟩ :=
    survey.exists_mark_of_finishes? member finishes
  obtain ⟨existing, metExisting, other, existingRole, otherId⟩ :=
    survey.exists_mark_of_existing found
  have sameMark : finish = existing :=
    survey.mark_eq_of_ends metFinish metExisting (nodeRole_finish finishRole).1
      (nodeRole_existing existingRole).1 (sameId.trans otherId.symm)
  rw [sameMark, existingRole] at finishRole
  cases finishRole

/-! ### One creation for a constructor -/

/-- All creations for a constructor stand at one place and have one signature. -/
theorem creations_agree {node other : CallNode} {owner otherOwner : Place}
    (found : builder.place? node = some owner) (foundOther : builder.place? other = some otherOwner)
    {first second : Method} (isFirst : first ∈ owner.methods)
    (isSecond : second ∈ otherOwner.methods) {id : Nat} (createsFirst : first.creates? = some id)
    (createsSecond : second.creates? = some id) :
    node = other ∧ first.signature = second.signature := by
  obtain ⟨source, before, rfl, rfl, placed⟩ := survey.placed found isFirst
  obtain ⟨otherSource, otherBefore, rfl, rfl, otherPlaced⟩ := survey.placed foundOther isSecond
  rw [Method.creates?_mapStep] at createsFirst createsSecond
  obtain ⟨mark, met, rfl, plan, ends, sameId, -, scope, ambient, rfl⟩ :=
    placed.exists_mark_of_creates? createsFirst
  obtain ⟨otherMark, otherMet, rfl, otherPlan, otherEnds, otherId, -, otherScope, otherAmbient,
    rfl⟩ := otherPlaced.exists_mark_of_creates? createsSecond
  obtain rfl := survey.mark_eq_of_ends met otherMet ends otherEnds (sameId.trans otherId.symm)
  obtain rfl := survey.plan_eq (survey.ends met ends).1 (survey.ends met otherEnds).1
    (sameId.trans otherId.symm)
  exact ⟨rfl, rfl⟩

end Builder.Survey

namespace Builder

variable {naming : Naming} {root : Root} {declarations : List Declaration} {builder : Builder}

/-- A relation between all methods of a builder holds if it holds between the methods of each
place and between methods of different places. -/
theorem pairwise_allMethods {relation : Method → Method → Prop}
    (within : ∀ node owner, builder.place? node = some owner → owner.methods.Pairwise relation)
    (across : ∀ node owner other otherOwner, builder.place? node = some owner →
      builder.place? other = some otherOwner → node ≠ other → ∀ first ∈ owner.methods,
        ∀ second ∈ otherOwner.methods, relation first second) :
    builder.allMethods.Pairwise relation := by
  have isPlace : ∀ (index : Nat) (bound : index < builder.steps.length),
      builder.place? (.step index) = some builder.steps[index].place := by
    intro index bound
    show (builder.steps[index]?).map Step.place = _
    rw [List.getElem?_eq_getElem bound, Option.map_some]
  rw [allMethods, List.pairwise_append, List.pairwise_flatMap]
  refine ⟨within .root _ rfl, ⟨fun step member => ?_, List.pairwise_iff_getElem.2 ?_⟩, ?_⟩
  · obtain ⟨index, bound, rfl⟩ := List.getElem_of_mem member
    rw [← Step.methods_place]
    exact within _ _ (isPlace index bound)
  · intro early late earlyBound lateBound less
    rw [← Step.methods_place, ← Step.methods_place]
    refine across _ _ _ _ (isPlace early earlyBound) (isPlace late lateBound) fun same => ?_
    exact Nat.ne_of_lt less (CallNode.step.inj same)
  · intro first atRoot second atStep
    obtain ⟨step, member, isMethod⟩ := List.mem_flatMap.1 atStep
    obtain ⟨index, bound, rfl⟩ := List.getElem_of_mem member
    rw [← Step.methods_place] at isMethod
    exact across .root _ _ _ rfl (isPlace index bound) CallNode.noConfusion first atRoot second
      isMethod

/-- There are no two creations for one constructor. -/
theorem Survey.length_filter_creates?_le_one (survey : builder.Survey naming root declarations)
    (id : Nat) : (builder.allMethods.filter (·.creates? = some id)).length ≤ 1 := by
  refine Lists.length_filter_le_one (pairwise_allMethods (fun node owner found => ?_) ?_)
  · have signatures := List.pairwise_map.1 (survey.nodup_signatures found)
    refine signatures.imp_of_mem fun {first second} isFirst isSecond differ creates => ?_
    rw [decide_eq_true_eq] at creates
    refine decide_eq_false fun createsOther => differ ?_
    exact (survey.creations_agree found found isFirst isSecond creates createsOther).2
  · intro node owner other otherOwner found foundOther differ first isFirst second isSecond creates
    rw [decide_eq_true_eq] at creates
    refine decide_eq_false fun createsOther => differ ?_
    exact (survey.creations_agree found foundOther isFirst isSecond creates createsOther).1

/-- If a chain of calls ends at a constructor that has a create method, its last call is a creation,
because no other call ends there. -/
theorem Survey.exists_creation_of_reached (survey : builder.Survey naming root declarations)
    {id : Nat} {declaration : Declaration} (isDeclared : declarations[id]? = some declaration)
    (creatable : declaration.options.noCreateMethod = false)
    (reached : Reached builder.methods builder.table (.target id)) :
    ∃ method ∈ builder.allMethods, method.creates? = some id := by
  have notWithout : ∀ other, declarations[id]? = some other →
      other.options.noCreateMethod ≠ true := by
    intro other isOther withoutCreate
    rw [isDeclared, Option.some.injEq] at isOther
    rw [← isOther, creatable] at withoutCreate
    exact Bool.false_ne_true withoutCreate
  obtain same | ⟨node, -, last⟩ := ReflTransGen.cases_tail reached
  · cases same
  generalize atTarget : CallNode.target id = target at last
  cases last with
  | @call _ method member =>
    obtain ⟨owner, found, isMethod⟩ := (mem_methodsAt builder.stop?_table).1 member
    have inBuilder := mem_allMethods_of_place found isMethod
    rcases method.creates?_or_finishes? atTarget.symm with creates | finishes
    · exact ⟨method, inBuilder, creates⟩
    · obtain ⟨other, isOther, withoutCreate⟩ := survey.finished inBuilder finishes
      exact absurd withoutCreate (notWithout other isOther)
  | @arrive index stop constructor held arrives =>
    cases atTarget
    rw [builder.stop?_table] at held
    obtain ⟨step, isStep, rfl⟩ := Option.map_eq_some_iff.1 held
    cases step with
    | synthesized step => cases arrives
    | existing step =>
      cases arrives
      obtain ⟨other, isOther, withoutCreate, -⟩ := survey.existing isStep
      exact absurd withoutCreate (notWithout other isOther)

/-- A chain of calls ends with every creation. -/
theorem Survey.reached_of_creation (survey : builder.Survey naming root declarations)
    {method : Method} (member : method ∈ builder.allMethods) {id : Nat}
    (creates : method.creates? = some id) :
    Reached builder.methods builder.table (.target id) := by
  obtain ⟨node, owner, found, isMethod⟩ := exists_place_of_mem_allMethods member
  have reached : Reached builder.methods builder.table node := by
    cases node with
    | root => exact .refl
    | step index =>
      obtain ⟨step, isStep, -⟩ := Option.map_eq_some_iff.1 found
      exact survey.layered.reached index (List.getElem?_eq_some_iff.1 isStep).1
    | target constructor => cases found
  have calls : Calls builder.methods builder.table node method.result.node :=
    .call ((mem_methodsAt builder.stop?_table).2 ⟨owner, found, isMethod⟩)
  rw [method.node_of_creates? creates] at calls
  exact reached.tail calls

/-- Chains of calls end at a constructor that has a create method exactly if there is a creation
for it. -/
theorem Survey.mem_reachableConstructors_iff (survey : builder.Survey naming root declarations)
    {id : Nat} {declaration : Declaration} (isDeclared : declarations[id]? = some declaration)
    (creatable : declaration.options.noCreateMethod = false) :
    id ∈ (CallGraph.ofBuilder builder).reachableConstructors ↔
      ∃ method ∈ builder.allMethods, method.creates? = some id := by
  have ofBuilder : id ∈ (CallGraph.ofBuilder builder).reachableConstructors ↔
      Reached builder.methods builder.table (.target id) :=
    CallGraph.mem_reachableConstructors_build
  rw [ofBuilder]
  constructor
  · exact survey.exists_creation_of_reached isDeclared creatable
  · rintro ⟨method, member, creates⟩
    exact survey.reached_of_creation member creates

/-- In a builder with a survey constructors are called in the ways that their options ask for. -/
theorem Survey.endsAsAsked (survey : builder.Survey naming root declarations) :
    builder.EndsAsAsked declarations where
  created method member id creates := survey.created member creates
  finished method member id finishes := survey.finished member finishes
  existing index step found := survey.existing found
  exclusive method member index step found := survey.exclusive member found
  once id declaration isDeclared creatable := by
    have atMost := survey.length_filter_creates?_le_one id
    have byCreation := survey.mem_reachableConstructors_iff isDeclared creatable
    split
    · next reachable =>
      obtain ⟨method, member, creates⟩ := byCreation.1 reachable
      have passes : method ∈ builder.allMethods.filter (·.creates? = some id) :=
        List.mem_filter.2 ⟨member, decide_eq_true creates⟩
      exact Nat.le_antisymm atMost (List.length_pos_of_mem passes)
    · next unreachable =>
      rw [List.length_eq_zero_iff, List.filter_eq_nil_iff]
      intro method member creates
      exact unreachable (byCreation.2 ⟨method, member, of_decide_eq_true creates⟩)

end Builder

/-- In every builder constructors are called in the ways that their options ask for. -/
theorem endsAsAsked_assemble (system : TypeSystem) (naming : Naming) (root : Root)
    (declarations : List Declaration) :
    (assemble system naming root declarations).EndsAsAsked declarations := by
  obtain ⟨survey⟩ := nonempty_survey system naming root declarations
  exact survey.endsAsAsked

end StagedBuilder
