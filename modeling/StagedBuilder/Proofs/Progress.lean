/-
This file proves that a caller can always go on and always comes to an end. Every step of a
builder has a method, and from every step some chain of calls ends at a constructor: a
method that ends at none leads to a step with one more known value, and a step that knows
as many values as the longest constructor has parameters has no such method. The root
itself is without methods only if there is nothing to call: if all constructors that could
be built take no parameters and have no create method.
-/

import Mathlib.Algebra.Order.BigOperators.Group.List
import Mathlib.Algebra.Order.Group.Nat
import StagedBuilder.Proofs.Account
import StagedBuilder.Proofs.Layers
import StagedBuilder.Proofs.Stock
import StagedBuilder.Proofs.Survey

namespace StagedBuilder

open CallGraph (Calls methodsAt)
open PrefixTree (Under)
open Relation (ReflTransGen)

/-- A caller can always go on, and comes to an end. -/
structure Builder.Progresses (system : TypeSystem) (declarations : List Declaration)
    (builder : Builder) : Prop where
  /-- Every step has a method. -/
  stocked : ∀ step ∈ builder.steps, step.methods ≠ []
  /-- From every step some chain of calls ends at a constructor. -/
  ends : ∀ index < builder.steps.length,
    (CallGraph.ofBuilder builder).constructorsFrom (.step index) ≠ []
  /-- The root has no methods only if no constructor leads to one. -/
  begins : builder.methods = [] ↔ ∀ declaration ∈ declarations,
    declaration.isExcluded system = false →
      declaration.constructor.parameters = [] ∧ declaration.options.noCreateMethod = true

/-! ### Coming to an end -/

theorem Method.source?_of_step {method : Method} {index : Nat}
    (returns : method.result = .step index) : ∃ source, method.source? = some source := by
  cases method with
  | supply method => exact ⟨method.source, rfl⟩
  | conversion method => exact ⟨method.source, rfl⟩
  | creation method => cases returns

namespace Builder.Layered

variable {declarations : List Declaration} {builder : Builder}

/-- In layers in which every step has a method, chains of calls from every step end at some
constructor. -/
theorem exists_target (layered : builder.Layered declarations)
    (stocked : ∀ step ∈ builder.steps, step.methods ≠ []) {index : Nat} {step : Step}
    (found : builder.step? index = some step) :
    ∃ constructor,
      ReflTransGen (Calls builder.methods builder.table) (.step index) (.target constructor) := by
  let most := (declarations.map fun declaration => declaration.constructor.parameters.length).sum
  -- With every call one parameter less is left of the longest constructor.
  induction left : most - step.known.length using Nat.strongRecOn generalizing index step with
  | ind count inductionHypothesis =>
    obtain ⟨method, member⟩ :=
      List.exists_mem_of_ne_nil _ (stocked step (List.mem_of_getElem? found))
    rw [← step.methods_place] at member
    have isPlace : builder.place? (.step index) = some step.place :=
      Option.map_eq_some_iff.2 ⟨step, found, rfl⟩
    have calls : Calls builder.methods builder.table (.step index) method.result.node :=
      .call ((mem_methodsAt builder.stop?_table).2 ⟨step.place, isPlace, member⟩)
    cases result : method.result with
    | product value =>
      rw [result] at calls
      exact ⟨value.constructor, .single calls⟩
    | step next =>
      rw [result] at calls
      have returns : method.step? = some next := by rw [Method.step?, result]; rfl
      have bound := layered.closed method (mem_allMethods_of_place isPlace member) next returns
      have isNext := List.getElem?_eq_getElem bound
      have deeper := layered.deepens _ _ isPlace method member next _ returns isNext
      obtain ⟨source, supplied⟩ := Method.source?_of_step result
      obtain ⟨-, declaration, isDeclared, shorter⟩ :=
        layered.supplies _ _ isPlace method member source supplied
      have atMost : declaration.constructor.parameters.length ≤ most :=
        List.le_sum_of_mem (List.mem_map_of_mem (List.mem_of_getElem? isDeclared))
      rw [step.known_place] at deeper shorter
      obtain ⟨constructor, chain⟩ := inductionHypothesis _ (by omega) isNext rfl
      exact ⟨constructor, .head calls chain⟩

end Builder.Layered

/-! ### Having a beginning -/

/-- If nothing goes on at the root of a grown tree, the usable constructors end there. -/
theorem PlanTree.mem_endings_of_leaf {plans : List ConstructorPlan}
    (leaf : (planTree plans).children = []) {plan : ConstructorPlan} (member : plan ∈ plans)
    (usable : plan.isUsable = true) : plan ∈ (planTree plans).endings := by
  have inTree : plan ∈ (planTree plans).values :=
    (values_planTree_perm plans).mem_iff.2 (List.mem_filter.2 ⟨member, usable⟩)
  rcases PrefixTree.mem_values.1 inTree with ends | ⟨child, isChild, -⟩
  · exact ends
  · rw [leaf] at isChild
    exact absurd isChild List.not_mem_nil

/-- Something goes on at the root unless all usable constructors are without parameters. -/
theorem PlanTree.children_planTree_eq_nil {plans : List ConstructorPlan} :
    (planTree plans).children = [] ↔
      ∀ plan ∈ plans, plan.isUsable = true → plan.parameters = [] := by
  have grown := PlanTree.grown_planTree plans
  constructor
  · intro leaf plan member usable
    have sameTypes := (grown.ended .top (mem_endings_of_leaf leaf member usable)).2
    exact List.map_eq_nil_iff.1 sameTypes
  · intro noParameters
    refine List.eq_nil_iff_forall_not_mem.2 fun child isChild => ?_
    obtain ⟨representative, made⟩ := (grown.of_under .top).here.made child isChild
    obtain ⟨plan, isPlan, -, before, after, parts, -⟩ :=
      grown.carried .top isChild (List.mem_of_mem_head? made)
    obtain ⟨member, usable⟩ := List.mem_filter.1 isPlan
    rw [noParameters plan member usable] at parts
    exact List.append_ne_nil_of_right_ne_nil before (List.cons_ne_nil _ _) parts.symm

/-- Neither goes anything on at the root nor is there a creation, if and only if the usable
constructors take no parameters and have no create method. -/
theorem PlanTree.planTree_exhausted {plans : List ConstructorPlan} :
    (planTree plans).children = [] ∧ creatable (planTree plans).endings = [] ↔
      ∀ plan ∈ plans, plan.isUsable = true →
        plan.parameters = [] ∧ plan.declaration.options.noCreateMethod = true := by
  constructor
  · rintro ⟨leaf, noCreation⟩ plan member usable
    refine ⟨children_planTree_eq_nil.1 leaf plan member usable, ?_⟩
    have notCreatable :=
      List.filter_eq_nil_iff.1 noCreation plan (mem_endings_of_leaf leaf member usable)
    rwa [Bool.not_eq_true', Bool.not_eq_false] at notCreatable
  · intro exhausted
    refine ⟨children_planTree_eq_nil.2 fun plan member usable => (exhausted plan member usable).1,
      List.filter_eq_nil_iff.2 fun plan ends => ?_⟩
    obtain ⟨member, usable⟩ := List.mem_filter.1 ((grown_planTree plans).ended .top ends).1
    rw [(exhausted plan member usable).2]
    exact Bool.false_ne_true

/-! ### Builders of declarations -/

theorem live_planTree (plans : List ConstructorPlan) : PlanTree.Live (planTree plans) :=
  (PlanTree.grown_planTree plans).live fun _ member => (List.mem_filter.1 member).2

/-- The plans say of the constructors that can be built what the declarations say. -/
theorem planAll_exhausted {system : TypeSystem} {naming : Naming}
    {declarations : List Declaration} :
    (∀ plan ∈ planAll system naming declarations, plan.isUsable = true →
        plan.parameters = [] ∧ plan.declaration.options.noCreateMethod = true) ↔
      ∀ declaration ∈ declarations, declaration.isExcluded system = false →
        declaration.constructor.parameters = [] ∧ declaration.options.noCreateMethod = true := by
  have sameLength : ∀ (id : Nat) (declaration : Declaration),
      declarations[id]? = some declaration →
        ((declaration.plan system naming id).parameters = [] ↔
          declaration.constructor.parameters = []) := by
    intro id declaration found
    have length : (declaration.plan system naming id).parameters.length =
        declaration.constructor.parameters.length :=
      (Declaration.declared_plan found).length_parameters
    rw [← List.length_eq_zero_iff, length, List.length_eq_zero_iff]
  constructor
  · intro exhausted declaration member included
    obtain ⟨id, found⟩ := List.getElem?_of_mem member
    have usable : (declaration.plan system naming id).isUsable = true := by
      rw [isUsable_plan, included]
      rfl
    obtain ⟨noParameters, withoutCreate⟩ :=
      exhausted _ (mem_planAll.2 ⟨id, declaration, found, rfl⟩) usable
    exact ⟨(sameLength id declaration found).1 noParameters, withoutCreate⟩
  · intro exhausted plan member usable
    obtain ⟨id, declaration, found, rfl⟩ := mem_planAll.1 member
    rw [isUsable_plan, Bool.not_eq_true'] at usable
    obtain ⟨noParameters, withoutCreate⟩ :=
      exhausted declaration (List.mem_of_getElem? found) usable
    exact ⟨(sameLength id declaration found).2 noParameters, withoutCreate⟩

theorem progresses_assembleValid (system : TypeSystem) (naming : Naming) (root : Root)
    (declarations : List Declaration) :
    (assembleValid system naming root declarations).Progresses system declarations := by
  let origin := originOfValid system naming root declarations
  have live := live_planTree (planAll system naming declarations)
  have stocked : ∀ step ∈ (assembleValid system naming root declarations).steps,
      step.methods ≠ [] := by
    intro step member
    obtain ⟨number, found⟩ := List.getElem?_of_mem member
    obtain ⟨index, before, -, -, isBefore, rfl⟩ := origin.exists_kept found
    have methods := stocked_walkTree naming root live index before isBefore
    cases before with
    | synthesized before => exact fun none => methods (List.map_eq_nil_iff.1 none)
    | existing before => exact fun none => methods (List.map_eq_nil_iff.1 none)
  refine ⟨stocked, fun index bound => ?_, ?_⟩
  · have layered := origin.layered
    obtain ⟨constructor, chain⟩ :=
      layered.exists_target stocked (List.getElem?_eq_getElem bound)
    have member : constructor ∈ (CallGraph.ofBuilder
        (assembleValid system naming root declarations)).constructorsFrom (.step index) :=
      (CallGraph.mem_constructorsFrom_build (layered.reached index bound)).2 chain
    exact List.ne_nil_of_mem member
  · have methods : (assembleValid system naming root declarations).methods = [] ↔
        (walkTree naming root (planTree (planAll system naming declarations))).1 = [] :=
      List.map_eq_nil_iff
    rw [methods, walkTree_eq_nil naming root live, PlanTree.planTree_exhausted, planAll_exhausted]

/-- A builder of valid declarations lets every caller go on and come to an end. -/
theorem progresses_assemble (system : TypeSystem) (naming : Naming) (root : Root)
    (declarations : List Declaration) (valid : Validation.findings root declarations = []) :
    (assemble system naming root declarations).Progresses system declarations := by
  rw [assemble_of_valid valid]
  exact progresses_assembleValid system naming root declarations

/-- Where the one constructor ends the other goes on, so its callers are not at an end either. -/
theorem progresses_assemble_longer :
    let order : Declaration := {
      constructor := {
        target := .bare none "Order"
        parameters := [{ name := "id", type := .simple "Int" }] }
      root := "Shop" }
    let gift : Declaration := {
      constructor := {
        target := .bare none "Gift"
        parameters := [{ name := "id", type := .simple "Int" },
          { name := "note", type := .simple "String" }] }
      root := "Shop"
      options := { noCreateMethod := true } }
    Validation.findings (.marked none "Shop") [order, gift] = [] ∧
      (assemble {} {} (.marked none "Shop") [order, gift]).Progresses {} [order, gift] :=
  ⟨rfl, progresses_assemble {} {} (.marked none "Shop") _ rfl⟩

end StagedBuilder
