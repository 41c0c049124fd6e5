/-
This file proves that every declared constructor is accounted for. A constructor is
excluded if one of its parameters has a group of converters none of which fits; then a
finding says so, and nothing in the builder leads to the constructor. Every other
constructor is either at the end of a chain of calls in the finished builder or reported
as unreachable, and the reports come in the order of the declarations, one for each.

The reports are made before the steps are numbered anew and some are dropped. That they
are right for the finished builder is because what is dropped leads nowhere from the root.
-/

import StagedBuilder.Proofs.Assembly
import StagedBuilder.Proofs.Coverage

namespace StagedBuilder

open CallGraph (Calls)
open PrefixTree (Under)

/-! ### Excluded constructors -/

namespace Declaration

/-- The parameters with a group of converters none of which fits. -/
def unmet (system : TypeSystem) (declaration : Declaration) : List (Parameter × ConverterGroup) :=
  declaration.constructor.parameters.flatMap fun parameter =>
    ((parameter.group.filter fun group => group.converters.all fun converter =>
      (ConverterGroup.fit? system parameter.type converter).isNone).map (parameter, ·)).toList

/-- Whether some parameter has a group of converters none of which fits. -/
def isExcluded (system : TypeSystem) (declaration : Declaration) : Bool :=
  !(declaration.unmet system).isEmpty

/-- The finding about a parameter with a group of converters none of which fits. -/
def unmetFinding (parameter : Parameter) (group : ConverterGroup) : Diagnostic :=
  { code := .noCompatibleConverter
    location := group.location
    arguments := [group.declaringType.display, parameter.name, parameter.type.display] }

/-- The finding about a constructor that no chain of calls ends at. -/
def unreachableFinding (declaration : Declaration) : Diagnostic :=
  { code := .unreachableConstructor
    location := declaration.constructor.location
    additionalLocations := [declaration.attributeLocation]
    arguments := [declaration.constructor.display] }

end Declaration

/-- Every declared constructor is excluded, reached or reported. -/
structure Builder.Accounts (system : TypeSystem) (declarations : List Declaration)
    (builder : Builder) : Prop where
  /-- Chains of calls end at constructors that are not excluded. -/
  reached : ∀ id ∈ (CallGraph.ofBuilder builder).reachableConstructors,
    ∃ declaration, declarations[id]? = some declaration ∧ declaration.isExcluded system = false
  /-- Those that are not excluded and that no chain of calls ends at are reported in order. -/
  reported : builder.diagnostics.filter (·.code = .unreachableConstructor) =
    (declarations.zipIdx.filter fun (declaration, id) => !declaration.isExcluded system &&
      !(CallGraph.ofBuilder builder).reachableConstructors.contains id).map
        fun (declaration, _) => declaration.unreachableFinding
  /-- For every parameter that excludes a constructor a finding says so. -/
  excluded : builder.diagnostics.filter (·.code = .noCompatibleConverter) =
    declarations.flatMap fun declaration => (declaration.unmet system).map
      fun (parameter, group) => Declaration.unmetFinding parameter group

/-! ### Usable constructors -/

theorem isEmpty_fitting (system : TypeSystem) (wanted : TypeTerm) (group : ConverterGroup) :
    (group.fitting system wanted).isEmpty =
      group.converters.all fun converter =>
        (ConverterGroup.fit? system wanted converter).isNone := by
  unfold ConverterGroup.fitting
  induction group.converters with
  | nil => rfl
  | cons first rest inductionHypothesis =>
    rw [List.filterMap_cons, List.all_cons, ← inductionHypothesis]
    cases ConverterGroup.fit? system wanted first <;> rfl

theorem map_supplies_plan (system : TypeSystem) (naming : Naming) (id : Nat)
    (declaration : Declaration) :
    (declaration.plan system naming id).parameters.map (·.supplies) =
      declaration.constructor.parameters.map
        (Declaration.supplies system naming (numberingOf declaration.types)) :=
  Declaration.map_parameters_plan_of_parameter fun _ _ _ => rfl

/-- A parameter can be supplied unless it has a group of which no converter fits. -/
theorem isEmpty_supplies (system : TypeSystem) (naming : Naming) (numbering : Numbering)
    (parameter : Parameter) :
    (Declaration.supplies system naming numbering parameter).isEmpty =
      parameter.group.any fun group => group.converters.all fun converter =>
        (ConverterGroup.fit? system parameter.type converter).isNone := by
  unfold Declaration.supplies
  cases parameter.group with
  | none => rfl
  | some group =>
    rw [Option.any_some, ← isEmpty_fitting, Bool.eq_iff_iff]
    simp [ConverterGroup.plans]

/-- The usable constructors are those that are not excluded. -/
theorem isUsable_plan (system : TypeSystem) (naming : Naming) (id : Nat)
    (declaration : Declaration) :
    (declaration.plan system naming id).isUsable = !declaration.isExcluded system := by
  have bySupplies : (declaration.plan system naming id).isUsable =
      ((declaration.plan system naming id).parameters.map (·.supplies)).all fun supplies =>
        !supplies.isEmpty := by
    rw [List.all_map]
    rfl
  rw [bySupplies, map_supplies_plan, List.all_map, Declaration.isExcluded, Bool.not_not,
    Declaration.unmet]
  induction declaration.constructor.parameters with
  | nil => rfl
  | cons first rest inductionHypothesis =>
    rw [List.all_cons, inductionHypothesis, List.flatMap_cons, Function.comp_apply,
      isEmpty_supplies]
    cases first.group with
    | none => rfl
    | some group =>
      rw [Option.any_some, Option.filter_some]
      cases group.converters.all _ <;> rfl

/-! ### What is reached -/

section

variable {naming : Naming} {plans : List ConstructorPlan} {tree : PlanTree} {walk : Walk}
  {path : Path}

/-- A finished target comes from one of the plans. -/
theorem Offered.exists_plan {method : Method} (offered : Offered naming tree walk path method)
    (grown : PlanTree.Grown plans tree) {value : Product}
    (returns : method.result = .product value) :
    ∃ plan ∈ plans, plan.id = value.constructor := by
  cases offered with
  | @edge _ _ _ _ _ _ call _ under leads member made _ _ _ arrives =>
    rw [EdgeCall.result_candidate] at returns
    rw [returns] at arrives
    cases arrives with
    | finish candidates ends => exact ⟨_, (grown.ended (.down under member made) ends).1, rfl⟩
  | ending ambient under leads ends =>
    cases returns
    exact ⟨_, (grown.ended under ends).1, rfl⟩

end

namespace Builder.Origin

variable {naming : Naming} {root : Root} {declarations : List Declaration} {builder : Builder}
  (origin : builder.Origin naming root declarations)

/-- Chains of calls end at planned constructors only. -/
theorem exists_plan {id : Nat} (reached : origin.Reached (.target id)) :
    ∃ plan ∈ origin.plans, plan.id = id := by
  obtain same | ⟨node, -, last⟩ := Relation.ReflTransGen.cases_tail reached
  · cases same
  generalize atTarget : CallNode.target id = target at last
  cases last with
  | @call _ method member =>
    obtain ⟨place, found, isMethod⟩ := (mem_methodsAt origin.walk.stop?_table).1 member
    obtain ⟨path, leads⟩ := origin.leads found
    cases result : method.result with
    | product value =>
      rw [result] at atTarget
      cases atTarget
      exact (leads.furnished.offered method isMethod).exists_plan origin.grown result
    | step index =>
      rw [result] at atTarget
      cases atTarget
  | @arrive index stop constructor held arrives =>
    cases atTarget
    rw [origin.walk.stop?_table] at held
    obtain ⟨step, isStep, rfl⟩ := Option.map_eq_some_iff.1 held
    cases step with
    | synthesized step => cases arrives
    | existing step =>
      cases arrives
      obtain ⟨path, plan, sound⟩ := origin.sound.existing index step isStep
      obtain ⟨above, node, under, leads, ends⟩ := sound.ends
      exact ⟨plan, (origin.grown.ended under ends).1, sound.constructor.symm⟩

/-- The finished builder reaches the constructors that were reached before steps were dropped. -/
theorem mem_reachableConstructors {id : Nat} :
    id ∈ (CallGraph.ofBuilder builder).reachableConstructors ↔
      id ∈ (CallGraph.build origin.rootMethods origin.walk.table).reachableConstructors := by
  have ofBuilder : id ∈ (CallGraph.ofBuilder builder).reachableConstructors ↔
      CallGraph.Reached builder.methods builder.table (.target id) :=
    CallGraph.mem_reachableConstructors_build
  rw [ofBuilder, CallGraph.mem_reachableConstructors_build, origin.reached_iff]
  constructor
  · rintro ⟨before, reached, isTarget⟩
    cases before <;> cases isTarget
    exact reached
  · exact fun reached => ⟨.target id, reached, rfl⟩

end Builder.Origin

/-! ### What is reported -/

theorem filter_code_eq_nil {code : DiagnosticCode} {findings : List Diagnostic}
    (different : ∀ finding ∈ findings, finding.code ≠ code) :
    findings.filter (·.code = code) = [] :=
  List.filter_eq_nil_iff.2 fun finding member same =>
    different finding member (of_decide_eq_true same)

theorem code_of_mem_staticFindings {group : ConverterGroup} {finding : Diagnostic}
    (member : finding ∈ group.staticFindings) : finding.code = .converterNotStatic := by
  obtain ⟨converter, -, rfl⟩ := List.mem_map.1 member
  rfl

/-- The findings about converters that do not fit say that the whole group does not if this is
so, and otherwise say nothing of the kind. -/
theorem filter_misfitFindings (system : TypeSystem) (parameter : Parameter)
    (group : ConverterGroup) :
    (group.misfitFindings system parameter).filter (·.code = .noCompatibleConverter) =
      if group.converters.all fun converter =>
          (ConverterGroup.fit? system parameter.type converter).isNone
        then [Declaration.unmetFinding parameter group] else [] := by
  rw [ConverterGroup.misfitFindings, isEmpty_fitting]
  split
  · rfl
  · refine filter_code_eq_nil fun finding member => ?_
    obtain ⟨converter, -, rfl⟩ := List.mem_map.1 member
    exact DiagnosticCode.noConfusion

/-- Among the findings about a constructor's converters there is one for each group that
excludes it. -/
theorem filter_planFindings_unmet (system : TypeSystem) (declaration : Declaration) :
    (declaration.planFindings system).filter (·.code = .noCompatibleConverter) =
      (declaration.unmet system).map
        fun (parameter, group) => Declaration.unmetFinding parameter group := by
  rw [Declaration.planFindings, List.filter_flatMap, Declaration.unmet, List.map_flatMap]
  refine List.flatMap_congr fun parameter _ => ?_
  cases parameter.group with
  | none => rfl
  | some group =>
    have noStatic : group.staticFindings.filter (·.code = .noCompatibleConverter) = [] := by
      refine filter_code_eq_nil fun finding member => ?_
      rw [code_of_mem_staticFindings member]
      exact DiagnosticCode.noConfusion
    rw [List.filter_append, noStatic, List.nil_append, filter_misfitFindings, Option.filter_some]
    split <;> rfl

/-- The findings about a constructor's converters say that one is not static or does not fit. -/
theorem code_of_mem_planFindings {system : TypeSystem} {declaration : Declaration}
    {finding : Diagnostic} (member : finding ∈ declaration.planFindings system) :
    finding.code ∈ [DiagnosticCode.converterNotStatic, .noCompatibleConverter,
      .incompatibleConverter] := by
  obtain ⟨parameter, -, ofParameter⟩ := List.mem_flatMap.1 member
  cases isGroup : parameter.group with
  | none =>
    rw [isGroup] at ofParameter
    exact absurd ofParameter List.not_mem_nil
  | some group =>
    rw [isGroup] at ofParameter
    rcases List.mem_append.1 ofParameter with isStatic | isMisfit
    · rw [code_of_mem_staticFindings isStatic]
      exact List.mem_cons_self
    · refine List.mem_cons_of_mem _ ?_
      unfold ConverterGroup.misfitFindings at isMisfit
      split at isMisfit
      · rw [List.mem_singleton.1 isMisfit]
        exact List.mem_cons_self
      · obtain ⟨converter, -, rfl⟩ := List.mem_map.1 isMisfit
        exact List.mem_cons_of_mem _ (List.mem_singleton_self _)

/-- The findings about converters that lost say nothing else. -/
theorem code_of_mem_displacedFindings {declarations : List Declaration}
    {rootMethods : List Method} {walk : Walk} {finding : Diagnostic}
    (member : finding ∈ displacedFindings declarations rootMethods walk) :
    finding.code = .supersededMethod ∨ finding.code = .supersededConverter := by
  obtain ⟨collision, -, ofCollision⟩ := List.mem_flatMap.1 member
  unfold Displaced.diagnostics at ofCollision
  split at ofCollision
  · exact absurd ofCollision List.not_mem_nil
  · obtain ⟨loser, -, ofLoser⟩ := List.mem_flatMap.1 ofCollision
    rcases List.mem_cons.1 ofLoser with rfl | atPlace
    · exact Or.inl rfl
    · obtain ⟨location, -, rfl⟩ := List.mem_map.1 atPlace
      exact Or.inr rfl

theorem filter_planFindings_unreachable (system : TypeSystem) (declarations : List Declaration) :
    (declarations.flatMap (Declaration.planFindings system)).filter
      (·.code = .unreachableConstructor) = [] := by
  refine filter_code_eq_nil fun finding member same => ?_
  obtain ⟨declaration, -, ofDeclaration⟩ := List.mem_flatMap.1 member
  exact absurd (same ▸ code_of_mem_planFindings ofDeclaration) (by decide)

theorem filter_displaced {displaced : List Diagnostic}
    (codes : ∀ finding ∈ displaced,
      finding.code = .supersededMethod ∨ finding.code = .supersededConverter)
    {code : DiagnosticCode} (noMethod : code ≠ .supersededMethod)
    (noConverter : code ≠ .supersededConverter) : displaced.filter (·.code = code) = [] := by
  refine filter_code_eq_nil fun finding member same => ?_
  rcases codes finding member with isMethod | isConverter
  · exact noMethod (same.symm.trans isMethod)
  · exact noConverter (same.symm.trans isConverter)

/-- The usable constructors that are not reached are reported in order. -/
theorem diagnostics_reach_planCoverage {plans : List ConstructorPlan}
    (ordered : plans.Pairwise fun earlier later => earlier.id < later.id) (ids : List Nat) :
    ((planCoverage plans).reach ids).diagnostics =
      (plans.filter fun plan => plan.isUsable && !ids.contains plan.id).map
        (·.declaration.unreachableFinding) := by
  have declared : (planCoverage plans).declared =
      (plans.filter ConstructorPlan.isUsable).map fun plan => (plan.id, {
        display := plan.declaration.constructor.display
        location := plan.declaration.constructor.location
        attributeLocation := some plan.declaration.attributeLocation }) :=
    Coverage.declared_foldl_declare _ _ _ {} (ordered.filter _)
      fun held member => absurd member List.not_mem_nil
  have reached : ((planCoverage plans).reach ids).reached = ids := by
    rw [Coverage.reach, planCoverage, Coverage.reached_foldl_declare]
    rfl
  have missing : ((planCoverage plans).reach ids).missing =
      (planCoverage plans).declared.filter fun entry => !ids.contains entry.1 := by
    rw [Coverage.missing]
    unfold Coverage.isReached
    rw [reached]
    rfl
  rw [Coverage.diagnostics, missing, declared, List.filter_map, List.map_map, List.filter_filter]
  exact congrArg (List.map _) (List.filter_congr fun plan _ => Bool.and_comm _ _)

/-! ### The account -/

theorem assemble_of_valid {system : TypeSystem} {naming : Naming} {root : Root}
    {declarations : List Declaration} (valid : Validation.findings root declarations = []) :
    assemble system naming root declarations = assembleValid system naming root declarations := by
  rw [assemble_of_accepted (by rw [valid]; exact Bool.false_ne_true), valid]
  rfl

/-- The findings of a builder come from the converters of each declaration, from collisions, and
from constructors that are not reached. -/
theorem diagnostics_assembleValid (system : TypeSystem) (naming : Naming) (root : Root)
    (declarations : List Declaration) :
    ∃ displaced : List Diagnostic,
      (∀ finding ∈ displaced,
        finding.code = .supersededMethod ∨ finding.code = .supersededConverter) ∧
      (assembleValid system naming root declarations).diagnostics =
        declarations.flatMap (Declaration.planFindings system) ++ displaced ++
          (declarations.zipIdx.filter fun (declaration, id) =>
            !declaration.isExcluded system && !(CallGraph.ofBuilder (assembleValid system naming
              root declarations)).reachableConstructors.contains id).map
            fun (declaration, _) => declaration.unreachableFinding := by
  let origin := originOfValid system naming root declarations
  refine ⟨displacedFindings declarations origin.rootMethods origin.walk,
    fun _ member => code_of_mem_displacedFindings member, ?_⟩
  refine congrArg (declarations.flatMap (Declaration.planFindings system) ++ _ ++ ·) ?_
  refine (diagnostics_reach_planCoverage (pairwise_id_planAll system naming declarations)
    (CallGraph.build origin.rootMethods origin.walk.table).reachableConstructors).trans ?_
  rw [planAll, List.filter_map, List.map_map]
  have sameReached : ∀ id, (CallGraph.build origin.rootMethods
      origin.walk.table).reachableConstructors.contains id =
        (CallGraph.ofBuilder
          (assembleValid system naming root declarations)).reachableConstructors.contains id := by
    intro id
    rw [Bool.eq_iff_iff, List.contains_iff_mem, List.contains_iff_mem]
    exact origin.mem_reachableConstructors.symm
  refine congrArg (List.map _) (List.filter_congr ?_)
  rintro ⟨declaration, id⟩ -
  show ((declaration.plan system naming id).isUsable && !_) = (!declaration.isExcluded system && !_)
  rw [isUsable_plan, sameReached]
  rfl

/-- What is reached in the builder was declared, and is not excluded. -/
theorem exists_declaration_of_reachable {system : TypeSystem} {naming : Naming} {root : Root}
    {declarations : List Declaration} {id : Nat}
    (member : id ∈ (CallGraph.ofBuilder
      (assembleValid system naming root declarations)).reachableConstructors) :
    ∃ declaration, declarations[id]? = some declaration ∧
      declaration.isExcluded system = false := by
  let origin := originOfValid system naming root declarations
  have reached := CallGraph.mem_reachableConstructors_build.1
    (origin.mem_reachableConstructors.1 member)
  obtain ⟨plan, isPlan, rfl⟩ := origin.exists_plan reached
  obtain ⟨planned, usable⟩ := List.mem_filter.1 isPlan
  obtain ⟨id, declaration, declared, rfl⟩ := mem_planAll.1 planned
  rw [isUsable_plan, Bool.not_eq_true'] at usable
  exact ⟨declaration, declared, usable⟩

theorem accounts_assembleValid (system : TypeSystem) (naming : Naming) (root : Root)
    (declarations : List Declaration) :
    (assembleValid system naming root declarations).Accounts system declarations := by
  obtain ⟨displaced, codes, diagnostics⟩ :=
    diagnostics_assembleValid system naming root declarations
  refine ⟨fun id member => exists_declaration_of_reachable member, ?_, ?_⟩
  · rw [diagnostics, List.filter_append, List.filter_append, filter_planFindings_unreachable,
      filter_displaced codes DiagnosticCode.noConfusion DiagnosticCode.noConfusion,
      List.nil_append, List.nil_append, List.filter_eq_self]
    intro finding member
    obtain ⟨entry, -, rfl⟩ := List.mem_map.1 member
    rfl
  · have noUnreached : ∀ entries : List (Declaration × Nat),
        (entries.map fun (declaration, _) => declaration.unreachableFinding).filter
          (·.code = .noCompatibleConverter) = [] := by
      refine fun entries => filter_code_eq_nil fun finding member => ?_
      obtain ⟨entry, -, rfl⟩ := List.mem_map.1 member
      exact DiagnosticCode.noConfusion
    rw [diagnostics, List.filter_append, List.filter_append,
      filter_displaced codes DiagnosticCode.noConfusion DiagnosticCode.noConfusion, noUnreached,
      List.append_nil, List.append_nil, List.filter_flatMap]
    exact List.flatMap_congr fun declaration _ => filter_planFindings_unmet system declaration

/-- A builder of valid declarations accounts for each of them. -/
theorem accounts_assemble (system : TypeSystem) (naming : Naming) (root : Root)
    (declarations : List Declaration) (valid : Validation.findings root declarations = []) :
    (assemble system naming root declarations).Accounts system declarations := by
  rw [assemble_of_valid valid]
  exact accounts_assembleValid system naming root declarations

/-- Two constructors that take the same are both valid, and each is reached or reported. -/
theorem accounts_assemble_twins :
    let declaration : Declaration := {
      constructor := {
        target := .bare none "Order"
        parameters := [{ name := "id", type := .simple "Int" }] }
      root := "Shop" }
    Validation.findings (.marked none "Shop") [declaration, declaration] = [] ∧
      (assemble {} {} (.marked none "Shop") [declaration, declaration]).Accounts {}
        [declaration, declaration] :=
  ⟨rfl, accounts_assemble {} {} (.marked none "Shop") _ rfl⟩

end StagedBuilder
