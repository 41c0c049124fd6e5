/-
This file says what becomes of the converters that are offered for a parameter. A converter
fits if its type parameters can be bound so that what it returns is assignable to the type
of the parameter. Those that fit supply the parameter, in the order in which they are
declared, and each of them knows the others by their display forms.

The findings are about the rest: there is one for each converter that is not static,
whether or not it fits, and then one for each converter that does not fit, or a single one
for the whole group if none fits. No other finding of a builder has their codes.
-/

import StagedBuilder.Proofs.Account

namespace StagedBuilder

/-! ### Converters that fit -/

namespace ConverterGroup

/-- The type parameters of a converter can be bound so that what it returns is assignable to the
wanted type. -/
def Fits (system : TypeSystem) (wanted : TypeTerm) (converter : Converter) : Prop :=
  ∃ bound, system.bindings? converter.returnType converter.typeParameters wanted = some bound ∧
    system.isAssignable (converter.returnType.substitute bound) wanted = true

section

variable {system : TypeSystem} {wanted : TypeTerm} {converter : Converter}

theorem fit?_eq_some_iff {bound : Substitution} :
    fit? system wanted converter = some bound ↔
      system.bindings? converter.returnType converter.typeParameters wanted = some bound ∧
        system.isAssignable (converter.returnType.substitute bound) wanted = true :=
  Option.filter_eq_some_iff

theorem isSome_fit?_iff : (fit? system wanted converter).isSome = true ↔
    Fits system wanted converter := by
  rw [Option.isSome_iff_exists]
  exact exists_congr fun _ => fit?_eq_some_iff

instance : Decidable (Fits system wanted converter) := decidable_of_iff _ isSome_fit?_iff

theorem decide_fits : decide (Fits system wanted converter) =
    (fit? system wanted converter).isSome :=
  Bool.eq_iff_iff.2 (decide_eq_true_iff.trans isSome_fit?_iff.symm)

/-- The converters of the group that fit. -/
def fittingConverters (system : TypeSystem) (wanted : TypeTerm) (group : ConverterGroup) :
    List Converter :=
  group.converters.filter fun converter => Fits system wanted converter

theorem map_fst_fitting (system : TypeSystem) (wanted : TypeTerm) (group : ConverterGroup) :
    (group.fitting system wanted).map Prod.fst = group.fittingConverters system wanted := by
  unfold fitting fittingConverters
  induction group.converters with
  | nil => rfl
  | cons first rest inductionHypothesis =>
    rw [List.filter_cons, decide_fits, ← inductionHypothesis, List.filterMap_cons]
    cases fit? system wanted first <;> rfl

theorem bindings?_of_mem_fitting {group : ConverterGroup} {bound : Substitution}
    (member : (converter, bound) ∈ group.fitting system wanted) :
    system.bindings? converter.returnType converter.typeParameters wanted = some bound := by
  obtain ⟨other, -, found⟩ := List.mem_filterMap.1 member
  obtain ⟨otherBound, fits, same⟩ := Option.map_eq_some_iff.1 found
  cases same
  exact (fit?_eq_some_iff.1 fits).1

theorem misfits_eq (system : TypeSystem) (wanted : TypeTerm) (group : ConverterGroup) :
    group.misfits system wanted =
      group.converters.filter fun converter => ¬ Fits system wanted converter := by
  refine List.filter_congr fun converter _ => ?_
  rw [decide_not, decide_fits, Option.not_isSome]

end

/-! ### Plans of converters -/

/-- The converters of the group that fit supply a parameter of the wanted type, and nothing else
does. -/
def Supplies (system : TypeSystem) (numbering : Numbering) (wanted : TypeTerm)
    (group : ConverterGroup) (supplies : List SupplyPlan) : Prop :=
  ∃ plans : List ConverterPlan, supplies = plans.map SupplyPlan.converted ∧
    plans.map (·.converter) = group.fittingConverters system wanted ∧
      ∀ place plan, plans[place]? = some plan →
        plan.siblings =
            ((group.fittingConverters system wanted).eraseIdx place).map Converter.display ∧
          ∃ bound, system.bindings? plan.converter.returnType plan.converter.typeParameters
              wanted = some bound ∧
            plan = group.plan numbering plan.siblings plan.converter bound

theorem supplies_plans (system : TypeSystem) (numbering : Numbering) (wanted : TypeTerm)
    (group : ConverterGroup) : group.Supplies system numbering wanted
      ((group.plans system numbering wanted).map SupplyPlan.converted) := by
  unfold Supplies
  rw [← map_fst_fitting]
  refine ⟨_, rfl, ?_, fun place plan found => ?_⟩
  · rw [plans, List.map_map]
    refine Eq.trans ?_ (congrArg _ (List.zipIdx_map_fst 0 (group.fitting system wanted)))
    rw [List.map_map]
    rfl
  · rw [plans, List.getElem?_map, Option.map_eq_some_iff] at found
    obtain ⟨⟨⟨converter, bound⟩, index⟩, atPlace, rfl⟩ := found
    rw [List.getElem?_zipIdx, Option.map_eq_some_iff] at atPlace
    obtain ⟨fitting, isFitting, same⟩ := atPlace
    cases same
    rw [Nat.zero_add]
    have displays : ((group.fitting system wanted).map (·.1.display)).eraseIdx place =
        (((group.fitting system wanted).map Prod.fst).eraseIdx place).map Converter.display := by
      rw [List.eraseIdx_map, List.eraseIdx_map, List.map_map]
      rfl
    exact ⟨displays, bound, bindings?_of_mem_fitting (List.mem_of_getElem? isFitting), rfl⟩

/-! ### Findings about converters -/

/-- The finding about a converter that is not static. -/
def notStaticFinding (group : ConverterGroup) (converter : Converter) : Diagnostic :=
  { code := .converterNotStatic
    location := converter.primaryLocation
    arguments := [group.declaringType.display ++ "::" ++ converter.display] }

/-- The finding about a converter that does not fit a parameter. -/
def misfitFinding (parameter : Parameter) (group : ConverterGroup) (converter : Converter) :
    Diagnostic :=
  { code := .incompatibleConverter
    location := converter.primaryLocation
    additionalLocations := [group.location]
    arguments := [converter.display, parameter.name, parameter.type.display] }

/-- The findings that a group calls for at a parameter. -/
structure Finds (system : TypeSystem) (parameter : Parameter) (group : ConverterGroup)
    (findings : List Diagnostic) : Prop where
  /-- If no converter fits there is one finding about the group. -/
  unmet : (∀ converter ∈ group.converters, ¬ Fits system parameter.type converter) →
    findings = (group.converters.filter fun converter => !converter.isStatic).map
      group.notStaticFinding ++ [Declaration.unmetFinding parameter group]
  /-- If one fits there is a finding about each one that does not. -/
  met : (∃ converter ∈ group.converters, Fits system parameter.type converter) →
    findings = (group.converters.filter fun converter => !converter.isStatic).map
      group.notStaticFinding ++
        (group.converters.filter fun converter => ¬ Fits system parameter.type converter).map
          (misfitFinding parameter group)

theorem isEmpty_fitting_iff {system : TypeSystem} {wanted : TypeTerm} {group : ConverterGroup} :
    (group.fitting system wanted).isEmpty = true ↔
      ∀ converter ∈ group.converters, ¬ Fits system wanted converter := by
  rw [isEmpty_fitting, List.all_eq_true]
  refine forall₂_congr fun converter _ => ?_
  rw [← isSome_fit?_iff, Bool.not_eq_true, Option.isSome_eq_false_iff]

theorem finds_group (system : TypeSystem) (parameter : Parameter) (group : ConverterGroup) :
    group.Finds system parameter
      (group.staticFindings ++ group.misfitFindings system parameter) where
  unmet noneFits := by
    rw [misfitFindings, if_pos (isEmpty_fitting_iff.2 noneFits)]
    rfl
  met someFits := by
    have nonempty : ¬ (group.fitting system parameter.type).isEmpty = true := by
      rw [isEmpty_fitting_iff]
      simpa using someFits
    rw [misfitFindings, if_neg nonempty, misfits_eq]
    rfl

end ConverterGroup

/-! ### Constructors and builders -/

namespace Declaration

/-- The parameters that have a group of converters. -/
def offers (declaration : Declaration) : List (Parameter × ConverterGroup) :=
  declaration.constructor.parameters.filterMap fun parameter => parameter.group.map (parameter, ·)

theorem planFindings_eq (system : TypeSystem) (declaration : Declaration) :
    declaration.planFindings system = declaration.offers.flatMap fun (parameter, group) =>
      group.staticFindings ++ group.misfitFindings system parameter := by
  unfold planFindings offers
  induction declaration.constructor.parameters with
  | nil => rfl
  | cons first rest inductionHypothesis =>
    rw [List.flatMap_cons, List.filterMap_cons, inductionHypothesis]
    cases first.group <;> rfl

/-- What becomes of the converters that are offered for the parameters of a constructor. -/
structure SortsConverters (system : TypeSystem) (naming : Naming) (id : Nat)
    (declaration : Declaration) : Prop where
  supplies : ∀ (index : Nat) (parameter : Parameter) (group : ConverterGroup),
    declaration.constructor.parameters[index]? = some parameter →
    parameter.group = some group →
      ∃ plan, (declaration.plan system naming id).parameters[index]? = some plan ∧
        plan.parameter = parameter ∧
          group.Supplies system (declaration.plan system naming id).numbering parameter.type
            plan.supplies
  /-- The findings come group by group, in the order of the parameters. -/
  findings : ∃ findings, declaration.planFindings system = List.flatten findings ∧
    List.Forall₂ (fun offer found => ConverterGroup.Finds system offer.1 offer.2 found)
      declaration.offers findings

theorem sortsConverters (system : TypeSystem) (naming : Naming) (id : Nat)
    (declaration : Declaration) : declaration.SortsConverters system naming id where
  supplies index parameter group isParameter offered := by
    obtain ⟨plan, isPlan, same⟩ := exists_parameterPlan system naming id isParameter
    refine ⟨plan, isPlan, same, ?_⟩
    obtain ⟨declared, form, isDeclared, -, rfl⟩ := getElem?_parameters_plan isPlan
    cases isDeclared.symm.trans isParameter
    have supplies := group.supplies_plans system (numberingOf declaration.types) parameter.type
    rw [parameterPlan, Declaration.supplies, offered]
    exact supplies
  findings := by
    refine ⟨_, planFindings_eq system declaration, List.forall₂_map_right_iff.2 ?_⟩
    exact List.forall₂_same.2 fun offer _ => offer.2.finds_group system offer.1

end Declaration

/-- Converters are sorted for each constructor apart, and in a builder of valid declarations no
findings but those about their converters are about converters that are not static or do not
fit. -/
theorem sortsConverters_assemble (system : TypeSystem) (naming : Naming) (root : Root)
    (declarations : List Declaration) :
    (∀ (id : Nat) (declaration : Declaration), declaration.SortsConverters system naming id) ∧
      (Validation.findings root declarations = [] →
        (assemble system naming root declarations).diagnostics.filter (fun finding =>
            finding.code ∈ [DiagnosticCode.converterNotStatic, .noCompatibleConverter,
              .incompatibleConverter]) =
          declarations.flatMap (Declaration.planFindings system)) := by
  refine ⟨fun id declaration => declaration.sortsConverters system naming id, fun valid => ?_⟩
  obtain ⟨displaced, codes, diagnostics⟩ :=
    diagnostics_assembleValid system naming root declarations
  rw [assemble_of_valid valid, diagnostics, List.append_assoc, List.filter_append,
    List.filter_eq_self.2, List.filter_eq_nil_iff.2, List.append_nil]
  · intro finding member
    rcases List.mem_append.1 member with isDisplaced | isUnreached
    · rcases codes finding isDisplaced with same | same <;> simp [same]
    · obtain ⟨entry, -, rfl⟩ := List.mem_map.1 isUnreached
      simp [Declaration.unreachableFinding]
  · intro finding member
    obtain ⟨declaration, -, ofDeclaration⟩ := List.mem_flatMap.1 member
    exact decide_eq_true (code_of_mem_planFindings ofDeclaration)

/-- Of three converters the one that makes a text does not fit a number, and one is not static. -/
theorem sortsConverters_assemble_readers :
    let reader (name : String) (returnType : TypeTerm) (isStatic : Bool) : Converter :=
      { name, returnType, isStatic, parameters := [⟨"text", .simple "String"⟩] }
    let group : ConverterGroup := {
      declaringType := .simple "Readers"
      converters := [reader "Decimal" (.simple "Int") true, reader "Trim" (.simple "String") true,
        reader "Octal" (.simple "Int") false] }
    let number : Parameter := { name := "id", type := .simple "Int", group := some group }
    let declaration : Declaration := {
      constructor := { target := .bare none "Order", parameters := [number] }
      root := "Shop" }
    Validation.findings (.marked none "Shop") [declaration] = [] ∧
      ((∃ plan, (declaration.plan {} {} 0).parameters[0]? = some plan ∧
        group.Supplies {} (declaration.plan {} {} 0).numbering (.simple "Int") plan.supplies) ∧
      group.fittingConverters {} (.simple "Int") =
        [reader "Decimal" (.simple "Int") true, reader "Octal" (.simple "Int") false]) ∧
      (assemble {} {} (.marked none "Shop") [declaration]).diagnostics.filter (fun finding =>
          finding.code ∈ [DiagnosticCode.converterNotStatic, .noCompatibleConverter,
            .incompatibleConverter]) =
        [group.notStaticFinding (reader "Octal" (.simple "Int") false),
          ConverterGroup.misfitFinding number group (reader "Trim" (.simple "String") true)] := by
  intro reader group number declaration
  obtain ⟨sorted, reported⟩ := sortsConverters_assemble {} {} (.marked none "Shop") [declaration]
  refine ⟨rfl, ⟨?_, by decide +kernel⟩, ?_⟩
  · obtain ⟨plan, isPlan, -, supplies⟩ :=
      (sorted 0 declaration).supplies 0 number group rfl rfl
    exact ⟨plan, isPlan, supplies⟩
  · rw [reported rfl]
    decide +kernel

end StagedBuilder
