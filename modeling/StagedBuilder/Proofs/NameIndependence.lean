/-
This file proves that a builder has one shape whatever the type parameters of its targets
are called. Each declaration may call them differently, as long as it calls different ones
differently. In positional form nothing changes, and the converters that fit are the same
with the same plans, so the constructors are alike where names of type parameters are not
seen, and so are the methods and steps.

Findings say in their texts what types are called. Their codes and their places do not
depend on it, nor does their order: they are about converters that fit or do not, about
what collisions have displaced, and about what the call graph leads to.
-/

import StagedBuilder.Proofs.Findings
import StagedBuilder.Proofs.Matching

namespace StagedBuilder

open TypeTerm (occurrencesOfAll mem_occurrencesOfAll relabel)

/-! ### Declarations with other names -/

/-- The type parameter with other names, also in its bounds. -/
def TypeParameter.rename (image : String → String) (declared : TypeParameter) : TypeParameter :=
  { name := image declared.name
    constraints := { declared.constraints with
      bounds := declared.constraints.bounds.map (·.rename image) } }

def Parameter.rename (image : String → String) (parameter : Parameter) : Parameter :=
  { parameter with type := parameter.type.rename image }

theorem Parameter.group_rename (image : String → String) (parameter : Parameter) :
    (parameter.rename image).group = parameter.group := rfl

/-- The declaration with other names for the type parameters of the target, also where the
constructor's parameters mention them. What converters call theirs is left alone. -/
def Declaration.rename (image : String → String) (declaration : Declaration) : Declaration :=
  { declaration with
    constructor := { declaration.constructor with
      target := { declaration.target with
        typeParameters := declaration.target.typeParameters.map (·.rename image) }
      parameters := declaration.constructor.parameters.map (·.rename image) } }

/-- The other declaration is the declaration with other names for the type parameters, different
ones in the parameters being called differently. -/
def Declaration.Variant (declaration other : Declaration) : Prop :=
  ∃ image, Apart image (occurrencesOfAll declaration.types) ∧ other = declaration.rename image

namespace Declaration

variable (image : String → String) (declaration : Declaration)

theorem nameless_rename : (declaration.rename image).nameless = declaration.nameless := by
  have parameters : (declaration.constructor.parameters.map (·.rename image)).map
      (fun parameter => { parameter with type := parameter.type.erased }) =
        declaration.constructor.parameters.map
          fun parameter => { parameter with type := parameter.type.erased } := by
    rw [List.map_map]
    refine List.map_congr_left fun parameter _ => ?_
    exact congrArg (fun type => { parameter with type })
      (TypeTerm.erased_rename image parameter.type)
  have typeParameters : (declaration.target.typeParameters.map (·.rename image)).map
      (fun _ => ({ name := "?" } : TypeParameter)) =
        declaration.target.typeParameters.map fun _ => { name := "?" } := List.map_map
  exact congrArg₂ (fun typeParameters parameters => { declaration with
    constructor := { declaration.constructor with
      target := { declaration.target with typeParameters }
      parameters } }) typeParameters parameters

theorem types_rename : (declaration.rename image).types =
    declaration.types.map (·.substitute (relabel image (occurrencesOfAll declaration.types))) := by
  have renamed : (declaration.rename image).types = declaration.types.map (·.rename image) := by
    rw [types, rename, List.map_map, types, List.map_map]
    rfl
  rw [renamed]
  refine List.map_congr_left fun type member => ?_
  exact TypeTerm.rename_eq_substitute image fun name occurs =>
    mem_occurrencesOfAll.2 ⟨type, member, occurs⟩

variable {image} {declaration}

/-- A renamed type has the positional form that the type had. -/
theorem positional_rename (apart : Apart image (occurrencesOfAll declaration.types))
    {type : TypeTerm} (listed : type.occurrences ⊆ occurrencesOfAll declaration.types) :
    (numberingOf (declaration.rename image).types).positional (type.rename image) =
      (numberingOf declaration.types).positional type := by
  rw [types_rename, numberingOf_relabel apart, TypeTerm.rename_eq_substitute image listed]
  exact Numbering.positional_relabel apart (fun name member => mem_numberingOf.1 member)
    fun name occurs => mem_numberingOf.2 (listed occurs)

theorem positionalTypes_rename (apart : Apart image (occurrencesOfAll declaration.types)) :
    positionalTypes (declaration.rename image).types = positionalTypes declaration.types :=
  Renamed.positionalTypes_eq ⟨image, apart, declaration.types_rename image⟩

variable {system : TypeSystem}

theorem occurrences_subset_of_parameter {parameter : Parameter}
    (member : parameter ∈ declaration.constructor.parameters) :
    parameter.type.occurrences ⊆ occurrencesOfAll declaration.types :=
  fun _ occurs => mem_occurrencesOfAll.2 ⟨_, List.mem_map_of_mem member, occurs⟩

theorem Closed.of_group (closed : declaration.Closed) {parameter : Parameter}
    (member : parameter ∈ declaration.constructor.parameters) {group : ConverterGroup}
    (isGroup : parameter.group = some group) :
    ∀ converter ∈ group.converters, converter.Closed :=
  closed parameter member group (by rw [isGroup]; exact List.mem_singleton_self _)

/-- A renamed parameter can be supplied in the same ways. -/
theorem supplies_rename (structural : system.Structural) (naming : Naming)
    (apart : Apart image (occurrencesOfAll declaration.types)) (closed : declaration.Closed)
    {parameter : Parameter} (member : parameter ∈ declaration.constructor.parameters) :
    supplies system naming (numberingOf (declaration.rename image).types)
        (parameter.rename image) =
      supplies system naming (numberingOf declaration.types) parameter := by
  unfold supplies
  rw [Parameter.group_rename]
  cases isGroup : parameter.group with
  | none => rfl
  | some group =>
    have listed := occurrences_subset_of_parameter member
    refine congrArg (List.map SupplyPlan.converted) ?_
    exact ConverterGroup.plans_rename structural apart listed (closed.of_group member isGroup)
      fun type inWanted => positional_rename apart (List.Subset.trans inWanted listed)

/-- Where names are not seen, the plans of a renamed constructor are alike. -/
theorem alike_plan_rename (structural : system.Structural) (naming : Naming) (id : Nat)
    (apart : Apart image (occurrencesOfAll declaration.types)) (closed : declaration.Closed) :
    (declaration.plan system naming id).Alike .nameless .nameless
      ((declaration.rename image).plan system naming id) where
  id := rfl
  declaration := (declaration.nameless_rename image).symm
  numbering := fun named => absurd named Bool.false_ne_true
  parameters := by
    have types : (declaration.plan system naming id).parameters.map (·.key.type) =
        ((declaration.rename image).plan system naming id).parameters.map (·.key.type) := by
      rw [map_type_parameters_plan, map_type_parameters_plan, positionalTypes_rename apart]
    have length : (declaration.plan system naming id).parameters.length =
        ((declaration.rename image).plan system naming id).parameters.length := by
      rw [← List.length_map, types, List.length_map]
    refine List.forall₂_of_length_eq_of_get length fun index bound boundOther => ?_
    have found := List.getElem?_eq_getElem bound
    have foundOther := List.getElem?_eq_getElem boundOther
    have type : (declaration.plan system naming id).parameters[index].key.type =
        ((declaration.rename image).plan system naming id).parameters[index].key.type := by
      have atIndex := congrArg (·[index]?) types
      simp only [List.getElem?_map, found, foundOther, Option.map_some] at atIndex
      exact Option.some.inj atIndex
    rw [List.get_eq_getElem, List.get_eq_getElem]
    obtain ⟨declared, form, isDeclared, -, made⟩ := getElem?_parameters_plan found
    obtain ⟨declaredOther, formOther, isDeclaredOther, -, madeOther⟩ :=
      getElem?_parameters_plan foundOther
    obtain rfl : declared.rename image = declaredOther := by
      have isRenamed : (declaration.constructor.parameters.map (·.rename image))[index]? =
          some declaredOther := isDeclaredOther
      rw [List.getElem?_map, isDeclared, Option.map_some] at isRenamed
      exact Option.some.inj isRenamed
    have supplies := supplies_rename structural naming apart closed
      (List.mem_of_getElem? isDeclared)
    rw [made, madeOther] at type ⊢
    exact {
      constructor := rfl
      index := rfl
      name := rfl
      type
      methodNames := congrArg (fun offered : List SupplyPlan =>
        sortedNames (offered.map SupplyPlan.name)) supplies.symm
      owner := rfl
      priority := rfl
      location := rfl
      introduced := fun named => absurd named Bool.false_ne_true
      supplies := supplies.symm
      documentation := rfl }

/-- The findings about the converters of a renamed constructor are at the same places. -/
theorem map_place_planFindings_rename (structural : system.Structural)
    (apart : Apart image (occurrencesOfAll declaration.types)) (closed : declaration.Closed) :
    ((declaration.rename image).planFindings system).map Diagnostic.place =
      (declaration.planFindings system).map Diagnostic.place := by
  have parameters : (declaration.rename image).constructor.parameters =
      declaration.constructor.parameters.map (·.rename image) := rfl
  rw [planFindings, parameters, List.flatMap_map, List.map_flatMap, planFindings,
    List.map_flatMap]
  refine List.flatMap_congr fun parameter member => ?_
  rw [Parameter.group_rename]
  cases isGroup : parameter.group with
  | none => rfl
  | some group =>
    have listed := occurrences_subset_of_parameter member
    have closedGroup := closed.of_group member isGroup
    have none : (group.fitting system (parameter.rename image).type).isEmpty =
        (group.fitting system parameter.type).isEmpty := by
      show (group.fitting system (parameter.type.rename image)).isEmpty = _
      rw [ConverterGroup.fitting_rename structural apart listed closedGroup, List.isEmpty_map]
    have misfits : group.misfits system (parameter.rename image).type =
        group.misfits system parameter.type :=
      ConverterGroup.misfits_rename structural apart listed closedGroup
    show List.map _ (group.staticFindings ++ group.misfitFindings system (parameter.rename image)) =
      List.map _ (group.staticFindings ++ group.misfitFindings system parameter)
    rw [List.map_append, List.map_append, ConverterGroup.misfitFindings, none, misfits,
      ConverterGroup.misfitFindings]
    refine congrArg (_ ++ ·) ?_
    split
    · rfl
    · rw [List.map_map, List.map_map]
      rfl

end Declaration

/-! ### Lists of declarations -/

variable {system : TypeSystem} {naming : Naming} {root : Root}
  {declarations others : List Declaration}

theorem map_nameless_eq (variants : List.Forall₂ Declaration.Variant declarations others) :
    others.map Declaration.nameless = declarations.map Declaration.nameless := by
  induction variants with
  | nil => rfl
  | @cons declaration other _ _ variant _ inductionHypothesis =>
    obtain ⟨image, -, rfl⟩ := variant
    rw [List.map_cons, List.map_cons, declaration.nameless_rename, inductionHypothesis]

theorem map_place_planFindings (structural : system.Structural)
    (closed : ∀ declaration ∈ declarations, declaration.Closed)
    (variants : List.Forall₂ Declaration.Variant declarations others) :
    (declarations.flatMap (Declaration.planFindings system)).map Diagnostic.place =
      (others.flatMap (Declaration.planFindings system)).map Diagnostic.place := by
  induction variants with
  | nil => rfl
  | cons variant _ inductionHypothesis =>
    obtain ⟨image, apart, rfl⟩ := variant
    rw [List.flatMap_cons, List.flatMap_cons, List.map_append, List.map_append,
      Declaration.map_place_planFindings_rename structural apart (closed _ List.mem_cons_self),
      inductionHypothesis fun other member => closed other (List.mem_cons_of_mem _ member)]

theorem forall₂_plans (structural : system.Structural) (naming : Naming) (start : Nat)
    (closed : ∀ declaration ∈ declarations, declaration.Closed)
    (variants : List.Forall₂ Declaration.Variant declarations others) :
    List.Forall₂ (ConstructorPlan.Alike .nameless .nameless)
      ((declarations.zipIdx start).map fun (declaration, id) => declaration.plan system naming id)
      ((others.zipIdx start).map fun (declaration, id) => declaration.plan system naming id) := by
  induction variants generalizing start with
  | nil => exact .nil
  | cons variant _ inductionHypothesis =>
    obtain ⟨image, apart, rfl⟩ := variant
    rw [List.zipIdx_cons, List.map_cons, List.zipIdx_cons, List.map_cons]
    refine .cons ?_ (inductionHypothesis (start + 1)
      fun other member => closed other (List.mem_cons_of_mem _ member))
    exact Declaration.alike_plan_rename structural naming start apart
      (closed _ List.mem_cons_self)

/-- Alike constructors are usable or not alike. -/
theorem ConstructorPlan.Alike.isUsable_eq {first second : View} {left right : ConstructorPlan}
    (alike : left.Alike first second right) : left.isUsable = right.isUsable :=
  Lists.all_eq_all alike.parameters fun _ _ plans => by rw [plans.supplies]

theorem forall₂_usable_planAll (structural : system.Structural) (naming : Naming)
    (closed : ∀ declaration ∈ declarations, declaration.Closed)
    (variants : List.Forall₂ Declaration.Variant declarations others) :
    List.Forall₂ (ConstructorPlan.Alike .nameless .nameless)
      ((planAll system naming declarations).filter ConstructorPlan.isUsable)
      ((planAll system naming others).filter ConstructorPlan.isUsable) :=
  List.rel_filter (fun _ _ alike => Bool.eq_iff_iff.1 alike.isUsable_eq)
    (forall₂_plans structural naming 0 closed variants)

/-! ### Builders -/

/-- Two builders of one shape: names of type parameters apart, the methods of the root and the steps
are the same, and the findings have the same codes and point to the same places. -/
structure Builder.SameShape (left right : Builder) : Prop
    extends left.Alike .nameless .nameless right where
  findings : left.diagnostics.map Diagnostic.place = right.diagnostics.map Diagnostic.place

theorem map_place_diagnostics_assembleValid (structural : system.Structural)
    (closed : ∀ declaration ∈ declarations, declaration.Closed)
    (variants : List.Forall₂ Declaration.Variant declarations others) :
    (assembleValid system naming root declarations).diagnostics.map Diagnostic.place =
      (assembleValid system naming root others).diagnostics.map Diagnostic.place := by
  have alike := forall₂_usable_planAll structural naming closed variants
  obtain ⟨methods, walks⟩ := walkTree_planTree_eq rfl naming root alike
  let origin := originOfValid system naming root declarations
  let originOther := originOfValid system naming root others
  have rootMethods : origin.rootMethods.map View.nameless.method =
      originOther.rootMethods.map View.nameless.method := methods
  have walked : View.nameless.walk origin.walk = View.nameless.walk originOther.walk := walks
  have displaced : (displacedFindings declarations origin.rootMethods origin.walk).map
      Diagnostic.place =
        (displacedFindings others originOther.rootMethods originOther.walk).map
          Diagnostic.place := by
    rw [← map_place_displacedFindings .nameless declarations others, rootMethods, walked,
      map_place_displacedFindings]
  have reached : (CallGraph.build origin.rootMethods
      origin.walk.table).reachableConstructors.map View.nameless.number =
        (CallGraph.build originOther.rootMethods
          originOther.walk.table).reachableConstructors.map View.nameless.number := by
    rw [map_number_reachableConstructors, rootMethods, walked, ← map_number_reachableConstructors]
  have unreached := map_place_reach_planCoverage rfl
    (pairwise_id_planAll system naming declarations) (pairwise_id_planAll system naming others)
    alike reached
  show List.map _ (_ ++ displacedFindings declarations origin.rootMethods origin.walk ++ _) =
    List.map _ (_ ++ displacedFindings others originOther.rootMethods originOther.walk ++ _)
  rw [List.map_append, List.map_append, List.map_append, List.map_append, displaced,
    map_place_planFindings structural closed variants]
  exact congrArg (_ ++ ·) unreached

/-- In a structural type system, and with converters that declare what they mention, it makes no
difference to the shape of a builder what the type parameters of the targets are called. -/
theorem sameShape_assemble (system : TypeSystem) (naming : Naming) (root : Root)
    (structural : system.Structural) (declarations others : List Declaration)
    (closed : ∀ declaration ∈ declarations, declaration.Closed)
    (variants : List.Forall₂ Declaration.Variant declarations others) :
    (assemble system naming root declarations).SameShape
      (assemble system naming root others) := by
  have findings : (Validation.findings root declarations).map Diagnostic.place =
      (Validation.findings root others).map Diagnostic.place := by
    rw [← map_place_findings, ← map_nameless_eq variants, map_place_findings]
  by_cases refused : (Validation.findings root declarations).any Diagnostic.isError = true
  · have refusedOther := any_isError_eq findings ▸ refused
    rw [assemble_of_refused refused, assemble_of_refused refusedOther]
    exact ⟨alike_empty root _ _, findings⟩
  · have accepted := any_isError_eq findings ▸ refused
    rw [assemble_of_accepted refused, assemble_of_accepted accepted]
    have alike : (assembleValid system naming root declarations).Alike .nameless .nameless
        (assembleValid system naming root others) :=
      alike_assembleValid rfl (forall₂_usable_planAll structural naming closed variants)
    refine ⟨⟨alike.methods, alike.steps⟩, ?_⟩
    show List.map _ (_ ++ _) = List.map _ (_ ++ _)
    rw [List.map_append, List.map_append, findings,
      map_place_diagnostics_assembleValid structural closed variants]

/-- Two targets exchange the names of their type parameters, one of which a converter binds. -/
theorem sameShape_assemble_exchanged :
    let wrapped : ConverterGroup := {
      declaringType := .simple "Lists"
      converters := [{
        name := "Single"
        typeParameters := [{ name := "T" }]
        parameters := [⟨"item", .parameter "T"⟩]
        returnType := .named none "List" [.parameter "T"] }] }
    let bag (first second : String) : Declaration := {
      constructor := {
        target := { name := "Bag", typeParameters := [{ name := first }, { name := second }] }
        parameters := [
          { name := "items", type := .named none "List" [.parameter first], group := some wrapped },
          { name := "label", type := .parameter second }] }
      root := "Shop" }
    Validation.findings (.marked none "Shop") [bag "T" "U", bag "X" "Y"] = [] ∧
      (assemble {} {} (.marked none "Shop") [bag "T" "U", bag "X" "Y"]).SameShape
        (assemble {} {} (.marked none "Shop") [bag "U" "T", bag "X" "Y"]) := by
  intro wrapped bag
  let exchange (name : String) : String :=
    if name = "T" then "U" else if name = "U" then "T" else name
  have structural : TypeSystem.Structural {} :=
    ⟨rfl, fun _ member => absurd member List.not_mem_nil⟩
  have closed : ∀ declaration ∈ [bag "T" "U", bag "X" "Y"], declaration.Closed := by decide
  have variants : List.Forall₂ Declaration.Variant [bag "T" "U", bag "X" "Y"]
      [bag "U" "T", bag "X" "Y"] := by
    refine .cons ⟨exchange, ?_, ?_⟩ (.cons ⟨exchange, ?_, ?_⟩ .nil)
    · unfold Apart
      decide
    · rfl
    · unfold Apart
      decide
    · rfl
  exact ⟨rfl, sameShape_assemble {} {} (.marked none "Shop") structural
    [bag "T" "U", bag "X" "Y"] [bag "U" "T", bag "X" "Y"] closed variants⟩

end StagedBuilder
