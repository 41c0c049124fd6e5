/-
This file says what a step demands of the type parameters that it declares. A type parameter is
declared with the flags and the bounds that the constructor has for it whose key introduced
it on the way to the step. The bounds are written when the type parameter is introduced: of the
constructor's type parameters, those that have come up by then are called what the step
calls them, and the others keep the names they have in the constructor.

So a bound is right if it looks back only. A type parameter that comes up later on the way, or
later in the same type, has a name at the step too, and this name is the one in the bound only
if it was not taken. If it was, the bound means whatever else the step calls by that name.
-/

import StagedBuilder.Proofs.CanonicalForm
import StagedBuilder.Proofs.Matching
import StagedBuilder.Proofs.Trail

namespace StagedBuilder

open PrefixTree (Under)

/-! ### Renamings -/

/-- Two renamings do the same to a type exactly if they agree on the names in it. -/
theorem TypeTerm.rename_congr_iff {first second : String → String} {type : TypeTerm} :
    type.rename first = type.rename second ↔
      ∀ name ∈ type.occurrences, first name = second name := by
  constructor
  · intro same
    have occurrences := congrArg TypeTerm.occurrences same
    rw [occurrences_rename, occurrences_rename, List.map_inj_left] at occurrences
    exact occurrences
  · intro agree
    rw [rename_eq_substitute first fun _ occurs => occurs,
      rename_eq_substitute second fun _ occurs => occurs]
    refine substitute_congr fun name occurs => ?_
    rw [substitute_parameter_of_lookup (lookup_relabel first occurs),
      substitute_parameter_of_lookup (lookup_relabel second occurs), agree name occurs]

namespace Constraints

/-- The constraints with the type parameters in the bounds called by other names. -/
def rename (image : String → String) (constraints : Constraints) : Constraints :=
  { constraints with bounds := constraints.bounds.map (·.rename image) }

theorem rename_congr_iff {first second : String → String} {constraints : Constraints} :
    constraints.rename first = constraints.rename second ↔
      ∀ bound ∈ constraints.bounds, ∀ name ∈ bound.occurrences, first name = second name := by
  have onBounds : constraints.rename first = constraints.rename second ↔
      constraints.bounds.map (·.rename first) = constraints.bounds.map (·.rename second) := by
    simp [rename]
  rw [onBounds, List.map_inj_left]
  exact forall₂_congr fun _ _ => TypeTerm.rename_congr_iff

/-- Two substitutions one after the other are a renaming if each name has its image in the end. -/
theorem substitute_substitute_eq_rename {first second : Substitution} {image : String → String}
    (renames : ∀ name, ((TypeTerm.parameter name).substitute first).substitute second =
      .parameter (image name)) (constraints : Constraints) :
    (constraints.substitute first).substitute second = constraints.rename image := by
  have onTypes : ∀ type : TypeTerm, (type.substitute first).substitute second =
      type.rename image := by
    intro type
    rw [TypeTerm.rename_eq_substitute image fun _ occurs => occurs]
    refine TypeTerm.substitute_substitute fun name occurs => ?_
    rw [renames, TypeTerm.substitute_parameter_of_lookup (TypeTerm.lookup_relabel image occurs)]
  unfold substitute rename
  rw [List.map_map]
  exact congrArg (Constraints.mk _ _ _) (List.map_congr_left fun type _ => onTypes type)

end Constraints

/-! ### Names among declarations -/

namespace TypeParameter

/-- What declarations call a type parameter that has a number: it goes by the declaration of this
number, if there is one. -/
def called (declared : List TypeParameter) (numbering : Numbering) (name : String) :
    Option String :=
  ((numbering.index? name).bind (declared[·]?)).map (·.name)

/-- What a name means among declarations that were made from placeholders: itself, unless it is
spelled like a placeholder that has a declaration. -/
def reading (declared : List TypeParameter) (name : String) : String :=
  (((declared.map (·.name)).zipIdx.map fun (shown, index) =>
    (placeholderName index, shown)).lookup name).getD name

theorem called_declarations (scope : Scope) (numbering : Numbering) (name : String) :
    called scope.declarations numbering name =
      (numbering.index? name).bind (scope.names[·]?) := by
  unfold called
  cases numbering.index? name with
  | none => rfl
  | some index =>
    rw [Option.bind_some, Option.bind_some, ← List.getElem?_map, Scope.map_name_declarations]

theorem display_parameter (scope : Scope) (name : String) :
    scope.display (.parameter name) = .parameter (reading scope.declarations name) := by
  have found : scope.substitution.lookup name =
      ((scope.names.zipIdx.map fun (shown, index) => (placeholderName index, shown)).lookup
        name).map TypeTerm.parameter := by
    rw [← Lists.lookup_map_snd, List.map_map]
    rfl
  rw [reading, Scope.map_name_declarations, Scope.display, TypeTerm.substitute, found]
  cases List.lookup name _ <;> rfl

end TypeParameter

/-! ### Bounds as they are written -/

namespace Declaration

/-- What the target declares of a type parameter. -/
def declaredConstraints (declaration : Declaration) (name : String) : Constraints :=
  ((declaration.target.declared? name).map (·.constraints)).getD {}

/-- The numbers that a constructor has given out once the given one is given. -/
abbrev numberingThrough (declaration : Declaration) (number : Nat) : Numbering :=
  ⟨(numberingOf declaration.types).names.take (number + 1)⟩

theorem constraintsOf_eq (declaration : Declaration) (name : String) (number : Nat) :
    declaration.constraintsOf (numberingOf declaration.types) name number =
      (declaration.declaredConstraints name).substitute
        (declaration.numberingThrough number).substitution := by
  unfold constraintsOf declaredConstraints
  cases declaration.target.declared? name <;> rfl

end Declaration

namespace SynthesizedStep

/-- What a step calls a type parameter of a constructor that is there with the types of the
step's values. -/
def calls (step : SynthesizedStep) (declaration : Declaration) (name : String) : String :=
  (TypeParameter.called step.typeParameters
    (numberingOf (declaration.types.take step.known.length)) name).getD name

/-- What stands in the bounds of a step for a type parameter of the constructor, if they belong to
the type parameter of the given number. -/
def writes (step : SynthesizedStep) (declaration : Declaration) (number : Nat) (name : String) :
    String :=
  (TypeParameter.called step.typeParameters (declaration.numberingThrough number) name).getD
    (TypeParameter.reading step.typeParameters name)

end SynthesizedStep

theorem Numbering.map_fst_substitution (numbering : Numbering) :
    numbering.substitution.map Prod.fst = numbering.names := by
  rw [substitution, List.map_map]
  exact List.zipIdx_map_fst _ _

/-- The constraints of a placeholder as a scope declares it. -/
theorem Scope.substitute_constraintsOf {scope : Scope} {number : Nat} (bound : number < scope.size)
    (declaration : Declaration) (name : String) :
    (declaration.constraintsOf (numberingOf declaration.types) name number).substitute
        scope.substitution =
      (declaration.declaredConstraints name).rename fun name =>
        (TypeParameter.called scope.declarations (declaration.numberingThrough number) name).getD
          (TypeParameter.reading scope.declarations name) := by
  rw [Declaration.constraintsOf_eq]
  refine Constraints.substitute_substitute_eq_rename (fun occurring => ?_) _
  rw [TypeParameter.called_declarations]
  cases found : (declaration.numberingThrough number).index? occurring with
  | none =>
    have absent : occurring ∉ (declaration.numberingThrough number).substitution.map Prod.fst := by
      rw [Numbering.map_fst_substitution]
      intro numbered
      obtain ⟨index, isIndex, -⟩ := Numbering.exists_index? numbered
      exact Option.some_ne_none index (isIndex.symm.trans found)
    rw [TypeTerm.substitute_parameter_of_notMem absent, Option.bind_none, Option.getD_none]
    exact TypeParameter.display_parameter scope occurring
  | some index =>
    have given : index < scope.size := by
      have less := (List.getElem?_eq_some_iff.1 (Numbering.index?_eq_some found)).1
      rw [List.length_take] at less
      omega
    rw [← Scope.length_names] at given
    rw [Option.bind_some, List.getElem?_eq_getElem given, Option.getD_some]
    refine Eq.trans ?_ (Scope.display_placeholder (List.getElem?_eq_getElem given))
    exact congrArg scope.display (Numbering.positional_parameter found)

/-! ### What a step demands -/

namespace Declaration

variable {system : TypeSystem} {naming : Naming} {id : Nat} {declaration : Declaration}
  {place number : Nat} {key : ParameterPlan} {name : String} {constraints : Constraints}

/-- What a key introduces are type parameters of its constructor, by their numbers, with the
constraints declared for them. -/
theorem eq_of_mem_introduced
    (isKey : (declaration.plan system naming id).parameters[place]? = some key)
    (introduced : (number, name, constraints) ∈ key.introduced) :
    key.key.constructor = id ∧
      (numberingOf declaration.types).names[number]? = some name ∧
      constraints = declaration.constraintsOf (numberingOf declaration.types) name number := by
  obtain ⟨parameter, form, -, isForm, rfl⟩ := getElem?_parameters_plan isKey
  obtain ⟨⟨number, name⟩, inForm, same⟩ := List.mem_map.1 introduced
  cases same
  have listed : (number, name) ∈ (positionalForm declaration.types).2.flatMap (·.introduced) :=
    List.mem_flatMap.2 ⟨form, List.mem_of_getElem? isForm, inForm⟩
  rw [introduced_positionalForm] at listed
  obtain ⟨⟨name, number⟩, numbered, same⟩ := List.mem_map.1 listed
  cases same
  exact ⟨rfl, List.mem_zipIdx_iff_getElem?.1 numbered, rfl⟩

/-- What a key introduces has its number once the type of the key has come up. -/
theorem lt_width_of_mem_introduced {declarations : List Declaration}
    (declared : declarations[id]? = some declaration)
    (isKey : (declaration.plan system naming id).parameters[place]? = some key)
    (introduced : (number, name, constraints) ∈ key.introduced) {count : Nat}
    (within : place < count) : number < declaration.width count := by
  have isDeclared : (declaration.plan system naming id).Declared declarations :=
    declared_plan declared
  obtain ⟨numbers, widths⟩ :=
    isDeclared.introduced _ _ _ (Lists.eq_take_append_cons_drop isKey)
  rw [Lists.length_take_of_getElem? isKey] at numbers widths
  have isNumber : number ∈ key.introduced.map (·.1) := List.mem_map_of_mem introduced
  rw [numbers, List.mem_range'_1] at isNumber
  have wider : declaration.width (place + 1) ≤ declaration.width count := by
    have begins := Numbering.names_take_isPrefix (declaration.types.take count) (place + 1)
    rw [List.take_take, Nat.min_eq_left within] at begins
    exact begins.length_le
  have isWidth : (declaration.plan system naming id).declaration = declaration := rfl
  rw [isWidth] at isNumber widths
  omega

end Declaration

/-- How a step that was made along a way constrains the type parameters that it declares. -/
structure SynthesizedStep.ConstrainedAlong (declarations : List Declaration) (tree : PlanTree)
    (way : List ParameterPlan) (step : SynthesizedStep) : Prop where
  /-- Each of them was introduced on the way. -/
  introduced : ∀ number < step.typeParameters.length, ∃ key ∈ way, ∃ name constraints,
    (number, name, constraints) ∈ key.introduced
  /-- It is constrained as the key's constructor declares it, up to the names in the bounds. -/
  constrained : ∀ key ∈ way, ∀ number name constraints,
    (number, name, constraints) ∈ key.introduced → ∃ declaration declared,
      declarations[key.key.constructor]? = some declaration ∧
      (numberingOf declaration.types).names[number]? = some name ∧
      step.typeParameters[number]? = some declared ∧
      declared.constraints =
        (declaration.declaredConstraints name).rename (step.writes declaration number)
  /-- All names in the bounds are those by which the step calls the constructor's type parameters
  exactly if this is so for those that come up later. -/
  follows : ∀ key ∈ way, ∀ number name constraints,
    (number, name, constraints) ∈ key.introduced → ∀ declaration,
      declarations[key.key.constructor]? = some declaration → ∀ declared,
        step.typeParameters[number]? = some declared →
          (declared.constraints =
              (declaration.declaredConstraints name).rename (step.calls declaration) ↔
            ∀ bound ∈ (declaration.declaredConstraints name).bounds, ∀ other ∈ bound.occurrences,
              other ∉ (declaration.numberingThrough number).names →
                step.calls declaration other =
                  TypeParameter.reading step.typeParameters other)
  /-- Of a constructor that goes where the step was made, the step declares all type parameters
  that have come up. -/
  collected : ∀ above node plan, Under tree above node → keyOf above = keyOf way →
    plan ∈ node.values →
      plan.declaration.width step.known.length = step.typeParameters.length

namespace SynthesizedStep.MadeAlong

variable {system : TypeSystem} {naming : Naming} {declarations : List Declaration}
  {plans : List ConstructorPlan} {tree : PlanTree} {way : List ParameterPlan}
  {step : SynthesizedStep}

theorem length_typeParameters (made : step.MadeAlong tree way) :
    step.typeParameters.length = (Path.along way).scope.size := by
  rw [made.typeParameters, Scope.declarations, List.length_map, Scope.size]

/-- What a key on the way introduces is declared as its constructor has it. -/
theorem constrained (made : step.MadeAlong tree way) (grown : PlanTree.Grown plans tree)
    (planned : ∀ plan ∈ plans, plan ∈ planAll system naming declarations) {key : ParameterPlan}
    (onWay : key ∈ way) {number : Nat} {name : String} {constraints : Constraints}
    (introduced : (number, name, constraints) ∈ key.introduced) :
    ∃ declaration declared, declarations[key.key.constructor]? = some declaration ∧
      number < declaration.width step.known.length ∧
      (numberingOf declaration.types).names[number]? = some name ∧
      step.typeParameters[number]? = some declared ∧
      declared.constraints =
        (declaration.declaredConstraints name).rename (step.writes declaration number) := by
  obtain ⟨place, atPlace⟩ := List.getElem?_of_mem onWay
  obtain ⟨id, declaration, declared, isKey⟩ :=
    made.trail.exists_declaration grown planned atPlace
  obtain ⟨rfl, isName, rfl⟩ := Declaration.eq_of_mem_introduced isKey introduced
  obtain ⟨shown, isBound⟩ := made.trail.getElem?_bound grown
    (fun plan member => declared_of_mem_planAll (planned plan member)) onWay introduced
  have bound : number < (Path.along way).scope.size := (List.getElem?_eq_some_iff.1 isBound).1
  have within : place < step.known.length := by
    rw [made.length_known]
    exact (List.getElem?_eq_some_iff.1 atPlace).1
  have isDeclared : step.typeParameters[number]? = some ⟨shown,
      (declaration.constraintsOf (numberingOf declaration.types) name number).substitute
        (Path.along way).scope.substitution⟩ := by
    rw [made.typeParameters, Scope.declarations, List.getElem?_map, isBound, Option.map_some]
  refine ⟨declaration, _, declared,
    Declaration.lt_width_of_mem_introduced declared isKey introduced within, isName, isDeclared, ?_⟩
  show Constraints.substitute _ _ = _
  rw [Scope.substitute_constraintsOf bound]
  unfold writes
  rw [made.typeParameters]

/-- Of a constructor that goes where the step was made, as many type parameters have come up as
the step declares. -/
theorem width_eq (made : step.MadeAlong tree way) (grown : PlanTree.Grown plans tree)
    (allDeclared : ∀ plan ∈ plans, plan.Declared declarations) {above : List ParameterPlan}
    {node : PlanTree} (under : Under tree above node) (leads : keyOf above = keyOf way)
    {plan : ConstructorPlan} (passes : plan ∈ node.values) :
    plan.declaration.width step.known.length = step.typeParameters.length := by
  obtain ⟨isPlan, sameTypes⟩ := grown.passed under passes
  have lengths : above.length = step.known.length := by
    have leadLength := congrArg List.length leads
    rw [keyOf, keyOf, List.length_map, List.length_map] at leadLength
    rw [made.length_known, leadLength]
  have wellScoped := made.trail.walked.wellScoped grown allDeclared
  rw [made.length_typeParameters]
  refine wellScoped.size_eq_of_types ?_
  rw [← take_positionalTypes, ← (allDeclared plan isPlan).types, ← lengths, sameTypes,
    Path.key_along, ← leads, Walked.map_fst_keyOf]

end SynthesizedStep.MadeAlong

namespace SynthesizedStep

variable {step : SynthesizedStep} {declaration : Declaration} {number : Nat}

/-- A type parameter that has come up in time is written as the step calls it. -/
theorem writes_eq_calls (within : number < declaration.width step.known.length)
    (declared : number < step.typeParameters.length) {other : String}
    (inTime : other ∈ (declaration.numberingThrough number).names) :
    step.writes declaration number other = step.calls declaration other := by
  have begins : (declaration.numberingThrough number).names <+:
      (numberingOf (declaration.types.take step.known.length)).names := by
    refine List.prefix_of_prefix_length_le (List.take_prefix _ _)
      (Numbering.names_take_isPrefix _ _) ?_
    rw [List.length_take]
    exact Nat.le_trans (Nat.min_le_left _ _) within
  obtain ⟨index, found, less⟩ := Numbering.exists_index? inTime
  rw [List.length_take] at less
  have isDeclared : index < step.typeParameters.length := by omega
  unfold writes calls TypeParameter.called
  rw [found, Numbering.index?_of_isPrefix begins found, Option.bind_some,
    List.getElem?_eq_getElem isDeclared]
  rfl

/-- One that has not is written as it stands in the constructor. -/
theorem writes_of_notMem {other : String}
    (late : other ∉ (declaration.numberingThrough number).names) :
    step.writes declaration number other =
      TypeParameter.reading step.typeParameters other := by
  have notFound : (declaration.numberingThrough number).index? other = none := by
    cases found : (declaration.numberingThrough number).index? other with
    | none => rfl
    | some index => exact absurd (List.mem_of_getElem? (Numbering.index?_eq_some found)) late
  unfold writes TypeParameter.called
  rw [notFound]
  rfl

/-- The names in constraints are those by which the step calls the type parameters of the
constructor if this is so for those that come up later. -/
theorem rename_writes_iff (within : number < declaration.width step.known.length)
    (declared : number < step.typeParameters.length) {constraints : Constraints} :
    constraints.rename (step.writes declaration number) =
        constraints.rename (step.calls declaration) ↔
      ∀ bound ∈ constraints.bounds, ∀ other ∈ bound.occurrences,
        other ∉ (declaration.numberingThrough number).names →
          step.calls declaration other = TypeParameter.reading step.typeParameters other := by
  rw [Constraints.rename_congr_iff]
  refine forall₂_congr fun bound _ => forall₂_congr fun other _ => ?_
  by_cases inTime : other ∈ (declaration.numberingThrough number).names
  · exact ⟨fun _ late => absurd inTime late, fun _ => writes_eq_calls within declared inTime⟩
  · rw [writes_of_notMem inTime]
    exact ⟨fun same _ => same.symm, fun same => (same inTime).symm⟩

end SynthesizedStep

/-- Every step of a builder was made along a way, and declares its type parameters as that way
has them. -/
structure Builder.StepsConstrained (declarations : List Declaration) (tree : PlanTree)
    (builder : Builder) : Prop where
  made : ∀ step, Step.synthesized step ∈ builder.steps → ∃ way, step.MadeAlong tree way
  constrained : ∀ step, Step.synthesized step ∈ builder.steps → ∀ way,
    step.MadeAlong tree way → step.ConstrainedAlong declarations tree way

/-- Steps constrain type parameters as they are declared, with the names in the bounds that the
step has for those type parameters that came up in time. -/
theorem stepsConstrained_assemble (system : TypeSystem) (naming : Naming) (root : Root)
    (declarations : List Declaration) :
    (assemble system naming root declarations).StepsConstrained declarations
      (planTree (planAll system naming declarations)) := by
  by_cases refused : (Validation.findings root declarations).any Diagnostic.isError = true
  · rw [assemble_of_refused refused]
    exact ⟨fun step member => absurd member List.not_mem_nil,
      fun step member => absurd member List.not_mem_nil⟩
  · rw [assemble_of_accepted refused]
    let setting := settingOfValid system naming root declarations
    refine ⟨fun step member => setting.exists_madeAlong member, fun step member way made => ?_⟩
    have grown := setting.grown
    refine ⟨fun number less => ?_, fun key onWay number name constraints introduced => ?_,
      fun key onWay number name constraints introduced declaration isDeclaration declared
        isDeclared => ?_,
      fun above node plan under leads passes => ?_⟩
    · rw [made.length_typeParameters] at less
      exact made.trail.exists_introduced grown setting.allDeclared less
    · obtain ⟨declaration, declared, isDeclaration, -, isName, isDeclared, constrained⟩ :=
        made.constrained grown setting.planned onWay introduced
      exact ⟨declaration, declared, isDeclaration, isName, isDeclared, constrained⟩
    · obtain ⟨other, otherDeclared, isOther, within, -, isOtherDeclared, constrained⟩ :=
        made.constrained grown setting.planned onWay introduced
      cases isOther.symm.trans isDeclaration
      cases isOtherDeclared.symm.trans isDeclared
      rw [constrained]
      exact SynthesizedStep.rename_writes_iff within (List.getElem?_eq_some_iff.1 isDeclared).1
    · exact made.width_eq grown setting.allDeclared under leads passes

/-! ### Bounds that look ahead -/

/-- All constraints of a step follow the names that the step has for the type parameters of the
constructor, if the constructor goes where the step was made. -/
def SynthesizedStep.ConstraintsFollow (declarations : List Declaration) (tree : PlanTree)
    (way : List ParameterPlan) (step : SynthesizedStep) : Prop :=
  ∀ key ∈ way, ∀ number name constraints, (number, name, constraints) ∈ key.introduced →
    ∀ declaration, declarations[key.key.constructor]? = some declaration →
      (∃ above node plan, Under tree above node ∧ keyOf above = keyOf way ∧ plan ∈ node.values ∧
        plan.id = key.key.constructor) →
        ∀ declared, step.typeParameters[number]? = some declared →
          declared.constraints =
            (declaration.declaredConstraints name).rename (step.calls declaration)

/-- The first constructor calls the type of the first value `U`. The second one has a further type
parameter of this name, which the step calls `U1`; but the bound of `V` was written before, and
now means the type of the first value. -/
theorem not_constraintsFollow_assemble_table :
    let item : Declaration := {
      constructor := {
        target := { name := "Item", typeParameters := [{ name := "U" }] }
        parameters := [{ name := "key", type := .parameter "U" }] }
      root := "Shop" }
    let table : Declaration := {
      constructor := {
        target := {
          name := "Table"
          typeParameters := [{ name := "K" },
            { name := "V", constraints := { bounds := [.named none "Ordered" [.parameter "U"]] } },
            { name := "U" }] }
        parameters := [{ name := "key", type := .parameter "K" },
          { name := "entry", type := .named none "Entry" [.parameter "V", .parameter "U"] }] }
      root := "Shop" }
    let tree := planTree (planAll {} {} [item, table])
    Validation.findings (.marked none "Shop") [item, table] = [] ∧
      ∃ step way, Step.synthesized step ∈
          (assemble {} {} (.marked none "Shop") [item, table]).steps ∧
        step.typeParameters = [{ name := "U" },
          { name := "V", constraints := { bounds := [.named none "Ordered" [.parameter "U"]] } },
          { name := "U1" }] ∧
        step.MadeAlong tree way ∧ ¬step.ConstraintsFollow [item, table] tree way := by
  intro item table tree
  have valid : Validation.findings (.marked none "Shop") [item, table] = [] := rfl
  rw [assemble_of_valid valid]
  let origin := originOfValid {} {} (.marked none "Shop") [item, table]
  have leads : (rootCandidates {} (.marked none "Shop")
      (planTree (planAll {} {} [item, table]))).map (·.method.result.node) =
        List.replicate (1 + 1) (.step 0) := by
    decide +kernel
  have first : origin.Reached (.step 0) := reached_originOfValid leads
  have second : origin.Reached (.step 1) := origin.reached_next first (by decide +kernel)
  let key := (item.plan {} {} 0).parameters.getD 0 default
  let entry := (table.plan {} {} 1).parameters.getD 1 default
  have held : (origin.walk.step? 1).map (fun step =>
      (step.target?, step.known, step.typeParameters)) =
        some (none, (Path.along [key, entry]).known,
          (Path.along [key, entry]).scope.declarations) := by
    decide +kernel
  have down : ∃ child ∈ tree.children, child.representative? = some key ∧
      ∃ node ∈ child.children, node.representative? = some entry ∧
        ∃ plan ∈ node.values, plan.id = 1 := by
    decide +kernel
  obtain ⟨child, isChild, madeChild, node, isNode, madeNode, plan, passes, isTable⟩ := down
  obtain ⟨step, found, isStep⟩ := Option.map_eq_some_iff.1 held
  obtain ⟨isNew, others⟩ := Prod.mk.inj isStep
  obtain ⟨known, declares⟩ := Prod.mk.inj others
  cases step with
  | existing step => cases isNew
  | synthesized step =>
    obtain ⟨final, member, sameKnown, sameDeclared⟩ := origin.exists_synthesized second found
    have under : Under tree [key] child := .down .top isChild madeChild
    have trail : Trail tree [key, entry] :=
      (Trail.start.extend .top rfl isChild madeChild).extend under rfl isNode madeNode
    have made : final.MadeAlong tree [key, entry] :=
      ⟨trail, sameKnown.trans known, sameDeclared.trans declares⟩
    have shown : (Path.along [key, entry]).scope.declarations = [{ name := "U" },
        { name := "V", constraints := { bounds := [.named none "Ordered" [.parameter "U"]] } },
        { name := "U1" }] := by
      decide +kernel
    have declared := made.typeParameters.trans shown
    refine ⟨valid, final, [key, entry], member, declared, made, fun follow => ?_⟩
    have bounds := follow entry (List.mem_cons_of_mem _ (List.mem_singleton_self _)) 1 "V"
      { bounds := [.named none "Ordered" [.parameter "U"]] } (by decide +kernel) table rfl
      ⟨_, node, plan, under.down isNode madeNode, rfl, passes, isTable⟩
      { name := "V", constraints := { bounds := [.named none "Ordered" [.parameter "U"]] } }
      (by rw [declared]; rfl)
    have count : final.known.length = 2 := made.length_known
    unfold SynthesizedStep.calls at bounds
    rw [declared, count] at bounds
    exact absurd bounds (by decide +kernel)

end StagedBuilder
