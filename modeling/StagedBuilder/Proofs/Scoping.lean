/-
This file says which type parameters are declared at a step. A step declares what its path
has bound, and the values known there mention nothing else, so every type parameter of
their types is declared.

For the target of an existing step this is not so. Its arguments are the type parameters of
the target as the scope of the path sees them, and one that occurs in no parameter type of
the constructor has no placeholder, so the scope cannot have bound it. It gets a fresh name,
which the step does not declare. A creation or a call that finishes a target introduces such
a name itself; an existing step has nobody to do so. Its target is all declared exactly if
every type parameter of the target occurs in the parameter types.
-/

import StagedBuilder.Proofs.Account
import StagedBuilder.Proofs.Standing
import StagedBuilder.Proofs.Termini

namespace StagedBuilder

open PrefixTree (Under)
open TypeTerm (occurrencesOfAll)

/-! ### Declared type parameters -/

/-- Every type parameter of the type is declared. -/
def TypeTerm.DeclaredIn (declared : List TypeParameter) (type : TypeTerm) : Prop :=
  ∀ name ∈ type.occurrences, name ∈ declared.map (·.name)

instance (declared : List TypeParameter) (type : TypeTerm) : Decidable (type.DeclaredIn declared) :=
  inferInstanceAs (Decidable (∀ name ∈ type.occurrences, name ∈ declared.map (·.name)))

namespace Scope

theorem map_name_declarations (scope : Scope) : scope.declarations.map (·.name) = scope.names :=
  List.map_map

/-- What occurs in a type as a scope shows it is a name of the scope, or it occurred before and is
no placeholder that the scope has bound. -/
theorem mem_occurrences_display {scope : Scope} {type : TypeTerm} {name : String}
    (occurs : name ∈ (scope.display type).occurrences) :
    name ∈ scope.names ∨
      name ∈ type.occurrences ∧ ∀ index < scope.size, name ≠ placeholderName index := by
  rw [display, TypeTerm.occurrences_substitute, List.mem_flatMap] at occurs
  obtain ⟨before, occursBefore, inShown⟩ := occurs
  cases found : scope.substitution.lookup before with
  | some shown =>
    rw [TypeTerm.substitute_parameter_of_lookup found] at inShown
    obtain ⟨⟨bound, index⟩, inNames, same⟩ := List.mem_map.1 (Lists.mem_of_lookup found)
    obtain ⟨-, rfl⟩ := Prod.mk.inj same
    obtain rfl := List.mem_singleton.1 inShown
    exact Or.inl (List.fst_mem_of_mem_zipIdx inNames)
  | none =>
    rw [TypeTerm.substitute, found, Option.getD_none] at inShown
    obtain rfl := List.mem_singleton.1 inShown
    refine Or.inr ⟨occursBefore, ?_⟩
    rintro index less rfl
    have shown := lookup_zipIdx scope.names 0 index
    rw [← length_names] at less
    rw [Nat.zero_add, List.getElem?_eq_getElem less] at shown
    exact Option.some_ne_none _ (shown.symm.trans found)

end Scope

namespace Path.WellScoped

variable {path : Path}

/-- A type along the way is shown with names of the scope only. -/
theorem mem_names_of_display (wellScoped : path.WellScoped) {type : TypeTerm}
    (member : type ∈ path.key.map (·.1)) {name : String}
    (occurs : name ∈ (path.scope.display type).occurrences) : name ∈ path.scope.names := by
  rcases Scope.mem_occurrences_display occurs with bound | ⟨before, unbound⟩
  · exact bound
  · obtain ⟨index, less, same⟩ := (wellScoped.mentions name).1
      (TypeTerm.mem_occurrencesOfAll.2 ⟨type, member, before⟩)
    exact absurd same (unbound index less)

/-- What the known values mention is declared. -/
theorem declaredIn_known (wellScoped : path.WellScoped) {type : TypeTerm}
    (known : type ∈ path.known.map (·.type)) : type.DeclaredIn path.scope.declarations := by
  rw [wellScoped.types] at known
  obtain ⟨form, member, rfl⟩ := List.mem_map.1 known
  intro name occurs
  rw [Scope.map_name_declarations]
  exact wellScoped.mem_names_of_display member occurs

end Path.WellScoped

/-! ### Targets -/

namespace ConstructorPlan

variable {plan : ConstructorPlan} {scope : Scope}

theorem mem_occurrences_targetIn {name : String} :
    name ∈ (plan.targetIn scope).occurrences ↔
      ∃ declared ∈ plan.declaration.target.typeParameters,
        (plan.argumentName scope declared).1 = name := by
  show name ∈ occurrencesOfAll _ ↔ _
  rw [TypeTerm.mem_occurrencesOfAll]
  constructor
  · rintro ⟨argument, member, occurs⟩
    obtain ⟨declared, isDeclared, rfl⟩ := List.mem_map.1 member
    exact ⟨declared, isDeclared, (List.mem_singleton.1 occurs).symm⟩
  · rintro ⟨declared, isDeclared, rfl⟩
    exact ⟨_, List.mem_map_of_mem isDeclared, List.mem_singleton_self _⟩

/-- A type parameter of the target is called by a name of the scope, or by a fresh one. -/
theorem argumentName_cases (plan : ConstructorPlan) (scope : Scope) (declared : TypeParameter) :
    (∃ name ∈ scope.names, plan.argumentName scope declared = (name, false)) ∨
      plan.argumentName scope declared = (scope.fresh declared.name, true) := by
  unfold argumentName
  cases found : (plan.numbering.index? declared.name).bind (scope.names[·]?) with
  | none => exact Or.inr rfl
  | some name =>
    obtain ⟨index, -, atIndex⟩ := Option.bind_eq_some_iff.1 found
    exact Or.inl ⟨name, List.mem_of_getElem? atIndex, rfl⟩

/-- With the declarations for what the scope does not bind, the target is all declared. -/
theorem mem_names_of_targetIn {name : String}
    (occurs : name ∈ (plan.targetIn scope).occurrences) :
    name ∈ scope.names ∨ name ∈ (plan.unboundIn scope).map (·.name) := by
  obtain ⟨declared, isDeclared, rfl⟩ := mem_occurrences_targetIn.1 occurs
  rcases plan.argumentName_cases scope declared with ⟨bound, member, isBound⟩ | isFresh
  · rw [isBound]
    exact Or.inl member
  · refine Or.inr ?_
    rw [unboundIn, List.map_map]
    refine List.mem_map.2 ⟨(declared, scope.fresh declared.name), ?_, by rw [isFresh]; rfl⟩
    exact List.mem_filterMap.2 ⟨declared, isDeclared, by rw [isFresh]⟩

/-- A scope with a name for every number of a constructor declares the target if all type
parameters of the target have numbers, and not otherwise. -/
theorem declaredIn_targetIn_iff (bound : plan.numbering.names.length ≤ scope.size) :
    (plan.targetIn scope).DeclaredIn scope.declarations ↔
      ∀ declared ∈ plan.declaration.target.typeParameters,
        declared.name ∈ plan.numbering.names := by
  unfold TypeTerm.DeclaredIn
  rw [Scope.map_name_declarations]
  constructor
  · intro allDeclared declared member
    by_contra unnumbered
    have isFresh : (plan.argumentName scope declared).1 = scope.fresh declared.name := by
      rw [argumentName_of_notMem unnumbered]
    exact freshName_notMem scope.names declared.name
      (allDeclared _ (mem_occurrences_targetIn.2 ⟨declared, member, isFresh⟩))
  · intro allNumbered name occurs
    obtain ⟨declared, member, rfl⟩ := mem_occurrences_targetIn.1 occurs
    have numbered := allNumbered declared member
    rw [argumentName_of_mem bound numbered]
    exact Scope.rename_mem_names bound numbered

end ConstructorPlan

/-! ### Builders made of a settled walk -/

/-- Where a builder comes from, with what is known of how its methods were made. -/
structure Builder.Setting (system : TypeSystem) (naming : Naming) (root : Root)
    (declarations : List Declaration) (builder : Builder) extends
    Builder.Origin naming root declarations builder where
  planned : ∀ plan ∈ plans, plan ∈ planAll system naming declarations
  settled : walk.Settled naming tree
  standsRoot : ∀ method ∈ rootMethods, Stands naming tree {} root.typeParameters method
  typeParameters : builder.typeParameters = root.typeParameters

/-- The builder of declarations that are not refused, with its tree and its walk. -/
def settingOfValid (system : TypeSystem) (naming : Naming) (root : Root)
    (declarations : List Declaration) :
    (assembleValid system naming root declarations).Setting system naming root declarations where
  toOrigin := originOfValid system naming root declarations
  planned _ member := (List.mem_filter.1 member).1
  settled := (settled_walkTree naming root _).1
  standsRoot := (settled_walkTree naming root _).2
  typeParameters := rfl

theorem nonempty_setting (system : TypeSystem) (naming : Naming) (root : Root)
    (declarations : List Declaration) :
    Nonempty ((assemble system naming root declarations).Setting system naming root
      declarations) := by
  by_cases refused : (Validation.findings root declarations).any Diagnostic.isError = true
  · rw [assemble_of_refused refused]
    exact ⟨{
      originOfEmpty naming root declarations rfl rfl with
      planned := fun _ member => absurd member List.not_mem_nil
      settled := .start naming _
      standsRoot := fun _ member => absurd member List.not_mem_nil
      typeParameters := rfl }⟩
  · rw [assemble_of_accepted refused]
    exact ⟨{
      settingOfValid system naming root declarations with
      methods := rfl
      steps := rfl
      typeParameters := rfl }⟩

/-- The type that an existing step is. -/
def Step.target? : Step → Option TypeTerm
  | .synthesized _ => none
  | .existing step => some step.target

/-- Where a step of a builder stands: a path leads there, whose known values have the types of
those of the step; the step declares what the path has bound, and its methods are made there, up
to the numbers of steps. -/
structure Step.Standing (naming : Naming) (tree : PlanTree) (renumber : Nat → Nat) (path : Path)
    (step : Step) : Prop where
  walked : Walked tree path
  types : step.known.map (·.type) = path.known.map (·.type)
  typeParameters : step.typeParameters = path.scope.declarations
  methods : ∀ method ∈ step.methods, ∃ before,
    Stands naming tree path path.scope.declarations before ∧ method = before.mapStep renumber
  /-- A target is that of a constructor that ends there. -/
  target : ∀ target, step.target? = some target → ∃ above node plan,
    Under tree above node ∧ keyOf above = path.key ∧ plan ∈ node.endings ∧
      target = plan.targetIn path.scope ∧ step.arrival? = some plan.id

namespace Step

variable (stepPrefix rootName : String) (index : Nat) (change : Method → Method) (step : Step)

theorem typeParameters_mapMethods_number :
    ((step.number stepPrefix rootName index).mapMethods change).typeParameters =
      step.typeParameters := by
  cases step <;> rfl

theorem known_mapMethods_number :
    ((step.number stepPrefix rootName index).mapMethods change).known = step.known := by
  cases step <;> rfl

theorem methods_mapMethods_number :
    ((step.number stepPrefix rootName index).mapMethods change).methods =
      step.methods.map change := by
  cases step <;> rfl

theorem target?_mapMethods_number :
    ((step.number stepPrefix rootName index).mapMethods change).target? = step.target? := by
  cases step <;> rfl

theorem arrival?_mapMethods_number :
    ((step.number stepPrefix rootName index).mapMethods change).arrival? = step.arrival? := by
  cases step <;> rfl

end Step

namespace Builder.Setting

variable {system : TypeSystem} {naming : Naming} {root : Root} {declarations : List Declaration}
  {builder : Builder} (setting : builder.Setting system naming root declarations)

/-- Every step of the walk stands somewhere. -/
theorem exists_standsOn {index : Nat} {step : Step}
    (found : setting.walk.step? index = some step) :
    ∃ path, Walked setting.tree path ∧ step.known.map (·.type) = path.known.map (·.type) ∧
      step.StandsOn naming setting.tree path ∧
      ∀ target, step.target? = some target → ∃ above node plan,
        Under setting.tree above node ∧ keyOf above = path.key ∧ plan ∈ node.endings ∧
          target = plan.targetIn path.scope ∧ step.arrival? = some plan.id := by
  cases step with
  | synthesized step =>
    obtain ⟨key, shared, isShared, rfl⟩ := setting.sound.registered index step found
    have sound := setting.sound.shared key shared isShared
    obtain ⟨filled, isFilled, sameKnown, -⟩ := sound.filled
    obtain rfl : filled = step := by
      rw [found, Option.some.injEq, Step.synthesized.injEq] at isFilled
      exact isFilled.symm
    exact ⟨_, sound.walked, congrArg (List.map (·.type)) sameKnown,
      setting.settled.shared key shared filled isShared found, fun target same => nomatch same⟩
  | existing step =>
    obtain ⟨path, plan, sound, standsOn⟩ := setting.settled.existing index step found
    obtain ⟨above, node, under, leads, ends⟩ := sound.ends
    refine ⟨path, sound.walked, ?_, standsOn, fun target same => ?_⟩
    · show step.known.map (·.type) = _
      rw [sound.known]
      refine map_type_existingKnown ?_
      rw [sound.walked.length_known]
      exact length_parameters_of_ends setting.grown setting.allDeclared under leads ends
    · cases same
      exact ⟨above, node, plan, under, leads, ends, sound.target, congrArg some sound.constructor⟩

/-- Every step of the builder stands somewhere. -/
theorem exists_standing {number : Nat} {final : Step} (found : builder.step? number = some final) :
    ∃ path, final.Standing naming setting.tree setting.number path := by
  obtain ⟨index, step, -, -, isStep, rfl⟩ := setting.exists_kept found
  obtain ⟨path, walked, types, standsOn, target⟩ := setting.exists_standsOn isStep
  refine ⟨path, walked, ?_, ?_, fun method member => ?_, fun shown same => ?_⟩
  · rw [Step.known_mapMethods_number, types]
  · rw [Step.typeParameters_mapMethods_number, standsOn.typeParameters]
  · rw [Step.methods_mapMethods_number] at member
    obtain ⟨before, isBefore, rfl⟩ := List.mem_map.1 member
    exact ⟨before, standsOn.stands before isBefore, rfl⟩
  · rw [Step.target?_mapMethods_number] at same
    rw [Step.arrival?_mapMethods_number]
    exact target shown same

/-- Every method of the root is made at the root, up to the numbers of steps. -/
theorem exists_stands_root {method : Method} (member : method ∈ builder.methods) :
    ∃ before, Stands naming setting.tree {} builder.typeParameters before ∧
      method = before.mapStep setting.number := by
  rw [setting.methods] at member
  obtain ⟨before, isBefore, rfl⟩ := List.mem_map.1 member
  rw [setting.typeParameters]
  exact ⟨before, setting.standsRoot before isBefore, rfl⟩

end Builder.Setting

/-! ### Steps -/

/-- Every type parameter in the types of the known values of a step, and in the type that an
existing step is, is declared by the step. -/
structure Step.WellScoped (step : Step) : Prop where
  known : ∀ value ∈ step.known, value.type.DeclaredIn step.typeParameters
  target : ∀ target, step.target? = some target → target.DeclaredIn step.typeParameters

/-- What the steps of a builder declare: all that their known values mention; and all type
parameters of an existing step's target if they occur in the parameter types of its constructor,
but not otherwise. -/
structure Builder.StepsScoped (declarations : List Declaration) (builder : Builder) : Prop where
  known : ∀ step ∈ builder.steps, ∀ value ∈ step.known,
    value.type.DeclaredIn step.typeParameters
  target : ∀ step ∈ builder.steps, ∀ target, step.target? = some target →
    ∃ constructor declaration, step.arrival? = some constructor ∧
      declarations[constructor]? = some declaration ∧
      (target.DeclaredIn step.typeParameters ↔
        ∀ declared ∈ declaration.target.typeParameters,
          declared.name ∈ occurrencesOfAll declaration.types)

/-- Steps declare what their known values mention, and targets as far as it occurs in parameter
types. -/
theorem stepsScoped_assemble (system : TypeSystem) (naming : Naming) (root : Root)
    (declarations : List Declaration) :
    (assemble system naming root declarations).StepsScoped declarations := by
  obtain ⟨setting⟩ := nonempty_setting system naming root declarations
  refine ⟨fun step member value known => ?_, fun step member target isTarget => ?_⟩
  · obtain ⟨number, found⟩ := List.getElem?_of_mem member
    obtain ⟨path, standing⟩ := setting.exists_standing found
    have wellScoped := standing.walked.wellScoped setting.grown setting.allDeclared
    rw [standing.typeParameters]
    refine wellScoped.declaredIn_known ?_
    rw [← standing.types]
    exact List.mem_map_of_mem known
  · obtain ⟨number, found⟩ := List.getElem?_of_mem member
    obtain ⟨path, standing⟩ := setting.exists_standing found
    obtain ⟨above, node, plan, under, leads, ends, rfl, arrives⟩ :=
      standing.target target isTarget
    have wellScoped := standing.walked.wellScoped setting.grown setting.allDeclared
    obtain ⟨declared, sameTypes⟩ :=
      positionalTypes_of_ends setting.grown setting.allDeclared under leads ends
    have bound := Nat.le_of_eq (wellScoped.size_eq declared sameTypes)
    refine ⟨plan.id, plan.declaration, arrives, declared.declared, ?_⟩
    rw [standing.typeParameters, ConstructorPlan.declaredIn_targetIn_iff bound,
      declared.numbering]
    exact forall₂_congr fun _ _ => mem_numberingOf

/-- What is proposed at the root. -/
abbrev rootCandidates (naming : Naming) (root : Root) (tree : PlanTree) : List Candidate :=
  proposeCreations naming {} root.typeParameters
    (branches naming {} root.typeParameters tree.children [] {}).1 tree.endings

/-- If all that is proposed at the root leads to one node, chains of calls come to it. -/
theorem reached_of_rootCandidates {naming : Naming} {root : Root} {tree : PlanTree}
    {node : CallNode} {count : Nat}
    (leads : (rootCandidates naming root tree).map (·.method.result.node) =
      List.replicate (count + 1) node) (table : CallGraph.Table) :
    CallGraph.Reached (walkTree naming root tree).1 table node := by
  have proposed : rootCandidates naming root tree ≠ [] := by
    intro nothing
    rw [nothing] at leads
    cases leads
  obtain ⟨survivor, survived⟩ :=
    List.exists_mem_of_ne_nil _ (mt Collision.survivors_eq_nil.1 proposed)
  have onRoot : survivor.method ∈ (walkTree naming root tree).1 := List.mem_map_of_mem survived
  have isNode : survivor.method.result.node = node := by
    have member : survivor.method.result.node ∈ List.replicate (count + 1) node := by
      rw [← leads]
      exact List.mem_map.2 ⟨survivor, Collision.survivor_mem survived, rfl⟩
    exact List.eq_of_mem_replicate member
  rw [← isNode]
  exact .single (.call onRoot)

/-- If all that is proposed at the root leads to one step, the builder has this step. -/
theorem mem_steps_of_rootCandidates (system : TypeSystem) (naming : Naming) (root : Root)
    (declarations : List Declaration) {index count : Nat} {step : Step}
    (leads : (rootCandidates naming root (planTree (planAll system naming declarations))).map
      (·.method.result.node) = List.replicate (count + 1) (.step index))
    (found : (walkTree naming root (planTree (planAll system naming declarations))).2.step? index =
      some step) :
    ∃ renumber, ∃ final ∈ (assembleValid system naming root declarations).steps,
      final.target? = step.target? ∧ final.typeParameters = step.typeParameters ∧
        final.methods = step.methods.map (·.mapStep renumber) := by
  let origin := originOfValid system naming root declarations
  have reached : origin.Reached (.step index) := reached_of_rootCandidates leads _
  refine ⟨origin.number, _, List.mem_of_getElem? (origin.step?_number reached found), ?_, ?_, ?_⟩
  · rw [Step.target?_mapMethods_number]
  · rw [Step.typeParameters_mapMethods_number]
  · rw [Step.methods_mapMethods_number]

/-- A constructor of a target whose type parameter occurs in no parameter type. -/
def Declaration.boxed (parameters : List Parameter) : Declaration where
  constructor := {
    target := { name := "Box", typeParameters := [{ name := "T" }], isPartial := true }
    parameters }
  root := "Shop"
  options := { noCreateMethod := true }

/-- The first constructor ends where the second one goes on, so there is an existing step. It is of
the type that its type parameter belongs to, and nothing declares this type parameter. -/
theorem not_wellScoped_assemble_boxed :
    let size : Parameter := { name := "size", type := .simple "Int" }
    let weight : Parameter := { name := "weight", type := .simple "Int" }
    let declarations := [Declaration.boxed [size], .boxed [size, weight]]
    Validation.findings (.marked none "Shop") declarations = [] ∧
      ∃ step ∈ (assemble {} {} (.marked none "Shop") declarations).steps, ¬ step.WellScoped := by
  intro size weight declarations
  have valid : Validation.findings (.marked none "Shop") declarations = [] := rfl
  rw [assemble_of_valid valid]
  let tree := planTree (planAll {} {} declarations)
  have leads : (rootCandidates {} (.marked none "Shop") tree).map (·.method.result.node) =
      List.replicate (1 + 1) (.step 0) := by
    decide +kernel
  have made : ((walkTree {} (.marked none "Shop") tree).2.step? 0).map
      (fun step => (step.target?, step.typeParameters)) =
        some (some (.named none "Box" [.parameter "T"]), []) := by
    decide +kernel
  obtain ⟨step, found, isStep⟩ := Option.map_eq_some_iff.1 made
  obtain ⟨isTarget, declares⟩ := Prod.mk.inj isStep
  obtain ⟨-, final, member, sameTarget, sameDeclared, -⟩ :=
    mem_steps_of_rootCandidates {} {} (.marked none "Shop") declarations leads found
  refine ⟨valid, final, member, fun wellScoped => ?_⟩
  have declared := wellScoped.target _ (sameTarget.trans isTarget)
  rw [sameDeclared, declares] at declared
  exact absurd (declared "T" (List.mem_singleton_self _)) List.not_mem_nil

end StagedBuilder
