/-
This file proves that every method of a builder can be written down where it hangs: each
type parameter in the types it shows is declared by the method itself or by its owner, and
what the method declares is new and declared once.

A method declares what the call introduces as far as its owner does not declare it. A call
introduces the placeholders that are bound on the edge; if it finishes a target, the type
parameters of the target that are bound nowhere; and if it goes through a converter, the
free type parameters of the converter under new names. Everything the method shows is
written with these names and those that the scope of the path has bound before, and the
owner declares the latter. For a shared step it is essential that scope and declarations
are those of one path, the one that made the step.

Of converters it has to be known that they declare what they mention.
-/

import StagedBuilder.Proofs.Binding
import StagedBuilder.Proofs.Scoping

namespace StagedBuilder

open PrefixTree (Under)
open TypeTerm (occurrencesOfAll)

/-! ### Declarations that are not made yet -/

namespace TypeParameter

/-- Together with those of the surroundings the declarations make up for a list of declarations;
none is made twice, and none that the surroundings make. -/
structure Completes (ambient declarations made : List TypeParameter) : Prop where
  distinct : (made.map (·.name)).Nodup
  apart : ∀ name ∈ made.map (·.name), name ∉ ambient.map (·.name)
  covers : ∀ name ∈ declarations.map (·.name),
    name ∈ made.map (·.name) ∨ name ∈ ambient.map (·.name)

variable {ambient declarations made : List TypeParameter}

theorem Completes.start (ambient : List TypeParameter) : Completes ambient [] [] where
  distinct := List.nodup_nil
  apart _ member := absurd member List.not_mem_nil
  covers _ member := absurd member List.not_mem_nil

theorem Completes.add (completes : Completes ambient declarations made)
    (declared : TypeParameter) :
    Completes ambient (declarations ++ [declared])
      (if (ambient ++ made).any (·.name == declared.name) then made else made ++ [declared]) := by
  split
  · next isMade =>
    refine ⟨completes.distinct, completes.apart, fun name member => ?_⟩
    rw [List.map_append, List.map_singleton, List.mem_append, List.mem_singleton] at member
    rcases member with before | rfl
    · exact completes.covers name before
    · obtain ⟨other, isOther, sameName⟩ := List.any_eq_true.1 isMade
      rw [← eq_of_beq sameName]
      exact (List.mem_append.1 isOther).symm.imp List.mem_map_of_mem List.mem_map_of_mem
  · next unmade =>
    have differs : ∀ other ∈ ambient ++ made, other.name ≠ declared.name :=
      fun other member same => unmade (List.any_eq_true.2 ⟨other, member, beq_iff_eq.2 same⟩)
    refine ⟨?_, fun name member => ?_, fun name member => ?_⟩
    · rw [List.map_append, List.map_singleton]
      refine completes.distinct.append (List.nodup_singleton _) ?_
      rw [List.disjoint_singleton]
      intro member
      obtain ⟨other, isMade, same⟩ := List.mem_map.1 member
      exact differs other (List.mem_append_right _ isMade) same
    · rw [List.map_append, List.map_singleton, List.mem_append, List.mem_singleton] at member
      rcases member with before | rfl
      · exact completes.apart name before
      · intro inAmbient
        obtain ⟨other, isAmbient, same⟩ := List.mem_map.1 inAmbient
        exact differs other (List.mem_append_left _ isAmbient) same
    · rw [List.map_append, List.mem_append] at member ⊢
      rcases member with before | isNew
      · exact (completes.covers name before).imp Or.inl id
      · exact Or.inl (Or.inr isNew)

theorem completes_foldl (completes : Completes ambient declarations made)
    (rest : List TypeParameter) :
    Completes ambient (declarations ++ rest) (rest.foldl
      (fun kept declared =>
        if (ambient ++ kept).any (·.name == declared.name) then kept else kept ++ [declared])
      made) := by
  induction rest generalizing declarations made with
  | nil => rwa [List.append_nil]
  | cons first rest inductionHypothesis =>
    rw [List.append_cons]
    exact inductionHypothesis (completes.add first)

theorem completes_undeclared (ambient declarations : List TypeParameter) :
    Completes ambient declarations (undeclared ambient declarations) :=
  completes_foldl (.start ambient) declarations

end TypeParameter

/-! ### Methods that are well scoped -/

namespace Method

/-- The target that a method returns. -/
def target? (method : Method) : Option TypeTerm :=
  match method.result with
  | .product value => some value.target
  | .step _ => none

/-- The types that a method shows: those of its arguments, of the parameter that it supplies and
of the target that it returns. -/
def types (method : Method) : List TypeTerm :=
  method.arguments.map (·.type) ++ (method.source?.map (·.type)).toList ++ method.target?.toList

/-- Every type parameter of the types that the method shows is declared by the method or around
it, and what the method declares is declared once and not around it. -/
structure WellScoped (ambient : List TypeParameter) (method : Method) : Prop where
  declared : ∀ type ∈ method.types, type.DeclaredIn (method.typeParameters ++ ambient)
  distinct : (method.typeParameters.map (·.name)).Nodup
  apart : ∀ name ∈ method.typeParameters.map (·.name), name ∉ ambient.map (·.name)

theorem types_mapStep (renumber : Nat → Nat) (method : Method) :
    (method.mapStep renumber).types = method.types := by
  cases method with
  | supply method => rcases method with ⟨_, _, _, _, _ | _, _, _, _⟩ <;> rfl
  | conversion method => rcases method with ⟨_, _, _, _, _ | _, _, _, _, _, _, _⟩ <;> rfl
  | creation method => rfl

theorem typeParameters_mapStep (renumber : Nat → Nat) (method : Method) :
    (method.mapStep renumber).typeParameters = method.typeParameters := by
  cases method <;> rfl

theorem WellScoped.mapStep {ambient : List TypeParameter} {method : Method}
    (wellScoped : method.WellScoped ambient) (renumber : Nat → Nat) :
    (method.mapStep renumber).WellScoped ambient := by
  constructor
  · rw [types_mapStep, typeParameters_mapStep]
    exact wellScoped.declared
  · rw [typeParameters_mapStep]
    exact wellScoped.distinct
  · rw [typeParameters_mapStep]
    exact wellScoped.apart

/-- A method that declares what is not declared yet is well scoped if declarations are at hand for
all it shows. -/
theorem wellScoped_of_undeclared {ambient declarations : List TypeParameter} {method : Method}
    (declares : method.typeParameters = TypeParameter.undeclared ambient declarations)
    (shows : ∀ type ∈ method.types, type.DeclaredIn (declarations ++ ambient)) :
    method.WellScoped ambient := by
  have completes := TypeParameter.completes_undeclared ambient declarations
  rw [← declares] at completes
  refine ⟨fun type member name occurs => ?_, completes.distinct, completes.apart⟩
  have declared := shows type member name occurs
  rw [List.map_append, List.mem_append] at declared ⊢
  rcases declared with introduced | around
  · exact completes.covers name introduced
  · exact Or.inr around

end Method

/-! ### Converters -/

/-- The converter declares every type parameter in its return type and in the types of its
parameters. -/
def Converter.Closed (converter : Converter) : Prop :=
  ∀ type ∈ converter.returnType :: converter.parameters.map (·.type),
    type.DeclaredIn converter.typeParameters

instance (converter : Converter) : Decidable converter.Closed :=
  inferInstanceAs (Decidable (∀ type ∈ converter.returnType :: converter.parameters.map (·.type),
    type.DeclaredIn converter.typeParameters))

/-- The converters that a declaration offers declare what they mention. -/
def Declaration.Closed (declaration : Declaration) : Prop :=
  ∀ parameter ∈ declaration.constructor.parameters, ∀ group ∈ parameter.group.toList,
    ∀ converter ∈ group.converters, converter.Closed

instance (declaration : Declaration) : Decidable declaration.Closed :=
  inferInstanceAs (Decidable (∀ parameter ∈ declaration.constructor.parameters,
    ∀ group ∈ parameter.group.toList, ∀ converter ∈ group.converters, converter.Closed))

/-- In the plan of a converter the arguments mention placeholders below a number and free type
parameters. -/
def ConverterPlan.ClosedBelow (width : Nat) (plan : ConverterPlan) : Prop :=
  ∀ parameter ∈ plan.parameters, ∀ name ∈ parameter.type.occurrences,
    name ∈ plan.free.map (·.name) ∨ ∃ index < width, name = placeholderName index

/-- The converters for a parameter mention no placeholder that occurs after the parameter. -/
def ConstructorPlan.Closed (plan : ConstructorPlan) : Prop :=
  ∀ before parameter after, plan.parameters = before ++ parameter :: after →
    ∀ converted, .converted converted ∈ parameter.supplies →
      converted.ClosedBelow (plan.declaration.width (before.length + 1))

section

variable {system : TypeSystem} {numbering : Numbering} {wanted : TypeTerm}
  {group : ConverterGroup} {converter : Converter} {bound : Substitution}

/-- Under the bindings of a converter that fits, bindable names stand for types made of the type
parameters of the wanted type. -/
theorem ConverterGroup.adds_of_fit? (fits : fit? system wanted converter = some bound) :
    Binding.Adds (converter.typeParameters.map (·.name)) wanted.occurrences [] bound :=
  Binding.adds_unify? (Option.filter_eq_some_iff.1 fits).1

theorem ConverterGroup.exists_of_mem_plans {plan : ConverterPlan}
    (member : plan ∈ group.plans system numbering wanted) :
    ∃ converter ∈ group.converters, ∃ bound siblings, fit? system wanted converter = some bound ∧
      plan = group.plan numbering siblings converter bound := by
  obtain ⟨⟨⟨converter, bound⟩, place⟩, inPairs, rfl⟩ := List.mem_map.1 member
  obtain ⟨other, isOther, fits⟩ := List.mem_filterMap.1 (List.fst_mem_of_mem_zipIdx inPairs)
  obtain ⟨_, isFit, same⟩ := Option.map_eq_some_iff.1 fits
  obtain ⟨rfl, rfl⟩ := Prod.mk.inj same
  exact ⟨other, isOther, _, _, isFit, rfl⟩

/-- What a converter mentions is free in its plan or becomes a placeholder of the wanted type. -/
theorem ConverterGroup.closedBelow_plan (closed : converter.Closed)
    (fits : fit? system wanted converter = some bound) {width : Nat}
    (numbered : ∀ name ∈ wanted.occurrences, ∃ index < width,
      numbering.index? name = some index) (siblings : List String) :
    (group.plan numbering siblings converter bound).ClosedBelow width := by
  let positional := bound.map fun binding => (binding.1, numbering.positional binding.2)
  intro parameter member name occurs
  obtain ⟨declared, isDeclared, rfl⟩ := List.mem_map.1 member
  rw [TypeTerm.occurrences_substitute, List.mem_flatMap] at occurs
  obtain ⟨before, occursBefore, inImage⟩ := occurs
  cases found : positional.lookup before with
  | some form =>
    rw [TypeTerm.substitute_parameter_of_lookup found] at inImage
    obtain ⟨⟨bindable, type⟩, isBound, same⟩ := List.mem_map.1 (Lists.mem_of_lookup found)
    obtain ⟨rfl, rfl⟩ := Prod.mk.inj same
    have inWanted : type.occurrences ⊆ wanted.occurrences :=
      ((adds_of_fit? fits _ isBound).resolve_left List.not_mem_nil).2
    have inNumbering : ∀ name ∈ type.occurrences, name ∈ numbering.names := by
      intro name inType
      obtain ⟨index, -, isIndex⟩ := numbered name (inWanted inType)
      exact List.mem_of_getElem? (Numbering.index?_eq_some isIndex)
    obtain ⟨name, inType, index, isIndex, rfl⟩ :=
      (Numbering.mem_occurrences_positional inNumbering).1 inImage
    obtain ⟨other, less, isOther⟩ := numbered name (inWanted inType)
    rw [isOther, Option.some.injEq] at isIndex
    exact Or.inr ⟨index, isIndex ▸ less, rfl⟩
  | none =>
    rw [TypeTerm.substitute, found, Option.getD_none] at inImage
    obtain rfl := List.mem_singleton.1 inImage
    refine Or.inl ?_
    have isType : declared.type ∈ converter.returnType :: converter.parameters.map (·.type) :=
      List.mem_cons_of_mem _ (List.mem_map_of_mem isDeclared)
    obtain ⟨parameter, isParameter, rfl⟩ := List.mem_map.1 (closed _ isType name occursBefore)
    refine List.mem_map.2 ⟨_, List.mem_map_of_mem (List.mem_filter.2 ⟨isParameter, ?_⟩), rfl⟩
    rw [← Option.isNone_iff_eq_none] at found
    exact found

end

namespace Declaration

variable {system : TypeSystem} {naming : Naming} {id : Nat} {declaration : Declaration}

/-- The type parameters of a parameter have their numbers once it has been gone through. -/
theorem exists_number {index : Nat} {type : TypeTerm}
    (isType : declaration.types[index]? = some type) {name : String}
    (occurs : name ∈ type.occurrences) :
    ∃ number < declaration.width (index + 1),
      (numberingOf declaration.types).index? name = some number := by
  have listed := mem_numberingOf_take isType (Nat.lt_succ_self index) occurs
  obtain ⟨number, isNumber, less⟩ := Numbering.exists_index? listed
  exact ⟨number, less,
    Numbering.index?_of_isPrefix (Numbering.names_take_isPrefix _ _) isNumber⟩

/-- A converter in a plan is one that fits the parameter, planned for it. -/
theorem exists_converter_of_mem_supplies {index : Nat} {plan : ParameterPlan}
    (isPlan : (declaration.plan system naming id).parameters[index]? = some plan)
    {converted : ConverterPlan} (supplied : .converted converted ∈ plan.supplies) :
    declaration.constructor.parameters[index]? = some plan.parameter ∧
      ∃ group, plan.parameter.group = some group ∧ ∃ converter ∈ group.converters,
        ∃ bindings siblings,
          ConverterGroup.fit? system plan.parameter.type converter = some bindings ∧
            converted =
              group.plan (numberingOf declaration.types) siblings converter bindings := by
  obtain ⟨declared, form, isDeclared, -, rfl⟩ := getElem?_parameters_plan isPlan
  refine ⟨isDeclared, ?_⟩
  have isOffered : SupplyPlan.converted converted ∈
      supplies system naming (numberingOf declaration.types) declared := supplied
  unfold supplies at isOffered
  split at isOffered
  · next group isGroup =>
    obtain ⟨plan, isPlanned, same⟩ := List.mem_map.1 isOffered
    obtain rfl := SupplyPlan.converted.inj same
    exact ⟨group, isGroup, ConverterGroup.exists_of_mem_plans isPlanned⟩
  · cases List.mem_singleton.1 isOffered

/-- The converters in the plan of a closed declaration are closed. -/
theorem closed_plan (closed : declaration.Closed) (system : TypeSystem) (naming : Naming)
    (id : Nat) : (declaration.plan system naming id).Closed := by
  intro before parameter after parts converted isSupply
  have found : (declaration.plan system naming id).parameters[before.length]? = some parameter := by
    rw [parts, Lists.getElem?_middle]
  obtain ⟨isDeclared, group, isGroup, converter, isConverter, bindings, siblings, fits, rfl⟩ :=
    exists_converter_of_mem_supplies found isSupply
  have isType : declaration.types[before.length]? = some parameter.parameter.type := by
    rw [List.getElem?_map, isDeclared, Option.map_some]
  refine ConverterGroup.closedBelow_plan ?_ fits (fun name => exists_number isType) siblings
  exact closed parameter.parameter (List.mem_of_getElem? isDeclared) group
    (by rw [isGroup]; exact List.mem_singleton_self _) converter isConverter

end Declaration

/-! ### Calls -/

theorem Method.mem_types {method : Method} {type : TypeTerm} (member : type ∈ method.types) :
    (∃ argument ∈ method.arguments, argument.type = type) ∨
      (∃ source, method.source? = some source ∧ source.type = type) ∨
        ∃ value, method.result = .product value ∧ value.target = type := by
  rw [types, List.mem_append, List.mem_append, List.mem_map, Option.mem_toList,
    Option.map_eq_some_iff, Option.mem_toList, target?, or_assoc] at member
  refine member.imp_right (Or.imp_right fun isTarget => ?_)
  cases result : method.result with
  | product value =>
    rw [result] at isTarget
    exact ⟨value, rfl, Option.some.inj isTarget⟩
  | step index =>
    rw [result] at isTarget
    cases isTarget

/-- A renaming of free type parameters has an entry for those that get another name. -/
theorem ConverterPlan.mem_renames {plan : ConverterPlan} {taken : List String} {name : String}
    {shown : TypeTerm} :
    (name, shown) ∈ plan.renames taken ↔
      ∃ fresh, (name, fresh) ∈ (plan.free.map (·.name)).zip
          (freshNames taken (plan.free.map (·.name))) ∧
        fresh ≠ name ∧ shown = .parameter fresh := by
  rw [renames, List.mem_reverse, List.mem_filterMap, Prod.exists]
  refine ⟨?_, fun ⟨fresh, inZip, differs, isShown⟩ => ⟨name, fresh, inZip, ?_⟩⟩
  · rintro ⟨declared, fresh, inZip, renamed⟩
    obtain ⟨differs, same⟩ := Option.ite_none_left_eq_some.1 renamed
    obtain ⟨rfl, rfl⟩ := Prod.mk.inj (Option.some.inj same)
    exact ⟨fresh, inZip, differs, rfl⟩
  · rw [isShown]
    exact if_neg differs

/-- A renaming of free type parameters leaves other type parameters alone. -/
theorem ConverterPlan.exists_rename (plan : ConverterPlan) (taken : List String) (name : String) :
    ∃ image, (TypeTerm.parameter name).substitute (plan.renames taken) = .parameter image ∧
      (name ∉ plan.free.map (·.name) → image = name) := by
  cases found : (plan.renames taken).lookup name with
  | some shown =>
    obtain ⟨fresh, inZip, -, rfl⟩ := mem_renames.1 (Lists.mem_of_lookup found)
    refine ⟨fresh, TypeTerm.substitute_parameter_of_lookup found, fun bound => ?_⟩
    exact absurd (List.of_mem_zip inZip).1 bound
  | none =>
    refine ⟨name, ?_, fun _ => rfl⟩
    rw [TypeTerm.substitute, found, Option.getD_none]

/-- What a converter's argument shows is a name of the scope or a renamed free type parameter. -/
theorem ConverterPlan.mem_occurrences_render {plan : ConverterPlan} {scope : Scope}
    {taken : List String} {type : TypeTerm}
    (closed : ∀ name ∈ type.occurrences,
      name ∈ plan.free.map (·.name) ∨ ∃ index < scope.size, name = placeholderName index)
    {name : String}
    (occurs : name ∈ (scope.display (type.substitute (plan.renames taken))).occurrences) :
    name ∈ scope.names ∨ ∃ declared ∈ plan.free,
      ((TypeTerm.parameter declared.name).substitute (plan.renames taken)).qualifiedName =
        name := by
  rcases Scope.mem_occurrences_display occurs with bound | ⟨inRenamed, unbound⟩
  · exact Or.inl bound
  rw [TypeTerm.occurrences_substitute, List.mem_flatMap] at inRenamed
  obtain ⟨before, occursBefore, inImage⟩ := inRenamed
  obtain ⟨image, renamed, unchanged⟩ := plan.exists_rename taken before
  rw [renamed] at inImage
  obtain rfl := List.mem_singleton.1 inImage
  by_cases isFree : before ∈ plan.free.map (·.name)
  · obtain ⟨declared, member, rfl⟩ := List.mem_map.1 isFree
    exact Or.inr ⟨declared, member, by rw [renamed]; rfl⟩
  · obtain ⟨index, less, isPlaceholder⟩ := (closed before occursBefore).resolve_left isFree
    exact absurd ((unchanged isFree).trans isPlaceholder) (unbound index less)

namespace EdgeCall

/-- What a call can mention is declared: the names of its scope, and the target that it
finishes. -/
structure Complete (call : EdgeCall) : Prop where
  names : ∀ name ∈ call.scope.names, name ∈ (call.introduced ++ call.ambient).map (·.name)
  target : ∀ value, call.result = .product value →
    value.target.DeclaredIn (call.introduced ++ call.ambient)

variable {call : EdgeCall} {plan : ParameterPlan}

theorem wellScoped_supply (complete : call.Complete)
    (shows : ∀ name ∈ (call.scope.display plan.key.type).occurrences, name ∈ call.scope.names)
    (name : String) : (call.supply plan name).WellScoped call.ambient := by
  refine Method.wellScoped_of_undeclared rfl fun type member => ?_
  have source : (call.scope.display plan.key.type).DeclaredIn (call.introduced ++ call.ambient) :=
    fun name occurs => complete.names name (shows name occurs)
  rcases Method.mem_types member with ⟨argument, isArgument, rfl⟩ | ⟨_, isSource, rfl⟩ | target
  · obtain rfl := List.mem_singleton.1 isArgument
    exact source
  · cases isSource
    exact source
  · obtain ⟨value, result, rfl⟩ := target
    exact complete.target value result

theorem wellScoped_conversion (complete : call.Complete)
    (shows : ∀ name ∈ (call.scope.display plan.key.type).occurrences, name ∈ call.scope.names)
    {converted : ConverterPlan} (closed : converted.ClosedBelow call.scope.size) :
    (call.conversion plan converted).WellScoped call.ambient := by
  refine Method.wellScoped_of_undeclared rfl fun type member name occurs => ?_
  rw [List.map_append, List.map_append, List.mem_append, List.mem_append]
  have ofCall {isFree : Prop} (declared : name ∈ (call.introduced ++ call.ambient).map (·.name)) :
      (name ∈ call.introduced.map (·.name) ∨ isFree) ∨ name ∈ call.ambient.map (·.name) := by
    rw [List.map_append, List.mem_append] at declared
    exact declared.imp_left Or.inl
  rcases Method.mem_types member with ⟨argument, isArgument, rfl⟩ | ⟨_, isSource, rfl⟩ | target
  · obtain ⟨parameter, isParameter, rfl⟩ := List.mem_map.1 isArgument
    rcases ConverterPlan.mem_occurrences_render (closed parameter isParameter) occurs with
      bound | ⟨declared, isFree, rfl⟩
    · exact ofCall (complete.names name bound)
    · refine Or.inl (Or.inr ?_)
      rw [List.map_map]
      exact List.mem_map.2 ⟨declared, isFree, rfl⟩
  · cases isSource
    exact ofCall (complete.names name (shows name occurs))
  · obtain ⟨value, result, rfl⟩ := target
    exact ofCall (complete.target value result name occurs)

end EdgeCall

theorem ConstructorPlan.wellScoped_creation (naming : Naming) {plan : ConstructorPlan}
    {scope : Scope} {ambient : List TypeParameter}
    (around : ∀ name ∈ scope.names, name ∈ ambient.map (·.name)) :
    (plan.creation naming scope ambient).WellScoped ambient := by
  refine Method.wellScoped_of_undeclared rfl fun type member name occurs => ?_
  rw [List.map_append, List.mem_append]
  rcases Method.mem_types member with ⟨argument, isArgument, -⟩ | ⟨_, isSource, -⟩ | target
  · cases isArgument
  · cases isSource
  · obtain ⟨value, result, rfl⟩ := target
    cases result
    exact (mem_names_of_targetIn occurs).symm.imp_right (around name)

/-! ### Methods where they stand -/

section

variable {naming : Naming} {declarations : List Declaration} {plans : List ConstructorPlan}
  {tree : PlanTree} {path : Path} {ambient : List TypeParameter}

/-- What is bound further down is declared from the old size on. -/
theorem Scope.mem_declarationsFrom {first second : Scope} (begins : first.names <+: second.names)
    {name : String} (bound : name ∈ second.names) :
    name ∈ (second.declarationsFrom first.size).map (·.name) ∨ name ∈ first.names := by
  obtain ⟨rest, appended⟩ := begins
  have isRest : (second.declarationsFrom first.size).map (·.name) = rest := by
    rw [declarationsFrom, List.map_drop, map_name_declarations, ← appended, ← length_names,
      List.drop_left]
  rw [isRest]
  rw [← appended, List.mem_append] at bound
  exact bound.symm

/-- A call down an edge can mention nothing that is not declared. -/
theorem complete_edgeCall {below : Path} (begins : path.scope.names <+: below.scope.names)
    (around : ∀ name ∈ path.scope.names, name ∈ ambient.map (·.name)) {arrival : Arrival}
    (finishes : arrival.Finishes below) :
    (edgeCall path below ambient arrival.result arrival.finished).Complete := by
  have names : ∀ name ∈ below.scope.names,
      name ∈ (below.scope.declarationsFrom path.scope.size).map (·.name) ∨
        name ∈ ambient.map (·.name) := fun name bound =>
    (Scope.mem_declarationsFrom begins bound).imp_right (around name)
  refine ⟨fun name bound => ?_, fun value result name occurs => ?_⟩
  · rw [edgeCall, List.append_assoc, List.map_append, List.map_append, List.mem_append,
      List.mem_append]
    exact (names name bound).imp_right Or.inr
  · obtain ⟨plan, finished, isTarget⟩ := finishes value result
    rw [isTarget] at occurs
    rw [edgeCall, finished, Option.map_some, Option.getD_some, List.append_assoc, List.map_append,
      List.map_append, List.mem_append, List.mem_append]
    rcases ConstructorPlan.mem_names_of_targetIn occurs with bound | unbound
    · exact (names name bound).imp_right Or.inr
    · exact Or.inr (Or.inl unbound)

/-- Every method that is made where a path leads is well scoped if what the path has bound is
declared around it. -/
theorem Stands.wellScoped {method : Method} (stands : Stands naming tree path ambient method)
    (grown : PlanTree.Grown plans tree) (allDeclared : ∀ plan ∈ plans, plan.Declared declarations)
    (allClosed : ∀ plan ∈ plans, plan.Closed) (walked : Walked tree path)
    (around : ∀ name ∈ path.scope.names, name ∈ ambient.map (·.name)) :
    method.WellScoped ambient := by
  cases stands with
  | @edge above node child representative plan supply arrival order under leads member made onEdge
      supplied finishes =>
    have below : Walked tree (path.extend representative) :=
      .extend walked under leads member made
    have wellScoped := below.wellScoped grown allDeclared
    obtain ⟨sameType, constructor, isPlan, before, after, parts, sameTypes⟩ :=
      grown.taken under member made onEdge
    have alongKey : plan.key.type ∈ (path.extend representative).key.map (·.1) := by
      rw [sameType, Path.key_extend, List.map_append]
      exact List.mem_append_right _ (List.mem_singleton_self _)
    have size : constructor.declaration.width (before.length + 1) =
        (path.extend representative).scope.size := by
      have partsBelow : constructor.parameters = (before ++ [plan]) ++ after := by
        rw [parts, List.append_assoc, List.singleton_append]
      have typesBelow := (allDeclared constructor isPlan).map_type_before partsBelow
      rw [List.length_append, List.length_singleton, List.map_append, sameTypes,
        List.map_singleton, sameType, ← Walked.map_fst_keyOf above, leads] at typesBelow
      refine MentionsBelow.unique (mentionsBelow_positionalTypes _) ?_
      have mentions := wellScoped.mentions
      rw [Path.key_extend, List.map_append, List.map_singleton, typesBelow] at mentions
      exact mentions
    have begins : path.scope.names <+: (path.extend representative).scope.names :=
      path.scope.names_isPrefix_bindAll representative.introduced
    have complete := complete_edgeCall begins around finishes
    have shows : ∀ name ∈
        ((path.extend representative).scope.display plan.key.type).occurrences,
          name ∈ (path.extend representative).scope.names :=
      fun name occurs => wellScoped.mem_names_of_display alongKey occurs
    cases supply with
    | direct name => exact EdgeCall.wellScoped_supply complete shows name
    | converted converted =>
      refine EdgeCall.wellScoped_conversion complete shows ?_
      show converted.ClosedBelow (path.extend representative).scope.size
      rw [← size]
      exact allClosed constructor isPlan before plan after parts converted supplied
  | ending under leads ends => exact ConstructorPlan.wellScoped_creation naming around

end

/-! ### Builders -/

/-- The methods of the root and of the steps are well scoped where they hang. -/
structure Builder.MethodsScoped (builder : Builder) : Prop where
  root : ∀ method ∈ builder.methods, method.WellScoped builder.typeParameters
  steps : ∀ step ∈ builder.steps, ∀ method ∈ step.methods,
    method.WellScoped step.typeParameters

/-- If converters declare what they mention, all methods of a builder are well scoped. -/
theorem methodsScoped_assemble (system : TypeSystem) (naming : Naming) (root : Root)
    (declarations : List Declaration)
    (closed : ∀ declaration ∈ declarations, declaration.Closed) :
    (assemble system naming root declarations).MethodsScoped := by
  obtain ⟨setting⟩ := nonempty_setting system naming root declarations
  have allClosed : ∀ plan ∈ setting.plans, plan.Closed := by
    intro plan member
    obtain ⟨id, declaration, declared, rfl⟩ := mem_planAll.1 (setting.planned plan member)
    exact Declaration.closed_plan (closed declaration (List.mem_of_getElem? declared)) system naming
      id
  refine ⟨fun method member => ?_, fun step member method onStep => ?_⟩
  · obtain ⟨before, stands, rfl⟩ := setting.exists_stands_root member
    refine Method.WellScoped.mapStep ?_ _
    exact stands.wellScoped setting.grown setting.allDeclared allClosed .start
      fun name bound => absurd bound List.not_mem_nil
  · obtain ⟨number, found⟩ := List.getElem?_of_mem member
    obtain ⟨path, standing⟩ := setting.exists_standing found
    obtain ⟨before, stands, rfl⟩ := standing.methods method onStep
    rw [standing.typeParameters]
    refine Method.WellScoped.mapStep ?_ _
    refine stands.wellScoped setting.grown setting.allDeclared allClosed standing.walked ?_
    rw [Scope.map_name_declarations]
    exact fun name bound => bound

/-- The converter has one type parameter that the parameter's type determines and one that it does
not, which has to be called anew because its name is taken. -/
theorem methodsScoped_assemble_pairs :
    let declaration : Declaration := {
      constructor := {
        target := { name := "Bag", typeParameters := [{ name := "U" }, { name := "V" }] }
        parameters := [{
          name := "items"
          type := .named none "List" [.parameter "U"]
          group := some {
            declaringType := .simple "Lists"
            converters := [{
              name := "Keys"
              typeParameters := [{ name := "K" }, { name := "U" }]
              parameters := [⟨"pairs", .named none "Map" [.parameter "K", .parameter "U"]⟩]
              returnType := .named none "List" [.parameter "K"] }] } }] }
      root := "Shop" }
    Validation.findings (.marked none "Shop") [declaration] = [] ∧
      (∀ other ∈ [declaration], other.Closed) ∧
        (assemble {} {} (.marked none "Shop") [declaration]).MethodsScoped := by
  intro declaration
  have closed : ∀ other ∈ [declaration], other.Closed := by decide
  exact ⟨rfl, closed, methodsScoped_assemble {} {} (.marked none "Shop") [declaration] closed⟩

end StagedBuilder
