/-
This file proves that the arguments of a method that goes through a converter are shown
without confusion. They are the types of the converter's parameters under one substitution.
A type parameter of the converter that the wanted type determines becomes what it is bound
to, written with the names of the scope. One that is free becomes a single name, which
neither the scope uses nor the call introduces, and no two free ones get the same.

Three substitutions make this one: the bindings in positional form, the new names of the
free type parameters, and the names of the scope instead of placeholders. None disturbs the
outcome of another, and this rests on the marks. What the bindings put in mentions
placeholders only, which begin with a mark, so no new name is given to it; and the new names
begin as the old ones do, without a mark, so the scope leaves them as they are.
-/

import StagedBuilder.Proofs.MethodScoping

namespace StagedBuilder

open TypeTerm (relabel tabulate)

/-! ### Marks -/

/-- The name begins as the names of placeholders do. -/
def Marked (name : String) : Prop := name.toList.head? = some '$'

instance (name : String) : Decidable (Marked name) :=
  inferInstanceAs (Decidable (name.toList.head? = some '$'))

theorem marked_placeholderName (index : Nat) : Marked (placeholderName index) := by
  rw [Marked, placeholderName, String.toList_append]
  rfl

/-- A fresh name begins as the preferred one does, or with a digit. -/
theorem not_marked_freshName (taken : List String) {preferred : String}
    (unmarked : ¬Marked preferred) : ¬Marked (freshName taken preferred) := by
  rcases freshName_cases taken preferred with ⟨-, same⟩ | ⟨-, count, -, same⟩
  · rwa [same]
  · rw [same, Marked, String.toList_append]
    cases parts : preferred.toList with
    | nil =>
      intro begins
      have inNumeral : '$' ∈ (toString (count + 1)).toList := List.mem_of_mem_head? begins
      have isDigit : '$'.isDigit = true :=
        Nat.isDigit_of_mem_toDigits (by decide) (by decide)
          ((String.toList_ofList (l := Nat.toDigits 10 (count + 1))) ▸ inNumeral)
      exact absurd isDigit (by decide)
    | cons first rest =>
      rw [Marked, parts] at unmarked
      exact unmarked

/-- What is not marked is no placeholder, and it is shown as it is. -/
theorem Scope.display_parameter_of_not_marked (scope : Scope) {name : String}
    (unmarked : ¬Marked name) : scope.display (.parameter name) = .parameter name := by
  refine TypeTerm.substitute_parameter_of_notMem fun member => unmarked ?_
  rw [substitution, List.map_map] at member
  obtain ⟨entry, -, rfl⟩ := List.mem_map.1 member
  exact marked_placeholderName entry.2

/-! ### New names for a list -/

theorem length_freshNames (taken preferred : List String) :
    (freshNames taken preferred).length = preferred.length := by
  induction preferred generalizing taken with
  | nil => rfl
  | cons first rest inductionHypothesis =>
    rw [freshNames, List.length_cons, List.length_cons, inductionHypothesis]

/-- Each of the new names is fresh for one of the list, with more names taken than at first. -/
theorem exists_of_mem_freshNames {taken preferred : List String} {fresh : String}
    (member : fresh ∈ freshNames taken preferred) :
    ∃ more, ∃ name ∈ preferred, fresh = freshName (taken ++ more) name := by
  induction preferred generalizing taken with
  | nil => exact absurd member List.not_mem_nil
  | cons first rest inductionHypothesis =>
    rcases List.mem_cons.1 member with rfl | later
    · exact ⟨[], first, List.mem_cons_self, by rw [List.append_nil]⟩
    · obtain ⟨more, name, listed, isFresh⟩ := inductionHypothesis later
      rw [List.append_assoc] at isFresh
      exact ⟨_, name, List.mem_cons_of_mem _ listed, isFresh⟩

theorem notMem_of_mem_freshNames {taken preferred : List String} {fresh : String}
    (member : fresh ∈ freshNames taken preferred) : fresh ∉ taken := by
  obtain ⟨more, name, -, rfl⟩ := exists_of_mem_freshNames member
  exact fun isTaken => freshName_notMem _ _ (List.mem_append_left _ isTaken)

/-- No new name is given twice. -/
theorem nodup_freshNames (taken preferred : List String) : (freshNames taken preferred).Nodup := by
  induction preferred generalizing taken with
  | nil => exact List.nodup_nil
  | cons first rest inductionHypothesis =>
    rw [freshNames, List.nodup_cons]
    refine ⟨fun again => ?_, inductionHypothesis _⟩
    exact notMem_of_mem_freshNames again (List.mem_append_right _ (List.mem_singleton_self _))

/-! ### New names of free type parameters -/

namespace ConverterPlan

/-- At a place in the list of free type parameters stands one of this name, and the new name for it
is given there. -/
structure Names (plan : ConverterPlan) (taken : List String) (place : Nat)
    (name fresh : String) : Prop where
  old : (plan.free.map (·.name))[place]? = some name
  new : (freshNames taken (plan.free.map (·.name)))[place]? = some fresh

variable {plan : ConverterPlan} {taken : List String} {place : Nat} {name fresh : String}

theorem exists_names (taken : List String) (isFree : name ∈ plan.free.map (·.name)) :
    ∃ place fresh, plan.Names taken place name fresh := by
  obtain ⟨place, old⟩ := List.getElem?_of_mem isFree
  obtain ⟨less, -⟩ := List.getElem?_eq_some_iff.1 old
  rw [← length_freshNames taken] at less
  exact ⟨place, _, old, List.getElem?_eq_getElem less⟩

theorem Names.notMem (names : plan.Names taken place name fresh) : fresh ∉ taken :=
  notMem_of_mem_freshNames (List.mem_of_getElem? names.new)

theorem Names.not_marked (names : plan.Names taken place name fresh)
    (unmarked : ∀ name ∈ plan.free.map (·.name), ¬Marked name) : ¬Marked fresh := by
  obtain ⟨_, preferred, isFree, rfl⟩ := exists_of_mem_freshNames (List.mem_of_getElem? names.new)
  exact not_marked_freshName _ (unmarked preferred isFree)

/-- Different type parameters get different names. -/
theorem Names.injective {other : Nat} {otherName : String}
    (names : plan.Names taken place name fresh)
    (namesOther : plan.Names taken other otherName fresh) : name = otherName := by
  obtain ⟨less, -⟩ := List.getElem?_eq_some_iff.1 names.new
  obtain rfl := (List.getElem?_inj less (nodup_freshNames _ _)).1
    (names.new.trans namesOther.new.symm)
  exact Option.some.inj (names.old.symm.trans namesOther.old)

/-- Where the names of the free type parameters are different, each is replaced by its new name. -/
theorem Names.substitute (names : plan.Names taken place name fresh)
    (distinct : (plan.free.map (·.name)).Nodup) :
    (TypeTerm.parameter name).substitute (plan.renames taken) = .parameter fresh := by
  have only {other : String} (inZip : (name, other) ∈ (plan.free.map (·.name)).zip
      (freshNames taken (plan.free.map (·.name)))) : other = fresh := by
    obtain ⟨otherPlace, atOther⟩ := List.getElem?_of_mem inZip
    obtain ⟨sameName, isOther⟩ := List.getElem?_zip_eq_some.1 atOther
    obtain ⟨less, -⟩ := List.getElem?_eq_some_iff.1 sameName
    obtain rfl := (List.getElem?_inj less distinct).1 (sameName.trans names.old.symm)
    exact Option.some.inj (isOther.symm.trans names.new)
  cases found : (plan.renames taken).lookup name with
  | some shown =>
    obtain ⟨other, inZip, -, rfl⟩ := mem_renames.1 (Lists.mem_of_lookup found)
    rw [TypeTerm.substitute_parameter_of_lookup found, only inZip]
  | none =>
    -- without an entry the new name is the old one, for else there would be one
    rw [TypeTerm.substitute, found, Option.getD_none]
    by_contra differs
    have listed : (name, TypeTerm.parameter fresh) ∈ plan.renames taken := by
      refine mem_renames.2 ⟨fresh, ?_, fun same => differs (by rw [same]), rfl⟩
      exact List.mem_of_getElem? (List.getElem?_zip_eq_some.2 ⟨names.old, names.new⟩)
    obtain ⟨_, isEntry⟩ := Binding.exists_lookup (List.mem_map_of_mem listed)
    rw [found] at isEntry
    cases isEntry

/-- A type without free type parameters keeps all its names. -/
theorem substitute_renames_eq_self (taken : List String) {type : TypeTerm}
    (apart : ∀ name ∈ type.occurrences, name ∉ plan.free.map (·.name)) :
    type.substitute (plan.renames taken) = type := by
  refine TypeTerm.substitute_eq_self fun name occurs => ?_
  obtain ⟨image, renamed, unchanged⟩ := plan.exists_rename taken name
  rw [renamed, unchanged (apart name occurs)]

end ConverterPlan

/-! ### What is shown for the type parameters of a converter -/

/-- The type parameters of a converter have different names, which are not marked, and its
parameters mention no others. -/
structure Converter.WellNamed (converter : Converter) : Prop where
  distinct : (converter.typeParameters.map (·.name)).Nodup
  unmarked : ∀ name ∈ converter.typeParameters.map (·.name), ¬Marked name
  declares : ∀ type ∈ converter.parameters.map (·.type),
    type.DeclaredIn converter.typeParameters

/-- What a call shows for the type parameters of a converter. For a bound one it is what the
parameter is bound to, with the names that the scope has for the numbers; for a free one it is a
name that neither the scope nor the call has; and it is not the same for two free ones. -/
structure EdgeCall.CaptureFree (call : EdgeCall) (numbering : Numbering) (converter : Converter)
    (bindings shown : Substitution) : Prop where
  numbered : ∀ name type, bindings.lookup name = some type → ∀ occurring ∈ type.occurrences,
    ∃ number < call.scope.size, numbering.index? occurring = some number
  bound : ∀ name type, bindings.lookup name = some type → shown.lookup name =
    some (type.substitute (relabel (call.scope.rename numbering) type.occurrences))
  free : ∀ name ∈ converter.typeParameters.map (·.name), bindings.lookup name = none →
    ∃ fresh, shown.lookup name = some (.parameter fresh) ∧ fresh ∉ call.scope.names ∧
      fresh ∉ call.introduced.map (·.name)
  apart : ∀ left ∈ converter.typeParameters.map (·.name),
    ∀ right ∈ converter.typeParameters.map (·.name), bindings.lookup left = none →
      bindings.lookup right = none → shown.lookup left = shown.lookup right → left = right

namespace ConverterGroup

variable {numbering : Numbering} {group : ConverterGroup} {converter : Converter}
  {bindings : Substitution} {siblings : List String}

/-- A converter that fits is planned. -/
theorem exists_mem_plans {system : TypeSystem} {wanted : TypeTerm} (numbering : Numbering)
    (member : converter ∈ group.converters) (fits : (fit? system wanted converter).isSome) :
    ∃ planned ∈ group.plans system numbering wanted, planned.converter = converter := by
  obtain ⟨bindings, isFit⟩ := Option.isSome_iff_exists.1 fits
  have fitting : (converter, bindings) ∈ group.fitting system wanted :=
    List.mem_filterMap.2 ⟨converter, member, by rw [isFit, Option.map_some]⟩
  obtain ⟨place, found⟩ := List.getElem?_of_mem fitting
  have placed : ((converter, bindings), place) ∈ (group.fitting system wanted).zipIdx :=
    List.mem_zipIdx_iff_getElem?.2 found
  exact ⟨_, List.mem_map_of_mem placed, rfl⟩

/-- The free type parameters of a converter are those without a binding. -/
theorem map_name_free_plan : (group.plan numbering siblings converter bindings).free.map (·.name) =
    (converter.typeParameters.map (·.name)).filter fun name =>
      (bindings.lookup name).isNone := by
  rw [plan, List.map_map, List.filter_map]
  congr 1
  refine List.filter_congr fun declared _ => ?_
  rw [Lists.lookup_map_snd, Option.isNone_map]
  rfl

theorem mem_free_plan {name : String} :
    name ∈ (group.plan numbering siblings converter bindings).free.map (·.name) ↔
      name ∈ converter.typeParameters.map (·.name) ∧ bindings.lookup name = none := by
  rw [map_name_free_plan, List.mem_filter, Option.isNone_iff_eq_none]

end ConverterGroup

namespace EdgeCall

/-- What a call shows for a type parameter of a converter with these bindings. -/
def image (call : EdgeCall) (numbering : Numbering) (bindings : Substitution)
    (converted : ConverterPlan) (name : String) : TypeTerm :=
  call.scope.display (((TypeTerm.parameter name).substitute
    (bindings.map fun binding => (binding.1, numbering.positional binding.2))).substitute
      (converted.renames (call.scope.names ++ call.introduced.map (·.name))))

/-- What a call shows for all type parameters of a converter. -/
def shown (call : EdgeCall) (numbering : Numbering) (bindings : Substitution)
    (converted : ConverterPlan) : Substitution :=
  tabulate (call.image numbering bindings converted)
    (converted.converter.typeParameters.map (·.name))

variable {system : TypeSystem} {numbering : Numbering} {wanted : TypeTerm}
  {group : ConverterGroup} {converter : Converter} {bindings : Substitution}
  {siblings : List String} {call : EdgeCall}

theorem lookup_shown {name : String} (listed : name ∈ converter.typeParameters.map (·.name)) :
    (call.shown numbering bindings (group.plan numbering siblings converter bindings)).lookup name =
      some (call.image numbering bindings (group.plan numbering siblings converter bindings)
        name) :=
  TypeTerm.lookup_tabulate _ listed

/-- A bound type parameter is shown as what it is bound to, with the names of the scope. -/
theorem image_of_lookup (wellNamed : converter.WellNamed) {name : String} {type : TypeTerm}
    (found : bindings.lookup name = some type)
    (numbered : ∀ name ∈ type.occurrences, ∃ number < call.scope.size,
      numbering.index? name = some number) :
    call.image numbering bindings (group.plan numbering siblings converter bindings) name =
      type.substitute (relabel (call.scope.rename numbering) type.occurrences) := by
  have positional : (bindings.map fun binding =>
      (binding.1, numbering.positional binding.2)).lookup name =
        some (numbering.positional type) := by
    rw [Lists.lookup_map_snd, found, Option.map_some]
  have inNumbering : ∀ name ∈ type.occurrences, name ∈ numbering.names := by
    intro name occurs
    obtain ⟨number, -, isNumber⟩ := numbered name occurs
    exact List.mem_of_getElem? (Numbering.index?_eq_some isNumber)
  rw [image, TypeTerm.substitute_parameter_of_lookup positional,
    ConverterPlan.substitute_renames_eq_self]
  · exact Scope.display_positional_of_bound numbered fun _ => TypeTerm.lookup_relabel _
  · intro occurring occurs isFree
    obtain ⟨_, -, number, -, rfl⟩ := (Numbering.mem_occurrences_positional inNumbering).1 occurs
    exact wellNamed.unmarked _ (ConverterGroup.mem_free_plan.1 isFree).1
      (marked_placeholderName number)

/-- A free type parameter is shown by its new name. -/
theorem image_of_names (wellNamed : converter.WellNamed) {place : Nat} {name fresh : String}
    (names : (group.plan numbering siblings converter bindings).Names
      (call.scope.names ++ call.introduced.map (·.name)) place name fresh) :
    call.image numbering bindings (group.plan numbering siblings converter bindings) name =
      .parameter fresh := by
  have isFree := ConverterGroup.mem_free_plan.1 (List.mem_of_getElem? names.old)
  have unbound : (TypeTerm.parameter name).substitute (bindings.map fun binding =>
      (binding.1, numbering.positional binding.2)) = .parameter name := by
    rw [TypeTerm.substitute, Lists.lookup_map_snd, isFree.2, Option.map_none, Option.getD_none]
  rw [image, unbound, names.substitute]
  · refine Scope.display_parameter_of_not_marked _ (names.not_marked fun other isFree => ?_)
    exact wellNamed.unmarked other (ConverterGroup.mem_free_plan.1 isFree).1
  · rw [ConverterGroup.map_name_free_plan]
    exact wellNamed.distinct.filter _

/-- The arguments of a call through a converter are the types of the converter's parameters, with
what is shown in the place of its type parameters. -/
theorem map_type_arguments_conversion (wellNamed : converter.WellNamed) (call : EdgeCall)
    (parameter : ParameterPlan) :
    (call.conversion parameter
        (group.plan numbering siblings converter bindings)).arguments.map (·.type) =
      converter.parameters.map fun declared => declared.type.substitute
        (call.shown numbering bindings (group.plan numbering siblings converter bindings)) := by
  show (List.map _ (List.map _ (List.map _ _))) = _
  rw [List.map_map, List.map_map]
  refine List.map_congr_left fun declared member => ?_
  have listed := wellNamed.declares _ (List.mem_map_of_mem member)
  refine (congrArg call.scope.display (TypeTerm.substitute_tabulate listed)).trans ?_
  refine TypeTerm.substitute_substitute fun name occurs => ?_
  rw [TypeTerm.substitute_parameter_of_lookup (TypeTerm.lookup_tabulate _ (listed name occurs)),
    TypeTerm.substitute_parameter_of_lookup (lookup_shown (listed name occurs))]
  rfl

/-- What is shown is free of captures if the type parameters of the wanted type are bound. -/
theorem captureFree_shown (wellNamed : converter.WellNamed)
    (fits : ConverterGroup.fit? system wanted converter = some bindings)
    (numbered : ∀ name ∈ wanted.occurrences, ∃ number < call.scope.size,
      numbering.index? name = some number) :
    call.CaptureFree numbering converter bindings
      (call.shown numbering bindings (group.plan numbering siblings converter bindings)) := by
  have ofBinding {name : String} {type : TypeTerm} (found : bindings.lookup name = some type) :
      name ∈ converter.typeParameters.map (·.name) ∧
        ∀ occurring ∈ type.occurrences, ∃ number < call.scope.size,
          numbering.index? occurring = some number := by
    obtain ⟨listed, within⟩ := (ConverterGroup.adds_of_fit? fits _
      (Lists.mem_of_lookup found)).resolve_left List.not_mem_nil
    exact ⟨listed, fun occurring occurs => numbered occurring (within occurs)⟩
  have ofFree {name : String} (listed : name ∈ converter.typeParameters.map (·.name))
      (unbound : bindings.lookup name = none) :
      ∃ place fresh, (group.plan numbering siblings converter bindings).Names
          (call.scope.names ++ call.introduced.map (·.name)) place name fresh ∧
        (call.shown numbering bindings (group.plan numbering siblings converter bindings)).lookup
          name = some (.parameter fresh) := by
    obtain ⟨place, fresh, names⟩ := ConverterPlan.exists_names _
      (ConverterGroup.mem_free_plan.2 ⟨listed, unbound⟩)
    exact ⟨place, fresh, names, by rw [lookup_shown listed, image_of_names wellNamed names]⟩
  refine ⟨fun name type found => (ofBinding found).2, fun name type found => ?_,
    fun name listed unbound => ?_, fun left leftListed right rightListed leftUnbound rightUnbound
      same => ?_⟩
  · obtain ⟨listed, bound⟩ := ofBinding found
    rw [lookup_shown listed, image_of_lookup wellNamed found bound]
  · obtain ⟨_, fresh, names, shown⟩ := ofFree listed unbound
    have apart := names.notMem
    rw [List.mem_append, not_or] at apart
    exact ⟨fresh, shown, apart⟩
  · obtain ⟨_, fresh, leftNames, leftShown⟩ := ofFree leftListed leftUnbound
    obtain ⟨_, other, rightNames, rightShown⟩ := ofFree rightListed rightUnbound
    rw [leftShown, rightShown, Option.some.injEq, TypeTerm.parameter.injEq] at same
    rw [← same] at rightNames
    exact leftNames.injective rightNames

end EdgeCall

/-! ### The methods of a parameter -/

/-- Every converter that fits a parameter is among the ways to supply it, and each that is, if it
is well named, has its arguments shown without capture. -/
structure ParameterPlan.ConvertsFreely (system : TypeSystem) (numbering : Numbering)
    (call : EdgeCall) (plan : ParameterPlan) : Prop where
  offered : ∀ group, plan.parameter.group = some group → ∀ converter ∈ group.converters,
    (ConverterGroup.fit? system plan.parameter.type converter).isSome →
      ∃ converted, .converted converted ∈ plan.supplies ∧ converted.converter = converter
  rendered : ∀ converted, .converted converted ∈ plan.supplies → converted.converter.WellNamed →
    ∃ bindings shown,
      ConverterGroup.fit? system plan.parameter.type converted.converter = some bindings ∧
      (call.conversion plan converted).arguments.map (·.type) =
        converted.converter.parameters.map (fun declared => declared.type.substitute shown) ∧
      call.CaptureFree numbering converted.converter bindings shown

/-- Whatever names a converter, its constructor and the scope of a path have in common: wherever
the placeholders up to a parameter are bound, the methods that supply it through converters show
their arguments without capture. -/
theorem convertsFreely_plan (system : TypeSystem) (naming : Naming) (id : Nat)
    (declaration : Declaration) {index : Nat} {parameter : Parameter}
    (isParameter : declaration.constructor.parameters[index]? = some parameter)
    {call : EdgeCall} (bound : declaration.width (index + 1) ≤ call.scope.size) :
    ∃ plan, (declaration.plan system naming id).parameters[index]? = some plan ∧
      plan.parameter = parameter ∧
      plan.ConvertsFreely system (declaration.plan system naming id).numbering call := by
  obtain ⟨plan, isPlan, rfl⟩ := Declaration.exists_parameterPlan system naming id isParameter
  refine ⟨plan, isPlan, rfl, fun group isGroup converter member fits => ?_,
    fun converted supplied wellNamed => ?_⟩
  · obtain ⟨declared, form, -, -, rfl⟩ := Declaration.getElem?_parameters_plan isPlan
    obtain ⟨converted, isPlanned, same⟩ :=
      ConverterGroup.exists_mem_plans (numberingOf declaration.types) member fits
    refine ⟨converted, ?_, same⟩
    show SupplyPlan.converted converted ∈
      Declaration.supplies system naming (numberingOf declaration.types) declared
    have isGroup : declared.group = some group := isGroup
    rw [Declaration.supplies, isGroup]
    exact List.mem_map_of_mem isPlanned
  · obtain ⟨-, group, -, converter, -, bindings, siblings, fits, rfl⟩ :=
      Declaration.exists_converter_of_mem_supplies isPlan supplied
    have isType : declaration.types[index]? = some plan.parameter.type := by
      rw [List.getElem?_map, isParameter, Option.map_some]
    have numbered : ∀ name ∈ plan.parameter.type.occurrences, ∃ number < call.scope.size,
        (numberingOf declaration.types).index? name = some number := by
      intro name occurs
      obtain ⟨number, less, isNumber⟩ := Declaration.exists_number isType occurs
      exact ⟨number, Nat.lt_of_lt_of_le less bound, isNumber⟩
    exact ⟨bindings, _, fits, EdgeCall.map_type_arguments_conversion wellNamed call plan,
      EdgeCall.captureFree_shown wellNamed fits numbered⟩

/-- The converter calls a free type parameter as the constructor calls the one it is bound to, and
the name that is free for it is that of another free one. -/
theorem convertsFreely_plan_pairs :
    let declaration : Declaration := {
      constructor := {
        target := { name := "Bag", typeParameters := [{ name := "U" }] }
        parameters := [{
          name := "items"
          type := .named none "List" [.parameter "U"]
          group := some {
            declaringType := .simple "Lists"
            converters := [{
              name := "Keys"
              typeParameters := [{ name := "K" }, { name := "U" }, { name := "U1" }]
              parameters := [
                ⟨"pairs", .named none "Map" [.parameter "K", .parameter "U"]⟩,
                ⟨"others", .named none "List" [.parameter "U1"]⟩]
              returnType := .named none "List" [.parameter "K"] }] } }] }
      root := "Shop" }
    let call : EdgeCall := {
      scope := ⟨[("U", {})]⟩
      introduced := [{ name := "U" }]
      ambient := []
      result := .step 0 }
    declaration.width 1 ≤ call.scope.size ∧
      ∃ plan converted, (declaration.plan {} {} 0).parameters[0]? = some plan ∧
        .converted converted ∈ plan.supplies ∧ converted.converter.WellNamed ∧
        (call.conversion plan converted).arguments.map (·.type) =
          [.named none "Map" [.parameter "U", .parameter "U1"],
            .named none "List" [.parameter "U11"]] ∧
        plan.ConvertsFreely {} (declaration.plan {} {} 0).numbering call := by
  intro declaration call
  have bound : declaration.width 1 ≤ call.scope.size := by decide
  have isParameter : declaration.constructor.parameters[0]? = some _ := rfl
  obtain ⟨plan, isPlan, -, convertsFreely⟩ :=
    convertsFreely_plan {} {} 0 declaration isParameter bound
  obtain rfl := Option.some.inj isPlan
  exact ⟨bound, _, _, isPlan, List.mem_singleton_self _, ⟨by decide, by decide, by decide⟩,
    by decide, convertsFreely⟩

end StagedBuilder
