/-
This file proves that the choice of converters does not depend on what the type parameters
of the parameter's type are called. Matching compares what lies at the places of one type
parameter of the converter with each other, and these comparisons come out the same after a
renaming that keeps different type parameters different.

Assignability is another matter, because what the converter leaves unbound is compared with
the type by name. Here three assumptions come in. In a structural type system, if the
outcome is the type itself, the matching has gone through all of it, so everything that the
converter mentions is bound if the converter declares all that it mentions. And where the
outcome only widens to the type, the type is one of those in the table of widenings and, if
these mention no type parameters, the renaming leaves it alone.
-/

import Mathlib.Data.Set.Function
import StagedBuilder.Proofs.Instantiation
import StagedBuilder.Proofs.MethodScoping
import StagedBuilder.Proofs.Renaming
import StagedBuilder.Proofs.View

namespace StagedBuilder

open TypeTerm (occurrencesOfAll mem_occurrencesOfAll relabel)

/-! ### Types with other names -/

namespace TypeTerm

mutual

/-- The type with its type parameters called by other names. -/
def rename (image : String → String) : TypeTerm → TypeTerm
  | .named space name arguments => .named space name (renameAll image arguments)
  | .parameter name => .parameter (image name)

def renameAll (image : String → String) : List TypeTerm → List TypeTerm
  | [] => []
  | first :: rest => first.rename image :: renameAll image rest

end

variable (image : String → String)

theorem renameAll_eq_map (types : List TypeTerm) :
    renameAll image types = types.map (·.rename image) := by
  induction types with
  | nil => rfl
  | cons first rest inductionHypothesis =>
    rw [renameAll, inductionHypothesis, List.map_cons]

/-- A renaming is a substitution that gives new names to all type parameters of the type. -/
theorem rename_eq_substitute {type : TypeTerm} {names : List String}
    (listed : ∀ name ∈ type.occurrences, name ∈ names) :
    type.rename image = type.substitute (relabel image names) := by
  induction type using inductionOn with
  | named space name arguments inductionHypothesis =>
    rw [rename, substitute, renameAll_eq_map, substituteAll_eq_map]
    congr 1
    refine List.map_congr_left fun argument member => inductionHypothesis argument member ?_
    exact fun occurring inArgument =>
      listed occurring (mem_occurrencesOfAll.2 ⟨argument, member, inArgument⟩)
  | parameter name =>
    exact (substitute_parameter_of_lookup
      (lookup_relabel image (listed name (List.mem_singleton_self name)))).symm

theorem occurrences_rename (type : TypeTerm) :
    (type.rename image).occurrences = type.occurrences.map image := by
  rw [rename_eq_substitute image fun _ occurs => occurs]
  exact occurrences_relabel image fun _ occurs => occurs

theorem erased_rename (type : TypeTerm) : (type.rename image).erased = type.erased := by
  rw [rename_eq_substitute image fun _ occurs => occurs]
  refine erased_substitute (fun entry member => ?_) type
  obtain ⟨name, -, rfl⟩ := List.mem_map.1 member
  rfl

theorem isParameter_rename (type : TypeTerm) :
    (type.rename image).isParameter = type.isParameter := by
  cases type <;> rfl

theorem arguments_rename (type : TypeTerm) :
    (type.rename image).arguments = type.arguments.map (·.rename image) := by
  cases type with
  | named space name arguments => exact renameAll_eq_map image arguments
  | parameter name => rfl

/-- A renaming can be undone as far as the names of the type are concerned. -/
theorem rename_rename {image : String → String} {inverse : String → String} {type : TypeTerm}
    (undoes : ∀ name ∈ type.occurrences, inverse (image name) = name) :
    (type.rename image).rename inverse = type := by
  induction type using inductionOn with
  | named space name arguments inductionHypothesis =>
    rw [rename, rename, renameAll_eq_map, renameAll_eq_map, List.map_map]
    congr 1
    refine (List.map_congr_left fun argument member => ?_).trans (List.map_id arguments)
    exact inductionHypothesis argument member fun occurring inArgument =>
      undoes occurring (mem_occurrencesOfAll.2 ⟨argument, member, inArgument⟩)
  | parameter name => exact congrArg TypeTerm.parameter (undoes name (List.mem_singleton_self name))

/-- A type without type parameters stays as it is. -/
theorem rename_of_ground (image : String → String) {type : TypeTerm}
    (ground : type.occurrences = []) : type.rename image = type := by
  induction type using inductionOn with
  | named space name arguments inductionHypothesis =>
    rw [rename, renameAll_eq_map]
    congr 1
    refine (List.map_congr_left fun argument member => ?_).trans (List.map_id arguments)
    refine inductionHypothesis argument member (List.eq_nil_iff_forall_not_mem.2 ?_)
    intro occurring inArgument
    have occurs : occurring ∈ (named space name arguments).occurrences :=
      mem_occurrencesOfAll.2 ⟨argument, member, inArgument⟩
    rw [ground] at occurs
    exact absurd occurs List.not_mem_nil
  | parameter name => cases ground

variable {image : String → String} {names : List String}

theorem rename_inj (apart : Apart image names) {left right : TypeTerm}
    (ofLeft : left.occurrences ⊆ names) (ofRight : right.occurrences ⊆ names) :
    left.rename image = right.rename image ↔ left = right := by
  have injective : Set.InjOn image {name | name ∈ names} :=
    fun left leftMember right rightMember => apart left leftMember right rightMember
  have undoes : ∀ name ∈ names,
      Function.invFunOn image {name | name ∈ names} (image name) = name :=
    fun name member => injective.leftInvOn_invFunOn member
  refine ⟨fun same => ?_, fun same => by rw [same]⟩
  rw [← rename_rename fun name occurs => undoes name (ofLeft occurs), same,
    rename_rename fun name occurs => undoes name (ofRight occurs)]

end TypeTerm

theorem Positions.of_map (positions : Positions) (image : TypeTerm → TypeTerm)
    (arguments : List TypeTerm) :
    positions.of (arguments.map image) = (positions.of arguments).map image := by
  cases positions with
  | all => rfl
  | afterTag => exact (List.map_tail).symm

/-! ### Matching of renamed types -/

namespace Binding

/-- Bindings to the types with other names. -/
def rename (image : String → String) (bound : Substitution) : Substitution :=
  bound.map fun (name, type) => (name, type.rename image)

theorem lookup_rename (image : String → String) (bound : Substitution) (name : String) :
    (rename image bound).lookup name = (bound.lookup name).map (·.rename image) :=
  Lists.lookup_map_snd (TypeTerm.rename image) bound name

theorem map_fst_rename (image : String → String) (bound : Substitution) :
    (rename image bound).map Prod.fst = bound.map Prod.fst := List.map_map

variable {positions : Positions} {bindable names : List String} {image : String → String}

/-- Nothing is bound where a named type is laid over a type parameter. -/
theorem unify?_named_parameter (space : Option String) (name : String)
    (arguments : List TypeTerm) (target : String) (bound : Substitution) :
    unify? positions bindable (.named space name arguments) (.parameter target) bound =
      some bound := by
  rw [unify?_named]
  split
  · rfl
  · next compared =>
    have noTargets : positions.of (TypeTerm.parameter target).arguments = [] := by
      cases positions <;> rfl
    have noArguments : positions.of arguments = [] := by
      rw [not_or, Decidable.not_not, Decidable.not_not, noTargets] at compared
      exact List.length_eq_zero_iff.1 compared.2
    rw [noTargets, noArguments, unifyAll?_nil]

/-- Bindings to types with type parameters from a list. -/
def Within (names : List String) (bound : Substitution) : Prop :=
  ∀ entry ∈ bound, entry.2.occurrences ⊆ names

theorem Within.unify? (within : Within names bound) {template target : TypeTerm}
    (listed : target.occurrences ⊆ names) {result : Substitution}
    (found : unify? positions bindable template target bound = some result) :
    Within names result := by
  intro entry member
  rcases adds_unify? found entry member with before | ⟨-, occurs⟩
  · exact within entry before
  · exact List.Subset.trans occurs listed

theorem unifyAll?_rename {templates : List TypeTerm}
    (each : ∀ template ∈ templates, ∀ {target : TypeTerm} {bound : Substitution},
      target.occurrences ⊆ names → Within names bound →
        Binding.unify? positions bindable template (target.rename image) (rename image bound) =
          (Binding.unify? positions bindable template target bound).map (rename image)) :
    ∀ {targets : List TypeTerm} {bound : Substitution}, occurrencesOfAll targets ⊆ names →
      Within names bound →
        unifyAll? positions bindable templates (targets.map (·.rename image))
            (rename image bound) =
          (unifyAll? positions bindable templates targets bound).map (rename image) := by
  induction templates with
  | nil =>
    intro targets bound _ _
    rw [unifyAll?_nil, unifyAll?_nil, Option.map_some]
  | cons template templates inductionHypothesis =>
    intro targets bound listed within
    cases targets with
    | nil => rfl
    | cons target targets =>
      have listedFirst : target.occurrences ⊆ names :=
        fun name occurs => listed (List.mem_append_left _ occurs)
      rw [List.map_cons, unifyAll?_cons, unifyAll?_cons,
        each template List.mem_cons_self listedFirst within]
      cases found : Binding.unify? positions bindable template target bound with
      | none => rfl
      | some between =>
        rw [Option.map_some, Option.bind_some, Option.bind_some]
        refine inductionHypothesis
          (fun other member => each other (List.mem_cons_of_mem _ member))
          (fun name occurs => listed (List.mem_append_right _ occurs)) ?_
        exact within.unify? listedFirst found

/-- Laid over a renamed type, a converter's type binds the same names to the renamed parts. -/
theorem unify?_rename (apart : Apart image names) (template : TypeTerm) :
    ∀ {target : TypeTerm} {bound : Substitution}, target.occurrences ⊆ names →
      Within names bound →
        Binding.unify? positions bindable template (target.rename image) (rename image bound) =
          (Binding.unify? positions bindable template target bound).map (rename image) := by
  induction template using TypeTerm.inductionOn with
  | named space name arguments inductionHypothesis =>
    intro target bound listed within
    cases target with
    | parameter target =>
      rw [TypeTerm.rename, unify?_named_parameter, unify?_named_parameter, Option.map_some]
    | named targetSpace targetName targets =>
      have counted : occurrencesOfAll (positions.of targets) ⊆ names :=
        occurrencesOfAll_of_subset listed
      have qualifiedName : ((TypeTerm.named targetSpace targetName targets).rename
          image).qualifiedName =
            (TypeTerm.named targetSpace targetName targets).qualifiedName := by
        cases targetSpace <;> rfl
      rw [unify?_named, unify?_named, qualifiedName, TypeTerm.arguments_rename, Positions.of_map,
        List.length_map, apply_ite (Option.map (rename image)), Option.map_some]
      refine if_congr Iff.rfl rfl (unifyAll?_rename (fun argument member => ?_) counted within)
      exact inductionHypothesis argument (positions.of_subset arguments member)
  | parameter name =>
    intro target bound listed within
    rw [Binding.unify?, Binding.unify?, lookup_rename]
    split
    · cases found : bound.lookup name with
      | none => simp only [Option.map_none, Option.map_some, rename, List.map_append, List.map_cons,
          List.map_nil]
      | some earlier =>
        have earlierListed := within _ (Lists.mem_of_lookup found)
        simp only [Option.map_some]
        rw [apply_ite (Option.map (rename image)), Option.map_some, Option.map_none]
        exact if_congr (TypeTerm.rename_inj apart earlierListed listed) rfl rfl
    · rfl

/-! ### Substitution of renamed bindings -/

/-- Where everything is bound, it makes no difference whether the bindings or the outcome get
other names. -/
theorem substitute_rename {template : TypeTerm} {bound : Substitution}
    (allBound : ∀ name ∈ template.occurrences, name ∈ bound.map Prod.fst) :
    template.substitute (rename image bound) = (template.substitute bound).rename image := by
  induction template using TypeTerm.inductionOn with
  | named space name arguments inductionHypothesis =>
    rw [TypeTerm.substitute, TypeTerm.substitute, TypeTerm.rename, TypeTerm.substituteAll_eq_map,
      TypeTerm.substituteAll_eq_map, TypeTerm.renameAll_eq_map, List.map_map]
    congr 1
    refine List.map_congr_left fun argument member => inductionHypothesis argument member ?_
    exact fun occurring inArgument =>
      allBound occurring (mem_occurrencesOfAll.2 ⟨argument, member, inArgument⟩)
  | parameter name =>
    obtain ⟨type, found⟩ := exists_lookup (allBound name (List.mem_singleton_self name))
    have renamed : (rename image bound).lookup name = some (type.rename image) := by
      rw [lookup_rename, found, Option.map_some]
    rw [TypeTerm.substitute_parameter_of_lookup found,
      TypeTerm.substitute_parameter_of_lookup renamed]

/-- Where everything is bound, the outcome is made of what is bound. -/
theorem Within.occurrences_substitute {bound : Substitution} (within : Within names bound)
    {template : TypeTerm} (allBound : ∀ name ∈ template.occurrences, name ∈ bound.map Prod.fst) :
    (template.substitute bound).occurrences ⊆ names := by
  intro occurring occurs
  rw [TypeTerm.occurrences_substitute, List.mem_flatMap] at occurs
  obtain ⟨name, inTemplate, inImage⟩ := occurs
  obtain ⟨type, found⟩ := exists_lookup (allBound name inTemplate)
  rw [TypeTerm.substitute_parameter_of_lookup found] at inImage
  exact within _ (Lists.mem_of_lookup found) inImage

end Binding

/-! ### Assignability -/

/-- All arguments of types count, and the widenings lead to types without type parameters. -/
structure TypeSystem.Structural (system : TypeSystem) : Prop where
  positions : system.positions = .all
  ground : ∀ widening ∈ system.widenings, widening.2.occurrences = []

namespace TypeSystem.Structural

variable {system : TypeSystem} {image : String → String} {names bindable : List String}

theorem widensTo_rename (structural : system.Structural) (name : String) (wanted : TypeTerm) :
    system.widensTo name (wanted.rename image) = system.widensTo name wanted := by
  unfold TypeSystem.widensTo
  refine congrArg (List.any _) (funext fun reached => Bool.eq_iff_iff.2 ?_)
  have ground : ∀ type ∈ system.widened reached, type.occurrences = [] := by
    intro type member
    obtain ⟨widening, isWidening, rfl⟩ := List.mem_map.1 member
    exact structural.ground widening (List.mem_filter.1 isWidening).1
  rw [List.contains_iff_mem, List.contains_iff_mem]
  constructor
  · intro member
    have noneRenamed := ground _ member
    rw [TypeTerm.occurrences_rename, List.map_eq_nil_iff] at noneRenamed
    rwa [TypeTerm.rename_of_ground image noneRenamed] at member
  · intro member
    rwa [TypeTerm.rename_of_ground image (ground _ member)]

/-- What a converter returns is the wanted type under the bindings found for it if and only if it
is the renamed type under the renamed bindings. -/
theorem substitute_eq_rename_iff (apart : Apart image names) {returned wanted : TypeTerm}
    (closed : returned.occurrences ⊆ bindable) (listed : wanted.occurrences ⊆ names)
    {bound : Substitution} (found : Binding.unify? .all bindable returned wanted [] = some bound) :
    returned.substitute (Binding.rename image bound) = wanted.rename image ↔
      returned.substitute bound = wanted := by
  have nothing : Binding.Within names [] := fun _ member => absurd member List.not_mem_nil
  have foundRenamed : Binding.unify? .all bindable returned (wanted.rename image) [] =
      some (Binding.rename image bound) := by
    have renamed : Binding.unify? .all bindable returned (wanted.rename image) [] =
        (Binding.unify? .all bindable returned wanted []).map (Binding.rename image) :=
      Binding.unify?_rename apart returned listed nothing
    rwa [found, Option.map_some] at renamed
  constructor
  · intro same
    have allBound : ∀ name ∈ returned.occurrences, name ∈ bound.map Prod.fst := by
      intro name occurs
      rw [← same] at foundRenamed
      have isBound := ((Binding.binds_unify? foundRenamed).names name).2
        (Or.inr ⟨closed occurs, occurs⟩)
      rwa [Binding.map_fst_rename] at isBound
    rw [Binding.substitute_rename allBound] at same
    have inNames := (nothing.unify? listed found).occurrences_substitute allBound
    exact (TypeTerm.rename_inj apart inNames listed).1 same
  · intro same
    have allBound : ∀ name ∈ returned.occurrences, name ∈ bound.map Prod.fst := by
      intro name occurs
      rw [← same] at found
      exact ((Binding.binds_unify? found).names name).2 (Or.inr ⟨closed occurs, occurs⟩)
    rw [Binding.substitute_rename allBound, same]

/-- Under the bindings found for it, what a converter returns is as assignable to the renamed type
as to the type. -/
theorem isAssignable_rename (structural : system.Structural) (apart : Apart image names)
    {returned wanted : TypeTerm} (closed : returned.occurrences ⊆ bindable)
    (listed : wanted.occurrences ⊆ names) {bound : Substitution}
    (found : Binding.unify? .all bindable returned wanted [] = some bound) :
    system.isAssignable (returned.substitute (Binding.rename image bound)) (wanted.rename image) =
      system.isAssignable (returned.substitute bound) wanted := by
  have same : returned.substitute (Binding.rename image bound) = wanted.rename image ↔
      returned.substitute bound = wanted := substitute_eq_rename_iff apart closed listed found
  unfold TypeSystem.isAssignable
  rw [decide_eq_decide.2 same, TypeTerm.isParameter_rename, structural.widensTo_rename]
  cases returned with
  | named space name arguments =>
    have qualifiedName : ∀ substitution : Substitution,
        ((TypeTerm.named space name arguments).substitute substitution).qualifiedName =
          (TypeTerm.named space name []).qualifiedName := fun _ => by cases space <;> rfl
    rw [qualifiedName, qualifiedName]
    rfl
  | parameter name =>
    -- The type parameter is bound to all of the wanted type, so the outcome is that type.
    have isBindable : name ∈ bindable := closed (List.mem_singleton_self name)
    rw [Binding.unify?, if_pos (List.contains_iff_mem.2 isBindable)] at found
    obtain rfl : [(name, wanted)] = bound := Option.some.inj found
    have outcome : (TypeTerm.parameter name).substitute [(name, wanted)] = wanted :=
      TypeTerm.substitute_parameter_of_lookup List.lookup_cons_self
    rw [outcome, decide_eq_true rfl, Bool.true_or, Bool.true_or]

end TypeSystem.Structural

/-! ### Converters that fit -/

namespace ConverterGroup

variable {system : TypeSystem} {image : String → String} {names : List String}
  {wanted : TypeTerm}

/-- A converter fits a renamed type as it fits the type, with the bindings renamed. -/
theorem fit?_rename (structural : system.Structural) (apart : Apart image names)
    (listed : wanted.occurrences ⊆ names) {converter : Converter} (closed : converter.Closed) :
    fit? system (wanted.rename image) converter =
      (fit? system wanted converter).map (Binding.rename image) := by
  have nothing : Binding.Within names [] := fun _ member => absurd member List.not_mem_nil
  have matched : system.bindings? converter.returnType converter.typeParameters
      (wanted.rename image) = (system.bindings? converter.returnType converter.typeParameters
        wanted).map (Binding.rename image) :=
    Binding.unify?_rename apart converter.returnType listed nothing
  have declared : converter.returnType.occurrences ⊆ converter.typeParameters.map (·.name) :=
    closed converter.returnType List.mem_cons_self
  rw [fit?, matched, fit?]
  cases found : system.bindings? converter.returnType converter.typeParameters wanted with
  | none => rfl
  | some bound =>
    rw [TypeSystem.bindings?, structural.positions] at found
    rw [Option.map_some, Option.filter_some, Option.filter_some,
      structural.isAssignable_rename apart declared listed found,
      apply_ite (Option.map (Binding.rename image))]
    rfl

variable {group : ConverterGroup}

theorem fitting_rename (structural : system.Structural) (apart : Apart image names)
    (listed : wanted.occurrences ⊆ names)
    (closed : ∀ converter ∈ group.converters, converter.Closed) :
    group.fitting system (wanted.rename image) =
      (group.fitting system wanted).map fun (converter, bound) =>
        (converter, Binding.rename image bound) := by
  rw [fitting, fitting, List.map_filterMap]
  refine List.filterMap_congr fun converter member => ?_
  rw [fit?_rename structural apart listed (closed converter member), Option.map_map,
    Option.map_map]
  rfl

theorem misfits_rename (structural : system.Structural) (apart : Apart image names)
    (listed : wanted.occurrences ⊆ names)
    (closed : ∀ converter ∈ group.converters, converter.Closed) :
    group.misfits system (wanted.rename image) = group.misfits system wanted := by
  refine List.filter_congr fun converter member => ?_
  rw [fit?_rename structural apart listed (closed converter member), Option.isNone_map]

/-- A plan depends on the bindings only through their positional forms. -/
theorem plan_congr (group : ConverterGroup) {numbering other : Numbering}
    {bound otherBound : Substitution}
    (same : (bound.map fun (name, type) => (name, numbering.positional type)) =
      otherBound.map fun (name, type) => (name, other.positional type))
    (siblings : List String) (converter : Converter) :
    group.plan numbering siblings converter bound =
      group.plan other siblings converter otherBound := by
  unfold plan
  simp only [same]

/-- The plans of the converters that fit are the same for a renamed type. -/
theorem plans_rename (structural : system.Structural) (apart : Apart image names)
    (listed : wanted.occurrences ⊆ names)
    (closed : ∀ converter ∈ group.converters, converter.Closed) {numbering renumbering : Numbering}
    (forms : ∀ type : TypeTerm, type.occurrences ⊆ wanted.occurrences →
      renumbering.positional (type.rename image) = numbering.positional type) :
    group.plans system renumbering (wanted.rename image) =
      group.plans system numbering wanted := by
  have displays : (group.fitting system (wanted.rename image)).map (·.1.display) =
      (group.fitting system wanted).map (·.1.display) := by
    rw [fitting_rename structural apart listed closed, List.map_map]
    rfl
  unfold plans
  simp only [displays]
  rw [fitting_rename structural apart listed closed, List.zipIdx_map, List.map_map]
  refine List.map_congr_left ?_
  rintro ⟨⟨converter, bound⟩, place⟩ member
  have fits : fit? system wanted converter = some bound := by
    obtain ⟨other, -, isFit⟩ := List.mem_filterMap.1 (List.fst_mem_of_mem_zipIdx member)
    obtain ⟨_, found, same⟩ := Option.map_eq_some_iff.1 isFit
    obtain ⟨rfl, rfl⟩ := Prod.mk.inj same
    exact found
  have positional : (Binding.rename image bound).map
      (fun (name, type) => (name, renumbering.positional type)) =
        bound.map fun (name, type) => (name, numbering.positional type) := by
    rw [Binding.rename, List.map_map]
    refine List.map_congr_left fun entry isBound => ?_
    have inWanted : entry.2.occurrences ⊆ wanted.occurrences :=
      ((adds_of_fit? fits entry isBound).resolve_left List.not_mem_nil).2
    exact congrArg (Prod.mk entry.1) (forms entry.2 inWanted)
  exact plan_congr group positional _ converter

end ConverterGroup

end StagedBuilder
