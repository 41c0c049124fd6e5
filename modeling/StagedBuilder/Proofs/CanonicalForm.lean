/-
This file proves that the positional form of a list of types is canonical. Two lists have
the same form exactly if the type parameters of one stand for those of the other, one to one
and place by place, so keys merge constructors that differ in the names of their type
parameters, and no others.

That renamed types have the same form is known already. The other way round the form has to
be read back: in a scope that calls every number as a numbering does, the form of a type with
this numbering is shown as the type itself. The form of the left types is also the form of the
right ones, so with the names of the right types it is shown as these; and to write a type with
the numbers of one list and the names of another is to rename it.

What a type introduces are the next numbers, and from a list cut short nothing can be told that
is not in the beginning of its form.
-/

import Mathlib.Data.Set.Function
import StagedBuilder.Proofs.Renaming
import StagedBuilder.Proofs.Scope

namespace StagedBuilder

open TypeTerm (occurrencesOfAll mem_occurrencesOfAll relabel)

/-! ### Correspondence -/

/-- The type parameters of the left types stand for those of the right types, one to one, and with
these in their place the left types are the right ones, place by place. -/
def Correspond (left right : List TypeTerm) : Prop :=
  ∃ image : String → String,
    Set.BijOn image {name | name ∈ occurrencesOfAll left} {name | name ∈ occurrencesOfAll right} ∧
      right = left.map (·.substitute (relabel image (occurrencesOfAll left)))

theorem TypeTerm.occurrencesOfAll_relabel (image : String → String) {names : List String}
    {types : List TypeTerm} (listed : ∀ name ∈ occurrencesOfAll types, name ∈ names) :
    occurrencesOfAll (types.map (·.substitute (relabel image names))) =
      (occurrencesOfAll types).map image := by
  rw [occurrencesOfAll_eq_flatMap, occurrencesOfAll_eq_flatMap, List.flatMap_map, List.map_flatMap]
  refine List.flatMap_congr fun type member => occurrences_relabel image fun name occurs => ?_
  exact listed name (mem_occurrencesOfAll.2 ⟨type, member, occurs⟩)

/-- If different type parameters are called differently, the new names are all there is. -/
theorem correspond_iff_renamed {left right : List TypeTerm} :
    Correspond left right ↔ Renamed left right := by
  constructor
  · rintro ⟨image, bijective, sameTypes⟩
    exact ⟨image, fun first isFirst second isSecond same =>
      bijective.injOn isFirst isSecond same, sameTypes⟩
  · rintro ⟨image, apart, rfl⟩
    have renamed := TypeTerm.occurrencesOfAll_relabel image
      fun name (occurs : name ∈ occurrencesOfAll left) => occurs
    refine ⟨image, ⟨fun name occurs => ?_, fun first isFirst second isSecond same =>
      apart first isFirst second isSecond same, fun name occurs => ?_⟩, rfl⟩
    · show image name ∈ occurrencesOfAll _
      rw [renamed]
      exact List.mem_map_of_mem occurs
    · rw [renamed] at occurs
      exact List.mem_map.1 occurs

/-! ### Forms read back -/

namespace Numbering

/-- The scope in which every number is called by the name that it numbers. -/
def scope (numbering : Numbering) : Scope := ⟨numbering.names.map fun name => (name, {})⟩

theorem names_scope (numbering : Numbering) : numbering.scope.names = numbering.names := by
  rw [Scope.names, scope, List.map_map]
  exact List.map_id _

theorem size_scope (numbering : Numbering) : numbering.scope.size = numbering.names.length :=
  List.length_map _

theorem rename_scope {numbering : Numbering} {name : String} (numbered : name ∈ numbering.names) :
    numbering.scope.rename numbering name = name := by
  obtain ⟨index, found, -⟩ := exists_index? numbered
  rw [Scope.rename, found, Option.bind_some, names_scope, index?_eq_some found, Option.getD_some]

/-- Shown with the names that were numbered, a form is the type that it is the form of. -/
theorem display_positional {numbering : Numbering} {type : TypeTerm}
    (numbered : ∀ name ∈ type.occurrences, name ∈ numbering.names) :
    numbering.scope.display (numbering.positional type) = type := by
  rw [Scope.display_positional (Nat.le_of_eq numbering.size_scope.symm) numbered
    fun name => TypeTerm.lookup_relabel (numbering.scope.rename numbering)]
  refine TypeTerm.substitute_eq_self fun name occurs => ?_
  rw [TypeTerm.substitute_parameter_of_lookup
    (TypeTerm.lookup_relabel _ (numbered name occurs)), rename_scope (numbered name occurs)]

end Numbering

/-- Types with the same form are the same up to the names of type parameters. -/
theorem Renamed.of_positionalTypes {left right : List TypeTerm}
    (same : positionalTypes left = positionalTypes right) : Renamed left right := by
  let scope := (numberingOf right).scope
  have listed : ∀ types : List TypeTerm, ∀ type ∈ types, ∀ name ∈ type.occurrences,
      name ∈ (numberingOf types).names := fun types type member name occurs =>
    mem_numberingOf.2 (mem_occurrencesOfAll.2 ⟨type, member, occurs⟩)
  have bound : (numberingOf left).names.length ≤ scope.size := by
    rw [Numbering.size_scope]
    refine Nat.le_of_eq (MentionsBelow.unique (mentionsBelow_positionalTypes left) ?_)
    rw [same]
    exact mentionsBelow_positionalTypes right
  have distinct : scope.names.Nodup := by
    rw [Numbering.names_scope]
    exact nodup_numberingOf right
  refine ⟨scope.rename (numberingOf left), fun first isFirst second isSecond =>
    Scope.rename_injOn bound distinct (mem_numberingOf.2 isFirst) (mem_numberingOf.2 isSecond), ?_⟩
  calc right = (positionalTypes right).map scope.display := by
        rw [positionalTypes, List.map_map]
        refine (List.map_id right).symm.trans (List.map_congr_left fun type member => ?_)
        exact (Numbering.display_positional (listed right type member)).symm
    _ = (positionalTypes left).map scope.display := by rw [same]
    _ = left.map (·.substitute (relabel (scope.rename (numberingOf left))
          (occurrencesOfAll left))) := by
        rw [positionalTypes, List.map_map]
        refine List.map_congr_left fun type member => ?_
        exact Scope.display_positional bound (listed left type member) fun name numbered =>
          TypeTerm.lookup_relabel _ (mem_numberingOf.1 numbered)

/-! ### Introduced numbers -/

namespace Numbering

/-- Renamed types introduce the same numbers. -/
theorem map_numbers_positionalFrom_relabel {image : String → String} {names : List String}
    {numbering : Numbering} (apart : Apart image names)
    (numbered : ∀ name ∈ numbering.names, name ∈ names) {types : List TypeTerm}
    (listed : ∀ name ∈ occurrencesOfAll types, name ∈ names) :
    ((numbering.mapNames image).positionalFrom
        (types.map (·.substitute (relabel image names)))).2.map
          (fun form => form.introduced.map (·.1)) =
      (numbering.positionalFrom types).2.map fun form => form.introduced.map (·.1) := by
  induction types generalizing numbering with
  | nil => rfl
  | cons type rest inductionHypothesis =>
    have listedFirst : ∀ name ∈ type.occurrences, name ∈ names :=
      fun name occurs => listed name (List.mem_append_left _ occurs)
    have extended := extend_relabel apart numbered listedFirst
    have length : ((numbering.mapNames image).introduces
        (type.substitute (relabel image names))).length = (numbering.introduces type).length := by
      have lengths := congrArg (fun numbering => numbering.names.length) extended
      simp only [length_extend, List.length_map] at lengths
      exact Nat.add_left_cancel lengths
    rw [List.map_cons, positionalFrom_cons, positionalFrom_cons, List.map_cons, List.map_cons,
      map_fst_introduces, map_fst_introduces, length, List.length_map, extended,
      inductionHypothesis]
    · exact fun name member => (mem_extend.1 member).elim (numbered name) (listedFirst name)
    · exact fun name occurs => listed name (List.mem_append_right _ occurs)

/-- What a type introduces are its new type parameters with the numbers that they get. -/
theorem introduces_eq (numbering : Numbering) (type : TypeTerm) :
    numbering.introduces type =
      ((numbering.unseen type).zipIdx numbering.names.length).map Prod.swap := by
  conv_rhs => rw [List.zipIdx_eq_map_add, List.map_map]
  rfl

/-- Read along a list, what is introduced continues the numbering up to the final one. -/
theorem append_introduced_positionalFrom (numbering : Numbering) (types : List TypeTerm) :
    numbering.names.zipIdx.map Prod.swap ++
        (numbering.positionalFrom types).2.flatMap (·.introduced) =
      (numbering.positionalFrom types).1.names.zipIdx.map Prod.swap := by
  induction types generalizing numbering with
  | nil => exact List.append_nil _
  | cons type rest inductionHypothesis =>
    have extended : (numbering.extend type).names.zipIdx.map Prod.swap =
        numbering.names.zipIdx.map Prod.swap ++ numbering.introduces type := by
      rw [extend, List.zipIdx_append, List.map_append, introduces_eq, Nat.zero_add]
    rw [positionalFrom_cons, List.flatMap_cons, ← List.append_assoc, ← extended,
      inductionHypothesis]

end Numbering

/-- Read along a list, the type parameters are introduced with their numbers. -/
theorem introduced_positionalForm (types : List TypeTerm) :
    (positionalForm types).2.flatMap (·.introduced) =
      (numberingOf types).names.zipIdx.map Prod.swap :=
  Numbering.append_introduced_positionalFrom {} types

theorem numbers_positionalForm (types : List TypeTerm) :
    ((positionalForm types).2.flatMap (·.introduced)).map (·.1) =
      List.range (numberingOf types).names.length := by
  rw [introduced_positionalForm, List.map_map, List.range_eq_range', ← List.zipIdx_map_snd]
  rfl

/-! ### Canonical forms -/

/-- A way to bring lists of types into a form that only disregards what type parameters are
called. -/
structure Canonical (form : List TypeTerm → List Positioned) : Prop where
  /-- Lists have the same types in their forms exactly if their type parameters correspond. -/
  same_iff : ∀ left right, (form left).map (·.type) = (form right).map (·.type) ↔
    Correspond left right
  /-- Then the same numbers are introduced at every place. -/
  introduced : ∀ left right, Correspond left right →
    (form left).map (fun place => place.introduced.map (·.1)) =
      (form right).map fun place => place.introduced.map (·.1)
  /-- Read along a list, the numbers that are introduced count up from zero. -/
  consecutive : ∀ types, ((form types).flatMap (·.introduced)).map (·.1) =
    List.range ((form types).flatMap (·.introduced)).length
  /-- A type mentions only what is introduced at its place or before. -/
  mentions : ∀ types place positioned, (form types)[place]? = some positioned →
    ∀ name ∈ positioned.type.occurrences,
      ∃ entry ∈ ((form types).take (place + 1)).flatMap (·.introduced),
        name = placeholderName entry.1
  /-- The form of a beginning is the beginning of the form. -/
  begins : ∀ types count, form (types.take count) = (form types).take count

/-- The positional form disregards names and nothing else. -/
theorem canonical_positionalForm : Canonical fun types => (positionalForm types).2 where
  same_iff left right := by
    rw [map_type_positionalForm, map_type_positionalForm, correspond_iff_renamed]
    exact ⟨Renamed.of_positionalTypes, fun renamed => renamed.positionalTypes_eq.symm⟩
  introduced left right corresponds := by
    obtain ⟨image, apart, rfl⟩ := correspond_iff_renamed.1 corresponds
    have unnumbered : ∀ name ∈ (⟨[]⟩ : Numbering).names, name ∈ occurrencesOfAll left :=
      fun _ member => absurd member List.not_mem_nil
    exact (Numbering.map_numbers_positionalFrom_relabel apart unnumbered
      fun _ occurs => occurs).symm
  consecutive types := by
    have numbers := numbers_positionalForm types
    have length := congrArg List.length numbers
    rw [List.length_map, List.length_range] at length
    rw [numbers, length]
  mentions types place positioned found name occurs := by
    have isForm : positioned ∈ (positionalForm (types.take (place + 1))).2 := by
      rw [take_positionalForm]
      exact List.mem_of_getElem? ((List.getElem?_take_of_lt (Nat.lt_succ_self place)).trans found)
    have isType := List.mem_map_of_mem (f := (·.type)) isForm
    rw [map_type_positionalForm] at isType
    obtain ⟨index, below, isPlaceholder⟩ := (mentionsBelow_positionalTypes _ name).1
      (mem_occurrencesOfAll.2 ⟨_, isType, occurs⟩)
    rw [← List.mem_range, ← numbers_positionalForm, take_positionalForm] at below
    obtain ⟨entry, isIntroduced, rfl⟩ := List.mem_map.1 below
    exact ⟨entry, isIntroduced, isPlaceholder⟩
  begins types count := take_positionalForm types count

end StagedBuilder
