/-
This file proves that the positional form of a list of types does not depend on what the
type parameters are called. If different type parameters get different names, the new
names first occur where the old ones did, so the numbering lists the new names in the
order of the old ones, and the same numbers are written everywhere.
-/

import StagedBuilder.Proofs.Positional

namespace StagedBuilder

open TypeTerm (occurrencesOfAll mem_occurrencesOfAll relabel)

/-- Different names of a list have different images. -/
def Apart (image : String → String) (names : List String) : Prop :=
  ∀ left ∈ names, ∀ right ∈ names, image left = image right → left = right

/-- The right types are the left ones with the type parameters renamed, different ones
differently. -/
def Renamed (left right : List TypeTerm) : Prop :=
  ∃ image, Apart image (occurrencesOfAll left) ∧
    right = left.map (·.substitute (relabel image (occurrencesOfAll left)))

namespace Numbering

variable {image : String → String} {names : List String} {numbering : Numbering} {type : TypeTerm}

/-- The numbering with the type parameters renamed. -/
abbrev mapNames (numbering : Numbering) (image : String → String) : Numbering :=
  ⟨numbering.names.map image⟩

/-- A renamed numbering goes on to the renamed type as the numbering does to the type. -/
theorem extend_relabel (apart : Apart image names)
    (numbered : ∀ name ∈ numbering.names, name ∈ names)
    (listed : ∀ name ∈ type.occurrences, name ∈ names) :
    (numbering.mapNames image).extend (type.substitute (relabel image names)) =
      (numbering.extend type).mapNames image := by
  have sameTest : ∀ name ∈ type.occurrences.eraseDups,
      (!(numbering.names.map image).contains (image name)) = !numbering.names.contains name := by
    intro name member
    refine congrArg not (Bool.eq_iff_iff.2 ?_)
    rw [List.contains_iff_mem, List.contains_iff_mem, List.mem_map]
    constructor
    · rintro ⟨other, isNumbered, same⟩
      have isName := apart other (numbered other isNumbered) name
        (listed name (List.mem_eraseDups.1 member)) same
      exact isName ▸ isNumbered
    · exact fun isNumbered => ⟨name, isNumbered, rfl⟩
  have duplicates : (type.occurrences.map image).eraseDups =
      type.occurrences.eraseDups.map image :=
    Lists.eraseDups_map fun left leftOccurs right rightOccurs =>
      apart left (listed left leftOccurs) right (listed right rightOccurs)
  refine congrArg Numbering.mk ?_
  rw [unseen, TypeTerm.parameters, TypeTerm.occurrences_relabel image listed, duplicates,
    List.filter_map, extend, List.map_append]
  exact congrArg (fun unseen => _ ++ unseen.map image) (List.filter_congr sameTest)

theorem positionalFrom_relabel (apart : Apart image names)
    (numbered : ∀ name ∈ numbering.names, name ∈ names) {types : List TypeTerm}
    (listed : ∀ name ∈ occurrencesOfAll types, name ∈ names) :
    ((numbering.mapNames image).positionalFrom
        (types.map (·.substitute (relabel image names)))).1 =
      (numbering.positionalFrom types).1.mapNames image := by
  induction types generalizing numbering with
  | nil => rfl
  | cons type rest inductionHypothesis =>
    have listedFirst : ∀ name ∈ type.occurrences, name ∈ names :=
      fun name occurs => listed name (List.mem_append_left _ occurs)
    rw [List.map_cons, positionalFrom_cons, positionalFrom_cons,
      extend_relabel apart numbered listedFirst]
    refine inductionHypothesis (fun name member => ?_) fun name occurs =>
      listed name (List.mem_append_right _ occurs)
    exact (mem_extend.1 member).elim (numbered name) (listedFirst name)

/-- A new name has the number that the old name had. -/
theorem index?_relabel (apart : Apart image names)
    (numbered : ∀ name ∈ numbering.names, name ∈ names) {name : String} (listed : name ∈ names) :
    (numbering.mapNames image).index? (image name) = numbering.index? name := by
  rw [index?, index?, List.findIdx?_map]
  refine Lists.findIdx?_congr fun other member => Bool.eq_iff_iff.2 ?_
  rw [Function.comp_apply, beq_iff_eq, beq_iff_eq]
  exact ⟨apart other (numbered other member) name listed, congrArg image⟩

/-- With the new names for the old ones, the positional form of a type is the same. -/
theorem positional_relabel (apart : Apart image names)
    (numbered : ∀ name ∈ numbering.names, name ∈ names)
    (occurs : ∀ name ∈ type.occurrences, name ∈ numbering.names) :
    (numbering.mapNames image).positional (type.substitute (relabel image names)) =
      numbering.positional type := by
  refine TypeTerm.substitute_substitute fun name inType => ?_
  have listed := numbered name (occurs name inType)
  obtain ⟨index, found, -⟩ := exists_index? (occurs name inType)
  rw [TypeTerm.substitute_parameter_of_lookup (TypeTerm.lookup_relabel image listed)]
  have renamed : (numbering.mapNames image).index? (image name) = some index :=
    (index?_relabel apart numbered listed).trans found
  exact (positional_parameter renamed).trans (positional_parameter found).symm

end Numbering

/-- The numbering of renamed types lists the new names for the old ones. -/
theorem numberingOf_relabel {image : String → String} {types : List TypeTerm}
    (apart : Apart image (occurrencesOfAll types)) :
    numberingOf (types.map (·.substitute (relabel image (occurrencesOfAll types)))) =
      (numberingOf types).mapNames image :=
  Numbering.positionalFrom_relabel apart (fun _ member => absurd member List.not_mem_nil)
    fun _ occurs => occurs

/-- Types with renamed type parameters have the same positional form. -/
theorem Renamed.positionalTypes_eq {left right : List TypeTerm} (renamed : Renamed left right) :
    positionalTypes right = positionalTypes left := by
  obtain ⟨image, apart, rfl⟩ := renamed
  have numbered : ∀ name ∈ (numberingOf left).names, name ∈ occurrencesOfAll left :=
    fun name member => mem_numberingOf.1 member
  rw [positionalTypes, numberingOf_relabel apart, List.map_map]
  refine List.map_congr_left fun type member => Numbering.positional_relabel apart numbered ?_
  exact fun name occurs =>
    mem_numberingOf.2 (mem_occurrencesOfAll.2 ⟨type, member, occurs⟩)

end StagedBuilder
