/-
This file holds the laws of substitution. What a substitution makes of a type depends
only on what it makes of the type parameters that occur in it; two substitutions
carried out one after the other can be replaced by one that has the same effect on
every type parameter; and the type parameters of the outcome are those of whatever
was put in.
-/

import Mathlib.Data.List.Basic
import StagedBuilder.Type.Basic

namespace StagedBuilder.TypeTerm

/-- A property of types holds of every type if it holds of type parameters and passes from the
arguments of a named type to the type. -/
theorem inductionOn {property : TypeTerm → Prop} (type : TypeTerm)
    (named : ∀ space name arguments, (∀ argument ∈ arguments, property argument) →
      property (.named space name arguments))
    (parameter : ∀ name, property (.parameter name)) : property type :=
  @TypeTerm.rec property (fun arguments => ∀ argument ∈ arguments, property argument)
    named parameter (fun _ member => absurd member List.not_mem_nil)
    (fun _ _ ofFirst ofRest argument member =>
      (List.mem_cons.1 member).elim (fun isFirst => isFirst ▸ ofFirst) (ofRest argument))
    type

theorem substituteAll_eq_map (substitution : Substitution) (types : List TypeTerm) :
    substituteAll substitution types = types.map (·.substitute substitution) := by
  induction types with
  | nil => rfl
  | cons first rest inductionHypothesis =>
    rw [substituteAll, inductionHypothesis, List.map_cons]

theorem occurrencesOfAll_eq_flatMap (types : List TypeTerm) :
    occurrencesOfAll types = types.flatMap occurrences := by
  induction types with
  | nil => rfl
  | cons first rest inductionHypothesis =>
    rw [occurrencesOfAll, inductionHypothesis, List.flatMap_cons]

theorem mem_occurrencesOfAll {types : List TypeTerm} {name : String} :
    name ∈ occurrencesOfAll types ↔ ∃ type ∈ types, name ∈ type.occurrences := by
  rw [occurrencesOfAll_eq_flatMap, List.mem_flatMap]

/-- Two substitutions that agree on the type parameters of a type do the same to it. -/
theorem substitute_congr {first second : Substitution} {type : TypeTerm}
    (same : ∀ name ∈ type.occurrences,
      (TypeTerm.parameter name).substitute first = (TypeTerm.parameter name).substitute second) :
    type.substitute first = type.substitute second := by
  induction type using inductionOn with
  | named space name arguments inductionHypothesis =>
    rw [substitute, substitute, substituteAll_eq_map, substituteAll_eq_map]
    congr 1
    refine List.map_congr_left fun argument member => inductionHypothesis argument member ?_
    exact fun occurring inArgument =>
      same occurring (mem_occurrencesOfAll.2 ⟨argument, member, inArgument⟩)
  | parameter name => exact same name (List.mem_singleton_self name)

/-- Two substitutions one after the other do what a third one does that agrees with them on
the type parameters of the type. -/
theorem substitute_substitute {first second both : Substitution} {type : TypeTerm}
    (same : ∀ name ∈ type.occurrences,
      ((TypeTerm.parameter name).substitute first).substitute second =
        (TypeTerm.parameter name).substitute both) :
    (type.substitute first).substitute second = type.substitute both := by
  induction type using inductionOn with
  | named space name arguments inductionHypothesis =>
    rw [substitute, substitute, substitute, substituteAll_eq_map, substituteAll_eq_map,
      substituteAll_eq_map, List.map_map]
    congr 1
    refine List.map_congr_left fun argument member => inductionHypothesis argument member ?_
    exact fun occurring inArgument =>
      same occurring (mem_occurrencesOfAll.2 ⟨argument, member, inArgument⟩)
  | parameter name => exact same name (List.mem_singleton_self name)

/-- A substitution that puts every type parameter of a type in its own place leaves the type as it
is. -/
theorem substitute_eq_self {substitution : Substitution} {type : TypeTerm}
    (fixed : ∀ name ∈ type.occurrences,
      (TypeTerm.parameter name).substitute substitution = .parameter name) :
    type.substitute substitution = type := by
  induction type using inductionOn with
  | named space name arguments inductionHypothesis =>
    rw [substitute, substituteAll_eq_map]
    congr 1
    refine (List.map_congr_left fun argument member => ?_).trans (List.map_id arguments)
    exact inductionHypothesis argument member fun occurring inArgument =>
      fixed occurring (mem_occurrencesOfAll.2 ⟨argument, member, inArgument⟩)
  | parameter name => exact fixed name (List.mem_singleton_self name)

/-- What occurs after a substitution occurs in what is put in. -/
theorem occurrences_substitute (substitution : Substitution) (type : TypeTerm) :
    (type.substitute substitution).occurrences =
      type.occurrences.flatMap fun name =>
        ((TypeTerm.parameter name).substitute substitution).occurrences := by
  induction type using inductionOn with
  | named space name arguments inductionHypothesis =>
    rw [substitute, occurrences, occurrences, substituteAll_eq_map, occurrencesOfAll_eq_flatMap,
      occurrencesOfAll_eq_flatMap, List.flatMap_map, List.flatMap_assoc]
    exact List.flatMap_congr inductionHypothesis
  | parameter name => rw [occurrences, List.flatMap_singleton]

theorem substitute_parameter_of_lookup {substitution : Substitution} {name : String}
    {type : TypeTerm} (found : substitution.lookup name = some type) :
    (TypeTerm.parameter name).substitute substitution = type := by
  rw [substitute, found, Option.getD_some]

/-- What a substitution does not know stays as it is. -/
theorem substitute_parameter_of_notMem {substitution : Substitution} {name : String}
    (absent : name ∉ substitution.map Prod.fst) :
    (TypeTerm.parameter name).substitute substitution = .parameter name := by
  have notFound : substitution.lookup name = none := by
    refine List.lookup_eq_none_iff.2 fun entry member => ?_
    rw [bne_iff_ne]
    rintro rfl
    exact absent (List.mem_map_of_mem member)
  rw [substitute, notFound, Option.getD_none]

/-! ### Renaming -/

/-- The substitution that puts an image in the place of each listed type parameter. -/
def tabulate (image : String → TypeTerm) (names : List String) : Substitution :=
  names.map fun name => (name, image name)

theorem lookup_tabulate (image : String → TypeTerm) {names : List String} {name : String}
    (member : name ∈ names) : (tabulate image names).lookup name = some (image name) := by
  induction names with
  | nil => exact absurd member List.not_mem_nil
  | cons first rest inductionHypothesis =>
    rw [tabulate, List.map_cons, List.lookup_cons]
    by_cases same : name = first
    · rw [same, beq_self_eq_true]
    · rw [beq_eq_false_iff_ne.2 same]
      exact inductionHypothesis ((List.mem_cons.1 member).resolve_left same)

/-- Two substitutions one after the other are one that has the outcomes for the type parameters. -/
theorem substitute_tabulate {first second : Substitution} {names : List String} {type : TypeTerm}
    (listed : ∀ name ∈ type.occurrences, name ∈ names) :
    (type.substitute first).substitute second =
      type.substitute (tabulate
        (fun name => ((parameter name).substitute first).substitute second) names) := by
  refine substitute_substitute fun name occurs => ?_
  rw [substitute_parameter_of_lookup (lookup_tabulate _ (listed name occurs))]

/-- The substitution that gives new names to the listed type parameters. -/
def relabel (image : String → String) (names : List String) : Substitution :=
  names.map fun name => (name, .parameter (image name))

theorem lookup_relabel (image : String → String) {names : List String} {name : String}
    (member : name ∈ names) :
    (relabel image names).lookup name = some (.parameter (image name)) :=
  lookup_tabulate (fun name => .parameter (image name)) member

/-- Renaming renames what occurs. -/
theorem occurrences_relabel (image : String → String) {names : List String} {type : TypeTerm}
    (listed : ∀ name ∈ type.occurrences, name ∈ names) :
    (type.substitute (relabel image names)).occurrences = type.occurrences.map image := by
  rw [occurrences_substitute, List.map_eq_flatMap]
  refine List.flatMap_congr fun name occurs => ?_
  rw [substitute_parameter_of_lookup (lookup_relabel image (listed name occurs)), occurrences]

end StagedBuilder.TypeTerm
