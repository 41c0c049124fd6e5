/-
This file says what the matching of a converter's return type does. Laid over a type the
return type binds type parameters of the converter, and it binds them to parts of that
type, so no type parameter comes up that was not there. What the arguments of a named type
contribute depends on the positions of the type system only through the list of arguments
that count.

All that matching does to the bindings is adding one at a time, and what holds of each one
that is added holds of all in the end.
-/

import StagedBuilder.Proofs.Plan

namespace StagedBuilder

open TypeTerm (occurrencesOfAll mem_occurrencesOfAll)

/-! ### Matching -/

theorem Positions.of_subset (positions : Positions) (arguments : List TypeTerm) :
    positions.of arguments ⊆ arguments := by
  cases positions with
  | all => exact List.Subset.refl _
  | afterTag => exact (List.tail_sublist arguments).subset

/-- The type parameters of the arguments of a type are those of the type. -/
theorem TypeTerm.occurrencesOfAll_arguments_subset (type : TypeTerm) :
    occurrencesOfAll type.arguments ⊆ type.occurrences := by
  cases type with
  | named space name arguments => exact List.Subset.refl _
  | parameter name => exact List.nil_subset _

namespace Binding

variable {positions : Positions} {bindable : List String}

/-- Two named types are compared by the arguments that count. -/
theorem unify?_named (space : Option String) (name : String) (arguments : List TypeTerm)
    (target : TypeTerm) (bound : Substitution) :
    unify? positions bindable (.named space name arguments) target bound =
      if (TypeTerm.named space name []).qualifiedName ≠ target.qualifiedName
          ∨ (positions.of arguments).length ≠ (positions.of target.arguments).length then
        some bound
      else
        unifyAll? positions bindable (positions.of arguments) (positions.of target.arguments)
          bound := by
  rw [unify?.eq_def]
  cases positions with
  | all => rfl
  | afterTag => cases arguments <;> rfl

theorem unifyAll?_nil (targets : List TypeTerm) (bound : Substitution) :
    unifyAll? positions bindable [] targets bound = some bound := by
  cases targets <;> rfl

theorem unifyAll?_cons (template target : TypeTerm) (templates targets : List TypeTerm)
    (bound : Substitution) :
    unifyAll? positions bindable (template :: templates) (target :: targets) bound =
      (unify? positions bindable template target bound).bind
        (unifyAll? positions bindable templates targets) := rfl

/-- What counts of the arguments of a type has type parameters of the type only. -/
theorem occurrencesOfAll_of_subset {target : TypeTerm} {names : List String}
    (listed : target.occurrences ⊆ names) :
    occurrencesOfAll (positions.of target.arguments) ⊆ names := by
  intro occurring occurs
  obtain ⟨argument, member, inArgument⟩ := mem_occurrencesOfAll.1 occurs
  exact listed (target.occurrencesOfAll_arguments_subset
    (mem_occurrencesOfAll.2 ⟨argument, positions.of_subset _ member, inArgument⟩))

/-! ### Bound names -/

theorem exists_lookup {bound : Substitution} {name : String}
    (isBound : name ∈ bound.map Prod.fst) : ∃ type, bound.lookup name = some type := by
  cases found : bound.lookup name with
  | none =>
    obtain ⟨entry, member, rfl⟩ := List.mem_map.1 isBound
    have absent := List.lookup_eq_none_iff.1 found entry member
    simp at absent
  | some type => exact ⟨type, rfl⟩

/-! ### What matching does to bindings -/

/-- Everything that is bound was bound before, or it is a bindable name that stands for a type
with type parameters from a list. -/
def Adds (bindable names : List String) (bound result : Substitution) : Prop :=
  ∀ entry ∈ result, entry ∈ bound ∨ entry.1 ∈ bindable ∧ entry.2.occurrences ⊆ names

section

variable {names : List String} {bound between result : Substitution}

theorem Adds.refl (bindable names : List String) (bound : Substitution) :
    Adds bindable names bound bound := fun _ member => Or.inl member

theorem Adds.trans (added : Adds bindable names bound between)
    (addedLater : Adds bindable names between result) : Adds bindable names bound result :=
  fun entry member => (addedLater entry member).elim (added entry) Or.inr

theorem Adds.single (bound : Substitution) {name : String} {part : TypeTerm}
    (isBindable : name ∈ bindable) (listed : part.occurrences ⊆ names) :
    Adds bindable names bound (bound ++ [(name, part)]) := by
  intro entry member
  rcases List.mem_append.1 member with before | isNew
  · exact Or.inl before
  · rw [List.mem_singleton.1 isNew]
    exact Or.inr ⟨isBindable, listed⟩

theorem adds_unifyAll? {templates : List TypeTerm}
    (each : ∀ template ∈ templates, ∀ {target : TypeTerm} {bound result : Substitution},
      target.occurrences ⊆ names → unify? positions bindable template target bound = some result →
        Adds bindable names bound result) :
    ∀ {targets : List TypeTerm} {bound result : Substitution}, occurrencesOfAll targets ⊆ names →
      unifyAll? positions bindable templates targets bound = some result →
        Adds bindable names bound result := by
  induction templates with
  | nil =>
    intro targets bound result _ found
    rw [unifyAll?_nil] at found
    exact Option.some.inj found ▸ .refl bindable names bound
  | cons template templates inductionHypothesis =>
    intro targets bound result listed found
    cases targets with
    | nil => exact Option.some.inj found ▸ .refl bindable names bound
    | cons target targets =>
      rw [unifyAll?_cons] at found
      obtain ⟨between, first, rest⟩ := Option.bind_eq_some_iff.1 found
      refine (each template List.mem_cons_self ?_ first).trans (inductionHypothesis ?_ ?_ rest)
      · exact fun name occurs => listed (List.mem_append_left _ occurs)
      · exact fun other member => each other (List.mem_cons_of_mem _ member)
      · exact fun name occurs => listed (List.mem_append_right _ occurs)

/-- Matching a type with listed type parameters binds bindable names to types with listed ones. -/
theorem adds_unify?_of_subset (template : TypeTerm) :
    ∀ {target : TypeTerm} {bound result : Substitution}, target.occurrences ⊆ names →
      unify? positions bindable template target bound = some result →
        Adds bindable names bound result := by
  induction template using TypeTerm.inductionOn with
  | named space name arguments inductionHypothesis =>
    intro target bound result listed found
    rw [unify?_named] at found
    split at found
    · exact Option.some.inj found ▸ .refl bindable names bound
    · exact adds_unifyAll? (fun argument member =>
        inductionHypothesis argument (positions.of_subset arguments member))
        (occurrencesOfAll_of_subset listed) found
  | parameter name =>
    intro target bound result listed found
    rw [unify?] at found
    split at found
    · next isBindable =>
      split at found
      · split at found
        · exact Option.some.inj found ▸ .refl bindable names bound
        · cases found
      · exact Option.some.inj found ▸ .single bound (List.contains_iff_mem.1 isBindable) listed
    · exact Option.some.inj found ▸ .refl bindable names bound

/-- Matching binds bindable names to types with type parameters of the type that is matched. -/
theorem adds_unify? {template target : TypeTerm}
    (found : unify? positions bindable template target bound = some result) :
    Adds bindable target.occurrences bound result :=
  adds_unify?_of_subset template (List.Subset.refl _) found

end

end Binding

end StagedBuilder
