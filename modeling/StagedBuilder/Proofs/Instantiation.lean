/-
This file proves that matching is complete in a structural type system, where all arguments of
types count. If declared type parameters can be replaced in a return type so that it becomes
the type to produce, matching finds out how; and what it binds is no more than that: the
declared type parameters that occur in the return type, each to the one thing that every such
replacement puts in its place.

Matching refuses only when one type parameter comes to stand for two types. Over an instance
of the return type it never does, because all that it binds on the way follows one and the
same substitution. It accepts much else, where the two types differ in shape; but this shows
when the bindings are put into the return type.
-/

import StagedBuilder.Proofs.Binding

namespace StagedBuilder

open TypeTerm (occurrencesOfAll)

/-- The substitution replaces bindable names only, and it makes the target of the template. -/
structure Instantiates (bindable : List String) (template target : TypeTerm)
    (substitution : Substitution) : Prop where
  bindable : ∀ entry ∈ substitution, entry.1 ∈ bindable
  makes : template.substitute substitution = target

namespace Binding

variable {bindable : List String} {substitution : Substitution}

/-! ### Bindings that follow a substitution -/

/-- Every name is bound to what the substitution puts in its place. -/
def Follows (substitution bound : Substitution) : Prop :=
  ∀ entry ∈ bound, entry.2 = (TypeTerm.parameter entry.1).substitute substitution

/-- The outcome follows the substitution, and it binds the bindable ones among the names that
occur, besides those that were bound before. -/
structure Binds (bindable occurring : List String) (substitution bound result : Substitution) :
    Prop where
  follows : Follows substitution result
  names : ∀ name, name ∈ result.map Prod.fst ↔
    name ∈ bound.map Prod.fst ∨ name ∈ bindable ∧ name ∈ occurring

theorem Follows.lookup {bound : Substitution} (follows : Follows substitution bound)
    {name : String} (isBound : name ∈ bound.map Prod.fst) :
    bound.lookup name = some ((TypeTerm.parameter name).substitute substitution) := by
  obtain ⟨type, found⟩ := exists_lookup isBound
  exact found.trans (congrArg some (follows _ (Lists.mem_of_lookup found)))

theorem Binds.trans {first second : List String} {bound between result : Substitution}
    (ofFirst : Binds bindable first substitution bound between)
    (ofSecond : Binds bindable second substitution between result) :
    Binds bindable (first ++ second) substitution bound result where
  follows := ofSecond.follows
  names name := by
    rw [ofSecond.names, ofFirst.names, List.mem_append, and_or_left, or_assoc]

/-- Where one type parameter is matched, it gets bound if it is bindable and not bound before. -/
theorem exists_unify?_parameter (name : String) {bound : Substitution}
    (follows : Follows substitution bound) :
    ∃ result, unify? .all bindable (.parameter name)
        ((TypeTerm.parameter name).substitute substitution) bound = some result ∧
      Binds bindable [name] substitution bound result := by
  rw [unify?]
  by_cases isBindable : name ∈ bindable
  · rw [if_pos (List.contains_iff_mem.2 isBindable)]
    cases found : bound.lookup name with
    | some earlier =>
      have isMember := Lists.mem_of_lookup found
      refine ⟨bound, if_pos (follows _ isMember), follows, fun other => ⟨Or.inl, ?_⟩⟩
      rintro (before | ⟨-, occurs⟩)
      · exact before
      · rw [List.mem_singleton.1 occurs]
        exact List.mem_map_of_mem isMember
    | none =>
      refine ⟨_, rfl, fun entry member => ?_, fun other => ?_⟩
      · rcases List.mem_append.1 member with before | isNew
        · exact follows entry before
        · rw [List.mem_singleton.1 isNew]
      · rw [List.map_append, List.mem_append, List.map_singleton, List.mem_singleton]
        refine or_congr_right ⟨?_, And.right⟩
        rintro rfl
        exact ⟨isBindable, rfl⟩
  · rw [if_neg (mt List.contains_iff_mem.1 isBindable)]
    refine ⟨bound, rfl, follows, fun other => ⟨Or.inl, ?_⟩⟩
    rintro (before | ⟨isBindableOther, occurs⟩)
    · exact before
    · exact absurd (List.mem_singleton.1 occurs ▸ isBindableOther) isBindable

theorem exists_unifyAll? {templates : List TypeTerm}
    (each : ∀ template ∈ templates, ∀ {bound : Substitution}, Follows substitution bound →
      ∃ result, unify? .all bindable template (template.substitute substitution) bound =
          some result ∧
        Binds bindable template.occurrences substitution bound result) :
    ∀ {bound : Substitution}, Follows substitution bound →
      ∃ result, unifyAll? .all bindable templates (templates.map (·.substitute substitution))
          bound = some result ∧
        Binds bindable (occurrencesOfAll templates) substitution bound result := by
  induction templates with
  | nil =>
    refine fun {bound} follows => ⟨bound, rfl, follows, fun name => ⟨Or.inl, ?_⟩⟩
    rintro (before | ⟨-, occurs⟩)
    · exact before
    · exact absurd occurs List.not_mem_nil
  | cons template templates inductionHypothesis =>
    intro bound follows
    obtain ⟨between, foundFirst, ofFirst⟩ := each template List.mem_cons_self follows
    obtain ⟨result, foundRest, ofRest⟩ := inductionHypothesis
      (fun other member => each other (List.mem_cons_of_mem _ member)) ofFirst.follows
    refine ⟨result, ?_, ofFirst.trans ofRest⟩
    rw [List.map_cons, unifyAll?_cons, foundFirst, Option.bind_some, foundRest]

/-- Laid over what a substitution makes of it, a type matches, and all that is bound follows the
substitution. -/
theorem exists_unify? (bindable : List String) (template : TypeTerm) : ∀ {bound : Substitution},
    Follows substitution bound →
      ∃ result, unify? .all bindable template (template.substitute substitution) bound =
          some result ∧
        Binds bindable template.occurrences substitution bound result := by
  induction template using TypeTerm.inductionOn with
  | named space name arguments inductionHypothesis =>
    intro bound follows
    obtain ⟨result, found, binds⟩ := exists_unifyAll? inductionHypothesis follows
    refine ⟨result, ?_, binds⟩
    have qualifiedName : (TypeTerm.named space name []).qualifiedName =
        ((TypeTerm.named space name arguments).substitute substitution).qualifiedName := by
      cases space <;> rfl
    have targets : ((TypeTerm.named space name arguments).substitute substitution).arguments =
        arguments.map (·.substitute substitution) :=
      TypeTerm.substituteAll_eq_map substitution arguments
    rw [unify?_named, targets, if_neg]
    · exact found
    · rw [not_or, Decidable.not_not, Decidable.not_not]
      exact ⟨qualifiedName, (List.length_map _).symm⟩
  | parameter name => exact fun follows => exists_unify?_parameter name follows

/-- With nothing bound before, matching binds the bindable names that occur. -/
theorem binds_unify? {template : TypeTerm} {result : Substitution}
    (found : unify? .all bindable template (template.substitute substitution) [] = some result) :
    Binds bindable template.occurrences substitution [] result := by
  have nothing : Follows substitution [] := fun _ member => absurd member List.not_mem_nil
  obtain ⟨other, foundOther, binds⟩ := exists_unify? bindable template nothing
  rw [found, Option.some.injEq] at foundOther
  exact foundOther ▸ binds

/-- What is bound does to the template what the substitution does, if this leaves alone what cannot
be bound. -/
theorem Binds.substitute_eq {template : TypeTerm} {bound : Substitution}
    (binds : Binds bindable template.occurrences substitution [] bound)
    (allBindable : ∀ entry ∈ substitution, entry.1 ∈ bindable) :
    template.substitute bound = template.substitute substitution := by
  refine TypeTerm.substitute_congr fun name occurs => ?_
  by_cases isBound : name ∈ bound.map Prod.fst
  · exact TypeTerm.substitute_parameter_of_lookup (binds.follows.lookup isBound)
  · have notBindable : name ∉ bindable :=
      fun isBindable => isBound ((binds.names name).2 (Or.inr ⟨isBindable, occurs⟩))
    have notReplaced : name ∉ substitution.map Prod.fst := by
      intro isReplaced
      obtain ⟨entry, member, rfl⟩ := List.mem_map.1 isReplaced
      exact notBindable (allBindable entry member)
    rw [TypeTerm.substitute_parameter_of_notMem isBound,
      TypeTerm.substitute_parameter_of_notMem notReplaced]

end Binding

/-! ### Complete matching -/

namespace TypeSystem

/-- Matching a return type with the type to produce finds out how the return type becomes this
type, whenever declared type parameters can be replaced so that it does. -/
structure MatchesCompletely (system : TypeSystem) (returned : TypeTerm)
    (declared : List TypeParameter) (target : TypeTerm) : Prop where
  /-- The target is an instance exactly if there are bindings, and they make it. -/
  instance_iff : (∃ substitution,
      Instantiates (declared.map (·.name)) returned target substitution) ↔
    ∃ bound, system.bindings? returned declared target = some bound ∧
      returned.substitute bound = target
  /-- Then the declared type parameters that occur are bound, and no others. -/
  names : ∀ bound, system.bindings? returned declared target = some bound →
    returned.substitute bound = target → ∀ name,
      name ∈ bound.map Prod.fst ↔ name ∈ declared.map (·.name) ∧ name ∈ returned.occurrences
  /-- Each stands for what any substitution that makes the target puts in its place. -/
  agrees : ∀ bound, system.bindings? returned declared target = some bound →
    returned.substitute bound = target → ∀ substitution,
      Instantiates (declared.map (·.name)) returned target substitution →
        ∀ name ∈ declared.map (·.name), name ∈ returned.occurrences →
          bound.lookup name = some ((TypeTerm.parameter name).substitute substitution)
  /-- A converter with the return type fits. -/
  fits : (∃ substitution,
      Instantiates (declared.map (·.name)) returned target substitution) →
    ∀ converter : Converter, converter.returnType = returned →
      converter.typeParameters = declared →
        ∃ bound, ConverterGroup.fit? system target converter = some bound ∧
          returned.substitute bound = target

theorem isAssignable_self (system : TypeSystem) (type : TypeTerm) :
    system.isAssignable type type = true := by
  rw [isAssignable, decide_eq_true rfl, Bool.true_or]

section

variable {widenings : List (String × TypeTerm)} {returned target : TypeTerm}
  {declared : List TypeParameter} {substitution bound : Substitution}

/-- What makes the target of the return type is found. -/
theorem exists_bindings?_structural (widenings : List (String × TypeTerm))
    (instantiates : Instantiates (declared.map (·.name)) returned target substitution) :
    ∃ bound, TypeSystem.bindings? { widenings, positions := .all } returned declared target =
        some bound ∧ returned.substitute bound = target := by
  obtain ⟨allBindable, rfl⟩ := instantiates
  have nothing : Binding.Follows substitution [] := fun _ member => absurd member List.not_mem_nil
  obtain ⟨bound, found, binds⟩ := Binding.exists_unify? (declared.map (·.name)) returned nothing
  exact ⟨bound, found, binds.substitute_eq allBindable⟩

/-- All that is bound over an instance follows what makes it. -/
theorem binds_bindings?_structural
    (found : TypeSystem.bindings? { widenings, positions := .all } returned declared target =
      some bound)
    (makes : returned.substitute substitution = target) :
    Binding.Binds (declared.map (·.name)) returned.occurrences substitution [] bound := by
  subst makes
  exact Binding.binds_unify? found

/-- Bindings that make the target are for the declared type parameters that occur. -/
theorem mem_bindings?_structural
    (found : TypeSystem.bindings? { widenings, positions := .all } returned declared target =
      some bound)
    (makes : returned.substitute bound = target) (name : String) :
    name ∈ bound.map Prod.fst ↔ name ∈ declared.map (·.name) ∧ name ∈ returned.occurrences := by
  rw [(binds_bindings?_structural found makes).names, List.map_nil]
  exact or_iff_right List.not_mem_nil

end

/-- In a structural type system matching is complete. -/
theorem matchesCompletely_structural (widenings : List (String × TypeTerm)) (returned : TypeTerm)
    (declared : List TypeParameter) (target : TypeTerm) :
    MatchesCompletely { widenings, positions := .all } returned declared target where
  instance_iff := by
    refine ⟨fun ⟨_, instantiates⟩ => exists_bindings?_structural widenings instantiates, ?_⟩
    rintro ⟨bound, found, makes⟩
    refine ⟨bound, fun entry member => ?_, makes⟩
    exact ((mem_bindings?_structural found makes entry.1).1 (List.mem_map_of_mem member)).1
  names bound found makes := mem_bindings?_structural found makes
  agrees bound found makes substitution instantiates name isDeclared occurs := by
    have isBound := (mem_bindings?_structural found makes name).2 ⟨isDeclared, occurs⟩
    exact (binds_bindings?_structural found instantiates.makes).follows.lookup isBound
  fits := by
    rintro ⟨substitution, instantiates⟩ converter isReturned areDeclared
    obtain ⟨bound, found, makes⟩ := exists_bindings?_structural widenings instantiates
    refine ⟨bound, ?_, makes⟩
    rw [ConverterGroup.fit?, isReturned, areDeclared, found, Option.filter_some, makes,
      if_pos (isAssignable_self _ target)]

end TypeSystem

end StagedBuilder
