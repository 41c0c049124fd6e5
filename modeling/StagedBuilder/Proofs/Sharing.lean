/-
This file proves that callers who have supplied the same are at the same step. Steps are
shared by the positional form of the types along the way and the names of the values, and
the builder shows neither: a step has types with names for their type parameters, and two
ways to a step may have found different names for them. But the names along one way are all
different, so the positional form can be read off the types that are shown. Two steps whose
values have the same names, and types that differ in the names of type parameters only,
were therefore shared by one key, and the second of them would have been the first.
-/

import StagedBuilder.Proofs.Assembly
import StagedBuilder.Proofs.Renaming

namespace StagedBuilder

open PrefixTree (Under)

/-- Two steps know values of the same names in the same order, and their types are the same up
to the names of type parameters. -/
def SynthesizedStep.KnowsAlike (left right : SynthesizedStep) : Prop :=
  left.known.map (·.name) = right.known.map (·.name) ∧
    Renamed (left.known.map (·.type)) (right.known.map (·.type))

/-- Synthesized steps that know values alike are one step. -/
def Builder.SharesSteps (builder : Builder) : Prop :=
  ∀ first left second right, builder.step? first = some (.synthesized left) →
    builder.step? second = some (.synthesized right) → left.KnowsAlike right → first = second

/-! ### The way can be read off what is known -/

section

variable {declarations : List Declaration} {plans : List ConstructorPlan} {tree node : PlanTree}
  {path : Path}

/-- The types of the keys that lead to a node are a positional form. -/
theorem PlanTree.Grown.exists_types (grown : PlanTree.Grown plans tree)
    (allDeclared : ∀ plan ∈ plans, plan.Declared declarations) {above : List ParameterPlan}
    (under : Under tree above node) :
    ∃ types, above.map (·.key.type) = positionalTypes types := by
  cases under with
  | top => exact ⟨[], rfl⟩
  | @down above node _ representative under member made =>
    obtain ⟨-, plan, isPlan, before, after, parts, sameTypes⟩ :=
      grown.taken under member made (List.mem_of_mem_head? made)
    have partsExtended : plan.parameters = (before ++ [representative]) ++ after := by
      rw [parts, List.append_assoc, List.singleton_append]
    refine ⟨_, Eq.trans ?_ ((allDeclared plan isPlan).map_type_before partsExtended)⟩
    rw [List.map_append, List.map_append, sameTypes]

theorem Walked.exists_types (walked : Walked tree path) (grown : PlanTree.Grown plans tree)
    (allDeclared : ∀ plan ∈ plans, plan.Declared declarations) :
    ∃ types, positionalTypes types = path.key.map (·.1) := by
  cases walked with
  | start => exact ⟨[], rfl⟩
  | @extend path above node child representative walked under leads member made =>
    obtain ⟨types, sameTypes⟩ := grown.exists_types allDeclared (.down under member made)
    refine ⟨types, ?_⟩
    rw [← Walked.keyOf_append_singleton leads representative, Walked.map_fst_keyOf, sameTypes]

/-- The positional form of what is known is the positional form of the way. -/
theorem Walked.positionalTypes_known (walked : Walked tree path)
    (grown : PlanTree.Grown plans tree)
    (allDeclared : ∀ plan ∈ plans, plan.Declared declarations) :
    positionalTypes (path.known.map (·.type)) = path.key.map (·.1) := by
  obtain ⟨types, arrives⟩ := walked.exists_types grown allDeclared
  have wellScoped := walked.wellScoped grown allDeclared
  have bound := Nat.le_of_eq (wellScoped.size_eq_of_types arrives)
  have renamed : Renamed types (path.known.map (·.type)) :=
    ⟨path.scope.rename (numberingOf types), fun left leftOccurs right rightOccurs same =>
      Scope.rename_injOn bound wellScoped.distinct (mem_numberingOf.2 leftOccurs)
        (mem_numberingOf.2 rightOccurs) same, wellScoped.map_type_of_types arrives⟩
  rw [renamed.positionalTypes_eq, arrives]

/-- Two walked paths that know values alike have one key. -/
theorem Walked.key_eq {other : Path} (walked : Walked tree path) (otherWalked : Walked tree other)
    (grown : PlanTree.Grown plans tree)
    (allDeclared : ∀ plan ∈ plans, plan.Declared declarations)
    (sameNames : path.known.map (·.name) = other.known.map (·.name))
    (renamed : Renamed (path.known.map (·.type)) (other.known.map (·.type))) :
    path.key = other.key := by
  have types : path.key.map (·.1) = other.key.map (·.1) := by
    rw [← walked.positionalTypes_known grown allDeclared,
      ← otherWalked.positionalTypes_known grown allDeclared, renamed.positionalTypes_eq]
  have names : path.key.map (·.2) = other.key.map (·.2) := by
    rw [← walked.map_name_known, ← otherWalked.map_name_known, sameNames]
  rw [List.zip_of_prod types names]
  exact (List.zip_of_prod rfl rfl).symm

end

/-! ### Steps -/

/-- Synthesized steps of a walk that know values alike are one step. -/
theorem Walk.Sound.index_eq {naming : Naming} {declarations : List Declaration}
    {plans : List ConstructorPlan} {tree : PlanTree} {walk : Walk}
    (sound : walk.Sound naming tree) (grown : PlanTree.Grown plans tree)
    (allDeclared : ∀ plan ∈ plans, plan.Declared declarations) {first second : Nat}
    {left right : SynthesizedStep} (isLeft : walk.step? first = some (.synthesized left))
    (isRight : walk.step? second = some (.synthesized right)) (alike : left.KnowsAlike right) :
    first = second := by
  obtain ⟨leftKey, leftShared, leftFound, rfl⟩ := sound.registered first left isLeft
  obtain ⟨rightKey, rightShared, rightFound, rfl⟩ := sound.registered second right isRight
  have ofLeft := sound.shared leftKey leftShared leftFound
  have ofRight := sound.shared rightKey rightShared rightFound
  obtain ⟨leftFilled, isLeftFilled, leftKnown, -⟩ := ofLeft.filled
  obtain ⟨rightFilled, isRightFilled, rightKnown, -⟩ := ofRight.filled
  cases isLeft.symm.trans isLeftFilled
  cases isRight.symm.trans isRightFilled
  obtain ⟨sameNames, renamed⟩ := alike
  rw [leftKnown, rightKnown] at sameNames renamed
  have sameKey : leftKey = rightKey :=
    ofLeft.walked.key_eq ofRight.walked grown allDeclared sameNames renamed
  rw [sameKey, rightFound, Option.some.injEq] at leftFound
  rw [leftFound]

/-- A builder that comes from a walk shares steps. -/
theorem Builder.Origin.sharesSteps {naming : Naming} {root : Root}
    {declarations : List Declaration} {builder : Builder}
    (origin : builder.Origin naming root declarations) : builder.SharesSteps := by
  intro first left second right isLeft isRight alike
  obtain ⟨leftIndex, leftBefore, -, rfl, leftFound, leftFinal⟩ := origin.exists_kept isLeft
  obtain ⟨rightIndex, rightBefore, -, rfl, rightFound, rightFinal⟩ := origin.exists_kept isRight
  cases leftBefore with
  | existing before => cases leftFinal
  | synthesized leftBefore =>
    cases rightBefore with
    | existing before => cases rightFinal
    | synthesized rightBefore =>
      cases leftFinal
      cases rightFinal
      exact congrArg origin.number
        (origin.sound.index_eq origin.grown origin.allDeclared leftFound rightFound alike)

/-- Every builder shares steps, whatever it is made from. -/
theorem sharesSteps_assemble (system : TypeSystem) (naming : Naming) (root : Root)
    (declarations : List Declaration) :
    (assemble system naming root declarations).SharesSteps := by
  obtain ⟨origin⟩ := nonempty_origin system naming root declarations
  exact origin.sharesSteps

end StagedBuilder
