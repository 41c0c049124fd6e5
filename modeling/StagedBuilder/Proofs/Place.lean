/-
This file looks at a sound walk place by place. A place is the root or a step: what is
known there, the methods that may be called, and whether it is a finished target. Every
place of a sound walk has a walked path whose known values have the types of the values
known at the place; at places that are no targets they have the same names, too.

For a method at a place it follows which parameter it supplies and what it leads to: the
parameter stands in its constructor at the place that the number of known values says,
and a step that is returned knows one value more.
-/

import StagedBuilder.Proofs.Soundness

namespace StagedBuilder

open PrefixTree (Under)

/-! ### Places -/

/-- The root or a step. -/
structure Place where
  known : List Known
  methods : List Method
  /-- Whether the place is a finished target. -/
  isTarget : Bool

/-- The place that a step is. -/
def Step.place : Step → Place
  | .synthesized step => ⟨step.known, step.methods, false⟩
  | .existing step => ⟨step.known, step.methods, true⟩

theorem Step.known_place (step : Step) : step.place.known = step.known := by
  cases step <;> rfl

theorem Step.methods_place (step : Step) : step.place.methods = step.methods := by
  cases step <;> rfl

/-- The place of a node, given the methods of the root and the steps. -/
def placeOf (rootMethods : List Method) (step? : Nat → Option Step) : CallNode → Option Place
  | .root => some ⟨[], rootMethods, false⟩
  | .step index => (step? index).map Step.place
  | .target _ => none

/-- The place of a node of the walk, given the methods of the root. -/
abbrev Walk.place? (walk : Walk) (rootMethods : List Method) : CallNode → Option Place :=
  placeOf rootMethods walk.step?

/-- The place of a node of a builder. -/
abbrev Builder.place? (builder : Builder) : CallNode → Option Place :=
  placeOf builder.methods builder.step?

/-- A path leads to the place. -/
structure Place.Sound (naming : Naming) (tree : PlanTree) (walk : Walk) (path : Path)
    (place : Place) : Prop where
  walked : Walked tree path
  furnished : Furnished naming tree walk path place.methods
  types : place.known.map (·.type) = path.known.map (·.type)
  names : place.isTarget = false → place.known.map (·.name) = path.key.map (·.2)

theorem Place.Sound.length_known {naming : Naming} {tree : PlanTree} {walk : Walk} {path : Path}
    {place : Place} (sound : place.Sound naming tree walk path) :
    place.known.length = path.key.length := by
  have lengths := congrArg List.length sound.types
  rw [List.length_map, List.length_map] at lengths
  rw [lengths, sound.walked.length_known]

/-! ### Constructors at a place -/

section

variable {declarations : List Declaration} {plans : List ConstructorPlan} {tree node : PlanTree}
  {path : Path} {above : List ParameterPlan} {plan : ConstructorPlan}

theorem ConstructorPlan.Declared.length_parameters (declared : plan.Declared declarations) :
    plan.parameters.length = plan.declaration.constructor.parameters.length := by
  have lengths := congrArg List.length declared.types
  rwa [List.length_map, List.length_map, List.length_map] at lengths

/-- The parameter types of a constructor that ends where a path leads are those of the way. -/
theorem positionalTypes_of_ends (grown : PlanTree.Grown plans tree)
    (allDeclared : ∀ plan ∈ plans, plan.Declared declarations) (under : Under tree above node)
    (leads : keyOf above = path.key) (ends : plan ∈ node.endings) :
    plan.Declared declarations ∧
      positionalTypes plan.declaration.types = path.key.map (·.1) := by
  obtain ⟨isPlan, sameTypes⟩ := grown.ended under ends
  have declared := allDeclared plan isPlan
  refine ⟨declared, ?_⟩
  rw [← declared.types, sameTypes, ← leads, Walked.map_fst_keyOf]

/-- As many values are known where a constructor ends as it has parameters. -/
theorem length_parameters_of_ends (grown : PlanTree.Grown plans tree)
    (allDeclared : ∀ plan ∈ plans, plan.Declared declarations) (under : Under tree above node)
    (leads : keyOf above = path.key) (ends : plan ∈ node.endings) :
    plan.declaration.constructor.parameters.length = path.key.length := by
  obtain ⟨declared, sameTypes⟩ := positionalTypes_of_ends grown allDeclared under leads ends
  have lengths := congrArg List.length sameTypes
  rwa [List.length_map, List.length_map, List.length_map] at lengths

/-- An existing step knows values of the types that the path knows. -/
theorem map_type_existingKnown {known : List Known} {constructor : Constructor}
    (length : constructor.parameters.length = known.length) :
    (existingKnown known constructor).map (·.type) = known.map (·.type) := by
  have forget : (existingKnown known constructor).map (·.type) =
      ((known.zip constructor.parameters).map Prod.fst).map (·.type) := by
    rw [existingKnown, List.map_map, List.map_map]
    rfl
  rw [forget, List.map_fst_zip (Nat.le_of_eq length.symm)]

end

/-! ### Places of a sound walk -/

section

variable {naming : Naming} {declarations : List Declaration} {plans : List ConstructorPlan}
  {tree : PlanTree} {walk : Walk} {path : Path} {method : Method} {index : Nat}

/-- A path leads to every step. -/
theorem Walk.Sound.exists_place (sound : walk.Sound naming tree)
    (grown : PlanTree.Grown plans tree) (allDeclared : ∀ plan ∈ plans, plan.Declared declarations)
    {step : Step} (found : walk.step? index = some step) :
    ∃ path, step.place.Sound naming tree walk path := by
  cases step with
  | synthesized step =>
    obtain ⟨key, shared, isShared, rfl⟩ := sound.registered index step found
    have ofShared := sound.shared key shared isShared
    obtain ⟨filled, isFilled, sameKnown, sameMethods⟩ := ofShared.filled
    rw [found, Option.some.injEq, Step.synthesized.injEq] at isFilled
    subst isFilled
    refine ⟨⟨shared.scope, shared.known, key⟩, ofShared.walked, ?_, ?_, fun _ => ?_⟩
    · show Furnished _ _ _ _ step.methods
      rw [sameMethods]
      exact ofShared.furnished
    · exact congrArg (List.map _) sameKnown
    · exact (congrArg (List.map _) sameKnown).trans ofShared.walked.map_name_known
  | existing step =>
    obtain ⟨path, plan, ofExisting⟩ := sound.existing index step found
    obtain ⟨above, node, under, leads, ends⟩ := ofExisting.ends
    refine ⟨path, ofExisting.walked, ofExisting.furnished, ?_,
      fun noTarget => Bool.noConfusion noTarget⟩
    refine (congrArg (List.map _) ofExisting.known).trans (map_type_existingKnown ?_)
    rw [length_parameters_of_ends grown allDeclared under leads ends,
      ofExisting.walked.length_known]

/-- A path leads to every place, if the methods of the root are offered to the empty path. -/
theorem Walk.Sound.sound_place (sound : walk.Sound naming tree) {rootMethods : List Method}
    (furnished : Furnished naming tree walk {} rootMethods) (grown : PlanTree.Grown plans tree)
    (allDeclared : ∀ plan ∈ plans, plan.Declared declarations) {node : CallNode} {place : Place}
    (found : walk.place? rootMethods node = some place) :
    ∃ path, place.Sound naming tree walk path := by
  cases node with
  | root =>
    cases found
    exact ⟨{}, .start, furnished, rfl, fun _ => rfl⟩
  | step index =>
    obtain ⟨step, isStep, rfl⟩ := Option.map_eq_some_iff.1 found
    exact sound.exists_place grown allDeclared isStep
  | target constructor => cases found

/-- What is returned on arrival, if it is a step, knows what the path knows. -/
theorem Arrives.exists_step {node : PlanTree} (arrives : Arrives walk path node (.step index))
    (sound : walk.Sound naming tree) (grown : PlanTree.Grown plans tree)
    (allDeclared : ∀ plan ∈ plans, plan.Declared declarations) {above : List ParameterPlan}
    (under : Under tree above node) (leads : keyOf above = path.key) (walked : Walked tree path) :
    ∃ step, walk.step? index = some step ∧ step.known.length = path.key.length ∧
      (step.place.isTarget = false → step.known.map (·.name) = path.key.map (·.2)) := by
  cases arrives with
  | @existing plan _ step ends found known =>
    refine ⟨.existing step, found, ?_, fun noTarget => Bool.noConfusion noTarget⟩
    have length := length_parameters_of_ends grown allDeclared under leads ends
    show step.known.length = _
    rw [known, existingKnown, List.length_map, List.length_zip, walked.length_known, length,
      Nat.min_self]
  | @synthesized _ shared found sameIndex =>
    have ofShared := sound.shared path.key shared found
    obtain ⟨step, isFilled, sameKnown, -⟩ := ofShared.filled
    rw [sameIndex] at isFilled
    refine ⟨.synthesized step, isFilled, ?_, fun _ => ?_⟩
    · show step.known.length = _
      rw [sameKnown]
      exact ofShared.walked.length_known
    · show step.known.map (·.name) = _
      rw [sameKnown]
      exact ofShared.walked.map_name_known

/-! ### Methods at a place -/

theorem EdgeCall.result_candidate (call : EdgeCall) (plan : ParameterPlan) (order : Nat)
    (supply : SupplyPlan) : (call.candidate plan order supply).method.result = call.result := by
  cases supply <;> rfl

theorem EdgeCall.source?_candidate (call : EdgeCall) (plan : ParameterPlan) (order : Nat)
    (supply : SupplyPlan) :
    (call.candidate plan order supply).method.source? = some (plan.source call.scope) := by
  cases supply <;> rfl

/-- A step that is returned knows one value more. -/
theorem Offered.exists_step (offered : Offered naming tree walk path method)
    (sound : walk.Sound naming tree) (grown : PlanTree.Grown plans tree)
    (allDeclared : ∀ plan ∈ plans, plan.Declared declarations) (walked : Walked tree path)
    (returns : method.result = .step index) :
    ∃ step name, walk.step? index = some step ∧ step.known.length = path.key.length + 1 ∧
      (step.place.isTarget = false →
        step.known.map (·.name) = path.key.map (·.2) ++ [name]) := by
  cases offered with
  | @edge above node child representative _ _ call _ under leads member made _ _ _ arrives =>
    rw [EdgeCall.result_candidate] at returns
    rw [returns] at arrives
    obtain ⟨step, found, length, names⟩ := arrives.exists_step sound grown allDeclared
      (.down under member made) (Walked.keyOf_append_singleton leads representative)
      (.extend walked under leads member made)
    refine ⟨step, representative.key.name, found, ?_, fun noTarget => ?_⟩
    · rw [length, Path.key_extend, List.length_append, List.length_singleton]
    · rw [names noTarget, Path.key_extend, List.map_append]
      rfl
  | ending => cases returns

/-- The parameter that is supplied is the next one of a declared constructor. -/
theorem Offered.source (offered : Offered naming tree walk path method)
    (grown : PlanTree.Grown plans tree) (allDeclared : ∀ plan ∈ plans, plan.Declared declarations)
    {source : Source} (supplies : method.source? = some source) :
    source.index = path.key.length ∧
      ∃ declaration, declarations[source.constructor]? = some declaration ∧
        path.key.length < declaration.constructor.parameters.length := by
  cases offered with
  | @edge above node child representative key _ call _ under leads member made onEdge =>
    rw [EdgeCall.source?_candidate, Option.some.injEq] at supplies
    subst supplies
    obtain ⟨-, plan, isPlan, before, after, parts, sameTypes⟩ :=
      grown.taken under member made onEdge
    have declared := allDeclared plan isPlan
    have depth : before.length = path.key.length := by
      have lengths := congrArg List.length sameTypes
      rw [List.length_map, List.length_map] at lengths
      rw [lengths, ← leads, keyOf, List.length_map]
    refine ⟨(declared.index before key after parts).trans depth, plan.declaration, ?_, ?_⟩
    · have sameConstructor := declared.constructor key (by
        rw [parts]
        exact List.mem_append_right _ List.mem_cons_self)
      show declarations[key.key.constructor]? = _
      rw [sameConstructor, declared.declared]
    · rw [← declared.length_parameters, parts, List.length_append, depth, List.length_cons]
      omega
  | ending => cases supplies

end

end StagedBuilder
