/-
This file proves that wherever a builder calls a constructor it has values of the right
types. A constructor is called by a creation, by a method that returns a finished target,
and on arrival at an existing step. The types of the values that are known there, with the
one that is just supplied, were shown by the scope of the path that made the place, and
the constructor called may be any that ends where the path leads, under its own names for
its type parameters. What the two have in common is the positional form, and it is enough:
the values have the parameter types of the constructor with its type parameters renamed,
and the target is applied to the same new names.
-/

import StagedBuilder.Proofs.Assembly

namespace StagedBuilder

open PrefixTree (Under)
open TypeTerm (occurrencesOfAll relabel)

/-! ### Calls of constructors -/

namespace Declaration

/-- Called with values of the given types the constructor makes the given type, if its type
parameters have the given images. -/
structure InvokedAs (declaration : Declaration) (image : String → String)
    (supplied : List TypeTerm) (made : TypeTerm) : Prop where
  /-- Different type parameters of the parameter types have different images. -/
  apart : ∀ left ∈ occurrencesOfAll declaration.types,
    ∀ right ∈ occurrencesOfAll declaration.types, image left = image right → left = right
  /-- There is one value for each parameter, and it has the parameter's type. -/
  supplied : supplied = declaration.types.map
    (·.substitute (relabel image (occurrencesOfAll declaration.types)))
  /-- The target is applied to the images of those of its type parameters that occur in the
  parameter types. -/
  made : ∃ arguments,
    made = .qualified declaration.target.space declaration.target.name arguments ∧
      arguments.length = declaration.target.typeParameters.length ∧
      ∀ (place : Nat) (declared : TypeParameter),
        declaration.target.typeParameters[place]? = some declared →
          declared.name ∈ occurrencesOfAll declaration.types →
            arguments[place]? = some (.parameter (image declared.name))

/-- Called with values of the given types the constructor makes the given type. -/
def Invoked (declaration : Declaration) (supplied : List TypeTerm) (made : TypeTerm) : Prop :=
  ∃ image, declaration.InvokedAs image supplied made

end Declaration

/-- Every call of a constructor in the builder is given values of the parameter types. -/
structure Builder.TypeCoherent (declarations : List Declaration) (builder : Builder) : Prop where
  /-- A creation is given what is known at its place, and a method that finishes a target the
  value that it supplies in addition. -/
  returned : ∀ node owner, builder.place? node = some owner → ∀ method ∈ owner.methods,
    ∀ value, method.result = .product value →
      ∃ declaration, declarations[value.constructor]? = some declaration ∧
        declaration.Invoked
          (owner.known.map (·.type) ++ (method.source?.map (·.type)).toList) value.target
  /-- An existing step is made of what is known there. -/
  existing : ∀ index step, builder.step? index = some (.existing step) →
    ∃ declaration, declarations[step.constructor]? = some declaration ∧
      declaration.Invoked (step.known.map (·.type)) step.target

/-! ### At the end of a path -/

theorem ConstructorPlan.argumentName_of_mem {plan : ConstructorPlan} {scope : Scope}
    (bound : plan.numbering.names.length ≤ scope.size) {declared : TypeParameter}
    (member : declared.name ∈ plan.numbering.names) :
    plan.argumentName scope declared = (scope.rename plan.numbering declared.name, false) := by
  rw [argumentName, Scope.bind_index?_eq_rename bound member]

/-- A type parameter that has no number gets a name that the scope does not use. -/
theorem ConstructorPlan.argumentName_of_notMem {plan : ConstructorPlan} {scope : Scope}
    {declared : TypeParameter} (unnumbered : declared.name ∉ plan.numbering.names) :
    plan.argumentName scope declared = (scope.fresh declared.name, true) := by
  have noIndex : plan.numbering.index? declared.name = none := by
    refine List.findIdx?_eq_none_iff.2 fun name numbered => beq_eq_false_iff_ne.2 ?_
    rintro rfl
    exact unnumbered numbered
  rw [argumentName, noIndex, Option.bind_none]

/-- Where a constructor ends it can be called with what is known. -/
theorem Path.WellScoped.invoked {declarations : List Declaration} {path : Path}
    {plan : ConstructorPlan} (wellScoped : path.WellScoped)
    (declared : plan.Declared declarations)
    (arrives : positionalTypes plan.declaration.types = path.key.map (·.1)) :
    plan.declaration.Invoked (path.known.map (·.type)) (plan.targetIn path.scope) := by
  have bound := Nat.le_of_eq (wellScoped.size_eq declared arrives)
  have numbered : ∀ name ∈ occurrencesOfAll plan.declaration.types,
      name ∈ plan.numbering.names := by
    intro name occurs
    rw [declared.numbering]
    exact mem_numberingOf.2 occurs
  refine ⟨path.scope.rename plan.numbering, fun left leftOccurs right rightOccurs same => ?_,
    wellScoped.map_type_known declared arrives, _, rfl, List.length_map _,
    fun place parameter isDeclared occurs => ?_⟩
  · exact Scope.rename_injOn bound wellScoped.distinct (numbered left leftOccurs)
      (numbered right rightOccurs) same
  · rw [List.getElem?_map, isDeclared, Option.map_some,
      ConstructorPlan.argumentName_of_mem bound (numbered _ occurs)]

/-- A path leads where the constructor of a plan ends, and the target is as its scope sees it. What
is known there has the given types. -/
structure Product.Formed (declarations : List Declaration) (supplied : List TypeTerm)
    (value : Product) (path : Path) (plan : ConstructorPlan) : Prop where
  wellScoped : path.WellScoped
  declared : plan.Declared declarations
  arrives : positionalTypes plan.declaration.types = path.key.map (·.1)
  supplied : supplied = path.known.map (·.type)
  constructor : value.constructor = plan.id
  target : value.target = plan.targetIn path.scope

/-- The constructor of a target can be called with what is known where the target is formed. -/
theorem Product.Formed.exists_invoked {declarations : List Declaration}
    {supplied : List TypeTerm} {value : Product} {path : Path} {plan : ConstructorPlan}
    (formed : value.Formed declarations supplied path plan) :
    ∃ declaration, declarations[value.constructor]? = some declaration ∧
      declaration.Invoked supplied value.target := by
  refine ⟨plan.declaration, ?_, ?_⟩
  · rw [formed.constructor]
    exact formed.declared.declared
  · rw [formed.supplied, formed.target]
    exact formed.wellScoped.invoked formed.declared formed.arrives

section

variable {naming : Naming} {declarations : List Declaration} {plans : List ConstructorPlan}
  {tree node : PlanTree} {walk : Walk} {path : Path} {method : Method} {value : Product}

/-- The target of a constructor that ends at a node is formed there. -/
theorem formed_of_ends (grown : PlanTree.Grown plans tree)
    (allDeclared : ∀ plan ∈ plans, plan.Declared declarations) {above : List ParameterPlan}
    (under : Under tree above node) (leads : keyOf above = path.key) (walked : Walked tree path)
    {plan : ConstructorPlan} (ends : plan ∈ node.endings) (candidates : List Nat) :
    Product.Formed declarations (path.known.map (·.type))
      ⟨plan.targetIn path.scope, plan.id, candidates⟩ path plan := by
  obtain ⟨declared, arrives⟩ := positionalTypes_of_ends grown allDeclared under leads ends
  exact ⟨walked.wellScoped grown allDeclared, declared, arrives, rfl, rfl, rfl⟩

/-- The target that a method returns is formed where what is known and what is supplied lead. -/
theorem Offered.exists_formed (offered : Offered naming tree walk path method)
    (grown : PlanTree.Grown plans tree) (allDeclared : ∀ plan ∈ plans, plan.Declared declarations)
    (walked : Walked tree path) (returns : method.result = .product value) :
    ∃ below plan, value.Formed declarations
      (path.known.map (·.type) ++ (method.source?.map (·.type)).toList) below plan := by
  cases offered with
  | @edge above node child representative key _ call _ under leads member made onEdge _ scope
      arrives =>
    rw [EdgeCall.result_candidate] at returns
    rw [returns] at arrives
    -- The key on the edge and the one that made it have one type.
    have sameTypes : path.known.map (·.type) ++ [(key.source call.scope).type] =
        (path.extend representative).known.map (·.type) := by
      rw [Path.known_extend, List.map_append, ParameterPlan.source, scope,
        (grown.taken under member made onEdge).1]
      rfl
    rw [EdgeCall.source?_candidate, Option.map_some, Option.toList_some, sameTypes]
    cases arrives with
    | finish candidates ends =>
      exact ⟨_, _, formed_of_ends grown allDeclared (.down under member made)
        (Walked.keyOf_append_singleton leads representative)
        (.extend walked under leads member made) ends candidates⟩
  | @ending _ _ plan ambient under leads ends =>
    cases returns
    refine ⟨path, plan, ?_⟩
    show Product.Formed declarations (_ ++ []) _ _ _
    rw [List.append_nil]
    exact formed_of_ends grown allDeclared under leads walked ends [plan.id]

end

/-! ### In a builder -/

theorem Method.result_of_mapStep {renumber : Nat → Nat} {method : Method} {value : Product}
    (returns : (method.mapStep renumber).result = .product value) :
    method.result = .product value := by
  rw [result_mapStep] at returns
  cases result : method.result with
  | product other =>
    rw [result] at returns
    exact returns
  | step index =>
    rw [result] at returns
    cases returns

/-- The target that a method of a builder returns is formed where what is known at the method's
place and what the method supplies lead. -/
theorem Builder.Origin.exists_formed {naming : Naming} {root : Root}
    {declarations : List Declaration} {builder : Builder}
    (origin : builder.Origin naming root declarations) {node : CallNode} {owner : Place}
    (found : builder.place? node = some owner) {method : Method} (member : method ∈ owner.methods)
    {value : Product} (returns : method.result = .product value) :
    ∃ path plan, value.Formed declarations
      (owner.known.map (·.type) ++ (method.source?.map (·.type)).toList) path plan := by
  obtain ⟨-, before, path, -, -, leads, rfl⟩ := origin.exists_place found
  obtain ⟨beforeMethod, isMethod, rfl⟩ := List.mem_map.1 member
  rw [Method.source?_mapStep]
  show ∃ path plan, value.Formed declarations (before.known.map (·.type) ++ _) path plan
  rw [leads.types]
  exact (leads.furnished.offered beforeMethod isMethod).exists_formed origin.grown
    origin.allDeclared leads.walked (Method.result_of_mapStep returns)

/-- A builder that comes from a walk is type coherent. -/
theorem Builder.Origin.typeCoherent {naming : Naming} {root : Root}
    {declarations : List Declaration} {builder : Builder}
    (origin : builder.Origin naming root declarations) : builder.TypeCoherent declarations where
  returned node owner found method member value returns := by
    obtain ⟨path, plan, formed⟩ := origin.exists_formed found member returns
    exact formed.exists_invoked
  existing index final found := by
    obtain ⟨place, step, -, -, isStep, isFinal⟩ := origin.exists_kept found
    cases step with
    | synthesized step => cases isFinal
    | existing step =>
      cases isFinal
      obtain ⟨path, plan, sound⟩ := origin.sound.existing place step isStep
      obtain ⟨above, node, under, leads, ends⟩ := sound.ends
      have length := length_parameters_of_ends origin.grown origin.allDeclared under leads ends
      have sameTypes : step.known.map (·.type) = path.known.map (·.type) := by
        rw [sound.known, map_type_existingKnown]
        rw [length, sound.walked.length_known]
      have formed := formed_of_ends origin.grown origin.allDeclared under leads sound.walked ends []
      rw [← sound.target, ← sound.constructor, ← sameTypes] at formed
      exact formed.exists_invoked

/-- Every builder is type coherent, whatever it is made from. -/
theorem typeCoherent_assemble (system : TypeSystem) (naming : Naming) (root : Root)
    (declarations : List Declaration) :
    (assemble system naming root declarations).TypeCoherent declarations := by
  obtain ⟨origin⟩ := nonempty_origin system naming root declarations
  exact origin.typeCoherent

end StagedBuilder
