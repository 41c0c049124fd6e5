/-
This file says when two plans are alike for two views, and that alike plans lead to methods
that look the same. The numbers of alike plans, their keys and the ways to supply their
parameters look the same. Where names are seen, so do their declarations and numberings,
and what each parameter introduces; where they are not, only what a declaration says
besides them.

What a method shows of its types is made of positional forms by writing names in them. The
forms are the same, and the names come from the scope of the path, from the target and
from the free type parameters of a converter. So either all of these are the same, or the
names are not seen.
-/

import StagedBuilder.Proofs.Place
import StagedBuilder.Proofs.PrefixLikeness
import StagedBuilder.Proofs.View

namespace StagedBuilder

/-! ### Declarations without names -/

/-- The declaration with nothing to be seen of what type parameters are called. -/
def Declaration.nameless (declaration : Declaration) : Declaration :=
  { declaration with
    constructor := { declaration.constructor with
      target := { declaration.target with
        typeParameters := declaration.target.typeParameters.map fun _ => { name := "?" } }
      parameters := declaration.constructor.parameters.map fun parameter =>
        { parameter with type := parameter.type.erased } } }

namespace View

def declaration (view : View) (declaration : Declaration) : Declaration :=
  if view.named then declaration else declaration.nameless

section

variable (view : View) (declared : Declaration)

theorem options_declaration : (view.declaration declared).options = declared.options := by
  unfold View.declaration
  split <;> rfl

theorem createMethodName_declaration :
    (view.declaration declared).createMethodName = declared.createMethodName := by
  unfold View.declaration
  split <;> rfl

theorem qualifiedName_declaration :
    (view.declaration declared).target.qualifiedName = declared.target.qualifiedName := by
  unfold View.declaration
  split <;> rfl

theorem acceptsMembers_declaration :
    (view.declaration declared).target.acceptsMembers = declared.target.acceptsMembers := by
  unfold View.declaration
  split <;> rfl

theorem targetName_declaration :
    (view.declaration declared).constructor.target.name = declared.constructor.target.name := by
  unfold View.declaration
  split <;> rfl

theorem documentation_declaration :
    (view.declaration declared).constructor.documentation = declared.constructor.documentation := by
  unfold View.declaration
  split <;> rfl

theorem location_declaration :
    (view.declaration declared).constructor.location = declared.constructor.location := by
  unfold View.declaration
  split <;> rfl

/-- The names and members of the constructor's parameters are always seen. -/
theorem existingKnown_map (known : List Known) :
    (existingKnown known declared.constructor).map view.known =
      existingKnown (known.map view.known) (view.declaration declared).constructor := by
  unfold View.declaration
  split
  · rw [existingKnown, List.map_map, existingKnown, List.zip_map_left, List.map_map]
    rfl
  · show _ = existingKnown (known.map view.known) declared.nameless.constructor
    rw [existingKnown, List.map_map, existingKnown, Declaration.nameless, List.zip_map,
      List.map_map]
    rfl

end

/-! ### Two views -/

variable {first second : View}

/-- Types look the same if they are the same up to erasure, and the same where names are seen. -/
theorem type_congr (agree : first.named = second.named) {left right : TypeTerm}
    (same : first.named = true → left = right) (erased : left.erased = right.erased) :
    first.type left = second.type right := by
  unfold View.type
  rw [← agree]
  split
  · next named => exact same named
  · exact erased

theorem parameters_congr (agree : first.named = second.named) {left right : List TypeParameter}
    (same : first.named = true → left = right) :
    first.parameters left = second.parameters right := by
  unfold View.parameters
  rw [← agree]
  split
  · next named => exact same named
  · rfl

theorem eq_of_parameters (agree : first.named = second.named) {left right : List TypeParameter}
    (alike : first.parameters left = second.parameters right) (named : first.named = true) :
    left = right := by
  unfold View.parameters at alike
  rwa [← agree, if_pos named, if_pos named] at alike

theorem scope_congr (agree : first.named = second.named) {left right : Scope}
    (same : first.named = true → left = right) : first.scope left = second.scope right := by
  unfold View.scope
  rw [← agree]
  split
  · next named => exact same named
  · rfl

theorem eq_of_scope (agree : first.named = second.named) {left right : Scope}
    (alike : first.scope left = second.scope right) (named : first.named = true) :
    left = right := by
  unfold View.scope at alike
  rwa [← agree, if_pos named, if_pos named] at alike

theorem eq_of_declaration (agree : first.named = second.named) {left right : Declaration}
    (alike : first.declaration left = second.declaration right) (named : first.named = true) :
    left = right := by
  unfold View.declaration at alike
  rwa [← agree, if_pos named, if_pos named] at alike

theorem nameless_eq_of_declaration (agree : first.named = second.named) {left right : Declaration}
    (alike : first.declaration left = second.declaration right) :
    left.nameless = right.nameless := by
  unfold View.declaration at alike
  rw [← agree] at alike
  split at alike
  · rw [alike]
  · exact alike

/-- A scope shows nothing but names. -/
theorem erased_display (scope : Scope) (type : TypeTerm) :
    (scope.display type).erased = type.erased := by
  refine TypeTerm.erased_substitute (fun entry member => ?_) type
  obtain ⟨pair, -, rfl⟩ := List.mem_map.1 member
  rfl

theorem type_display (agree : first.named = second.named) {left right : Scope}
    (scopes : first.scope left = second.scope right) (type : TypeTerm) :
    first.type (left.display type) = second.type (right.display type) := by
  refine type_congr agree (fun named => ?_) ?_
  · rw [eq_of_scope agree scopes named]
  · rw [erased_display, erased_display]

theorem parameters_undeclared (agree : first.named = second.named)
    {ambient introduced otherAmbient otherIntroduced : List TypeParameter}
    (ambients : first.parameters ambient = second.parameters otherAmbient)
    (introductions : first.named = true → introduced = otherIntroduced) :
    first.parameters (TypeParameter.undeclared ambient introduced) =
      second.parameters (TypeParameter.undeclared otherAmbient otherIntroduced) :=
  parameters_congr agree fun named => by
    rw [eq_of_parameters agree ambients named, introductions named]

end View

/-! ### Alike plans -/

section

variable (first second : View)

/-- Two parameters that can be supplied in the same ways, with keys that look the same. -/
structure ParameterPlan.Alike (left right : ParameterPlan) : Prop where
  constructor : first.number left.key.constructor = second.number right.key.constructor
  index : left.key.index = right.key.index
  name : left.key.name = right.key.name
  type : left.key.type = right.key.type
  methodNames : left.key.methodNames = right.key.methodNames
  owner : left.declaration.target.qualifiedName = right.declaration.target.qualifiedName
  priority : left.parameter.priority = right.parameter.priority
  location : left.parameter.location = right.parameter.location
  introduced : first.named = true → left.introduced = right.introduced
  supplies : left.supplies = right.supplies
  documentation : left.documentation = right.documentation

/-- Two constructors that look the same. -/
structure ConstructorPlan.Alike (left right : ConstructorPlan) : Prop where
  id : first.number left.id = second.number right.id
  declaration : first.declaration left.declaration = second.declaration right.declaration
  numbering : first.named = true → left.numbering = right.numbering
  parameters : List.Forall₂ (ParameterPlan.Alike first second) left.parameters right.parameters

/-- Calls that differ in nothing that is seen. -/
structure EdgeCall.Alike (left right : EdgeCall) : Prop where
  scope : first.scope left.scope = second.scope right.scope
  introduced : first.named = true → left.introduced = right.introduced
  ambient : first.parameters left.ambient = second.parameters right.ambient
  result : first.result left.result = second.result right.result

end

variable {first second : View}

namespace ConstructorPlan.Alike

variable {left right : ConstructorPlan}

theorem options_eq (alike : left.Alike first second right) :
    left.declaration.options = right.declaration.options := by
  rw [← first.options_declaration, alike.declaration, second.options_declaration]

theorem acceptsMembers_eq (alike : left.Alike first second right) :
    left.declaration.target.acceptsMembers = right.declaration.target.acceptsMembers := by
  rw [← first.acceptsMembers_declaration, alike.declaration, second.acceptsMembers_declaration]

theorem qualifiedName_eq (alike : left.Alike first second right) :
    left.declaration.target.qualifiedName = right.declaration.target.qualifiedName := by
  rw [← first.qualifiedName_declaration, alike.declaration, second.qualifiedName_declaration]

theorem digest_eq (alike : left.Alike first second right) :
    first.digest left.digest = second.digest right.digest := by
  have count := alike.parameters.length_eq
  simp only [View.digest, ConstructorPlan.digest, Digest.single, List.map_cons, List.map_nil,
    alike.id, count, alike.options_eq]

/-- Where names are seen, so are all parts of the target. -/
theorem targetIn_eq (agree : first.named = second.named) (alike : left.Alike first second right)
    {scope other : Scope} (scopes : first.scope scope = second.scope other) :
    first.type (left.targetIn scope) = second.type (right.targetIn other) := by
  refine View.type_congr agree (fun named => ?_) ?_
  · unfold ConstructorPlan.targetIn ConstructorPlan.argumentName
    rw [View.eq_of_declaration agree alike.declaration named, alike.numbering named,
      View.eq_of_scope agree scopes named]
  · have erasedTarget : ∀ (plan : ConstructorPlan) (scope : Scope),
        (plan.targetIn scope).erased =
          .qualified plan.declaration.nameless.target.space plan.declaration.nameless.target.name
            (plan.declaration.nameless.target.typeParameters.map fun _ =>
              TypeTerm.erasedParameter) := by
      intro plan scope
      show TypeTerm.named _ _ (TypeTerm.erasedAll _) = TypeTerm.named _ _ _
      rw [TypeTerm.erasedAll_eq_map, List.map_map]
      show _ = TypeTerm.named _ _ (List.map _ (List.map _ _))
      rw [List.map_map]
      rfl
    rw [erasedTarget, erasedTarget, View.nameless_eq_of_declaration agree alike.declaration]

theorem unboundIn_eq (agree : first.named = second.named) (alike : left.Alike first second right)
    {scope other : Scope} (scopes : first.scope scope = second.scope other)
    (named : first.named = true) : left.unboundIn scope = right.unboundIn other := by
  unfold ConstructorPlan.unboundIn ConstructorPlan.constraintSubstitution
    ConstructorPlan.unboundParameters ConstructorPlan.argumentName
  rw [View.eq_of_declaration agree alike.declaration named, alike.numbering named,
    View.eq_of_scope agree scopes named]

/-- What a finished target looks like. -/
theorem product_eq (agree : first.named = second.named) (alike : left.Alike first second right)
    {scope other : Scope} (scopes : first.scope scope = second.scope other)
    {candidates others : List Nat}
    (numbers : candidates.map first.number = others.map second.number) :
    first.product ⟨left.targetIn scope, left.id, candidates⟩ =
      second.product ⟨right.targetIn other, right.id, others⟩ := by
  rw [View.product, alike.targetIn_eq agree scopes, alike.id, numbers]
  rfl

/-- Creations look the same. -/
theorem creation_eq (agree : first.named = second.named) (alike : left.Alike first second right)
    (naming : Naming) {scope other : Scope} (scopes : first.scope scope = second.scope other)
    {ambient otherAmbient : List TypeParameter}
    (ambients : first.parameters ambient = second.parameters otherAmbient) :
    first.method (left.creation naming scope ambient) =
      second.method (right.creation naming other otherAmbient) := by
  have createName : left.declaration.createMethodName = right.declaration.createMethodName := by
    rw [← first.createMethodName_declaration, alike.declaration,
      second.createMethodName_declaration]
  have targetName : left.declaration.constructor.target.name =
      right.declaration.constructor.target.name := by
    rw [← first.targetName_declaration, alike.declaration, second.targetName_declaration]
  have documentation : left.declaration.constructor.documentation =
      right.declaration.constructor.documentation := by
    rw [← first.documentation_declaration, alike.declaration, second.documentation_declaration]
  have location : left.declaration.constructor.location =
      right.declaration.constructor.location := by
    rw [← first.location_declaration, alike.declaration, second.location_declaration]
  have numbers : [left.id].map first.number = [right.id].map second.number :=
    congrArg ([·]) alike.id
  have product := alike.product_eq agree scopes numbers
  have declared := View.parameters_undeclared agree ambients
    (alike.unboundIn_eq agree scopes)
  simp only [View.method, ConstructorPlan.creation, createName, targetName, documentation,
    location, product, declared]

end ConstructorPlan.Alike

/-! ### Alike calls -/

namespace EdgeCall.Alike

variable {left right : EdgeCall} {plan other : ParameterPlan}

theorem source_eq (agree : first.named = second.named) (alike : left.Alike first second right)
    (plans : plan.Alike first second other) :
    first.source (plan.source left.scope) = second.source (other.source right.scope) := by
  simp only [View.source, ParameterPlan.source, plans.constructor, plans.index, plans.name,
    plans.type, View.type_display agree alike.scope]

theorem supply_eq (agree : first.named = second.named) (alike : left.Alike first second right)
    (plans : plan.Alike first second other) (name : String) :
    first.method (left.supply plan name) = second.method (right.supply other name) := by
  have shown := View.type_display agree alike.scope other.key.type
  have declared := View.parameters_undeclared agree alike.ambient alike.introduced
  simp only [View.method, EdgeCall.supply, List.map_cons, List.map_nil, View.argument,
    alike.source_eq agree plans, declared, alike.result, plans.name, plans.documentation,
    plans.priority, plans.location]
  simp only [ParameterPlan.source, plans.type, shown]

/-- The renaming of a converter's free type parameters puts names in the place of names. -/
theorem erased_render (converted : ConverterPlan) (taken : List String) (scope : Scope)
    (type : TypeTerm) :
    (scope.display (type.substitute (converted.renames taken))).erased = type.erased := by
  rw [View.erased_display]
  refine TypeTerm.erased_substitute (fun entry member => ?_) type
  obtain ⟨pair, -, renamed⟩ := List.mem_filterMap.1 (List.mem_reverse.1 member)
  have renamed : (if pair.2 = pair.1 then none else
      some (pair.1, TypeTerm.parameter pair.2)) = some entry := renamed
  split at renamed
  · cases renamed
  · rw [← Option.some.inj renamed]
    rfl

/-- Conversions look the same if all their parts do. -/
theorem conversion_congr {conversion otherConversion : Conversion}
    (name : conversion.name = otherConversion.name)
    (source : first.source conversion.source = second.source otherConversion.source)
    (arguments : conversion.arguments.map first.argument =
      otherConversion.arguments.map second.argument)
    (declared : first.parameters conversion.typeParameters =
      second.parameters otherConversion.typeParameters)
    (result : first.result conversion.result = second.result otherConversion.result)
    (documentation : conversion.documentation = otherConversion.documentation)
    (priority : conversion.priority = otherConversion.priority)
    (converter : conversion.converter = otherConversion.converter)
    (siblings : conversion.siblings = otherConversion.siblings)
    (attributeLocation : conversion.attributeLocation = otherConversion.attributeLocation)
    (converterLocations : conversion.converterLocations = otherConversion.converterLocations) :
    first.method (.conversion conversion) = second.method (.conversion otherConversion) := by
  simp only [View.method, name, source, arguments, declared, result, documentation, priority,
    converter, siblings, attributeLocation, converterLocations]

theorem conversion_eq (agree : first.named = second.named) (alike : left.Alike first second right)
    (plans : plan.Alike first second other) (converted : ConverterPlan) :
    first.method (left.conversion plan converted) =
      second.method (right.conversion other converted) := by
  have documentation := congrArg
    ((converted.converter.documentation.bind Documentation.summary) <|> ·) plans.documentation
  have priority := congrArg
    (if converted.converter.priority = 0 then · else converted.converter.priority) plans.priority
  refine conversion_congr rfl (alike.source_eq agree plans) ?_ ?_ alike.result documentation
    priority rfl rfl rfl rfl
  · show (converted.parameters.map _).map first.argument =
      (converted.parameters.map _).map second.argument
    rw [List.map_map, List.map_map]
    refine List.map_congr_left fun parameter _ => ?_
    have rendered : first.type (left.scope.display (parameter.type.substitute
        (converted.renames (left.scope.names ++ left.introduced.map (·.name))))) =
          second.type (right.scope.display (parameter.type.substitute
            (converted.renames (right.scope.names ++ right.introduced.map (·.name))))) := by
      refine View.type_congr agree (fun named => ?_) ?_
      · rw [View.eq_of_scope agree alike.scope named, alike.introduced named]
      · rw [erased_render, erased_render]
    exact congrArg (Argument.mk parameter.name · _) rendered
  · refine View.parameters_undeclared agree alike.ambient fun named => ?_
    rw [View.eq_of_scope agree alike.scope named, alike.introduced named]

theorem candidate_eq (agree : first.named = second.named) (alike : left.Alike first second right)
    (plans : plan.Alike first second other) (order : Nat) (supply : SupplyPlan) :
    first.candidate (left.candidate plan order supply) =
      second.candidate (right.candidate other order supply) := by
  cases supply with
  | direct name =>
    simp only [View.candidate, EdgeCall.candidate, alike.supply_eq agree plans, plans.owner,
      plans.name]
  | converted converted =>
    simp only [View.candidate, EdgeCall.candidate, alike.conversion_eq agree plans]

end EdgeCall.Alike

end StagedBuilder
