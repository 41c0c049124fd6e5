/-
This file works out, for every parameter of a constructor, how it can be supplied.
A parameter without converters is supplied by one method that takes its value. A
parameter with a group of converters is supplied by one method for each converter
that fits, and a converter fits if its type parameters can be bound so that its
return type is assignable to the parameter's type. Converters that do not fit are
reported, and so are converters that are not static, though these are used all
the same. If no converter fits, the parameter cannot be supplied, and with it the
whole constructor is out of the game.

All types in a plan are in the positional form of the constructor, so that plans
of different constructors can be compared.
-/

import StagedBuilder.Diagnostic.Basic
import StagedBuilder.Generic.Binding
import StagedBuilder.Generic.Placeholder
import StagedBuilder.Naming
import StagedBuilder.Prefix.Digest
import StagedBuilder.Prefix.Key

namespace StagedBuilder

/-! ### Plans -/

/-- A converter that fits a parameter. -/
structure ConverterPlan where
  converter : Converter
  declaringType : TypeTerm
  attributeLocation : Location
  /-- The converter's parameters, bound type parameters replaced. -/
  parameters : List ConverterParameter
  /-- The type parameters that the parameter's type does not determine. -/
  free : List TypeParameter
  /-- The other converters of the group that fit, by their display forms. -/
  siblings : List String
deriving DecidableEq, Inhabited

/-- One way to supply a parameter. -/
inductive SupplyPlan where
  | direct (name : String)
  | converted (plan : ConverterPlan)
deriving DecidableEq, Inhabited

/-- The name of the method that supplies the parameter this way. -/
def SupplyPlan.name : SupplyPlan → String
  | .direct name => name
  | .converted plan => plan.converter.name

/-- One parameter of a constructor with the ways to supply it. -/
structure ParameterPlan where
  key : EdgeKey
  declaration : Declaration
  parameter : Parameter
  /-- The placeholders that occur here for the first time: number, declared name and
  constraints. -/
  introduced : List (Nat × String × Constraints)
  supplies : List SupplyPlan
  documentation : Option String
deriving DecidableEq, Inhabited

/-- Plans lead the same way exactly if their keys do. -/
instance : BEq ParameterPlan := ⟨fun left right => left.key.meets right.key⟩

/-- A constructor with a plan for each of its parameters. -/
structure ConstructorPlan where
  id : Nat
  declaration : Declaration
  numbering : Numbering
  parameters : List ParameterPlan
deriving Inhabited

namespace ConstructorPlan

/-- Whether every parameter can be supplied. -/
def isUsable (plan : ConstructorPlan) : Bool :=
  plan.parameters.all fun parameter => !parameter.supplies.isEmpty

/-- The digest of the constructor by itself. -/
def digest (plan : ConstructorPlan) : Digest :=
  .single plan.id plan.parameters.length plan.declaration.options

end ConstructorPlan

/-! ### Converters that fit -/

namespace ConverterGroup

/-- The bindings under which a converter produces a type, if it can. -/
def fit? (system : TypeSystem) (wanted : TypeTerm) (converter : Converter) :
    Option Substitution :=
  (system.bindings? converter.returnType converter.typeParameters wanted).filter fun bound =>
    system.isAssignable (converter.returnType.substitute bound) wanted

/-- The converters of a group that fit, each with its bindings. -/
def fitting (system : TypeSystem) (wanted : TypeTerm) (group : ConverterGroup) :
    List (Converter × Substitution) :=
  group.converters.filterMap fun converter =>
    (fit? system wanted converter).map fun bound => (converter, bound)

/-- The converters of a group that do not fit. -/
def misfits (system : TypeSystem) (wanted : TypeTerm) (group : ConverterGroup) :
    List Converter :=
  group.converters.filter fun converter => (fit? system wanted converter).isNone

/-- The plan of a converter that fits under the given bindings. -/
def plan (group : ConverterGroup) (numbering : Numbering) (siblings : List String)
    (converter : Converter) (bound : Substitution) : ConverterPlan :=
  let positional := bound.map fun (name, type) => (name, numbering.positional type)
  { converter
    declaringType := group.declaringType
    attributeLocation := group.location
    parameters := converter.parameters.map fun parameter =>
      ⟨parameter.name, parameter.type.substitute positional⟩
    free := (converter.typeParameters.filter fun declared =>
        (positional.lookup declared.name).isNone).map fun declared =>
      ⟨declared.name, declared.constraints.substitute positional⟩
    siblings }

/-- The plans of all converters of a group that fit. -/
def plans (system : TypeSystem) (numbering : Numbering) (wanted : TypeTerm)
    (group : ConverterGroup) : List ConverterPlan :=
  let fitting := group.fitting system wanted
  let displays := fitting.map (·.1.display)
  fitting.zipIdx.map fun ((converter, bound), place) =>
    group.plan numbering (displays.eraseIdx place) converter bound

/-- The findings about the converters that are not static. -/
def staticFindings (group : ConverterGroup) : List Diagnostic :=
  (group.converters.filter fun converter => !converter.isStatic).map fun converter =>
    { code := .converterNotStatic
      location := converter.primaryLocation
      arguments := [group.declaringType.display ++ "::" ++ converter.display] }

/-- The findings about converters that do not fit a parameter: one for the whole group if
none fits, and otherwise one for each. -/
def misfitFindings (system : TypeSystem) (parameter : Parameter) (group : ConverterGroup) :
    List Diagnostic :=
  if (group.fitting system parameter.type).isEmpty then
    [{ code := .noCompatibleConverter
       location := group.location
       arguments := [group.declaringType.display, parameter.name, parameter.type.display] }]
  else
    (group.misfits system parameter.type).map fun converter =>
      { code := .incompatibleConverter
        location := converter.primaryLocation
        additionalLocations := [group.location]
        arguments := [converter.display, parameter.name, parameter.type.display] }

end ConverterGroup

/-! ### Planning a constructor -/

namespace Declaration

/-- The ways to supply a parameter. -/
def supplies (system : TypeSystem) (naming : Naming) (numbering : Numbering)
    (parameter : Parameter) : List SupplyPlan :=
  match parameter.group with
  | some group => (group.plans system numbering parameter.type).map SupplyPlan.converted
  | none => [.direct (parameter.methodName.getD (naming.supplyName parameter.name))]

/-- The constraints of a type parameter as the target declares them, in positional form. Of
the placeholders only those up to the given number are written. -/
def constraintsOf (declaration : Declaration) (numbering : Numbering) (name : String)
    (through : Nat) : Constraints :=
  match declaration.target.declared? name with
  | some declared =>
    declared.constraints.substitute (Numbering.mk (numbering.names.take (through + 1))).substitution
  | none => {}

/-- The plan of one parameter. -/
def parameterPlan (system : TypeSystem) (naming : Naming) (id : Nat)
    (declaration : Declaration) (numbering : Numbering) (index : Nat) (parameter : Parameter)
    (positioned : Positioned) : ParameterPlan :=
  let supplies := supplies system naming numbering parameter
  { key := {
      constructor := id
      index
      name := parameter.name
      type := positioned.type
      methodNames := sortedNames (supplies.map SupplyPlan.name) }
    declaration
    parameter
    introduced := positioned.introduced.map fun (number, name) =>
      (number, name, declaration.constraintsOf numbering name number)
    supplies
    documentation := declaration.constructor.documentationOf parameter }

/-- The plan of a declared constructor. -/
def plan (system : TypeSystem) (naming : Naming) (id : Nat) (declaration : Declaration) :
    ConstructorPlan :=
  let parameters := declaration.constructor.parameters
  let (numbering, positioned) := positionalForm (parameters.map (·.type))
  { id
    declaration
    numbering
    parameters := (parameters.zip positioned).zipIdx.map fun ((parameter, form), index) =>
      parameterPlan system naming id declaration numbering index parameter form }

/-- The findings about the converters of a declared constructor. -/
def planFindings (system : TypeSystem) (declaration : Declaration) : List Diagnostic :=
  declaration.constructor.parameters.flatMap fun parameter =>
    match parameter.group with
    | some group => group.staticFindings ++ group.misfitFindings system parameter
    | none => []

end Declaration

/-! ### Name spaces -/

/-- The name spaces that a declaration draws on: those of its target, of its parameters,
and of the converters offered for them with their parameters. -/
def Declaration.spaces (declaration : Declaration) : List String :=
  declaration.target.space.toList ++
    declaration.constructor.parameters.flatMap fun parameter =>
      parameter.type.spaces ++
        match parameter.group with
        | some group =>
          group.declaringType.spaces ++ group.converters.flatMap fun converter =>
            converter.parameters.flatMap (·.type.spaces)
        | none => []

end StagedBuilder
