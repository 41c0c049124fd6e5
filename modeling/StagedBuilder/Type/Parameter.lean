/-
This file holds declared type parameters and the constraints on them. A
constraint is one of three flags, or a bound, which is a type that an argument
has to fit. Bounds may mention type parameters, so a substitution passes through
them; the flags are left alone.
-/

import StagedBuilder.Type.Basic

namespace StagedBuilder

/-- What a type parameter demands of its argument. -/
structure Constraints where
  valueType : Bool := false
  referenceType : Bool := false
  defaultConstructor : Bool := false
  bounds : List TypeTerm := []
deriving DecidableEq, Inhabited

namespace Constraints

def isEmpty (constraints : Constraints) : Bool :=
  !constraints.valueType && !constraints.referenceType && !constraints.defaultConstructor
    && constraints.bounds.isEmpty

/-- The constraints with the substitution carried out in every bound. -/
def substitute (constraints : Constraints) (substitution : Substitution) : Constraints :=
  { constraints with bounds := constraints.bounds.map (·.substitute substitution) }

end Constraints

/-- A declared type parameter. -/
structure TypeParameter where
  name : String
  constraints : Constraints := {}
deriving DecidableEq, Inhabited

namespace TypeParameter

def asType (declared : TypeParameter) : TypeTerm := .parameter declared.name

/-- The declarations that neither the surroundings nor an earlier declaration of the list
make already. Only names count. -/
def undeclared (ambient : List TypeParameter) (declarations : List TypeParameter) :
    List TypeParameter :=
  declarations.foldl
    (fun kept declared =>
      if (ambient ++ kept).any (·.name == declared.name) then kept else kept ++ [declared])
    []

end TypeParameter

end StagedBuilder
