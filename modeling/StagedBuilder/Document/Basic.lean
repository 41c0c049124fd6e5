/-
This file holds documents, the form in which roots and constructors are handed
in. A document says the same as declarations do, with type expressions in place of
types: whether a name in an expression is a type parameter follows from where the
expression stands.

Each entry keeps what needs no further reading as it is, and the type expressions
beside it. So an entry and what is declared by it share everything but the types.
-/

import StagedBuilder.Declaration.Basic

namespace StagedBuilder.Document

/-- A type parameter of a document, with its bounds as type expressions. -/
structure TypeParameterEntry where
  name : String
  /-- The constraints that are not bounds. -/
  constraints : Constraints := {}
  bounds : List String := []

/-- A root of a document. -/
structure RootEntry where
  /-- The root without type parameters. -/
  root : Root
  typeParameters : List TypeParameterEntry := []

/-- The target of a constructor of a document. -/
structure TargetEntry where
  /-- The target without type parameters. -/
  target : Target
  typeParameters : List TypeParameterEntry := []

/-- A converter of a document. -/
structure ConverterEntry where
  name : String
  typeParameters : List TypeParameterEntry := []
  /-- Names and type expressions of the parameters. -/
  parameters : List (String × String) := []
  returnType : String
  isStatic : Bool := true
  priority : Int32 := 0
  documentation : Option Documentation := none
  locations : List Location := []

/-- A group of converters of a document. -/
structure GroupEntry where
  declaringType : String
  converters : List ConverterEntry
  location : Location := {}

/-- A parameter of a constructor of a document. -/
structure ParameterEntry where
  name : String
  type : String
  methodName : Option String := none
  priority : Int32 := 0
  group : Option GroupEntry := none
  member : Option String := none
  documentation : Option String := none
  location : Location := {}

/-- A constructor of a document, marked as a way to build its target from a root. -/
structure ConstructorEntry where
  /-- The qualified name of the root. -/
  root : String
  target : TargetEntry
  parameters : List ParameterEntry := []
  options : Options := {}
  createMethodName : Option String := none
  documentation : Option Documentation := none
  location : Location := {}
  attributeLocation : Location := {}

end Document

/-- Roots, and constructors that refer to them. -/
structure Document where
  roots : List Document.RootEntry := []
  constructors : List Document.ConstructorEntry := []

end StagedBuilder
