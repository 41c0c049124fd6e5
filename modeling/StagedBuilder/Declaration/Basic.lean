/-
This file holds what the builder is made from: the declarations. A declaration
marks a constructor of some target type as a way to build that type, starting
from a factory root. Each parameter of the constructor is supplied by one call of
the builder, either directly or through one of a group of converters, which are
methods that make the parameter's value out of other values.

All of it is plain data that does not change while a builder is worked out.
-/

import StagedBuilder.Declaration.Location
import StagedBuilder.Type.Parameter

namespace StagedBuilder

/-! ### Kinds of types and their visibility -/

/-- The kinds of types that can be declared. -/
inductive DeclaredKind where
  | classType
  | structType
  | interfaceType
  | recordType
deriving DecidableEq, Inhabited

/-- From where a type can be used. -/
inductive Accessibility where
  | publicAccess
  | internalAccess
  | protectedAccess
  | privateAccess
deriving DecidableEq, Inhabited

/-! ### Roots and targets -/

/-- The type that the first methods of a builder are added to. -/
structure Root where
  name : String := ""
  space : Option String := none
  typeParameters : List TypeParameter := []
  /-- Whether the type is marked as a factory. -/
  hasMarker : Bool := false
  isStatic : Bool := false
  isRecord : Bool := false
  kind : DeclaredKind := .classType
  accessibility : Accessibility := .publicAccess
  location : Location := {}
deriving DecidableEq, Inhabited

namespace Root

/-- A marked root, otherwise bare. -/
def marked (space : Option String) (name : String) : Root :=
  { name, space, hasMarker := true }

def asType (root : Root) : TypeTerm :=
  .qualified root.space root.name (root.typeParameters.map TypeParameter.asType)

def qualifiedName (root : Root) : String := root.asType.qualifiedName

end Root

/-- The type that declares a constructor and is built by it. -/
structure Target where
  name : String := ""
  space : Option String := none
  typeParameters : List TypeParameter := []
  isPartial : Bool := false
  isStatic : Bool := false
  isSealed : Bool := false
  isRecord : Bool := false
  kind : DeclaredKind := .classType
  accessibility : Accessibility := .publicAccess
  location : Location := {}
deriving DecidableEq, Inhabited

namespace Target

def bare (space : Option String) (name : String) : Target := { name, space }

def qualifiedName (target : Target) : String :=
  (TypeTerm.qualified target.space target.name []).qualifiedName

def asType (target : Target) : TypeTerm :=
  .qualified target.space target.name (target.typeParameters.map TypeParameter.asType)

/-- Whether methods may be added to the target itself, so that a value of it can serve as a
step: it is declared in parts, has instances and is not sealed. -/
def acceptsMembers (target : Target) : Bool :=
  target.isPartial && !target.isStatic && !target.isSealed

/-- The declaration of one of the target's type parameters. -/
def declared? (target : Target) (name : String) : Option TypeParameter :=
  target.typeParameters.find? (·.name == name)

end Target

/-! ### Documentation -/

/-- A summary and a text for each parameter that has one. -/
structure Documentation where
  summary : Option String := none
  parameters : Dictionary String := .empty
deriving DecidableEq, Inhabited

/-! ### Converters -/

/-- A parameter of a converter. -/
structure ConverterParameter where
  name : String
  type : TypeTerm
deriving DecidableEq, Inhabited

/-- A list of named and typed parameters, as signatures show it. -/
def displayParameters (parameters : List (String × TypeTerm)) : String :=
  ", ".intercalate (parameters.map fun (name, type) => name ++ ": " ++ type.display)

/-- A method that makes a parameter's value out of other values. -/
structure Converter where
  name : String
  typeParameters : List TypeParameter := []
  parameters : List ConverterParameter := []
  returnType : TypeTerm
  isStatic : Bool := true
  priority : Int32 := 0
  documentation : Option Documentation := none
  /-- The places where the converter is declared; declarations in parts have several. -/
  locations : List Location := []
deriving DecidableEq, Inhabited

namespace Converter

/-- The first place where the converter is declared. -/
def primaryLocation (converter : Converter) : Location := converter.locations.head?.getD {}

/-- Name, parameters and return type. -/
def display (converter : Converter) : String :=
  converter.name ++ "(" ++ displayParameters (converter.parameters.map fun p => (p.name, p.type))
    ++ ") -> " ++ converter.returnType.display

end Converter

/-- The converters of one type, offered for a parameter. -/
structure ConverterGroup where
  declaringType : TypeTerm
  converters : List Converter
  /-- The place where the parameter refers to the group. -/
  location : Location := {}
deriving DecidableEq, Inhabited

/-! ### Constructors -/

/-- A parameter of a constructor. -/
structure Parameter where
  name : String
  type : TypeTerm
  /-- The name of the method that supplies the parameter, if it is not the usual one. -/
  methodName : Option String := none
  priority : Int32 := 0
  group : Option ConverterGroup := none
  /-- The member of the target that holds the value, if it is not the usual one. -/
  member : Option String := none
  documentation : Option String := none
  location : Location := {}
deriving DecidableEq, Inhabited

/-- A constructor and the type it builds. -/
structure Constructor where
  target : Target
  parameters : List Parameter
  documentation : Option Documentation := none
  location : Location := {}
deriving DecidableEq, Inhabited

namespace Constructor

def display (constructor : Constructor) : String :=
  constructor.target.qualifiedName ++ "("
    ++ displayParameters (constructor.parameters.map fun p => (p.name, p.type)) ++ ")"

/-- The text about a parameter: its own, or else the one the constructor has for it. -/
def documentationOf (constructor : Constructor) (parameter : Parameter) : Option String :=
  parameter.documentation <|>
    constructor.documentation.bind fun texts => texts.parameters.get? parameter.name

end Constructor

/-! ### Declarations -/

/-- What is asked for when a constructor is marked. -/
structure Options where
  /-- The last call of the chain builds the target; there is no method of its own for it. -/
  noCreateMethod : Bool := false
  /-- The method that builds the target has a name of its own. -/
  customCreateMethodName : Bool := false
deriving DecidableEq, Inhabited

/-- What either of two options asks for. -/
def Options.union (left right : Options) : Options :=
  ⟨left.noCreateMethod || right.noCreateMethod,
    left.customCreateMethodName || right.customCreateMethodName⟩

/-- A constructor marked as a way to build its target from a root. -/
structure Declaration where
  constructor : Constructor
  /-- The qualified name of the root. -/
  root : String
  options : Options := {}
  createMethodName : Option String := none
  /-- The place of the mark. -/
  attributeLocation : Location := {}
deriving DecidableEq, Inhabited

/-- The type that a declaration is about. -/
def Declaration.target (declaration : Declaration) : Target := declaration.constructor.target

end StagedBuilder
