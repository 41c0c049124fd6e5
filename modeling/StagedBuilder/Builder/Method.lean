/-
This file holds the methods of a builder. A method either supplies one parameter
of a constructor, directly or through a converter, or it creates the target from
everything supplied before. What a method returns is the next step of the chain
or, at the end of a chain, a finished target.

Two methods collide if a caller cannot tell them apart, which the signature
decides: the name and the argument types with their type parameters erased.
-/

import StagedBuilder.Declaration.Basic

namespace StagedBuilder

/-! ### Results -/

/-- A finished target, and the constructors that it may come from. -/
structure Product where
  target : TypeTerm
  constructor : Nat
  candidates : List Nat
deriving DecidableEq, Inhabited

/-- What a call returns. -/
inductive Result where
  | product (value : Product)
  | step (index : Nat)
deriving DecidableEq, Inhabited

/-- The step that is returned, if one is. -/
def Result.step? : Result → Option Nat
  | .product _ => none
  | .step index => some index

/-! ### Methods -/

/-- An argument of a method. -/
structure Argument where
  name : String
  type : TypeTerm
  documentation : Option String := none
deriving DecidableEq, Inhabited

/-- The constructor's parameter that a method supplies. -/
structure Source where
  constructor : Nat
  index : Nat
  name : String
  type : TypeTerm
deriving DecidableEq, Inhabited

/-- The call of a converter that makes the parameter's value out of the arguments. -/
structure ConverterCall where
  declaringType : TypeTerm
  method : String
  arguments : List String
deriving DecidableEq, Inhabited

/-- A method that takes the value of a parameter as it is. -/
structure Supply where
  name : String
  source : Source
  arguments : List Argument
  typeParameters : List TypeParameter
  result : Result
  documentation : Option String
  priority : Int32
  location : Location
deriving DecidableEq, Inhabited

/-- A method that makes the value of a parameter by a converter. -/
structure Conversion where
  name : String
  source : Source
  arguments : List Argument
  typeParameters : List TypeParameter
  result : Result
  documentation : Option String
  priority : Int32
  converter : ConverterCall
  /-- The other converters of the group that fit, by their display forms. -/
  siblings : List String
  attributeLocation : Location
  converterLocations : List Location
deriving DecidableEq, Inhabited

/-- A method that builds the target from all that was supplied. -/
structure Creation where
  name : String
  product : Product
  typeParameters : List TypeParameter
  documentation : Option String
  location : Location
deriving DecidableEq, Inhabited

/-- A method of a builder. -/
inductive Method where
  | supply (method : Supply)
  | conversion (method : Conversion)
  | creation (method : Creation)
deriving DecidableEq, Inhabited

/-- What a caller tells methods apart by. -/
structure Signature where
  name : String
  /-- The argument types, type parameters erased. -/
  arguments : List TypeTerm
deriving DecidableEq, Inhabited

/-- Signatures compare by name, then by argument types from left to right. -/
def Signature.order (left right : Signature) : Ordering :=
  (compare left.name right.name).then (TypeTerm.orderAll left.arguments right.arguments)

namespace Method

/-! ### Parts of a method -/

def name : Method → String
  | .supply method => method.name
  | .conversion method => method.name
  | .creation method => method.name

/-- The parameter that the method supplies. -/
def source? : Method → Option Source
  | .supply method => some method.source
  | .conversion method => some method.source
  | .creation _ => none

def arguments : Method → List Argument
  | .supply method => method.arguments
  | .conversion method => method.arguments
  | .creation _ => []

def typeParameters : Method → List TypeParameter
  | .supply method => method.typeParameters
  | .conversion method => method.typeParameters
  | .creation method => method.typeParameters

def result : Method → Result
  | .supply method => method.result
  | .conversion method => method.result
  | .creation method => .product method.product

/-- The step that a call returns, if it does. -/
def step? (method : Method) : Option Nat := method.result.step?

/-- The method with the steps it returns numbered anew. -/
def mapStep (renumber : Nat → Nat) : Method → Method
  | .supply method => .supply { method with result := renumbered method.result }
  | .conversion method => .conversion { method with result := renumbered method.result }
  | .creation method => .creation method
where
  renumbered : Result → Result
    | .product value => .product value
    | .step index => .step (renumber index)

def documentation : Method → Option String
  | .supply method => method.documentation
  | .conversion method => method.documentation
  | .creation method => method.documentation

/-- How much the method is wanted if it collides; a creation has no say. -/
def priority : Method → Int32
  | .supply method => method.priority
  | .conversion method => method.priority
  | .creation _ => 0

def location : Method → Location
  | .supply method => method.location
  | .conversion method => method.converterLocations.head?.getD {}
  | .creation method => method.location

/-- The order of the kinds: supplies before conversions before creations. -/
def kindRank : Method → Nat
  | .supply _ => 0
  | .conversion _ => 1
  | .creation _ => 2

/-- Whether the method goes through a converter. -/
def isConversion : Method → Bool
  | .conversion _ => true
  | _ => false

/-! ### Signatures -/

/-- What a caller tells the method apart by. -/
def signature (method : Method) : Signature :=
  ⟨method.name, method.arguments.map (·.type.erased)⟩

def display (method : Method) : String :=
  method.name ++ "(" ++ displayParameters (method.arguments.map fun a => (a.name, a.type)) ++ ")"

end Method

end StagedBuilder
