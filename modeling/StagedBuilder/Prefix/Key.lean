/-
This file holds the keys of the prefix tree that a builder is made from. A key
stands for one parameter of one constructor: its type in positional form and the
names of the methods that can supply it. Two keys are taken as equal if the types
agree and there is a method name common to both, because a caller could then not
tell the two calls apart. A key without method names equals none, not even
itself, and equality is not transitive.
-/

import StagedBuilder.Type.Json

namespace StagedBuilder

/-- One parameter of one constructor as the prefix tree sees it. -/
structure EdgeKey where
  /-- The number of the constructor. -/
  constructor : Nat
  index : Nat
  name : String
  /-- The type in positional form. -/
  type : TypeTerm
  /-- The names of the methods that supply the parameter, each once, in order. -/
  methodNames : List String
deriving DecidableEq, Inhabited

namespace EdgeKey

def overlaps (left right : EdgeKey) : Bool :=
  left.methodNames.any right.methodNames.contains

/-- Whether two keys lead the same way. -/
def meets (left right : EdgeKey) : Bool := left.type = right.type && left.overlaps right

def toJson (key : EdgeKey) : Json :=
  .object [
    ("constructor", .ofNat key.constructor),
    ("index", .ofNat key.index),
    ("name", .string key.name),
    ("ty", key.type.toJson),
    ("method_names", .ofList .string key.methodNames)]

end EdgeKey

end StagedBuilder
