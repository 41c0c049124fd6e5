/-
This file says when a value of one type may stand where another type is
expected. The facts are a table of widenings, each from a qualified name to a
type. A type fits itself, and a named type fits every named type that a chain of
widenings leads to, each link of which starts at the qualified name of the type
before it. Arguments are invariant: a chain compares its last type as a whole.
A type parameter fits only itself.

A type system also says which arguments of a type count as positions. Usually
all do; in a tagged system the first argument of a type is a tag and no position.
-/

import StagedBuilder.Type.Basic
import StagedBuilder.Reachability

namespace StagedBuilder

/-- Which arguments of a type are positions that two types can be compared at. -/
inductive Positions where
  | all
  | afterTag
deriving DecidableEq, Inhabited

def Positions.of (positions : Positions) (arguments : List TypeTerm) : List TypeTerm :=
  match positions with
  | .all => arguments
  | .afterTag => arguments.tail

/-- What is known about types beyond their shape. -/
structure TypeSystem where
  /-- The widenings: whatever has the qualified name can be used as the type. -/
  widenings : List (String × TypeTerm) := []
  positions : Positions := .all
deriving DecidableEq, Inhabited

namespace TypeSystem

/-- The types to which a qualified name widens directly. -/
def widened (system : TypeSystem) (name : String) : List TypeTerm :=
  (system.widenings.filter (·.1 = name)).map (·.2)

/-- The widenings between qualified names. -/
def nameEdges (system : TypeSystem) : List (String × String) :=
  system.widenings.map fun widening => (widening.1, widening.2.qualifiedName)

/-- Whether a chain of at least one widening leads from a qualified name to a type. -/
def widensTo (system : TypeSystem) (name : String) (target : TypeTerm) : Bool :=
  (Reachability.reachableFrom system.nameEdges name).any fun reached =>
    (system.widened reached).contains target

/-- Whether a value of the source type may be used where the target type is expected. -/
def isAssignable (system : TypeSystem) (source target : TypeTerm) : Bool :=
  source = target
    || (!source.isParameter && !target.isParameter
      && system.widensTo source.qualifiedName target)

end TypeSystem

end StagedBuilder
