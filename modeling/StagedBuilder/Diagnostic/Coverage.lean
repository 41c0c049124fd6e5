/-
This file keeps account of which declared constructors are reached. Constructors
are known by number. A constructor that is declared and not reached is a finding
at the constructor, with the mark that declared it, if known, as a further place.
The findings come in the order of the numbers.
-/

import StagedBuilder.Diagnostic.Basic

namespace StagedBuilder

/-- A constructor that a chain of calls should end at. -/
structure Expected where
  display : String
  location : Location
  attributeLocation : Option Location
deriving DecidableEq, Inhabited

/-- The declared constructors by increasing number, and the numbers of the reached ones. -/
structure Coverage where
  declared : List (Nat × Expected) := []
  reached : List Nat := []
deriving DecidableEq, Inhabited

namespace Coverage

/-- Puts a constructor at its place by number, instead of the one of the same number. -/
def putExpected (id : Nat) (expected : Expected) : List (Nat × Expected) → List (Nat × Expected)
  | [] => [(id, expected)]
  | (first, held) :: rest =>
    if id < first then (id, expected) :: (first, held) :: rest
    else if first < id then (first, held) :: putExpected id expected rest
    else (id, expected) :: rest

def declare (coverage : Coverage) (id : Nat) (expected : Expected) : Coverage :=
  { coverage with declared := putExpected id expected coverage.declared }

/-- Records that chains of calls end at the given constructors. -/
def reach (coverage : Coverage) (ids : List Nat) : Coverage :=
  { coverage with reached := coverage.reached ++ ids }

def isReached (coverage : Coverage) (id : Nat) : Bool := coverage.reached.contains id

/-- The constructors that are declared and not reached, by increasing number. -/
def missing (coverage : Coverage) : List (Nat × Expected) :=
  coverage.declared.filter fun entry => !coverage.isReached entry.1

/-- One finding for each constructor that is not reached. -/
def diagnostics (coverage : Coverage) : List Diagnostic :=
  coverage.missing.map fun (_, expected) =>
    { code := .unreachableConstructor
      location := expected.location
      additionalLocations := expected.attributeLocation.toList
      arguments := [expected.display] }

end Coverage

end StagedBuilder
