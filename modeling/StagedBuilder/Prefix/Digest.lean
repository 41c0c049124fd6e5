/-
This file sums up constructors. A digest names one representative constructor
with its number of parameters, lists all candidate constructors by increasing
number, and holds what any of them asks for. Merging a digest into another, at a
node of a given depth, adds its candidates and options; the representative
changes only if the new one has as many parameters as the node is deep and the
old one has not, that is, if the new one ends at the node and the old one goes on.
-/

import StagedBuilder.Declaration.Json

namespace StagedBuilder

/-- Puts a number at its place in an increasing list, unless the list holds it. -/
def insertCandidate (candidate : Nat) : List Nat → List Nat
  | [] => [candidate]
  | first :: rest =>
    if candidate < first then candidate :: first :: rest
    else if first < candidate then first :: insertCandidate candidate rest
    else first :: rest

/-- Puts several numbers at their places in an increasing list. -/
def insertCandidates (candidates : List Nat) (numbers : List Nat) : List Nat :=
  candidates.foldl (fun kept candidate => insertCandidate candidate kept) numbers

/-! ### Digests -/

/-- What is known about the constructors that end at or below a node. -/
structure Digest where
  /-- The representative constructor. -/
  constructor : Nat
  /-- The number of parameters of the representative. -/
  parameterCount : Nat
  candidates : List Nat
  options : Options := {}
deriving DecidableEq, Inhabited

namespace Digest

/-- The digest of a single constructor. -/
def single (constructor parameterCount : Nat) (options : Options) : Digest :=
  { constructor, parameterCount, candidates := [constructor], options }

/-- Adds another digest at a node of the given depth. -/
def merge (depth : Nat) (digest other : Digest) : Digest :=
  let arrives := other.parameterCount = depth ∧ digest.parameterCount ≠ depth
  { constructor := if arrives then other.constructor else digest.constructor
    parameterCount := if arrives then other.parameterCount else digest.parameterCount
    candidates := insertCandidates other.candidates digest.candidates
    options := digest.options.union other.options }

/-- The digest of several, merged one after another; there is none of nothing. -/
def mergeAll? (depth : Nat) : List Digest → Option Digest
  | [] => none
  | first :: rest => some (rest.foldl (merge depth) first)

def toJson (digest : Digest) : Json :=
  .object [
    ("constructor", .ofNat digest.constructor),
    ("parameter_count", .ofNat digest.parameterCount),
    ("candidate_constructors", .ofList .ofNat digest.candidates),
    ("options", digest.options.toJson)]

end Digest

end StagedBuilder
