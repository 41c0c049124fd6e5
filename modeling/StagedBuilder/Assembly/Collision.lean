/-
This file resolves collisions. Of all methods proposed for one place those with
the same signature collide, and only one of them survives: the one with the
highest priority; among equals a supply before a conversion before a creation;
then the one whose origin comes first by name; and in the end the one that was
proposed first. The survivors stand in the order in which their signatures were
first proposed, and nothing that was proposed is lost from sight: each survivor
comes with the candidates it displaces.
-/

import StagedBuilder.Builder.Method

namespace StagedBuilder

/-- A method proposed for a place. -/
structure Candidate where
  method : Method
  /-- Where the method comes from: the target and the parameter, the converter, or the target
  alone. -/
  origin : String
  /-- When the method was proposed. -/
  order : Nat
deriving DecidableEq, Inhabited

namespace Candidate

/-- The order in which candidates of one signature are preferred. -/
def preference (left right : Candidate) : Ordering :=
  ((((compare right.method.priority.toInt left.method.priority.toInt).then
    (compare left.method.kindRank right.method.kindRank)).then
    (compare left.method.name right.method.name)).then
    (compare left.origin right.origin)).then
    (compare left.order right.order)

/-- Whether the left candidate is preferred, or neither is. -/
def isPreferred (left right : Candidate) : Bool := (preference left right).isLE

/-- The candidates in the order in which they are listed, counted from zero. -/
def renumber (candidates : List Candidate) : List Candidate :=
  candidates.zipIdx.map fun (candidate, order) => { candidate with order }

end Candidate

/-- The candidates of one signature: the survivor and those it displaces. -/
structure Collision where
  survivor : Candidate
  displaced : List Candidate
deriving DecidableEq, Inhabited

namespace Collision

/-- The collision of several candidates of one signature; there is none of nothing. -/
def among? (candidates : List Candidate) : Option Collision :=
  match candidates.mergeSort Candidate.isPreferred with
  | [] => none
  | survivor :: displaced => some { survivor, displaced }

/-- Whether a converter is among the displaced. -/
def displacesConversion (collision : Collision) : Bool :=
  collision.displaced.any (·.method.isConversion)

/-- The collisions among the candidates, one for each signature, in the order in which the
signatures first appear. -/
def resolve (candidates : List Candidate) : List Collision :=
  let signed := candidates.map fun candidate => (candidate.method.signature, candidate)
  (signed.map (·.1)).eraseDups.filterMap fun signature =>
    among? ((signed.filter (·.1 = signature)).map (·.2))

/-- The candidates that survive, in the order in which their signatures first appear. -/
def survivors (collisions : List Collision) : List Candidate := collisions.map (·.survivor)

end Collision

end StagedBuilder
