/-
This file takes texts apart at a separator. There is always one part more than
there are separators, so that an empty text has one part, which is empty.
-/

namespace StagedBuilder

/-- The parts of a text before, between and after the separators. -/
def partsAt (separator : Char) : List Char → List (List Char)
  | [] => [[]]
  | character :: rest =>
    if character = separator then [] :: partsAt separator rest
    else
      match partsAt separator rest with
      | [] => [[character]]
      | part :: parts => (character :: part) :: parts

end StagedBuilder
