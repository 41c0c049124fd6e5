/-
This file reads hexadecimal digits, of which the letters may be of either case.
-/

namespace StagedBuilder

/-- The value of a hexadecimal digit. -/
def hexValue? (character : Char) : Option Nat :=
  if '0' ≤ character ∧ character ≤ '9' then some (character.toNat - '0'.toNat)
  else if 'a' ≤ character ∧ character ≤ 'f' then some (character.toNat - 'a'.toNat + 10)
  else if 'A' ≤ character ∧ character ≤ 'F' then some (character.toNat - 'A'.toNat + 10)
  else none

/-- The number that hexadecimal digits write; characters that are no digits count as zero. -/
def hexNumber (digits : List Char) : Nat :=
  digits.foldl (fun value digit => value * 16 + (hexValue? digit).getD 0) 0

end StagedBuilder
