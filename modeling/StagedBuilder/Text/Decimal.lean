/-
This file reads natural numbers written in decimal digits. A numeral is a
non-empty run of the digits `0` to `9`; leading zeros are allowed and change
nothing. A bounded reading also refuses numerals whose value does not fit a
machine word of the given width, and allows one leading plus sign.
-/

namespace StagedBuilder.Decimal

def isDigit (character : Char) : Bool := '0' ≤ character && character ≤ '9'

/-- The value of a digit, and of any other character a number nobody asks for. -/
def digitValue (character : Char) : Nat := character.toNat - '0'.toNat

/-- The value of a run of digits, most significant first. -/
def valueOf (digits : List Char) : Nat :=
  digits.foldl (fun value digit => value * 10 + digitValue digit) 0

def read? (characters : List Char) : Option Nat :=
  if characters.isEmpty || !characters.all isDigit then none else some (valueOf characters)

/-- Reads a numeral below `bound`, with or without a plus sign in front. -/
def readBelow? (bound : Nat) (characters : List Char) : Option Nat :=
  let numeral := match characters with
    | '+' :: rest => rest
    | other => other
  (read? numeral).filter (· < bound)

end StagedBuilder.Decimal
