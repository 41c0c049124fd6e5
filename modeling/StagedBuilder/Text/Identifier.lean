/-
This file says what an identifier is made of. The names of create methods are held
to a narrow rule: ASCII letters, digits and underscores, no digit first, and not
a lone underscore. Type expressions follow the wide rule of the Unicode standard,
under which letters of every script count.
-/

import StagedBuilder.Text.IdentifierRanges

namespace StagedBuilder.Identifier

/-! ### ASCII letters and digits -/

def isLetter (character : Char) : Bool :=
  ('a' ≤ character && character ≤ 'z') || ('A' ≤ character && character ≤ 'Z')

def isDigit (character : Char) : Bool := '0' ≤ character && character ≤ '9'

/-! ### The narrow rule -/

/-- Whether a name may be given to a create method. -/
def isValid (name : String) : Bool :=
  match name.toList with
  | [] => false
  | ['_'] => false
  | first :: rest =>
    (isLetter first || first = '_')
      && rest.all fun character => isLetter character || isDigit character || character = '_'

/-! ### The wide rule -/

/-- Whether a code point lies in one of the ranges. -/
def within (ranges : List (Nat × Nat)) (code : Nat) : Bool :=
  ranges.any fun (first, last) => first ≤ code && code ≤ last

/-- Whether a character may begin an identifier; the underscore may. -/
def isStart (character : Char) : Bool :=
  if character.toNat < 128 then isLetter character || character = '_'
  else within IdentifierRanges.start character.toNat

/-- Whether a character may go on with an identifier. -/
def isContinuation (character : Char) : Bool :=
  if character.toNat < 128 then isLetter character || isDigit character || character = '_'
  else
    within IdentifierRanges.start character.toNat
      || within IdentifierRanges.continuation character.toNat

end StagedBuilder.Identifier
