/-
This file scans the literals of type expressions: texts, characters and bytes
between quotes, and numbers. Each may have a suffix, which is an identifier right
after it.

Texts come in three sorts. Plain ones hold any character; those of bytes hold ASCII
alone, with escapes for all other bytes; those of the third sort end with a zero of
their own and therefore hold none. A raw text has no escapes and ends at a quote with
as many hash marks as it started with. No text holds a carriage return that no line
feed follows.
-/

import StagedBuilder.Text.Hexadecimal
import StagedBuilder.Text.Identifier

namespace StagedBuilder.TypeExpression

/-- A literal, as far as it is of interest. -/
inductive Literal where
  /-- A plain text, raw or not. -/
  | text
  /-- A number, as it is written. -/
  | number (written : List Char)
  /-- Any other literal. -/
  | unspecified
deriving DecidableEq, Inhabited

def startsWith (characters : List Char) (start : String) : Bool :=
  start.toList.isPrefixOf characters

/-- An identifier at the front. -/
def identifier? (characters : List Char) : Option (List Char × List Char) :=
  match characters with
  | first :: rest =>
    if Identifier.isStart first then
      some (first :: rest.takeWhile Identifier.isContinuation,
        rest.dropWhile Identifier.isContinuation)
    else none
  | [] => none

namespace Literal

/-! ### Texts -/

/-- The sorts of texts. -/
inductive TextSort where
  | plain
  | bytes
  | zeroEnded
deriving DecidableEq

/-- Whether a text of the sort may hold a character as it is. -/
def TextSort.holds (sort : TextSort) (character : Char) : Bool :=
  match sort with
  | .plain => true
  | .bytes => character.toNat < 128
  | .zeroEnded => character ≠ '\x00'

/-- The characters that stand for something after a backslash. -/
def TextSort.isSimpleEscape (sort : TextSort) (character : Char) : Bool :=
  ['n', 'r', 't', '\\', '\'', '"'].contains character || (character = '0' && sort ≠ .zeroEnded)

/-- Whether a text of the sort may hold the code of two hexadecimal digits. -/
def TextSort.holdsCode (sort : TextSort) (high low : Nat) : Bool :=
  match sort with
  | .plain => high < 8
  | .bytes => true
  | .zeroEnded => high ≠ 0 || low ≠ 0

/-- Whether a number of hexadecimal digits names a character that a text of the sort may
hold. -/
def namesCharacter (sort : TextSort) (digits : List Char) : Bool :=
  let significant := digits.filter (· ≠ '_')
  let value := hexNumber significant
  significant.all (fun digit => (hexValue? digit).isSome) && significant ≠ []
    && digits.head? ≠ some '_' && significant.length ≤ 6 && value.isValidChar
    && (sort ≠ .zeroEnded || value ≠ 0)

/-- Where a scanner stands inside quotes. -/
inductive QuoteState where
  | plain
  | escape
  | carriage
  | hexFirst
  | hexSecond (high : Nat)
  | braceExpected
  | codePoint (digits : List Char)

/-- What follows the closing quote of a text that is not raw. -/
def afterQuote? (sort : TextSort) : QuoteState → List Char → Option (List Char)
  | _, [] => none
  | .plain, character :: rest =>
    if character = '"' then some rest
    else if character = '\\' then afterQuote? sort .escape rest
    else if character = '\r' then afterQuote? sort .carriage rest
    else if sort.holds character then afterQuote? sort .plain rest
    else none
  | .escape, character :: rest =>
    if character = 'x' then afterQuote? sort .hexFirst rest
    else if character = 'u' ∧ sort ≠ .bytes then afterQuote? sort .braceExpected rest
    else if character = '\r' then afterQuote? sort .carriage rest
    else if sort.isSimpleEscape character ∨ character = '\n' then afterQuote? sort .plain rest
    else none
  | .carriage, character :: rest =>
    if character = '\n' then afterQuote? sort .plain rest else none
  | .hexFirst, character :: rest =>
    match hexValue? character with
    | some high => afterQuote? sort (.hexSecond high) rest
    | none => none
  | .hexSecond high, character :: rest =>
    match hexValue? character with
    | some low => if sort.holdsCode high low then afterQuote? sort .plain rest else none
    | none => none
  | .braceExpected, character :: rest =>
    if character = '\x7b' then afterQuote? sort (.codePoint []) rest else none
  | .codePoint digits, character :: rest =>
    if character = '\x7d' then
      if namesCharacter sort digits then afterQuote? sort .plain rest else none
    else afterQuote? sort (.codePoint (digits ++ [character])) rest

/-- What follows the closing quote of a raw text with a number of hash marks. -/
def afterRawQuote? (sort : TextSort) (hashes : Nat) : List Char → Option (List Char)
  | [] => none
  | character :: rest =>
    if character = '"' ∧ (List.replicate hashes '#').isPrefixOf rest then
      some (rest.drop hashes)
    else if character = '\r' ∧ rest.head? ≠ some '\n' then none
    else if sort.holds character then afterRawQuote? sort hashes rest
    else none

/-- What follows a raw text, of which the letters in front are read already. -/
def afterRaw? (sort : TextSort) (characters : List Char) : Option (List Char) :=
  let hashes := (characters.takeWhile (· = '#')).length
  match characters.drop hashes with
  | '"' :: rest => if hashes < 256 then afterRawQuote? sort hashes rest else none
  | _ => none

/-- What follows a character in single quotes, of which the first quote is read already. -/
def afterCharacter? (sort : TextSort) : List Char → Option (List Char)
  | '\\' :: 'x' :: first :: second :: '\'' :: rest => do
    let high ← hexValue? first
    let low ← hexValue? second
    if sort.holdsCode high low then some rest else none
  | '\\' :: 'u' :: '\x7b' :: rest =>
    if sort = .bytes then none
    else
      match rest.dropWhile (· ≠ '\x7d') with
      | '\x7d' :: '\'' :: after =>
        if namesCharacter sort (rest.takeWhile (· ≠ '\x7d')) then some after else none
      | _ => none
  | '\\' :: escape :: '\'' :: rest => if sort.isSimpleEscape escape then some rest else none
  | character :: '\'' :: rest =>
    if character = '\\' ∨ !sort.holds character then none else some rest
  | _ => none

/-- What follows the suffix of a literal, which is an identifier and may be missing. -/
def afterSuffix (characters : List Char) : List Char :=
  match identifier? characters with
  | some (_, rest) => rest
  | none => characters

def afterText? : List Char → Option (List Char)
  | '"' :: rest => (afterQuote? .plain .plain rest).map afterSuffix
  | 'r' :: rest => (afterRaw? .plain rest).map afterSuffix
  | _ => none

def afterQuoted? (characters : List Char) : Option (List Char) :=
  let found := match characters with
    | 'b' :: '"' :: rest => afterQuote? .bytes .plain rest
    | 'b' :: 'r' :: rest => afterRaw? .bytes rest
    | 'b' :: '\'' :: rest => afterCharacter? .bytes rest
    | 'c' :: '"' :: rest => afterQuote? .zeroEnded .plain rest
    | 'c' :: 'r' :: rest => afterRaw? .zeroEnded rest
    | '\'' :: rest => afterCharacter? .plain rest
    | _ => none
  found.map afterSuffix

/-! ### Where numbers end -/

/-- Whether a character is a decimal digit or an underscore. -/
def isDigitOrBreak (character : Char) : Bool := Identifier.isDigit character || character = '_'

/-- What follows an exponent after its mark: underscores, at most one sign, and digits, one at
least. -/
def afterExponent? : Bool → Bool → List Char → Option (List Char)
  | _, hasDigit, [] => if hasDigit then some [] else none
  | hasSign, hasDigit, character :: rest =>
    if Identifier.isDigit character then afterExponent? hasSign true rest
    else if character = '_' then afterExponent? hasSign hasDigit rest
    else if hasDigit then some (character :: rest)
    else if (character = '+' ∨ character = '-') ∧ !hasSign then afterExponent? true false rest
    else none

def afterMarkedExponent? : List Char → Option (List Char)
  | 'e' :: rest => afterExponent? false false rest
  | 'E' :: rest => afterExponent? false false rest
  | _ => none

/-- What follows a number with a point or an exponent, without its suffix. A point belongs to
the number unless a second point or a word comes right after. -/
def afterDecimal? (characters : List Char) : Option (List Char) :=
  match characters.dropWhile isDigitOrBreak with
  | '.' :: fraction =>
    let wordFollows := match fraction with
      | next :: _ => next = '.' || Identifier.isStart next
      | [] => false
    if wordFollows then none
    else
      let rest := fraction.dropWhile isDigitOrBreak
      some ((afterMarkedExponent? rest).getD rest)
  | rest => afterMarkedExponent? rest

/-- What follows the digits of a whole number in a base, after the mark of the base. -/
def afterDigits? (base : Nat) (characters : List Char) : Option (List Char) :=
  let isPart := fun character =>
    character = '_' || (hexValue? character).any fun value => value < 10 || base = 16
  let run := characters.takeWhile isPart
  let digits := run.filter (· ≠ '_')
  if digits.isEmpty || digits.any (fun digit => base ≤ (hexValue? digit).getD 0) then none
  else some (characters.dropWhile isPart)

/-- What follows a whole number, without its suffix. -/
def afterWhole? : List Char → Option (List Char)
  | '0' :: 'x' :: digits => afterDigits? 16 digits
  | '0' :: 'o' :: digits => afterDigits? 8 digits
  | '0' :: 'b' :: digits => afterDigits? 2 digits
  | characters => afterDigits? 10 characters

/-- What follows the suffix of a number; no further part of a word may follow. -/
def afterNumberSuffix? (characters : List Char) : Option (List Char) :=
  let after := afterSuffix characters
  if (after.head?.map Identifier.isContinuation).getD false then none else some after

def afterNumber? (characters : List Char) : Option (List Char) :=
  if (characters.head?.map Identifier.isDigit).getD false then
    (afterDecimal? characters).bind afterNumberSuffix?
      <|> (afterWhole? characters).bind afterNumberSuffix?
  else none

def read? (characters : List Char) : Option (Literal × List Char) :=
  match afterText? characters with
  | some rest => some (.text, rest)
  | none =>
    match afterQuoted? characters with
    | some rest => some (.unspecified, rest)
    | none => do
      let rest ← afterNumber? characters
      return (.number (characters.take (characters.length - rest.length)), rest)

/-! ### What numbers say -/

def isIdentifier (characters : List Char) : Bool :=
  match identifier? characters with
  | some (_, rest) => rest.isEmpty
  | none => false

/-- Whether an exponent is written after its mark, with nothing after it or a suffix. -/
def isExponent (characters : List Char) : Bool :=
  let rest := characters.dropWhile isDigitOrBreak
  if rest.head? = some '+' ∨ rest.head? = some '-' then true
  else
    (characters.takeWhile isDigitOrBreak).any Identifier.isDigit
      && (rest.isEmpty || isIdentifier rest)

/-- The value of a number and its suffix, if the number is whole. -/
def integer? (written : List Char) : Option (Nat × List Char) := do
  let (base, digits) := match written with
    | '0' :: 'x' :: digits => (16, digits)
    | '0' :: 'o' :: digits => (8, digits)
    | '0' :: 'b' :: digits => (2, digits)
    | digits => (10, digits)
  let suffix ← afterDigits? base digits
  let isFraction := base = 10 && match suffix with
    | '.' :: _ => true
    | 'e' :: exponent => isExponent exponent
    | 'E' :: exponent => isExponent exponent
    | _ => false
  if isFraction || !(suffix.isEmpty || isIdentifier suffix) then none
  else
    let significant := (digits.take (digits.length - suffix.length)).filter (· ≠ '_')
    return (significant.foldl (fun value digit => value * base + (hexValue? digit).getD 0) 0,
      suffix)

/-- The place that a number names, if it is whole, has no suffix and fits 32 bits. -/
def place? (written : List Char) : Option Nat :=
  match integer? written with
  | some (value, []) => if value < 0x100000000 then some value else none
  | _ => none

end Literal

end StagedBuilder.TypeExpression
