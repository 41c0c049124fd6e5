/-
This file reads the pieces that TOML documents are written with: ends of lines,
texts in their four notations, keys, numbers and moments.

Texts are between single or double quotes, on one line or, with three quotes, on
several. Only double quotes allow escapes. Between three quotes up to two quotes
may stand right before the closing ones, a line break right after the opening ones
is dropped, and a backslash at the end of a line drops everything up to the next
character that is no white space.
-/

import StagedBuilder.Text.Hexadecimal
import StagedBuilder.Text.Numeral

namespace StagedBuilder.Toml

/-! ### White space and comments -/

/-- The white space within a line. -/
def isBlank (character : Char) : Bool := character = ' ' || character = '\t'

def skipBlanks (characters : List Char) : List Char := characters.dropWhile isBlank

/-- Whether a character may stand in a text or a comment as it is: no control character but
the tab. -/
def isPlain (character : Char) : Bool :=
  character = '\t' || (32 ≤ character.toNat && character.toNat ≠ 127)

def afterNewline? : List Char → Option (List Char)
  | '\n' :: rest => some rest
  | '\r' :: '\n' :: rest => some rest
  | _ => none

/-- What is left after a comment, if there is one. -/
def skipComment : List Char → List Char
  | '#' :: rest => rest.dropWhile isPlain
  | characters => characters

/-- What follows a line that holds nothing more than a comment. -/
def afterLine? (characters : List Char) : Option (List Char) :=
  match skipComment (skipBlanks characters) with
  | [] => some []
  | rest => afterNewline? rest

/-- What is left after white space, ends of lines and comments. -/
def skipSpace : Nat → List Char → List Char
  | 0, characters => characters
  | fuel + 1, characters =>
    match skipComment (skipBlanks characters) with
    | [] => []
    | rest =>
      match afterNewline? rest with
      | some following => skipSpace fuel following
      | none => rest

/-! ### Escapes -/

/-- The character that hexadecimal digits name. -/
def coded? (digits : List Char) : Option Char :=
  let code := hexNumber digits
  if digits.all (fun digit => (hexValue? digit).isSome) ∧ code.isValidChar then
    some (Char.ofNat code)
  else none

/-- What one escape of the short form stands for. -/
def shortEscape? : Char → Option Char
  | '"' => some '"'
  | '\\' => some '\\'
  | 'b' => some '\x08'
  | 'f' => some '\x0c'
  | 'n' => some '\n'
  | 'r' => some '\r'
  | 't' => some '\t'
  | _ => none

/-! ### Texts -/

/-- A character in front of what is read after it. -/
def before (character : Char) : Option (List Char × List Char) → Option (List Char × List Char)
  | some (found, rest) => some (character :: found, rest)
  | none => none

/-- Reads a text in double quotes after the opening one. -/
def quoted? : List Char → Option (List Char × List Char)
  | [] => none
  | '"' :: rest => some ([], rest)
  | '\\' :: 'u' :: a :: b :: c :: d :: rest => do
    let character ← coded? [a, b, c, d]
    before character (quoted? rest)
  | '\\' :: 'U' :: a :: b :: c :: d :: e :: f :: g :: h :: rest => do
    let character ← coded? [a, b, c, d, e, f, g, h]
    before character (quoted? rest)
  | '\\' :: escape :: rest => do
    let character ← shortEscape? escape
    before character (quoted? rest)
  | character :: rest => if isPlain character then before character (quoted? rest) else none

/-- Reads a text in three double quotes after the opening ones; `isDropping` says whether
white space is dropped. -/
def quotedLines? : Bool → List Char → Option (List Char × List Char)
  | _, [] => none
  | _, '"' :: '"' :: '"' :: '"' :: '"' :: rest => some (['"', '"'], rest)
  | _, '"' :: '"' :: '"' :: '"' :: rest => some (['"'], rest)
  | _, '"' :: '"' :: '"' :: rest => some ([], rest)
  | _, '\\' :: 'u' :: a :: b :: c :: d :: rest => do
    let character ← coded? [a, b, c, d]
    before character (quotedLines? false rest)
  | _, '\\' :: 'U' :: a :: b :: c :: d :: e :: f :: g :: h :: rest => do
    let character ← coded? [a, b, c, d, e, f, g, h]
    before character (quotedLines? false rest)
  | _, '\\' :: next :: rest =>
    match shortEscape? next with
    | some character => before character (quotedLines? false rest)
    | none =>
      if (afterNewline? (skipBlanks (next :: rest))).isSome then quotedLines? true (next :: rest)
      else none
  | isDropping, '\r' :: '\n' :: rest =>
    if isDropping then quotedLines? true rest else before '\n' (quotedLines? false rest)
  | isDropping, character :: rest =>
    if isDropping && (isBlank character || character = '\n') then quotedLines? true rest
    else if isPlain character || character = '\n' then
      before character (quotedLines? false rest)
    else none

/-- Reads a text in single quotes after the opening one. -/
def literal? : List Char → Option (List Char × List Char)
  | [] => none
  | '\'' :: rest => some ([], rest)
  | character :: rest => if isPlain character then before character (literal? rest) else none

/-- Reads a text in three single quotes after the opening ones. -/
def literalLines? : List Char → Option (List Char × List Char)
  | [] => none
  | '\'' :: '\'' :: '\'' :: '\'' :: '\'' :: rest => some (['\'', '\''], rest)
  | '\'' :: '\'' :: '\'' :: '\'' :: rest => some (['\''], rest)
  | '\'' :: '\'' :: '\'' :: rest => some ([], rest)
  | '\r' :: '\n' :: rest => before '\n' (literalLines? rest)
  | character :: rest =>
    if isPlain character || character = '\n' then before character (literalLines? rest)
    else none

/-- What is left after a line break right after opening quotes. -/
def skipNewline (characters : List Char) : List Char :=
  (afterNewline? characters).getD characters

def text? (characters : List Char) : Option (String × List Char) :=
  let found := match characters with
    | '"' :: '"' :: '"' :: rest => quotedLines? false (skipNewline rest)
    | '"' :: rest => quoted? rest
    | '\'' :: '\'' :: '\'' :: rest => literalLines? (skipNewline rest)
    | '\'' :: rest => literal? rest
    | _ => none
  found.map fun (written, rest) => (String.ofList written, rest)

/-! ### Keys -/

def isBareKey (character : Char) : Bool :=
  ('a' ≤ character && character ≤ 'z') || ('A' ≤ character && character ≤ 'Z')
    || Decimal.isDigit character || character = '_' || character = '-'

def keyPart? (characters : List Char) : Option (String × List Char) :=
  match characters with
  | '"' :: rest => (quoted? rest).map fun (written, after) => (String.ofList written, after)
  | '\'' :: rest => (literal? rest).map fun (written, after) => (String.ofList written, after)
  | _ =>
    let written := characters.takeWhile isBareKey
    if written.isEmpty then none
    else some (String.ofList written, characters.dropWhile isBareKey)

/-- Reads the parts of a key, with points and white space between them. -/
def keyParts? : Nat → List Char → Option (List String × List Char)
  | 0, _ => none
  | fuel + 1, characters => do
    let (first, rest) ← keyPart? (skipBlanks characters)
    match skipBlanks rest with
    | '.' :: others => do
      let (parts, after) ← keyParts? fuel others
      return (first :: parts, after)
    | after => return ([first], after)

/-- Nothing nests as deep as this, neither values nor the parts of a key. -/
def depthLimit : Nat := 80

/-- Reads a key: the parts before the last, and the last. -/
def key? (characters : List Char) : Option (List String × String × List Char) := do
  let (parts, rest) ← keyParts? (depthLimit - 1) characters
  let last ← parts.getLast?
  return (parts.dropLast, last, rest)

/-! ### Numbers -/

/-- What follows digits, with single underscores between them. -/
def afterDigits? (isDigit : Char → Bool) : List Char → Option (List Char)
  | first :: rest => if isDigit first then some (others rest) else none
  | [] => none
where
  /-- What follows the further digits. -/
  others : List Char → List Char
    | '_' :: next :: rest => if isDigit next then others rest else '_' :: next :: rest
    | next :: rest => if isDigit next then others rest else next :: rest
    | [] => []

/-- What follows a sign that may be missing. -/
def skipSign : List Char → List Char
  | '+' :: rest => rest
  | '-' :: rest => rest
  | characters => characters

/-- What follows a whole number in base ten; a leading zero stands alone. -/
def afterWhole? (characters : List Char) : Option (List Char) :=
  match skipSign characters with
  | '0' :: rest => some rest
  | unsigned => afterDigits? Decimal.isDigit unsigned

def afterExponent? : List Char → Option (List Char)
  | 'e' :: rest => afterDigits? Decimal.isDigit (skipSign rest)
  | 'E' :: rest => afterDigits? Decimal.isDigit (skipSign rest)
  | _ => none

/-- What follows the marks of a number with a fraction or an exponent. -/
def afterRealMarks? (characters : List Char) : Option (List Char) :=
  match skipSign characters with
  | 'i' :: 'n' :: 'f' :: rest => some rest
  | 'n' :: 'a' :: 'n' :: rest => some rest
  | _ => do
    let rest ← afterWhole? characters
    match rest with
    | '.' :: fraction => do
      let after ← afterDigits? Decimal.isDigit fraction
      return (afterExponent? after).getD after
    | _ => afterExponent? rest

/-- Whether the marks of a number write one that rounds to the positive infinite number without
naming it. -/
def isBeyondReals (written : List Char) : Bool :=
  let plain := written.filter fun character => character ≠ '_' ∧ character ≠ '+'
  match Numeral.read? plain with
  | some (numeral, _) => !numeral.negative && numeral.isHuge
  | none => false

/-- What follows a number with a fraction or an exponent. Large numbers are refused only if
they are positive. -/
def afterReal? (characters : List Char) : Option (List Char) := do
  let rest ← afterRealMarks? characters
  if isBeyondReals (characters.take (characters.length - rest.length)) then none else some rest

/-- The magnitude that digits write in a base, underscores passed over. -/
def magnitude (base : Nat) (written : List Char) : Nat :=
  (written.filter (· ≠ '_')).foldl
    (fun value digit => value * base + (hexValue? digit).getD 0) 0

/-- What follows an integer that fits 64 bits with a sign. -/
def afterInteger? (characters : List Char) : Option (List Char) :=
  let based := fun (base : Nat) (digits : List Char) => do
    let rest ← afterDigits? (fun digit => (hexValue? digit).any (· < base)) digits
    let value := magnitude base (digits.take (digits.length - rest.length))
    if value < 0x8000000000000000 then some rest else none
  match characters with
  | '0' :: 'x' :: digits => based 16 digits
  | '0' :: 'o' :: digits => based 8 digits
  | '0' :: 'b' :: digits => based 2 digits
  | _ => do
    let rest ← afterWhole? characters
    let written := characters.take (characters.length - rest.length)
    let value := magnitude 10 (skipSign written)
    let isLeast := value = 0x8000000000000000 ∧ written.head? = some '-'
    if value < 0x8000000000000000 ∨ isLeast then some rest else none

/-! ### Moments -/

/-- The number that a fixed count of digits at the front writes, if it lies in a range. -/
def fixed? (count low high : Nat) (characters : List Char) : Option (Nat × List Char) :=
  let digits := characters.take count
  let value := Decimal.valueOf digits
  if digits.length = count ∧ digits.all Decimal.isDigit ∧ low ≤ value ∧ value ≤ high then
    some (value, characters.drop count)
  else none

/-- What follows one fixed character. -/
def afterCharacter? (expected : Char) : List Char → Option (List Char)
  | first :: rest => if first = expected then some rest else none
  | [] => none

def monthDays (year month : Nat) : Nat :=
  if month = 2 then
    if (year % 4 = 0 ∧ year % 100 ≠ 0) ∨ year % 400 = 0 then 29 else 28
  else if month = 4 ∨ month = 6 ∨ month = 9 ∨ month = 11 then 30
  else 31

def afterDate? (characters : List Char) : Option (List Char) := do
  let (year, rest) ← fixed? 4 0 9999 characters
  let (month, rest) ← fixed? 2 1 12 (← afterCharacter? '-' rest)
  let (_, rest) ← fixed? 2 1 (monthDays year month) (← afterCharacter? '-' rest)
  return rest

def afterTime? (characters : List Char) : Option (List Char) := do
  let (_, rest) ← fixed? 2 0 23 characters
  let (_, rest) ← fixed? 2 0 59 (← afterCharacter? ':' rest)
  let (_, rest) ← fixed? 2 0 60 (← afterCharacter? ':' rest)
  match rest with
  | '.' :: fraction =>
    let digits := fraction.takeWhile Decimal.isDigit
    if digits.isEmpty then some rest else some (fraction.dropWhile Decimal.isDigit)
  | _ => some rest

/-- What follows the distance from universal time, which may be missing. -/
def skipOffset (characters : List Char) : List Char :=
  match characters with
  | 'Z' :: rest => rest
  | 'z' :: rest => rest
  | _ =>
    let offset := do
      let rest ← afterCharacter? '+' characters <|> afterCharacter? '-' characters
      let (_, rest) ← fixed? 2 0 23 rest
      let (_, rest) ← fixed? 2 0 59 (← afterCharacter? ':' rest)
      return rest
    offset.getD characters

/-- What follows a moment: a date, a time of day, or both with `T` or a space between them. -/
def afterMoment? (characters : List Char) : Option (List Char) :=
  match afterDate? characters with
  | none => afterTime? characters
  | some rest =>
    let time := match rest with
      | separator :: time =>
        if separator = 'T' ∨ separator = 't' ∨ separator = ' ' then afterTime? time else none
      | [] => none
    some ((time.map skipOffset).getD rest)

end StagedBuilder.Toml
