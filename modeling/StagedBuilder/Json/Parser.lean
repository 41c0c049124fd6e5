/-
This file reads the JSON data format. The grammar is the strict one: white space
is the space, the tab, the line feed and the carriage return; a number has no
leading zero and no bare point; a text holds no control character and only the
escapes of the format; nothing may follow the value.

The reader is lenient in one respect only, which `Json.Basic` explains: a piece
that is well formed and denotes no value becomes `unreadable` instead of an
error, and depth is not limited here.

Every reading step consumes at least one character, so the length of the text
bounds the number of steps, and it is handed down as the fuel of the recursion.
-/

import StagedBuilder.Json.Basic
import StagedBuilder.Text.Hexadecimal
import StagedBuilder.Text.Numeral

namespace StagedBuilder.Json

/-! ### White space -/

/-- The four characters that may stand between tokens. -/
def isBlank (character : Char) : Bool :=
  character = ' ' || character = '\n' || character = '\t' || character = '\r'

/-- What is left after leading white space. -/
def skipBlanks (characters : List Char) : List Char := characters.dropWhile isBlank

/-! ### Texts -/

/-- The number of four hexadecimal digits. -/
def hexNumber? (first second third fourth : Char) : Option Nat := do
  let high ← hexValue? first
  let upper ← hexValue? second
  let lower ← hexValue? third
  let low ← hexValue? fourth
  return ((high * 16 + upper) * 16 + lower) * 16 + low

/-- What one escape of the short form stands for. -/
def shortEscape? : Char → Option Char
  | '"' => some '"'
  | '\\' => some '\\'
  | '/' => some '/'
  | 'b' => some '\x08'
  | 'f' => some '\x0c'
  | 'n' => some '\n'
  | 'r' => some '\r'
  | 't' => some '\t'
  | _ => none

/-- A piece of a text as it is written: a character, or one 16-bit unit of an escape. -/
inductive TextUnit where
  | character (value : Char)
  | escaped (unit : Nat)

/-- The units up to the closing quote, and what follows the quote. -/
def textUnits? : List Char → Option (List TextUnit × List Char)
  | [] => none
  | '"' :: rest => some ([], rest)
  | '\\' :: 'u' :: first :: second :: third :: fourth :: rest => do
    let unit ← hexNumber? first second third fourth
    let (units, after) ← textUnits? rest
    return (.escaped unit :: units, after)
  | '\\' :: escape :: rest => do
    let character ← shortEscape? escape
    let (units, after) ← textUnits? rest
    return (.character character :: units, after)
  | character :: rest =>
    if character = '\\' ∨ character.toNat < 32 then none
    else do
      let (units, after) ← textUnits? rest
      return (.character character :: units, after)

/-- The text that a list of units spells. A unit from `D800` to `DBFF` needs one from
`DC00` to `DFFF` right after it, and the latter stands nowhere else. -/
def spelled? : List TextUnit → Option (List Char)
  | [] => some []
  | .character value :: rest => (spelled? rest).map (value :: ·)
  | .escaped high :: .escaped low :: rest =>
    if 0xDC00 ≤ high ∧ high < 0xE000 then none
    else if 0xD800 ≤ high ∧ high < 0xDC00 then
      if 0xDC00 ≤ low ∧ low < 0xE000 then
        (spelled? rest).map
          (Char.ofNat (0x10000 + (high - 0xD800) * 0x400 + (low - 0xDC00)) :: ·)
      else none
    else (spelled? (.escaped low :: rest)).map (Char.ofNat high :: ·)
  | .escaped unit :: rest =>
    if 0xD800 ≤ unit ∧ unit < 0xE000 then none
    else (spelled? rest).map (Char.ofNat unit :: ·)

/-- Reads a text after its opening quote: what it spells, if anything, and the rest. -/
def quotedText? (characters : List Char) : Option (Option String × List Char) := do
  let (units, rest) ← textUnits? characters
  return ((spelled? units).map String.ofList, rest)

/-! ### Numbers -/

/-- The value of a number. An integer is one that has neither fraction nor exponent, fits
64 bits and is not a negative zero; every other number is rounded, stepwise, and unreadable
if that leaves nothing finite. -/
def numberOf (numeral : Numeral) : Json :=
  let magnitude : Int := Decimal.valueOf numeral.whole
  let asReal : Json :=
    if numeral.isHugeStepwise then .unreadable
    else .real (String.ofList
      ((if numeral.negative then ['-'] else []) ++ numeral.whole
        ++ (if numeral.fraction.isEmpty then [] else '.' :: numeral.fraction)
        ++ match numeral.exponent with
          | none => []
          | some (negative, digits) => 'e' :: ((if negative then ['-'] else []) ++ digits)))
  if numeral.fraction.isEmpty && numeral.exponent.isNone then
    if numeral.negative then
      if magnitude ≠ 0 ∧ magnitude ≤ 0x8000000000000000 then .integer (-magnitude) else asReal
    else if magnitude < 0x10000000000000000 then .integer magnitude else asReal
  else asReal

/-! ### Values -/

/-- The object of the fields read, which is unreadable if one of its keys is. -/
def objectOf (fields : List (Option String × Json)) : Json :=
  match fields.mapM fun field => field.1.map fun key => (key, field.2) with
  | some named => .object named
  | none => .unreadable

/-- Reads a fixed word at the front. -/
def fixedWord? (word : List Char) (value : Json) (characters : List Char) :
    Option (Json × List Char) :=
  if word.isPrefixOf characters then some (value, characters.drop word.length) else none

mutual

/-- Reads one value that starts at the first character. -/
def value? : Nat → List Char → Option (Json × List Char)
  | 0, _ => none
  | _, [] => none
  | fuel + 1, '[' :: rest =>
    match skipBlanks rest with
    | ']' :: after => some (.array [], after)
    | inside => do
      let (items, after) ← items? fuel inside
      return (.array items, after)
  | fuel + 1, '{' :: rest =>
    match skipBlanks rest with
    | '}' :: after => some (.object [], after)
    | inside => do
      let (fields, after) ← fields? fuel inside
      return (objectOf fields, after)
  | _ + 1, '"' :: rest => do
    let (text, after) ← quotedText? rest
    return ((text.map Json.string).getD .unreadable, after)
  | _ + 1, 'n' :: rest => fixedWord? "ull".toList .null rest
  | _ + 1, 't' :: rest => fixedWord? "rue".toList (.bool true) rest
  | _ + 1, 'f' :: rest => fixedWord? "alse".toList (.bool false) rest
  | _ + 1, other => do
    let (numeral, after) ← Numeral.read? other
    return (numberOf numeral, after)

/-- Reads the items of an array and its closing bracket. -/
def items? : Nat → List Char → Option (List Json × List Char)
  | 0, _ => none
  | fuel + 1, characters => do
    let (item, after) ← value? fuel characters
    match skipBlanks after with
    | ',' :: rest =>
      let (items, closed) ← items? fuel (skipBlanks rest)
      return (item :: items, closed)
    | ']' :: rest => return ([item], rest)
    | _ => none

/-- Reads the fields of an object and its closing brace. -/
def fields? : Nat → List Char → Option (List (Option String × Json) × List Char)
  | 0, _ => none
  | fuel + 1, characters =>
    match characters with
    | '"' :: inside => do
      let (key, afterKey) ← quotedText? inside
      match skipBlanks afterKey with
      | ':' :: afterColon => do
        let (value, afterValue) ← value? fuel (skipBlanks afterColon)
        match skipBlanks afterValue with
        | ',' :: rest =>
          let (fields, closed) ← fields? fuel (skipBlanks rest)
          return ((key, value) :: fields, closed)
        | '}' :: rest => return ([(key, value)], rest)
        | _ => none
      | _ => none
    | _ => none

end

/-- Reads a whole text as one value, white space around it allowed. -/
def parse? (text : String) : Option Json := do
  let characters := text.toList
  let (value, rest) ← value? (2 * characters.length + 2) (skipBlanks characters)
  if (skipBlanks rest).isEmpty then some value else none

/-- Reads a whole text as one value of which every piece is wanted: unreadable pieces and
excessive depth are refused, and of repeated keys the last one counts. -/
def parseWhole? (text : String) : Option Json := do
  let value ← parse? text
  if value.isPlain depthLimit then some value.lastFields else none

end StagedBuilder.Json
