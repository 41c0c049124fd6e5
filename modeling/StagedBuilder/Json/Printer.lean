/-
This file writes JSON values as text, in two layouts. The compact layout has no
white space at all and is the text that fingerprints are taken of. The indented
layout puts every item and every field on a line of its own, two spaces deeper
than what holds it, and keeps an empty array or object on one line.

Texts are escaped as little as the format allows: the quote, the backslash and
the control characters below the space, of which five have a short form and the
others are written with four hexadecimal digits in lower case.
-/

import StagedBuilder.Json.Basic

namespace StagedBuilder.Json

/-! ### Texts and numbers -/

/-- The hexadecimal digit of a number below sixteen, in lower case. -/
def hexDigit (value : Nat) : Char :=
  if value < 10 then Char.ofNat ('0'.toNat + value) else Char.ofNat ('a'.toNat + (value - 10))

/-- How one character stands inside quotes. -/
def escaped (character : Char) : List Char :=
  if character = '"' then ['\\', '"']
  else if character = '\\' then ['\\', '\\']
  else if character = '\n' then ['\\', 'n']
  else if character = '\r' then ['\\', 'r']
  else if character = '\t' then ['\\', 't']
  else if character = '\x08' then ['\\', 'b']
  else if character = '\x0c' then ['\\', 'f']
  else if character.toNat < 32 then
    ['\\', 'u', '0', '0', hexDigit (character.toNat / 16), hexDigit (character.toNat % 16)]
  else [character]

def quoted (text : String) : List Char :=
  '"' :: (text.toList.flatMap escaped ++ ['"'])

/-- A number in decimal, with a minus sign in front if it is negative. -/
def decimal (value : Int) : List Char :=
  match value with
  | .ofNat magnitude => Nat.toDigits 10 magnitude
  | .negSucc magnitude => '-' :: Nat.toDigits 10 (magnitude + 1)

/-- The text of a value that holds no others. -/
def scalar : Json → List Char
  | .null => "null".toList
  | .bool true => "true".toList
  | .bool false => "false".toList
  | .integer value => decimal value
  | .real literal => literal.toList
  | .string value => quoted value
  | .array _ => []
  | .object _ => []
  | .unreadable => "null".toList

/-! ### The compact layout -/

mutual

def compactText : Json → List Char
  | .array items => '[' :: (compactItems items ++ [']'])
  | .object fields => '{' :: (compactFields fields ++ ['}'])
  | other => scalar other

/-- The items of an array, a comma between two of them. -/
def compactItems : List Json → List Char
  | [] => []
  | [last] => compactText last
  | first :: second :: rest => compactText first ++ ',' :: compactItems (second :: rest)

/-- The fields of an object, a comma between two of them. -/
def compactFields : List (String × Json) → List Char
  | [] => []
  | [(key, last)] => quoted key ++ ':' :: compactText last
  | (key, first) :: second :: rest =>
    quoted key ++ ':' :: (compactText first ++ ',' :: compactFields (second :: rest))

end

/-- The text of a value without any white space. -/
def compact (json : Json) : String := String.ofList json.compactText

/-! ### The indented layout -/

/-- The start of a line that stands `depth` levels deep. -/
def newline (depth : Nat) : List Char := '\n' :: List.replicate (2 * depth) ' '

mutual

/-- The characters of a value that stands `depth` levels deep. -/
def indentedText (depth : Nat) : Json → List Char
  | .array [] => ['[', ']']
  | .array (first :: rest) =>
    '[' :: (indentedItems (depth + 1) (first :: rest) ++ (newline depth ++ [']']))
  | .object [] => ['{', '}']
  | .object (first :: rest) =>
    '{' :: (indentedFields (depth + 1) (first :: rest) ++ (newline depth ++ ['}']))
  | other => scalar other

/-- The items of an array, each on a line `depth` levels deep. -/
def indentedItems (depth : Nat) : List Json → List Char
  | [] => []
  | [last] => newline depth ++ indentedText depth last
  | first :: second :: rest =>
    newline depth ++ (indentedText depth first ++ ',' :: indentedItems depth (second :: rest))

/-- The fields of an object, each on a line `depth` levels deep. -/
def indentedFields (depth : Nat) : List (String × Json) → List Char
  | [] => []
  | [(key, last)] => newline depth ++ (quoted key ++ ':' :: ' ' :: indentedText depth last)
  | (key, first) :: second :: rest =>
    newline depth ++ (quoted key ++ ':' :: ' ' ::
      (indentedText depth first ++ ',' :: indentedFields depth (second :: rest)))

end

/-- The text of a value laid out over indented lines. -/
def indented (json : Json) : String := String.ofList (json.indentedText 0)

end StagedBuilder.Json
