/-
This file reads TOML documents. A document is read line by line: a line opens a
table, or gives a key of the opened table its value, or holds nothing. What the
lines say is put together as they come, and the first one that does not fit spoils
the whole.
-/

import StagedBuilder.Toml.Basic
import StagedBuilder.Toml.Lexeme

namespace StagedBuilder.Toml

/-! ### Values -/

/-- The inline table of entries with dotted keys. -/
def inlineTable? (entries : List (List String × String × Toml)) : Option Toml :=
  (entries.foldlM (fun made (path, key, value) => addDotted path key value .inline made) []).map
    (.table .inline ·)

/-- Reads a number, a truth value or a moment. -/
def scalar? (characters : List Char) : Option (Toml × List Char) :=
  match characters with
  | 't' :: 'r' :: 'u' :: 'e' :: rest => some (.truth, rest)
  | 'f' :: 'a' :: 'l' :: 's' :: 'e' :: rest => some (.truth, rest)
  | _ =>
    match afterMoment? characters with
    | some rest => some (.moment, rest)
    | none => (afterReal? characters <|> afterInteger? characters).map fun rest => (.number, rest)

mutual

/-- Reads a value; arrays and inline tables may nest as deep as there is `room`. -/
def value? : Nat → Nat → List Char → Option (Toml × List Char)
  | 0, _, _ => none
  | _, _, [] => none
  | fuel + 1, room, '[' :: inside =>
    if room = 0 then none
    else do
      let (items, rest) ← items? fuel (room - 1) inside
      return (.array items, rest)
  | fuel + 1, room, '{' :: inside =>
    if room = 0 then none
    else do
      let (entries, rest) ← match skipBlanks inside with
        | '}' :: rest => pure ([], rest)
        | first => pairs? fuel (room - 1) first
      return (← inlineTable? entries, rest)
  | _ + 1, _, first :: rest =>
    if first = '"' ∨ first = '\'' then
      (text? (first :: rest)).map fun (written, after) => (.string written, after)
    else scalar? (first :: rest)

/-- Reads the items of an array and its closing bracket. -/
def items? : Nat → Nat → List Char → Option (List Toml × List Char)
  | 0, _, _ => none
  | fuel + 1, room, characters =>
    match skipSpace (characters.length + 1) characters with
    | ']' :: rest => some ([], rest)
    | present => do
      let (first, after) ← value? fuel room present
      match skipSpace (after.length + 1) after with
      | ',' :: rest => do
        let (others, closed) ← items? fuel room rest
        return (first :: others, closed)
      | ']' :: rest => return ([first], rest)
      | _ => none

/-- Reads the entries of an inline table and its closing brace. -/
def pairs? : Nat → Nat → List Char → Option (List (List String × String × Toml) × List Char)
  | 0, _, _ => none
  | fuel + 1, room, characters => do
    let (path, key, afterKey) ← key? characters
    let assigned ← afterCharacter? '=' afterKey
    let (value, after) ← value? fuel room (skipBlanks assigned)
    match skipBlanks after with
    | ',' :: rest => do
      let (others, closed) ← pairs? fuel room rest
      return ((path, key, value) :: others, closed)
    | '}' :: rest => return ([(path, key, value)], rest)
    | _ => none

end

/-! ### Lines -/

/-- What is read so far, and the path of the table that is open. -/
structure Progress where
  made : Entries := []
  opened : List String := []

/-- Reads a header with what surrounds it, in double brackets or not. -/
def header? (characters : List Char) : Option (Bool × List String × String × List Char) :=
  match characters with
  | '[' :: '[' :: inside => do
    let (path, key, after) ← key? inside
    match after with
    | ']' :: ']' :: rest => return (true, path, key, rest)
    | _ => none
  | '[' :: inside => do
    let (path, key, after) ← key? inside
    return (false, path, key, ← afterCharacter? ']' after)
  | _ => none

/-- Reads the next line and takes in what it says. -/
def line? (progress : Progress) (characters : List Char) : Option (Progress × List Char) :=
  match skipBlanks characters with
  | '[' :: inside => do
    let (isFurther, path, key, after) ← header? ('[' :: inside)
    let rest ← afterLine? after
    let made ← if isFurther then openFurther path key progress.made
      else openTable path key progress.made
    return (⟨made, path ++ [key]⟩, rest)
  | present =>
    match afterLine? present with
    | some rest => some (progress, rest)
    | none => do
      let (path, key, afterKey) ← key? present
      let assigned ← afterCharacter? '=' afterKey
      let (value, after) ← value? (assigned.length + 1) (depthLimit - 1) (skipBlanks assigned)
      let rest ← afterLine? after
      let made ← alterAt (addDotted path key value) progress.opened progress.made
      return ({ progress with made }, rest)

def lines? : Nat → Progress → List Char → Option Entries
  | _, progress, [] => some progress.made
  | 0, _, _ => none
  | fuel + 1, progress, characters => do
    let (further, rest) ← line? progress characters
    lines? fuel further rest

/-- Reads a whole document. A byte order mark in front is passed over. -/
def parse? (text : String) : Option Toml := do
  let characters := match text.toList with
    | '\uFEFF' :: rest => rest
    | other => other
  let entries ← lines? characters.length {} characters
  return .table .header entries

end StagedBuilder.Toml
