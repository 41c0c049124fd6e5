/-
This file derives the names of generated members. A name in several parts, with
underscores between them, becomes one word in which every part begins with an
upper-case letter. The first character of a part takes its full upper-case form,
which for some letters is longer than one character; the others stay as they are.
-/

import StagedBuilder.Text.Parts
import StagedBuilder.Text.UppercaseRanges

namespace StagedBuilder

/-- The upper-case form of a character; the character itself if there is none. -/
def uppercase (character : Char) : List Char :=
  if 'a' ≤ character ∧ character ≤ 'z' then [Char.ofNat (character.toNat - 32)]
  else if character.toNat < 128 then [character]
  else
    match UppercaseRanges.sequences.lookup character.toNat with
    | some sequence => sequence.map Char.ofNat
    | none =>
      let run := UppercaseRanges.runs.find? fun (first, last, distance, _) =>
        first ≤ character.toNat ∧ character.toNat ≤ last
          ∧ (character.toNat - first) % distance = 0
      match run with
      | some (first, _, _, form) => [Char.ofNat (form + (character.toNat - first))]
      | none => [character]

/-- A part of a name with its first character in upper case. -/
def capitalized : List Char → List Char
  | [] => []
  | first :: rest => uppercase first ++ rest

/-- A name with its underscores left out and each part capitalized. -/
def pascalCase (name : String) : String :=
  String.ofList ((partsAt '_' name.toList).flatMap capitalized)

end StagedBuilder
