/-
This file reads records. A record is written as an object of its named fields,
in any order and with fields nobody knows passed over, or as an array of its
fields in the order of their declaration, in which the last ones may be left out.
A field written twice and a surplus item of the array are refused.

A field that is left out is told apart from one that is `null`: a field with a
default takes it only when left out, and an optional field is absent in both
cases.
-/

import StagedBuilder.Json.Basic

namespace StagedBuilder.Json

/-- The value of the one field of the given name; refused if the name occurs twice. -/
def soleField? (fields : List (String × Json)) (name : String) : Option (Option Json) :=
  match fields.filter (·.1 == name) with
  | [] => some none
  | [(_, value)] => some (some value)
  | _ => none

/-- The fields of an object in the order of `names`, each `none` if it is left out. -/
def namedFields? (names : List String) (fields : List (String × Json)) :
    Option (List (Option Json)) :=
  names.mapM (soleField? fields)

/-- The fields of a record, in the order of `names`, each `none` if it is left out. -/
def record? (names : List String) : Json → Option (List (Option Json))
  | .object fields => namedFields? names fields
  | .array items =>
    if items.length ≤ names.length then
      some (items.map some ++ List.replicate (names.length - items.length) none)
    else none
  | _ => none

/-- Reads a field that must be there. -/
def required? {Value : Type} (read : Json → Option Value) (field : Option Json) :
    Option Value :=
  field.bind read

/-- Reads a field that has a default. -/
def withDefault? {Value : Type} (default : Value) (read : Json → Option Value) :
    Option Json → Option Value
  | none => some default
  | some value => read value

/-- Reads a field that may be absent. -/
def optional? {Value : Type} (read : Json → Option Value) :
    Option Json → Option (Option Value)
  | none => some none
  | some value => value.orNull? read

/-- Reads one word of a fixed list. A word is a text, or an object whose only field has
the word for its name and `null` for its value. -/
def word? {Value : Type} (meaning : String → Option Value) : Json → Option Value
  | .string text => meaning text
  | .object [(text, .null)] => meaning text
  | _ => none

end StagedBuilder.Json
