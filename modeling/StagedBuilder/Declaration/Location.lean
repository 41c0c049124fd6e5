/-
This file holds positions in source texts. A position is a file with a line and
a column, both of them 32-bit numbers, and is written with colons between the
three.
-/

import StagedBuilder.Json.Record

namespace StagedBuilder

/-- A place in a source file. -/
structure Location where
  file : String := ""
  line : UInt32 := 0
  column : UInt32 := 0
deriving DecidableEq, Inhabited

namespace Location

/-- File, line and column, with colons between them. -/
def display (location : Location) : String :=
  location.file ++ ":" ++ toString location.line.toNat ++ ":" ++ toString location.column.toNat

/-- Reads a location; every field has a default. -/
def ofJson? (json : Json) : Option Location := do
  let [file, line, column] ← json.record? ["file", "line", "column"] | none
  return {
    file := ← Json.withDefault? "" Json.string? file
    line := ← Json.withDefault? 0 Json.word32? line
    column := ← Json.withDefault? 0 Json.word32? column }

def toJson (location : Location) : Json :=
  .object [
    ("file", .string location.file),
    ("line", .ofNat location.line.toNat),
    ("column", .ofNat location.column.toNat)]

end Location

end StagedBuilder
