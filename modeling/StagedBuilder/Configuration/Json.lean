/-
This file reads configurations. The same records are read from two notations,
which differ in one point: where a record is written as a list of its fields, a
surplus item is refused in JSON and passed over in TOML. The reader of records is
therefore handed in.
-/

import StagedBuilder.Configuration.Basic
import StagedBuilder.Json.Record

namespace StagedBuilder

/-- A reader of records, by the names of their fields. -/
abbrev RecordReader := List String → Json → Option (List (Option Json))

/-- Reads records and passes over surplus items. -/
def Json.loosely : RecordReader
  | names, .array items => Json.record? names (.array (items.take names.length))
  | names, other => Json.record? names other

/-- Reads a naming; every field has a default. -/
def Naming.ofJson? (record : RecordReader) (json : Json) : Option Naming := do
  let [supplyPrefix, creationPrefix, stepPrefix] ← record
    ["regular_method_prefix", "creation_method_prefix", "step_type_prefix"] json | none
  return {
    supplyPrefix := ← Json.withDefault? "With" Json.string? supplyPrefix
    creationPrefix := ← Json.withDefault? "Create" Json.string? creationPrefix
    stepPrefix := ← Json.withDefault? "Step" Json.string? stepPrefix }

namespace Configuration

/-- Reads the table of supertypes. -/
def supertypes? : Json → Option (Dictionary (List String))
  | .object fields => do
    let entries ← fields.mapM fun (name, value) =>
      (Json.listOf? Json.string? value).map (name, ·)
    return .ofList entries
  | _ => none

/-- Reads the part of a configuration that is about types. -/
def types? (record : RecordReader) (json : Json) : Option (Dictionary (List String)) := do
  let [supertypes] ← record ["supertypes"] json | none
  Json.withDefault? .empty supertypes? supertypes

/-- Reads the part of a configuration that is about printing. -/
def output? (record : RecordReader) (json : Json) : Option (Option String) := do
  let [format] ← record ["format"] json | none
  Json.optional? Json.string? format

/-- Reads a configuration; every field has a default. -/
def ofJson? (record : RecordReader) (json : Json) : Option Configuration := do
  let [naming, types, output] ← record ["naming", "types", "output"] json | none
  return {
    naming := ← Json.withDefault? {} (Naming.ofJson? record) naming
    supertypes := ← Json.withDefault? .empty (types? record) types
    format := ← Json.withDefault? none (output? record) output }

end Configuration

end StagedBuilder
