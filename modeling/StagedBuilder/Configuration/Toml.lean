/-
This file reads configurations from TOML documents, the notation of configuration
files. A document becomes a value of the JSON data format first: tables become
objects and keep their keys. Numbers and truth values stand for themselves, as no
field wants one. A moment becomes an object without any known field, for that is
how it presents itself: where all fields have defaults it passes for a record.
-/

import StagedBuilder.Configuration.Json
import StagedBuilder.Toml.Parser

namespace StagedBuilder

namespace Toml

mutual

/-- The value of the JSON data format that a value presents itself as. -/
def presented : Toml → Json
  | .string value => .string value
  | .number => .integer 0
  | .truth => .bool true
  | .moment => .object [("", .null)]
  | .array items => .array (presentedEach items)
  | .table _ entries => .object (presentedEntries entries)
  | .tables items => .array (presentedEach items)

def presentedEach : List Toml → List Json
  | [] => []
  | first :: rest => first.presented :: presentedEach rest

def presentedEntries : List (String × Toml) → List (String × Json)
  | [] => []
  | (key, value) :: rest => (key, value.presented) :: presentedEntries rest

end

end Toml

/-- Reads a configuration from the text of a configuration file. -/
def Configuration.parse? (text : String) : Option Configuration := do
  Configuration.ofJson? Json.loosely (← Toml.parse? text).presented

end StagedBuilder
