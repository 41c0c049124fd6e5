/-
This file holds the values of the JSON data format. The job has integers only,
so an integer is a value of its own and any other number keeps its literal.

A text can be well formed and still say nothing: an escape may name half of a
surrogate pair, and a number may lie beyond every double. Such a piece is
`unreadable`. It does no harm where nobody looks at it, under a field that no
reader knows, and it is refused wherever a value is wanted; the same holds for
an object one of whose keys is such a piece. Keeping it as a value lets one
parser serve both places.
-/

namespace StagedBuilder

/-- A value of the JSON data format. -/
inductive Json where
  | null
  | bool (value : Bool)
  /-- A number without fraction or exponent that fits 64 bits, signed or unsigned. -/
  | integer (value : Int)
  /-- Any other number, by its literal. -/
  | real (literal : String)
  | string (value : String)
  | array (items : List Json)
  /-- The fields in their order in the text, repeated keys included. -/
  | object (fields : List (String × Json))
  /-- A well-formed piece of text that denotes no value. -/
  | unreadable
deriving Inhabited

namespace Json

/-! ### Reading whole values -/

mutual

/-- Whether every piece of a value is readable and arrays and objects nest at most `room`
deep, the value itself included. -/
def isPlain (room : Nat) : Json → Bool
  | .array items => 0 < room && allPlain (room - 1) items
  | .object fields => 0 < room && fieldsPlain (room - 1) fields
  | .unreadable => false
  | _ => true

def allPlain (room : Nat) : List Json → Bool
  | [] => true
  | first :: rest => first.isPlain room && allPlain room rest

def fieldsPlain (room : Nat) : List (String × Json) → Bool
  | [] => true
  | (_, value) :: rest => value.isPlain room && fieldsPlain room rest

end

/-- Arrays and objects may nest this deep in a value that is read as a whole. -/
def depthLimit : Nat := 127

mutual

/-- The value in which each key keeps only its last field, at every depth. -/
def lastFields : Json → Json
  | .array items => .array (lastFieldsEach items)
  | .object fields => .object (lastFieldsOf fields)
  | other => other

def lastFieldsEach : List Json → List Json
  | [] => []
  | first :: rest => first.lastFields :: lastFieldsEach rest

/-- The fields that no later field of the same key replaces. -/
def lastFieldsOf : List (String × Json) → List (String × Json)
  | [] => []
  | (key, value) :: rest =>
    if rest.any (·.1 == key) then lastFieldsOf rest
    else (key, value.lastFields) :: lastFieldsOf rest

end

/-! ### Scalars -/

def bool? : Json → Option Bool
  | .bool value => some value
  | _ => none

def string? : Json → Option String
  | .string value => some value
  | _ => none

/-- Reads an integer from `low` up to, but not including, `high`. -/
def integerWithin? (low high : Int) : Json → Option Int
  | .integer value => if low ≤ value ∧ value < high then some value else none
  | _ => none

def word32? (json : Json) : Option UInt32 :=
  (json.integerWithin? 0 0x100000000).map fun value => UInt32.ofNat value.toNat

def signed32? (json : Json) : Option Int32 :=
  (json.integerWithin? (-0x80000000) 0x80000000).map Int32.ofInt

/-- Reads a position or a count, an unsigned 64-bit number. -/
def index? (json : Json) : Option Nat :=
  (json.integerWithin? 0 0x10000000000000000).map Int.toNat

/-- Reads a list, every item by the same reader. -/
def listOf? {Item : Type} (read : Json → Option Item) : Json → Option (List Item)
  | .array items => items.mapM read
  | _ => none

/-- Reads `null` as nothing and anything else by the given reader. -/
def orNull? {Item : Type} (read : Json → Option Item) : Json → Option (Option Item)
  | .null => some none
  | other => (read other).map some

/-! ### Writing -/

/-- The number of a position or a count. -/
def ofNat (value : Nat) : Json := .integer value

/-- The array of the written items of a list. -/
def ofList {Item : Type} (write : Item → Json) (items : List Item) : Json :=
  .array (items.map write)

/-- An optional value, absent as `null`. -/
def ofOption {Item : Type} (write : Item → Json) : Option Item → Json
  | none => .null
  | some item => write item

end Json

end StagedBuilder
