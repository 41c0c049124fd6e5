/-
This file gives types, constraints and declared type parameters their JSON form.
A type is an object tagged by its `kind`, or an array that starts with the tag;
name space and arguments are left out of what is written when there are none.

Arguments of a type are read under a slightly wider rule than the type itself:
their tag may also be the number of the kind, 0 for a named type and 1 for a
type parameter.
-/

import StagedBuilder.Json.Record
import StagedBuilder.Type.Parameter

namespace StagedBuilder

/-! ### Types -/

/-- The two kinds of types. -/
inductive TypeKindTag where
  | named
  | param
deriving DecidableEq

/-- Reads the tag of a type; the tag of an argument may be a number. -/
def TypeKindTag.ofJson? (asArgument : Bool) : Json → Option TypeKindTag
  | .string "named" => some .named
  | .string "param" => some .param
  | .integer 0 => if asArgument then some .named else none
  | .integer 1 => if asArgument then some .param else none
  | _ => none

namespace TypeTerm

/-- The type of the given kind from its fields, each `none` if it is left out; `arguments`
is what the field of the arguments reads as. -/
def assemble? (tag : TypeKindTag) (space name : Option Json)
    (arguments : Option (List TypeTerm)) : Option TypeTerm :=
  match tag with
  | .named => do
    let space ← Json.optional? Json.string? space
    let name ← Json.required? Json.string? name
    return .named space name (← arguments)
  | .param => do
    let name ← Json.required? Json.string? name
    return .parameter name

mutual

def read? (asArgument : Bool) : Json → Option TypeTerm
  | .object fields => do
    let tag ← (← Json.soleField? fields "kind").bind (TypeKindTag.ofJson? asArgument)
    match tag with
    | .named =>
      assemble? .named (← Json.soleField? fields "namespace") (← Json.soleField? fields "name")
        (do let _ ← Json.soleField? fields "args"; argumentsField? fields)
    | .param => assemble? .param none (← Json.soleField? fields "name") none
  | .array items => readItems? asArgument items
  | _ => none

/-- Reads a type from the items of an array, the first of which is the tag. -/
def readItems? (asArgument : Bool) : List Json → Option TypeTerm
  | [] => none
  | tag :: rest => do
    match ← TypeKindTag.ofJson? asArgument tag with
    | .named =>
      match rest with
      | [space, name] => assemble? .named (some space) (some name) (some [])
      | [space, name, .array arguments] =>
        assemble? .named (some space) (some name) (readAll? arguments)
      | _ => none
    | .param =>
      match rest with
      | [name] => assemble? .param none (some name) none
      | _ => none

/-- Reads the arguments from the fields of a type; without such a field there are none. -/
def argumentsField? : List (String × Json) → Option (List TypeTerm)
  | [] => some []
  | (key, .array items) :: rest =>
    if key = "args" then readAll? items else argumentsField? rest
  | (key, _) :: rest => if key = "args" then none else argumentsField? rest

def readAll? : List Json → Option (List TypeTerm)
  | [] => some []
  | first :: rest => do
    let type ← read? true first
    return type :: (← readAll? rest)

end

def ofJson? (json : Json) : Option TypeTerm := read? false json

mutual

def toJson : TypeTerm → Json
  | .named space name arguments =>
    .object ([("kind", .string "named")]
      ++ (space.map fun text => ("namespace", Json.string text)).toList
      ++ [("name", .string name)]
      ++ (if arguments.isEmpty then [] else [("args", .array (allToJson arguments))]))
  | .parameter name => .object [("kind", .string "param"), ("name", .string name)]

def allToJson : List TypeTerm → List Json
  | [] => []
  | first :: rest => first.toJson :: allToJson rest

end

end TypeTerm

/-! ### Type parameters -/

/-- Reads constraints; every field has a default. -/
def Constraints.ofJson? (json : Json) : Option Constraints := do
  let [valueType, referenceType, constructor, bounds] ←
    json.record? ["value_type", "reference_type", "constructor", "bounds"] | none
  return {
    valueType := ← Json.withDefault? false Json.bool? valueType
    referenceType := ← Json.withDefault? false Json.bool? referenceType
    defaultConstructor := ← Json.withDefault? false Json.bool? constructor
    bounds := ← Json.withDefault? [] (Json.listOf? TypeTerm.ofJson?) bounds }

/-- The JSON form of constraints, all fields written. -/
def Constraints.toJson (constraints : Constraints) : Json :=
  .object [
    ("value_type", .bool constraints.valueType),
    ("reference_type", .bool constraints.referenceType),
    ("constructor", .bool constraints.defaultConstructor),
    ("bounds", .ofList TypeTerm.toJson constraints.bounds)]

def TypeParameter.ofJson? (json : Json) : Option TypeParameter := do
  let [name, constraints] ← json.record? ["name", "constraints"] | none
  return {
    name := ← Json.required? Json.string? name
    constraints := ← Json.withDefault? {} Constraints.ofJson? constraints }

/-- The JSON form of a declared type parameter; constraints that demand nothing are left
out. -/
def TypeParameter.toJson (declared : TypeParameter) : Json :=
  .object ([("name", .string declared.name)]
    ++ if declared.constraints.isEmpty then []
      else [("constraints", declared.constraints.toJson)])

end StagedBuilder
