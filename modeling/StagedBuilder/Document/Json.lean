/-
This file reads documents from their JSON form. Every record may leave out fields
that have a default, and fields that nobody knows are passed over whatever they
hold.

A type parameter is the one value that has two forms, a name or a record. Which of
the two it is shows only after all of it is read, so that, unlike anywhere else,
every piece of it must be readable, unknown fields included, and it may not nest
too deep, counted from the outside of the document.
-/

import StagedBuilder.Declaration.Json
import StagedBuilder.Document.Basic
import StagedBuilder.Json.Parser

namespace StagedBuilder.Document

/-! ### Type parameters -/

/-- Reads a type parameter that stands inside of `outside` arrays and objects. -/
def TypeParameterEntry.ofJson? (outside : Nat) (json : Json) : Option TypeParameterEntry :=
  match json with
  | .string name => some { name }
  | .object fields =>
    if json.isPlain (Json.depthLimit - outside) then do
      let [name, valueType, referenceType, defaultConstructor, bounds] ←
        Json.namedFields? ["name", "value_type", "reference_type", "constructor", "bounds"]
          fields | none
      return {
        name := ← Json.required? Json.string? name
        constraints := {
          valueType := ← Json.withDefault? false Json.bool? valueType
          referenceType := ← Json.withDefault? false Json.bool? referenceType
          defaultConstructor := ← Json.withDefault? false Json.bool? defaultConstructor }
        bounds := ← Json.withDefault? [] (Json.listOf? Json.string?) bounds }
    else none
  | _ => none

/-- Reads the type parameters of an entry that stands inside of `outside` arrays and objects. -/
def typeParameters? (outside : Nat) : Option Json → Option (List TypeParameterEntry) :=
  Json.withDefault? [] (Json.listOf? (TypeParameterEntry.ofJson? (outside + 2)))

/-! ### Roots and targets -/

/-- Reads a root. Roots of documents are marked and static unless they say otherwise. -/
def RootEntry.ofJson? (json : Json) : Option RootEntry := do
  let [name, space, typeParameters, hasMarker, isStatic, isRecord, kind, accessibility,
      location] ← json.record? ["name", "namespace", "type_parameters", "has_factory_marker",
        "is_static", "is_record", "kind", "accessibility", "location"] | none
  return {
    root := {
      name := ← Json.required? Json.string? name
      space := ← Json.optional? Json.string? space
      hasMarker := ← Json.withDefault? true Json.bool? hasMarker
      isStatic := ← Json.withDefault? true Json.bool? isStatic
      isRecord := ← Json.withDefault? false Json.bool? isRecord
      kind := ← Json.withDefault? .classType (Json.word? DeclaredKind.ofWord?) kind
      accessibility :=
        ← Json.withDefault? .publicAccess (Json.word? Accessibility.ofWord?) accessibility
      location := ← Json.withDefault? {} Location.ofJson? location }
    typeParameters := ← typeParameters? 2 typeParameters }

def TargetEntry.ofJson? (json : Json) : Option TargetEntry := do
  let [name, space, typeParameters, isPartial, isStatic, isSealed, isRecord, kind,
      accessibility, location] ← json.record? ["name", "namespace", "type_parameters",
        "is_partial", "is_static", "is_sealed", "is_record", "kind", "accessibility",
        "location"] | none
  return {
    target := {
      name := ← Json.required? Json.string? name
      space := ← Json.optional? Json.string? space
      isPartial := ← Json.withDefault? false Json.bool? isPartial
      isStatic := ← Json.withDefault? false Json.bool? isStatic
      isSealed := ← Json.withDefault? false Json.bool? isSealed
      isRecord := ← Json.withDefault? false Json.bool? isRecord
      kind := ← Json.withDefault? .classType (Json.word? DeclaredKind.ofWord?) kind
      accessibility :=
        ← Json.withDefault? .publicAccess (Json.word? Accessibility.ofWord?) accessibility
      location := ← Json.withDefault? {} Location.ofJson? location }
    typeParameters := ← typeParameters? 3 typeParameters }

/-! ### Converters -/

/-- Reads name and type expression of a converter's parameter. -/
def converterParameter? (json : Json) : Option (String × String) := do
  let [name, type] ← json.record? ["name", "type"] | none
  return (← Json.required? Json.string? name, ← Json.required? Json.string? type)

def ConverterEntry.ofJson? (json : Json) : Option ConverterEntry := do
  let [name, typeParameters, parameters, returnType, isStatic, priority, documentation,
      locations] ← json.record? ["name", "type_parameters", "parameters", "return_type",
        "is_static", "priority", "documentation", "locations"] | none
  return {
    name := ← Json.required? Json.string? name
    typeParameters := ← typeParameters? 7 typeParameters
    parameters := ← Json.withDefault? [] (Json.listOf? converterParameter?) parameters
    returnType := ← Json.required? Json.string? returnType
    isStatic := ← Json.withDefault? true Json.bool? isStatic
    priority := ← Json.withDefault? 0 Json.signed32? priority
    documentation := ← Json.optional? Documentation.ofJson? documentation
    locations := ← Json.withDefault? [] (Json.listOf? Location.ofJson?) locations }

def GroupEntry.ofJson? (json : Json) : Option GroupEntry := do
  let [declaringType, converters, location] ←
    json.record? ["declaring_type", "templates", "location"] | none
  return {
    declaringType := ← Json.required? Json.string? declaringType
    converters := ← Json.required? (Json.listOf? ConverterEntry.ofJson?) converters
    location := ← Json.withDefault? {} Location.ofJson? location }

/-! ### Constructors -/

def ParameterEntry.ofJson? (json : Json) : Option ParameterEntry := do
  let [name, type, methodName, priority, group, member, documentation, location] ←
    json.record? ["name", "type", "fluent_method_name", "priority", "method_group",
      "storage_member", "documentation", "location"] | none
  return {
    name := ← Json.required? Json.string? name
    type := ← Json.required? Json.string? type
    methodName := ← Json.optional? Json.string? methodName
    priority := ← Json.withDefault? 0 Json.signed32? priority
    group := ← Json.optional? GroupEntry.ofJson? group
    member := ← Json.optional? Json.string? member
    documentation := ← Json.optional? Json.string? documentation
    location := ← Json.withDefault? {} Location.ofJson? location }

def ConstructorEntry.ofJson? (json : Json) : Option ConstructorEntry := do
  let [root, target, parameters, options, createMethodName, documentation, location,
      attributeLocation] ← json.record? ["root", "target", "parameters", "options",
        "create_method_name", "documentation", "location", "attribute_location"] | none
  return {
    root := ← Json.required? Json.string? root
    target := ← Json.required? TargetEntry.ofJson? target
    parameters := ← Json.withDefault? [] (Json.listOf? ParameterEntry.ofJson?) parameters
    options := ← Json.withDefault? {} Options.ofJson? options
    createMethodName := ← Json.optional? Json.string? createMethodName
    documentation := ← Json.optional? Documentation.ofJson? documentation
    location := ← Json.withDefault? {} Location.ofJson? location
    attributeLocation := ← Json.withDefault? {} Location.ofJson? attributeLocation }

/-! ### Documents -/

def ofJson? (json : Json) : Option Document := do
  let [roots, constructors] ← json.record? ["roots", "constructors"] | none
  return {
    roots := ← Json.withDefault? [] (Json.listOf? RootEntry.ofJson?) roots
    constructors := ← Json.withDefault? [] (Json.listOf? ConstructorEntry.ofJson?) constructors }

/-- Reads a document from its text. -/
def parse? (text : String) : Option Document := do ofJson? (← Json.parse? text)

end StagedBuilder.Document
