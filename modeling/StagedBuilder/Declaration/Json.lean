/-
This file gives declarations their JSON form. What is written names every field,
with `null` for an absent one; what is read may leave out every field that has a
default. Writing a declaration and reading it gives the same declaration back.
-/

import StagedBuilder.Declaration.Basic
import StagedBuilder.Type.Json

namespace StagedBuilder

/-! ### Words -/

def DeclaredKind.word : DeclaredKind → String
  | .classType => "class"
  | .structType => "struct"
  | .interfaceType => "interface"
  | .recordType => "record"

def DeclaredKind.ofWord? : String → Option DeclaredKind
  | "class" => some .classType
  | "struct" => some .structType
  | "interface" => some .interfaceType
  | "record" => some .recordType
  | _ => none

def Accessibility.word : Accessibility → String
  | .publicAccess => "public"
  | .internalAccess => "internal"
  | .protectedAccess => "protected"
  | .privateAccess => "private"

def Accessibility.ofWord? : String → Option Accessibility
  | "public" => some .publicAccess
  | "internal" => some .internalAccess
  | "protected" => some .protectedAccess
  | "private" => some .privateAccess
  | _ => none

/-! ### Roots and targets -/

/-- Reads a root; every field has a default. -/
def Root.ofJson? (json : Json) : Option Root := do
  let [name, space, typeParameters, hasMarker, isStatic, isRecord, kind, accessibility,
      location] ← json.record? ["name", "namespace", "type_parameters", "has_factory_marker",
        "is_static", "is_record", "kind", "accessibility", "location"] | none
  return {
    name := ← Json.withDefault? "" Json.string? name
    space := ← Json.optional? Json.string? space
    typeParameters := ← Json.withDefault? [] (Json.listOf? TypeParameter.ofJson?) typeParameters
    hasMarker := ← Json.withDefault? false Json.bool? hasMarker
    isStatic := ← Json.withDefault? false Json.bool? isStatic
    isRecord := ← Json.withDefault? false Json.bool? isRecord
    kind := ← Json.withDefault? .classType (Json.word? DeclaredKind.ofWord?) kind
    accessibility :=
      ← Json.withDefault? .publicAccess (Json.word? Accessibility.ofWord?) accessibility
    location := ← Json.withDefault? {} Location.ofJson? location }

def Root.toJson (root : Root) : Json :=
  .object [
    ("name", .string root.name),
    ("namespace", .ofOption .string root.space),
    ("type_parameters", .ofList TypeParameter.toJson root.typeParameters),
    ("has_factory_marker", .bool root.hasMarker),
    ("is_static", .bool root.isStatic),
    ("is_record", .bool root.isRecord),
    ("kind", .string root.kind.word),
    ("accessibility", .string root.accessibility.word),
    ("location", root.location.toJson)]

/-- Reads a target; every field has a default. -/
def Target.ofJson? (json : Json) : Option Target := do
  let [name, space, typeParameters, isPartial, isStatic, isSealed, isRecord, kind,
      accessibility, location] ← json.record? ["name", "namespace", "type_parameters",
        "is_partial", "is_static", "is_sealed", "is_record", "kind", "accessibility",
        "location"] | none
  return {
    name := ← Json.withDefault? "" Json.string? name
    space := ← Json.optional? Json.string? space
    typeParameters := ← Json.withDefault? [] (Json.listOf? TypeParameter.ofJson?) typeParameters
    isPartial := ← Json.withDefault? false Json.bool? isPartial
    isStatic := ← Json.withDefault? false Json.bool? isStatic
    isSealed := ← Json.withDefault? false Json.bool? isSealed
    isRecord := ← Json.withDefault? false Json.bool? isRecord
    kind := ← Json.withDefault? .classType (Json.word? DeclaredKind.ofWord?) kind
    accessibility :=
      ← Json.withDefault? .publicAccess (Json.word? Accessibility.ofWord?) accessibility
    location := ← Json.withDefault? {} Location.ofJson? location }

def Target.toJson (target : Target) : Json :=
  .object [
    ("name", .string target.name),
    ("namespace", .ofOption .string target.space),
    ("type_parameters", .ofList TypeParameter.toJson target.typeParameters),
    ("is_partial", .bool target.isPartial),
    ("is_static", .bool target.isStatic),
    ("is_sealed", .bool target.isSealed),
    ("is_record", .bool target.isRecord),
    ("kind", .string target.kind.word),
    ("accessibility", .string target.accessibility.word),
    ("location", target.location.toJson)]

/-! ### Documentation -/

/-- Reads a dictionary of texts; of repeated keys the last one counts. -/
def Dictionary.textsOfJson? : Json → Option (Dictionary String)
  | .object fields => do
    let entries ← fields.mapM fun (key, value) => value.string?.map (key, ·)
    return .ofList entries
  | _ => none

def Dictionary.textsToJson (texts : Dictionary String) : Json :=
  .object (texts.entries.map fun (key, text) => (key, .string text))

/-- Reads documentation; every field has a default. -/
def Documentation.ofJson? (json : Json) : Option Documentation := do
  let [summary, parameters] ← json.record? ["summary", "parameters"] | none
  return {
    summary := ← Json.optional? Json.string? summary
    parameters := ← Json.withDefault? .empty Dictionary.textsOfJson? parameters }

def Documentation.toJson (documentation : Documentation) : Json :=
  .object [
    ("summary", .ofOption .string documentation.summary),
    ("parameters", documentation.parameters.textsToJson)]

/-! ### Converters -/

def ConverterParameter.ofJson? (json : Json) : Option ConverterParameter := do
  let [name, type] ← json.record? ["name", "ty"] | none
  return ⟨← Json.required? Json.string? name, ← Json.required? TypeTerm.ofJson? type⟩

def ConverterParameter.toJson (parameter : ConverterParameter) : Json :=
  .object [("name", .string parameter.name), ("ty", parameter.type.toJson)]

def Converter.ofJson? (json : Json) : Option Converter := do
  let [name, typeParameters, parameters, returnType, isStatic, priority, documentation,
      locations] ← json.record? ["name", "type_parameters", "parameters", "return_type",
        "is_static", "priority", "documentation", "locations"] | none
  return {
    name := ← Json.required? Json.string? name
    typeParameters := ← Json.withDefault? [] (Json.listOf? TypeParameter.ofJson?) typeParameters
    parameters := ← Json.withDefault? [] (Json.listOf? ConverterParameter.ofJson?) parameters
    returnType := ← Json.required? TypeTerm.ofJson? returnType
    isStatic := ← Json.withDefault? true Json.bool? isStatic
    priority := ← Json.withDefault? 0 Json.signed32? priority
    documentation := ← Json.optional? Documentation.ofJson? documentation
    locations := ← Json.withDefault? [] (Json.listOf? Location.ofJson?) locations }

def Converter.toJson (converter : Converter) : Json :=
  .object [
    ("name", .string converter.name),
    ("type_parameters", .ofList TypeParameter.toJson converter.typeParameters),
    ("parameters", .ofList ConverterParameter.toJson converter.parameters),
    ("return_type", converter.returnType.toJson),
    ("is_static", .bool converter.isStatic),
    ("priority", .integer converter.priority.toInt),
    ("documentation", .ofOption Documentation.toJson converter.documentation),
    ("locations", .ofList Location.toJson converter.locations)]

def ConverterGroup.ofJson? (json : Json) : Option ConverterGroup := do
  let [declaringType, converters, location] ←
    json.record? ["declaring_type", "templates", "location"] | none
  return {
    declaringType := ← Json.required? TypeTerm.ofJson? declaringType
    converters := ← Json.required? (Json.listOf? Converter.ofJson?) converters
    location := ← Json.withDefault? {} Location.ofJson? location }

def ConverterGroup.toJson (group : ConverterGroup) : Json :=
  .object [
    ("declaring_type", group.declaringType.toJson),
    ("templates", .ofList Converter.toJson group.converters),
    ("location", group.location.toJson)]

/-! ### Constructors and declarations -/

def Parameter.ofJson? (json : Json) : Option Parameter := do
  let [name, type, methodName, priority, group, member, documentation, location] ←
    json.record? ["name", "ty", "fluent_method_name", "priority", "method_group",
      "storage_member", "documentation", "location"] | none
  return {
    name := ← Json.required? Json.string? name
    type := ← Json.required? TypeTerm.ofJson? type
    methodName := ← Json.optional? Json.string? methodName
    priority := ← Json.withDefault? 0 Json.signed32? priority
    group := ← Json.optional? ConverterGroup.ofJson? group
    member := ← Json.optional? Json.string? member
    documentation := ← Json.optional? Json.string? documentation
    location := ← Json.withDefault? {} Location.ofJson? location }

def Parameter.toJson (parameter : Parameter) : Json :=
  .object [
    ("name", .string parameter.name),
    ("ty", parameter.type.toJson),
    ("fluent_method_name", .ofOption .string parameter.methodName),
    ("priority", .integer parameter.priority.toInt),
    ("method_group", .ofOption ConverterGroup.toJson parameter.group),
    ("storage_member", .ofOption .string parameter.member),
    ("documentation", .ofOption .string parameter.documentation),
    ("location", parameter.location.toJson)]

def Constructor.ofJson? (json : Json) : Option Constructor := do
  let [target, parameters, documentation, location] ←
    json.record? ["containing_type", "parameters", "documentation", "location"] | none
  return {
    target := ← Json.required? Target.ofJson? target
    parameters := ← Json.required? (Json.listOf? Parameter.ofJson?) parameters
    documentation := ← Json.optional? Documentation.ofJson? documentation
    location := ← Json.withDefault? {} Location.ofJson? location }

def Constructor.toJson (constructor : Constructor) : Json :=
  .object [
    ("containing_type", constructor.target.toJson),
    ("parameters", .ofList Parameter.toJson constructor.parameters),
    ("documentation", .ofOption Documentation.toJson constructor.documentation),
    ("location", constructor.location.toJson)]

/-- Reads options; every field has a default. -/
def Options.ofJson? (json : Json) : Option Options := do
  let [noCreateMethod, customCreateMethodName] ←
    json.record? ["no_create_method", "custom_create_method_name"] | none
  return {
    noCreateMethod := ← Json.withDefault? false Json.bool? noCreateMethod
    customCreateMethodName := ← Json.withDefault? false Json.bool? customCreateMethodName }

def Options.toJson (options : Options) : Json :=
  .object [
    ("no_create_method", .bool options.noCreateMethod),
    ("custom_create_method_name", .bool options.customCreateMethodName)]

def Declaration.ofJson? (json : Json) : Option Declaration := do
  let [constructor, root, options, createMethodName, attributeLocation] ←
    json.record? ["constructor", "root", "options", "create_method_name",
      "attribute_location"] | none
  return {
    constructor := ← Json.required? Constructor.ofJson? constructor
    root := ← Json.required? Json.string? root
    options := ← Json.withDefault? {} Options.ofJson? options
    createMethodName := ← Json.optional? Json.string? createMethodName
    attributeLocation := ← Json.withDefault? {} Location.ofJson? attributeLocation }

def Declaration.toJson (declaration : Declaration) : Json :=
  .object [
    ("constructor", declaration.constructor.toJson),
    ("root", .string declaration.root),
    ("options", declaration.options.toJson),
    ("create_method_name", .ofOption .string declaration.createMethodName),
    ("attribute_location", declaration.attributeLocation.toJson)]

end StagedBuilder
