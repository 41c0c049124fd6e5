/-
This file gives builders their JSON form. The order of the fields is fixed, so
that the compact text of a builder is determined by the builder and a fingerprint
can be taken of it.
-/

import StagedBuilder.Builder.Basic
import StagedBuilder.Declaration.Json

namespace StagedBuilder

/-! ### Methods -/

/-- The fields of a finished target. -/
def Product.fields (product : Product) : List (String × Json) :=
  [("target", product.target.toJson),
    ("constructor", .ofNat product.constructor),
    ("candidate_constructors", .ofList .ofNat product.candidates)]

/-- The JSON form of a result, tagged by its kind. -/
def Result.toJson : Result → Json
  | .product value => .object (("kind", .string "target") :: value.fields)
  | .step index => .object [("kind", .string "step"), ("step", .ofNat index)]

/-- The JSON form of an argument; a missing text is left out. -/
def Argument.toJson (argument : Argument) : Json :=
  .object ([("name", .string argument.name), ("ty", argument.type.toJson)]
    ++ (argument.documentation.map fun text => ("documentation", Json.string text)).toList)

def Source.toJson (source : Source) : Json :=
  .object [
    ("constructor", .ofNat source.constructor),
    ("index", .ofNat source.index),
    ("name", .string source.name),
    ("ty", source.type.toJson)]

def ConverterCall.toJson (call : ConverterCall) : Json :=
  .object [
    ("declaring_type", call.declaringType.toJson),
    ("method", .string call.method),
    ("arguments", .ofList .string call.arguments)]

/-- The JSON form of a method, tagged by its kind. -/
def Method.toJson : Method → Json
  | .supply method => .object [
      ("kind", .string "regular"),
      ("name", .string method.name),
      ("source_parameter", method.source.toJson),
      ("method_parameters", .ofList Argument.toJson method.arguments),
      ("type_parameters", .ofList TypeParameter.toJson method.typeParameters),
      ("return", method.result.toJson),
      ("documentation", .ofOption .string method.documentation),
      ("priority", .integer method.priority.toInt),
      ("location", method.location.toJson)]
  | .conversion method => .object [
      ("kind", .string "multi"),
      ("name", .string method.name),
      ("source_parameter", method.source.toJson),
      ("method_parameters", .ofList Argument.toJson method.arguments),
      ("type_parameters", .ofList TypeParameter.toJson method.typeParameters),
      ("return", method.result.toJson),
      ("documentation", .ofOption .string method.documentation),
      ("priority", .integer method.priority.toInt),
      ("converter", method.converter.toJson),
      ("siblings", .ofList .string method.siblings),
      ("attribute_location", method.attributeLocation.toJson),
      ("template_locations", .ofList Location.toJson method.converterLocations)]
  | .creation method => .object [
      ("kind", .string "creation"),
      ("name", .string method.name),
      ("target", .object method.product.fields),
      ("type_parameters", .ofList TypeParameter.toJson method.typeParameters),
      ("documentation", .ofOption .string method.documentation),
      ("location", method.location.toJson)]

/-! ### Steps -/

/-- The JSON form of a storage, tagged by its kind. -/
def Storage.toJson : Storage → Json
  | .field name => .object [("kind", .string "field"), ("name", .string name)]
  | .property name => .object [("kind", .string "property"), ("name", .string name)]

def Known.toJson (known : Known) : Json :=
  .object [
    ("name", .string known.name),
    ("ty", known.type.toJson),
    ("storage", known.storage.toJson)]

/-- The JSON form of a step, tagged by its kind. -/
def Step.toJson : Step → Json
  | .synthesized step => .object [
      ("kind", .string "regular"),
      ("index", .ofNat step.index),
      ("name", .string step.name),
      ("known_parameters", .ofList Known.toJson step.known),
      ("type_parameters", .ofList TypeParameter.toJson step.typeParameters),
      ("methods", .ofList Method.toJson step.methods),
      ("constructor", .ofNat step.constructor),
      ("candidate_constructors", .ofList .ofNat step.candidates)]
  | .existing step => .object [
      ("kind", .string "existing_type"),
      ("index", .ofNat step.index),
      ("target", step.target.toJson),
      ("constructor", .ofNat step.constructor),
      ("known_parameters", .ofList Known.toJson step.known),
      ("type_parameters", .ofList TypeParameter.toJson step.typeParameters),
      ("methods", .ofList Method.toJson step.methods)]

/-! ### Builders -/

def ConstructorSummary.toJson (summary : ConstructorSummary) : Json :=
  .object [
    ("id", .ofNat summary.id),
    ("display", .string summary.display),
    ("target", summary.target.toJson),
    ("location", summary.location.toJson)]

def Builder.toJson (builder : Builder) : Json :=
  .object [
    ("root", builder.root.toJson),
    ("root_name", .string builder.rootName),
    ("namespace", .ofOption .string builder.space),
    ("type_parameters", .ofList TypeParameter.toJson builder.typeParameters),
    ("is_static", .bool builder.isStatic),
    ("is_record", .bool builder.isRecord),
    ("kind", .string builder.kind.word),
    ("accessibility", .string builder.accessibility.word),
    ("usings", .ofList .string builder.usings),
    ("methods", .ofList Method.toJson builder.methods),
    ("steps", .ofList Step.toJson builder.steps),
    ("constructors", .ofList ConstructorSummary.toJson builder.constructors),
    ("diagnostics", .ofList Diagnostic.toJson builder.diagnostics)]

end StagedBuilder
