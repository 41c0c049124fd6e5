/-
This file holds the findings that a build reports. A finding has a code, which
fixes the wording of its message, a severity, a place, further places, and the
arguments that the message is about. A build gives every finding the severity of
its code.

The wording of a code has numbered places. The message comes from putting the
arguments in one after another: the first argument replaces every `0` in braces,
the second then every `1` in braces of the text so far, and so on. An argument
that itself holds a later number in braces is therefore filled in as well.
-/

import StagedBuilder.Declaration.Location

namespace StagedBuilder

/-! ### Codes -/

/-- How bad a finding is. -/
inductive Severity where
  | error
  | warning
  | info
deriving DecidableEq, Inhabited

def Severity.word : Severity → String
  | .error => "error"
  | .warning => "warning"
  | .info => "info"

/-- What a finding says. -/
inductive DiagnosticCode where
  /-- The root of a declaration is not marked as a factory. -/
  | missingMarker
  /-- The name given for a create method is missing or no identifier. -/
  | invalidCreateName
  /-- Two declarations of one target ask for the same create method. -/
  | duplicateCreateName
  /-- A declaration names a create method and asks for none. -/
  | suppressedCreateName
  /-- No chain of calls ends at the constructor. -/
  | unreachableConstructor
  /-- No converter of a group produces the parameter. -/
  | noCompatibleConverter
  /-- A converter of a group does not produce the parameter. -/
  | incompatibleConverter
  /-- A converter is not static. -/
  | converterNotStatic
  /-- A method loses against another one of the same signature; told where it is asked for. -/
  | supersededMethod
  /-- The same, told where the converter is declared. -/
  | supersededConverter
deriving DecidableEq, Inhabited

namespace DiagnosticCode

/-- All codes, in the order of their identifiers. -/
def all : List DiagnosticCode :=
  [.missingMarker, .invalidCreateName, .duplicateCreateName, .suppressedCreateName,
    .unreachableConstructor, .noCompatibleConverter, .incompatibleConverter,
    .converterNotStatic, .supersededMethod, .supersededConverter]

/-- The identifier by which messages refer to a code. -/
def identifier : DiagnosticCode → String
  | .missingMarker => "FLG0001"
  | .invalidCreateName => "FLG0002"
  | .duplicateCreateName => "FLG0003"
  | .suppressedCreateName => "FLG0004"
  | .unreachableConstructor => "FLG0005"
  | .noCompatibleConverter => "FLG0006"
  | .incompatibleConverter => "FLG0007"
  | .converterNotStatic => "FLG0008"
  | .supersededMethod => "FLG0009"
  | .supersededConverter => "FLG0010"

/-- The code of an identifier. -/
def ofIdentifier? (text : String) : Option DiagnosticCode :=
  all.find? (·.identifier == text)

/-- The name of a code in written results. -/
def name : DiagnosticCode → String
  | .missingMarker => "target-type-missing-factory-marker"
  | .invalidCreateName => "invalid-create-method-name"
  | .duplicateCreateName => "duplicate-create-method-name"
  | .suppressedCreateName => "create-method-name-with-suppress-conflict"
  | .unreachableConstructor => "unreachable-constructor"
  | .noCompatibleConverter => "all-alternate-methods-incompatible"
  | .incompatibleConverter => "alternate-method-incompatible"
  | .converterNotStatic => "alternate-method-template-not-static"
  | .supersededMethod => "superseded-alternate-method-template"
  | .supersededConverter => "alternate-method-template-superseded"

def title : DiagnosticCode → String
  | .missingMarker => "Factory root is not marked as a fluent factory"
  | .invalidCreateName => "Invalid create method name"
  | .duplicateCreateName => "Duplicate create method name"
  | .suppressedCreateName => "Create method name conflicts with suppressed create method"
  | .unreachableConstructor => "Unreachable fluent constructor"
  | .noCompatibleConverter => "No compatible alternate method"
  | .incompatibleConverter => "Incompatible alternate method"
  | .converterNotStatic => "Alternate method template is not static"
  | .supersededMethod => "Alternate method superseded"
  | .supersededConverter => "Alternate method template superseded"

/-- How bad a finding of the code usually is. -/
def severity : DiagnosticCode → Severity
  | .incompatibleConverter | .converterNotStatic | .supersededMethod => .warning
  | .supersededConverter => .info
  | _ => .error

/-- The wording, with numbered places for the arguments. -/
def wording : DiagnosticCode → String
  | .missingMarker =>
    "Type '{0}' used by fluent constructor '{1}' is not marked as a fluent factory"
  | .invalidCreateName =>
    "'{0}' is not a valid create method name for fluent constructor '{1}'"
  | .duplicateCreateName =>
    "Create method name '{0}' is used by more than one fluent constructor of '{1}'"
  | .suppressedCreateName =>
    "Fluent constructor '{0}' names create method '{1}' but also suppresses it"
  | .unreachableConstructor =>
    "Fluent constructor '{0}' is unreachable: another constructor with an indistinguishable "
      ++ "parameter sequence shadows it"
  | .noCompatibleConverter =>
    "None of the alternate methods in '{0}' can produce parameter '{1}' of type '{2}'"
  | .incompatibleConverter =>
    "Alternate method '{0}' cannot produce parameter '{1}' of type '{2}' and is ignored"
  | .converterNotStatic => "Alternate method template '{0}' should be static"
  | .supersededMethod => "Alternate method '{0}' is superseded by '{1}' and will not be generated"
  | .supersededConverter =>
    "Alternate method template '{0}' for parameter '{1}' of '{2}' is superseded by '{3}'"

end DiagnosticCode

/-! ### Filling in arguments -/

/-- Replaces every occurrence of a non-empty pattern, from left to right; `skip` characters
belong to an occurrence that is replaced already. -/
def replaceFrom (pattern replacement : List Char) (skip : Nat) : List Char → List Char
  | [] => []
  | character :: rest =>
    match skip with
    | remaining + 1 => replaceFrom pattern replacement remaining rest
    | 0 =>
      if pattern.isPrefixOf (character :: rest) then
        replacement ++ replaceFrom pattern replacement (pattern.length - 1) rest
      else character :: replaceFrom pattern replacement 0 rest

/-- The place of an argument in a wording: its number in braces. -/
def argumentPlace (index : Nat) : List Char := '\x7b' :: (toString index).toList ++ ['\x7d']

/-- Puts arguments into a text one after another, the first one at the given number. -/
def fillIn (text : List Char) (index : Nat) : List String → List Char
  | [] => text
  | argument :: rest =>
    fillIn (replaceFrom (argumentPlace index) argument.toList 0 text) (index + 1) rest

/-! ### Findings -/

/-- A finding of a build. -/
structure Diagnostic where
  code : DiagnosticCode
  severity : Severity := code.severity
  location : Location
  additionalLocations : List Location := []
  arguments : List String := []
deriving DecidableEq, Inhabited

namespace Diagnostic

def isError (diagnostic : Diagnostic) : Bool := diagnostic.severity = .error

/-- The wording of the code with the arguments put in. -/
def message (diagnostic : Diagnostic) : String :=
  String.ofList (fillIn diagnostic.code.wording.toList 0 diagnostic.arguments)

/-- One line: place, severity, identifier, message. -/
def display (diagnostic : Diagnostic) : String :=
  diagnostic.location.display ++ ": " ++ diagnostic.severity.word
    ++ " [" ++ diagnostic.code.identifier ++ "] " ++ diagnostic.message

/-- The JSON form of a finding; further places are left out when there are none. -/
def toJson (diagnostic : Diagnostic) : Json :=
  .object ([
    ("code", .string diagnostic.code.name),
    ("severity", .string diagnostic.severity.word),
    ("location", diagnostic.location.toJson)]
    ++ (if diagnostic.additionalLocations.isEmpty then []
      else [("additional_locations", .ofList Location.toJson diagnostic.additionalLocations)])
    ++ [("arguments", .ofList .string diagnostic.arguments)])

end Diagnostic

end StagedBuilder
