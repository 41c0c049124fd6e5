/-
This file decides when a lost collision is worth a report. Of several methods
with one signature only one survives. A converter that loses is not missed if
everything it leads to can be reached through the survivor as well, and losing
to a sibling is expected when the survivor and all losing converters belong to
one type. In every other case each losing converter is reported where it is asked
for, and once more at every place where it is declared.
-/

import StagedBuilder.Diagnostic.Basic
import StagedBuilder.Type.Json

namespace StagedBuilder

/-- What a method that takes part in a collision would lead to. -/
structure Outcome where
  display : String
  location : Location
  /-- The type that declares the converter, if the method goes through one. -/
  converterType : Option TypeTerm
  /-- The constructors that chains of calls through the method end at. -/
  reach : List Nat
deriving DecidableEq, Inhabited

/-- A converter method that lost a collision. -/
structure Displaced where
  outcome : Outcome
  attributeLocation : Location
  converterLocations : List Location
  /-- The name of the parameter that the converter produces. -/
  parameter : String
  /-- The constructor that has the parameter. -/
  constructor : String
deriving DecidableEq, Inhabited

namespace Displaced

/-- Whether everything the losing methods lead to is reached through the survivor. -/
def losesNothing (survivor : Outcome) (displaced : List Displaced) : Bool :=
  displaced.all fun loser => loser.outcome.reach.all survivor.reach.contains

/-- Whether survivor and losers are converters of one type. -/
def sameFamily (survivor : Outcome) (displaced : List Displaced) : Bool :=
  match survivor.converterType with
  | none => false
  | some family => displaced.all fun loser => loser.outcome.converterType = some family

/-- The findings about one losing converter. -/
def findings (survivor : Outcome) (loser : Displaced) : List Diagnostic :=
  { code := .supersededMethod
    location := loser.attributeLocation
    additionalLocations := [survivor.location]
    arguments := [loser.outcome.display, survivor.display] }
  :: loser.converterLocations.map fun location =>
    { code := .supersededConverter
      location
      arguments :=
        [loser.outcome.display, loser.parameter, loser.constructor, survivor.display] }

/-- The findings about all converters that lost against one survivor. -/
def diagnostics (survivor : Outcome) (displaced : List Displaced) : List Diagnostic :=
  if losesNothing survivor displaced || sameFamily survivor displaced then []
  else displaced.flatMap (findings survivor)

end Displaced

/-! ### JSON forms -/

def Outcome.ofJson? (json : Json) : Option Outcome := do
  let [display, location, converterType, reach] ←
    json.record? ["display", "location", "converter_type", "reach"] | none
  return {
    display := ← Json.required? Json.string? display
    location := ← Json.withDefault? {} Location.ofJson? location
    converterType := ← Json.optional? TypeTerm.ofJson? converterType
    reach := ← Json.withDefault? [] (Json.listOf? Json.index?) reach }

def Displaced.ofJson? (json : Json) : Option Displaced := do
  let [outcome, attributeLocation, converterLocations, parameter, constructor] ← json.record?
    ["outcome", "attribute_location", "template_locations", "parameter", "constructor"] | none
  return {
    outcome := ← Json.required? Outcome.ofJson? outcome
    attributeLocation := ← Json.withDefault? {} Location.ofJson? attributeLocation
    converterLocations := ← Json.withDefault? [] (Json.listOf? Location.ofJson?) converterLocations
    parameter := ← Json.withDefault? "" Json.string? parameter
    constructor := ← Json.withDefault? "" Json.string? constructor }

end StagedBuilder
