/-
This file makes type parameters comparable across constructors. Two constructors
rarely call their type parameters the same, so names say nothing; what counts is
where a type parameter first occurs along the parameter list. Numbering the type
parameters of one constructor in that order and writing the numbers instead of
the names gives the positional form of its parameter types: two lists of types
have the same positional form exactly if one is the other with its type
parameters renamed.

A placeholder is a type parameter called by a number, `$0`, `$1` and so on. A
numbering is the list of the names it numbers, the number of a name being its
place in the list.
-/

import StagedBuilder.Type.Basic
import StagedBuilder.Text.Decimal

namespace StagedBuilder

/-! ### Placeholders -/

def placeholderName (index : Nat) : String := "$" ++ toString index

def placeholder (index : Nat) : TypeTerm := .parameter (placeholderName index)

/-- The number that a placeholder name stands for, a machine word. -/
def placeholderNumber? (name : String) : Option Nat :=
  match name.toList with
  | '$' :: numeral => Decimal.readBelow? 0x10000000000000000 numeral
  | _ => none

/-- The number of a type that is a placeholder. -/
def TypeTerm.placeholderIndex? (type : TypeTerm) : Option Nat :=
  type.parameterName?.bind placeholderNumber?

/-! ### Numberings -/

/-- The type parameters of one constructor in the order of their first occurrences. -/
structure Numbering where
  names : List String := []
deriving DecidableEq, Inhabited

namespace Numbering

/-- The number of a type parameter. -/
def index? (numbering : Numbering) (name : String) : Option Nat :=
  numbering.names.findIdx? (· == name)

/-- The substitution that writes numbers instead of names. -/
def substitution (numbering : Numbering) : Substitution :=
  numbering.names.zipIdx.map fun (name, index) => (name, placeholder index)

/-- The positional form of a type. -/
def positional (numbering : Numbering) (type : TypeTerm) : TypeTerm :=
  type.substitute numbering.substitution

/-- The type parameters of a type that have no number yet. -/
def unseen (numbering : Numbering) (type : TypeTerm) : List String :=
  type.parameters.filter fun name => !numbering.names.contains name

/-- Numbers the type parameters of a type that have no number yet. -/
def extend (numbering : Numbering) (type : TypeTerm) : Numbering :=
  ⟨numbering.names ++ numbering.unseen type⟩

end Numbering

/-! ### Positional forms of lists of types -/

/-- The positional form of one type of a list. -/
structure Positioned where
  type : TypeTerm
  /-- The placeholders that occur here for the first time, with the names they stand for. -/
  introduced : List (Nat × String)
deriving DecidableEq, Inhabited

/-- The placeholders that a type introduces after the given numbering. -/
def Numbering.introduces (numbering : Numbering) (type : TypeTerm) : List (Nat × String) :=
  (numbering.unseen type).zipIdx.map fun (name, offset) => (numbering.names.length + offset, name)

/-- Brings a list of types into positional form, going on from a numbering. -/
def Numbering.positionalFrom (numbering : Numbering) :
    List TypeTerm → Numbering × List Positioned
  | [] => (numbering, [])
  | type :: rest =>
    let extended := numbering.extend type
    let (final, others) := extended.positionalFrom rest
    (final, ⟨extended.positional type, numbering.introduces type⟩ :: others)

/-- Brings a list of types into positional form. -/
def positionalForm (types : List TypeTerm) : Numbering × List Positioned :=
  Numbering.positionalFrom {} types

end StagedBuilder
