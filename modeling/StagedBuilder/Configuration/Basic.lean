/-
This file holds the configuration of a project: how generated members are called,
which types widen to which, and in what form the results are printed. Types are
named by type expressions, which know no type parameters here, so that a wrong
expression shows only when the type system is asked for.
-/

import StagedBuilder.Fault
import StagedBuilder.Naming
import StagedBuilder.Type.System
import StagedBuilder.TypeExpression.Grammar

namespace StagedBuilder

/-- What a project can be configured by. -/
structure Configuration where
  naming : Naming := {}
  /-- For each qualified name, the expressions of the types that it widens to. -/
  supertypes : Dictionary (List String) := .empty
  /-- The form in which results are printed. -/
  format : Option String := none
deriving DecidableEq, Inhabited

namespace Configuration

/-- Whether results are printed as data, and not for reading. -/
def printsData (configuration : Configuration) : Bool := configuration.format = some "json"

/-- The widenings from one qualified name; the first expression without a meaning is the
fault. -/
def widenings (name : String) (expressions : List String) :
    Except Fault (List (String × TypeTerm)) :=
  expressions.mapM fun expression =>
    match TypeExpression.typeOf [] expression with
    | .ok type => .ok (name, type)
    | .error problem => .error (.type expression problem.message)

/-- The type system of a configuration, qualified names in order. -/
def typeSystem (configuration : Configuration) : Except Fault TypeSystem := do
  let found ← configuration.supertypes.entries.mapM fun (name, expressions) =>
    widenings name expressions
  return { widenings := found.flatten }

end Configuration

end StagedBuilder
