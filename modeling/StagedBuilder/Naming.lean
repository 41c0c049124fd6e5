/-
This file says how generated members are called. A method that supplies a
parameter is called by the parameter's name in capitalized form behind a prefix, a
method that creates a target by the target's name behind another, and synthesized
steps are numbered behind a third.
-/

import StagedBuilder.Text.Case

namespace StagedBuilder

/-- The prefixes of generated names. -/
structure Naming where
  supplyPrefix : String := "With"
  creationPrefix : String := "Create"
  stepPrefix : String := "Step"
deriving DecidableEq, Inhabited

namespace Naming

/-- The usual name of the method that supplies a parameter. -/
def supplyName (naming : Naming) (parameter : String) : String :=
  naming.supplyPrefix ++ pascalCase parameter

/-- The usual name of the method that creates a target. -/
def creationName (naming : Naming) (target : String) : String :=
  naming.creationPrefix ++ target

end Naming

end StagedBuilder
