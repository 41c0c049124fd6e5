/-
This file holds type expressions, the notation in which documents and configuration
files name types, and says what type each of them denotes.

The notation has more forms than there are types: references, parentheses and
lifetimes are passed over, slices, arrays and tuples become types of those names,
and other forms are recognised and refused. Refusing them by name, and not as a
text that cannot be read, is what the forms without a meaning are kept for.

A name denotes a type parameter if it stands alone, nothing is applied to it, and
the scope knows it. Of a path only the last name is applied to arguments; the names
before it are the name space, and arguments written there mean nothing. The parts
of an expression are looked at from left to right, and the first part without a
meaning decides how the whole is refused.
-/

import StagedBuilder.Type.Basic

namespace StagedBuilder

mutual

/-- A type expression, as far as its meaning depends on it. -/
inductive TypeExpression where
  /-- A path: whether `::` leads it, the names before the last, the last name, and for each
  name what stands between the angle brackets after it. -/
  | path (absolute : Bool) (space : List (String × List TypeExpression.Argument))
      (name : String) (arguments : List TypeExpression.Argument)
  /-- A path that starts at a type, `<T as U>::V`. -/
  | projection
  /-- A reference or parentheses around a type. -/
  | transparent (inner : TypeExpression)
  | slice (element : TypeExpression)
  | array (element : TypeExpression)
  | tuple (elements : List TypeExpression)
  /-- A single bound on an unnamed type, which `+` may extend once it stands in parentheses. -/
  | bound
  /-- Any other form: a function, a pointer, several bounds, and the like. -/
  | other

/-- What may stand between angle brackets. -/
inductive TypeExpression.Argument where
  | type (expression : TypeExpression)
  | lifetime
  /-- A constant, or a statement about an associated item. -/
  | other

end

deriving instance Inhabited for TypeExpression

namespace TypeExpression

/-- Why a text denotes no type. -/
inductive Problem where
  /-- The text is no type expression. -/
  | malformed
  /-- A path starts at a type. -/
  | projection
  /-- Something else than a type is given as an argument. -/
  | argument
  /-- The form denotes no type. -/
  | form
deriving DecidableEq, Inhabited

/-- What is said about a text that denotes no type. -/
def Problem.message : Problem → String
  | .malformed => "<syntax>"
  | .projection => "qualified self types are not supported"
  | .argument => "only type arguments are supported"
  | .form => "unsupported type form"

mutual

/-- The type that an expression denotes, where `scope` names the type parameters. -/
def denoted (scope : List String) : TypeExpression → Except Problem TypeTerm
  | .path _ space name arguments =>
    match denotedByArguments scope arguments with
    | .error problem => .error problem
    | .ok types =>
      if space.isEmpty && types.isEmpty && scope.contains name then .ok (.parameter name)
      else .ok (.qualified (some ("::".intercalate (space.map (·.1)))) name types)
  | .projection => .error .projection
  | .transparent inner => denoted scope inner
  | .slice element => do return .qualified none "Slice" [← denoted scope element]
  | .array element => do return .qualified none "Array" [← denoted scope element]
  | .tuple elements =>
    match denotedEach scope elements with
    | .error problem => .error problem
    | .ok types => .ok (.qualified none (if types.isEmpty then "Unit" else "Tuple") types)
  | .bound => .error .form
  | .other => .error .form

/-- The types that a list of expressions denotes. -/
def denotedEach (scope : List String) : List TypeExpression → Except Problem (List TypeTerm)
  | [] => .ok []
  | first :: rest => do
    let type ← denoted scope first
    return type :: (← denotedEach scope rest)

/-- The types among the arguments; lifetimes are passed over. -/
def denotedByArguments (scope : List String) : List Argument → Except Problem (List TypeTerm)
  | [] => .ok []
  | .type expression :: rest => do
    let type ← denoted scope expression
    return type :: (← denotedByArguments scope rest)
  | .lifetime :: rest => denotedByArguments scope rest
  | .other :: _ => .error .argument

end

end TypeExpression

end StagedBuilder
