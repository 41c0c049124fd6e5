/-
This file gives placeholders their names back. Along one path through the prefix
tree the placeholders `$0`, `$1` and so on are bound one after another, each to a
name that nothing else on the path has: the name by which the constructor that
introduces it declares it, with a number added if that is taken. A scope is the
list of these names with the constraints that belong to them, the place in the
list being the number of the placeholder. What is bound stays bound, so a name
shown for a placeholder never changes further down the path.
-/

import StagedBuilder.Generic.Placeholder
import StagedBuilder.Type.Parameter

namespace StagedBuilder

/-- A name that is not taken: the preferred one, or else the first of it with `1`, `2` and
so on added. Among one more such names than are taken, one is free. -/
def freshName (taken : List String) (preferred : String) : String :=
  if taken.contains preferred then
    let suffixed := (List.range (taken.length + 1)).map fun count =>
      preferred ++ toString (count + 1)
    (suffixed.find? fun candidate => !taken.contains candidate).getD preferred
  else preferred

/-- The names bound along one path, with their constraints in placeholder form. -/
structure Scope where
  bound : List (String × Constraints) := []
deriving DecidableEq, Inhabited

namespace Scope

/-- The names, by the numbers of their placeholders. -/
def names (scope : Scope) : List String := scope.bound.map (·.1)

def size (scope : Scope) : Nat := scope.bound.length

/-- A name that the scope does not use. -/
def fresh (scope : Scope) (preferred : String) : String := freshName scope.names preferred

/-- Binds the next placeholder; one that is bound already stays as it is. -/
def bind (scope : Scope) (index : Nat) (preferred : String) (constraints : Constraints) :
    Scope :=
  if index < scope.size then scope
  else ⟨scope.bound ++ [(scope.fresh preferred, constraints)]⟩

/-- The substitution that writes names instead of placeholders. -/
def substitution (scope : Scope) : Substitution :=
  scope.names.zipIdx.map fun (name, index) => (placeholderName index, .parameter name)

/-- A type with the names of the scope instead of placeholders. -/
def display (scope : Scope) (type : TypeTerm) : TypeTerm := type.substitute scope.substitution

/-- The declarations of all bound placeholders. -/
def declarations (scope : Scope) : List TypeParameter :=
  scope.bound.map fun (name, constraints) => ⟨name, constraints.substitute scope.substitution⟩

/-- The declarations of the placeholders from a number on. -/
def declarationsFrom (scope : Scope) (start : Nat) : List TypeParameter :=
  scope.declarations.drop start

end Scope

end StagedBuilder
