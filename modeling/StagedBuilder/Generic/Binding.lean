/-
This file finds out what the type parameters of a converter stand for. The
return type of the converter is laid over the type that it has to produce, and
every type parameter of the converter is bound to whatever lies at its place.
Where the two types differ in shape nothing is bound and nothing is refused:
whether the outcome fits is for assignability to say. The matching fails only if
one type parameter would have to stand for two different types.
-/

import StagedBuilder.Type.System
import StagedBuilder.Type.Parameter

namespace StagedBuilder.Binding

mutual

/-- Lays a type of the converter over a type to produce and extends the bindings found so
far. -/
def unify? (positions : Positions) (bindable : List String) :
    TypeTerm → TypeTerm → Substitution → Option Substitution
  | .parameter name, target, bound =>
    if bindable.contains name then
      match bound.lookup name with
      | some earlier => if earlier = target then some bound else none
      | none => some (bound ++ [(name, target)])
    else some bound
  | .named space name arguments, target, bound =>
    let targets := positions.of target.arguments
    if (TypeTerm.named space name []).qualifiedName ≠ target.qualifiedName
        ∨ (positions.of arguments).length ≠ targets.length then some bound
    else
      match positions, arguments with
      | .all, arguments => unifyAll? positions bindable arguments targets bound
      | .afterTag, [] => some bound
      | .afterTag, _ :: arguments => unifyAll? positions bindable arguments targets bound

/-- Does so for two lists of types, pair by pair. -/
def unifyAll? (positions : Positions) (bindable : List String) :
    List TypeTerm → List TypeTerm → Substitution → Option Substitution
  | template :: templates, target :: targets, bound =>
    (unify? positions bindable template target bound).bind
      (unifyAll? positions bindable templates targets)
  | _, _, bound => some bound

end

end StagedBuilder.Binding

namespace StagedBuilder

/-- What the declared type parameters of a converter stand for when its return type is laid
over the type it has to produce; nothing if one of them would stand for two types. -/
def TypeSystem.bindings? (system : TypeSystem) (returned : TypeTerm)
    (declared : List TypeParameter) (target : TypeTerm) : Option Substitution :=
  Binding.unify? system.positions (declared.map (·.name)) returned target []

end StagedBuilder
