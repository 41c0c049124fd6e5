/-
This file holds the builder of one factory root, complete and ready to be
rendered: the methods added to the root, the steps that calls lead through, the
constructors that chains of calls end at, and what was found on the way. Steps
are referred to by their place in the list.
-/

import StagedBuilder.Builder.Step
import StagedBuilder.Diagnostic.Basic

namespace StagedBuilder

/-- A constructor that takes part in a builder. -/
structure ConstructorSummary where
  id : Nat
  display : String
  target : TypeTerm
  location : Location
deriving DecidableEq, Inhabited

/-- The builder of one root. -/
structure Builder where
  root : TypeTerm
  rootName : String
  space : Option String
  typeParameters : List TypeParameter
  isStatic : Bool
  isRecord : Bool
  kind : DeclaredKind
  accessibility : Accessibility
  /-- The name spaces that the types of the builder come from, in order. -/
  usings : List String := []
  methods : List Method := []
  steps : List Step := []
  constructors : List ConstructorSummary := []
  diagnostics : List Diagnostic := []
deriving DecidableEq, Inhabited

namespace Builder

def empty (root : Root) : Builder :=
  { root := root.asType
    rootName := root.name
    space := root.space
    typeParameters := root.typeParameters
    isStatic := root.isStatic
    isRecord := root.isRecord
    kind := root.kind
    accessibility := root.accessibility }

def step? (builder : Builder) (index : Nat) : Option Step := builder.steps[index]?

def constructor? (builder : Builder) (id : Nat) : Option ConstructorSummary :=
  builder.constructors.find? (·.id = id)

/-- The methods of the root and then those of every step. -/
def allMethods (builder : Builder) : List Method :=
  builder.methods ++ builder.steps.flatMap Step.methods

def hasErrors (builder : Builder) : Bool := builder.diagnostics.any Diagnostic.isError

end Builder

end StagedBuilder
