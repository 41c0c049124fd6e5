/-
This file holds the steps of a builder. A step is what a caller holds between two
calls: the values supplied so far, and the methods that may be called next. A
synthesized step is a type made for the purpose and keeps the values in fields of
its own. An existing step is a target that is finished already and can still be
used to go on: its methods read the values back from its members.
-/

import StagedBuilder.Builder.Method

namespace StagedBuilder

/-- Where a step holds a value. -/
inductive Storage where
  | field (name : String)
  | property (name : String)
deriving DecidableEq, Inhabited

/-- The name of the member that holds a value. -/
def Storage.member : Storage → String
  | .field name => name
  | .property name => name

/-- A value that is known at a step. -/
structure Known where
  name : String
  type : TypeTerm
  storage : Storage
deriving DecidableEq, Inhabited

/-- A step that is a type of its own. -/
structure SynthesizedStep where
  index : Nat
  name : String
  known : List Known
  typeParameters : List TypeParameter
  methods : List Method
  constructor : Nat
  candidates : List Nat
deriving DecidableEq, Inhabited

/-- A step that is a finished target. -/
structure ExistingStep where
  index : Nat
  target : TypeTerm
  constructor : Nat
  known : List Known
  typeParameters : List TypeParameter
  methods : List Method
deriving DecidableEq, Inhabited

/-- A step of a builder. -/
inductive Step where
  | synthesized (step : SynthesizedStep)
  | existing (step : ExistingStep)
deriving DecidableEq, Inhabited

namespace Step

def index : Step → Nat
  | .synthesized step => step.index
  | .existing step => step.index

def name : Step → String
  | .synthesized step => step.name
  | .existing step => step.target.display

def methods : Step → List Method
  | .synthesized step => step.methods
  | .existing step => step.methods

def known : Step → List Known
  | .synthesized step => step.known
  | .existing step => step.known

def typeParameters : Step → List TypeParameter
  | .synthesized step => step.typeParameters
  | .existing step => step.typeParameters

/-- The constructor that has been called when an existing step is reached. -/
def arrival? : Step → Option Nat
  | .synthesized _ => none
  | .existing step => some step.constructor

/-- The step with every method changed. -/
def mapMethods (change : Method → Method) : Step → Step
  | .synthesized step => .synthesized { step with methods := step.methods.map change }
  | .existing step => .existing { step with methods := step.methods.map change }

/-- The step with its final number; a synthesized step gets its name from it. -/
def number (stepPrefix rootName : String) (index : Nat) : Step → Step
  | .synthesized step =>
    .synthesized { step with
      index, name := stepPrefix ++ "_" ++ toString index ++ "__" ++ rootName }
  | .existing step => .existing { step with index }

end Step

end StagedBuilder
