/-
This file holds the types that constructors take and methods return. A type is a
name, possibly qualified by a name space and applied to arguments, or a type
parameter, which stands for a type yet unknown. Nothing else is known of types
here: no declaration is looked up and no compiler is asked.

What the rest of the library does with types is said here once. A substitution
replaces type parameters, everywhere in a type and all at the same time. Erasure
makes the type parameters of a type indistinguishable, so that two methods that
differ only in how their parameters are called have the same signature. The
display form is the notation of reports and of configuration files.

Every operation comes with its counterpart for lists of types, because the
arguments of a type are such a list.
-/

import StagedBuilder.Dictionary

namespace StagedBuilder

/-- A type: a possibly qualified and applied name, or a type parameter. -/
inductive TypeTerm where
  | named (space : Option String) (name : String) (arguments : List TypeTerm)
  | parameter (name : String)
deriving Inhabited

/-- What stands in for type parameters, by their names; the first entry of a name counts. -/
abbrev Substitution := List (String × TypeTerm)

namespace TypeTerm

/-! ### Equality -/

mutual

/-- Equality of types is decided by comparing them part by part. -/
def decideEqual : (left right : TypeTerm) → Decidable (left = right)
  | .parameter left, .parameter right =>
    if same : left = right then isTrue (by rw [same])
    else isFalse (by intro equal; injection equal; contradiction)
  | .named leftSpace leftName leftArguments, .named rightSpace rightName rightArguments =>
    if sameSpace : leftSpace = rightSpace then
      if sameName : leftName = rightName then
        match decideEqualEach leftArguments rightArguments with
        | isTrue sameArguments => isTrue (by rw [sameSpace, sameName, sameArguments])
        | isFalse differ => isFalse (by intro equal; injection equal; contradiction)
      else isFalse (by intro equal; injection equal; contradiction)
    else isFalse (by intro equal; injection equal; contradiction)
  | .parameter _, .named _ _ _ => isFalse (by intro equal; injection equal)
  | .named _ _ _, .parameter _ => isFalse (by intro equal; injection equal)

def decideEqualEach : (left right : List TypeTerm) → Decidable (left = right)
  | [], [] => isTrue rfl
  | left :: lefts, right :: rights =>
    match decideEqual left right, decideEqualEach lefts rights with
    | isTrue sameFirst, isTrue sameRest => isTrue (by rw [sameFirst, sameRest])
    | isFalse differ, _ => isFalse (by intro equal; injection equal; contradiction)
    | _, isFalse differ => isFalse (by intro equal; injection equal; contradiction)
  | [], _ :: _ => isFalse (by intro equal; injection equal)
  | _ :: _, [] => isFalse (by intro equal; injection equal)

end

instance : DecidableEq TypeTerm := decideEqual

/-! ### Parts -/

/-- A named type; an empty name space is none. -/
def qualified (space : Option String) (name : String) (arguments : List TypeTerm) : TypeTerm :=
  .named (space.filter (· ≠ "")) name arguments

/-- A named type without name space and arguments. -/
def simple (name : String) : TypeTerm := .named none name []

/-- The arguments of a type, in order; a type parameter has none. -/
def arguments : TypeTerm → List TypeTerm
  | .named _ _ arguments => arguments
  | .parameter _ => []

def space : TypeTerm → Option String
  | .named space _ _ => space
  | .parameter _ => none

def isParameter : TypeTerm → Bool
  | .named _ _ _ => false
  | .parameter _ => true

def parameterName? : TypeTerm → Option String
  | .named _ _ _ => none
  | .parameter name => some name

/-- The name of a type with its name space and without its arguments. -/
def qualifiedName : TypeTerm → String
  | .named (some space) name _ => space ++ "::" ++ name
  | .named none name _ => name
  | .parameter name => name

/-! ### Type parameters inside a type -/

mutual

/-- The type parameters of a type from left to right, one entry for every occurrence. -/
def occurrences : TypeTerm → List String
  | .named _ _ arguments => occurrencesOfAll arguments
  | .parameter name => [name]

def occurrencesOfAll : List TypeTerm → List String
  | [] => []
  | first :: rest => first.occurrences ++ occurrencesOfAll rest

end

/-- The type parameters of a type in the order of their first occurrences. -/
def parameters (type : TypeTerm) : List String := type.occurrences.eraseDups

/-- Whether a type parameter occurs in a type. -/
def mentions (type : TypeTerm) (name : String) : Bool := type.occurrences.contains name

mutual

/-- Replaces every type parameter that the substitution knows. -/
def substitute (substitution : Substitution) : TypeTerm → TypeTerm
  | .named space name arguments => .named space name (substituteAll substitution arguments)
  | .parameter name => (substitution.lookup name).getD (.parameter name)

def substituteAll (substitution : Substitution) : List TypeTerm → List TypeTerm
  | [] => []
  | first :: rest => first.substitute substitution :: substituteAll substitution rest

end

/-- The one type parameter that erasure leaves. -/
def erasedParameter : TypeTerm := .parameter "?"

mutual

/-- Makes all type parameters of a type the same. -/
def erased : TypeTerm → TypeTerm
  | .named space name arguments => .named space name (erasedAll arguments)
  | .parameter _ => erasedParameter

def erasedAll : List TypeTerm → List TypeTerm
  | [] => []
  | first :: rest => first.erased :: erasedAll rest

end

/-! ### Name spaces -/

mutual

/-- The name spaces of a type and of its arguments, one entry for every occurrence. -/
def spaces : TypeTerm → List String
  | .named space _ arguments => space.toList ++ spacesOfAll arguments
  | .parameter _ => []

def spacesOfAll : List TypeTerm → List String
  | [] => []
  | first :: rest => first.spaces ++ spacesOfAll rest

end

/-! ### Display -/

/-- A list of arguments between angle brackets, and nothing for an empty list. -/
def argumentList : List String → String
  | [] => ""
  | first :: rest => "<" ++ ", ".intercalate (first :: rest) ++ ">"

mutual

/-- A type as it is written: qualified name, then the arguments between angle brackets. -/
def display : TypeTerm → String
  | .named space name arguments =>
    (TypeTerm.named space name []).qualifiedName ++ argumentList (displayAll arguments)
  | .parameter name => name

/-- Every type of a list as it is written. -/
def displayAll : List TypeTerm → List String
  | [] => []
  | first :: rest => first.display :: displayAll rest

end

/-! ### Order -/

mutual

/-- Named types come before type parameters; among named types the name space decides,
none first, then the name, then the arguments from left to right. -/
def order : TypeTerm → TypeTerm → Ordering
  | .named leftSpace leftName leftArguments, .named rightSpace rightName rightArguments =>
    ((compareSpaces leftSpace rightSpace).then (compare leftName rightName)).then
      (orderAll leftArguments rightArguments)
  | .named _ _ _, .parameter _ => .lt
  | .parameter _, .named _ _ _ => .gt
  | .parameter left, .parameter right => compare left right
where
  /-- No name space comes before any. -/
  compareSpaces : Option String → Option String → Ordering
    | none, none => .eq
    | none, some _ => .lt
    | some _, none => .gt
    | some left, some right => compare left right

/-- Lists of types compare at the first difference; a proper beginning comes first. -/
def orderAll : List TypeTerm → List TypeTerm → Ordering
  | [], [] => .eq
  | [], _ :: _ => .lt
  | _ :: _, [] => .gt
  | left :: lefts, right :: rights => (left.order right).then (orderAll lefts rights)

end

end TypeTerm

end StagedBuilder
