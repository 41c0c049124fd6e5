/-
This file reads bounds, the parameters that declare what they bound, and constant
arguments. Bounds have `+` between them; a bound is a lifetime, a trait, or the
names that a type may capture. A trait may have the inputs of a function instead of
arguments between angle brackets.
-/

import StagedBuilder.TypeExpression.Attribute

namespace StagedBuilder.TypeExpression

/-! ### Constant arguments -/

def startsConstant (tokens : List Token) : Bool := startsLiteral tokens || opens .brace tokens

/-- What follows a constant argument: a literal or a block. -/
def afterConstant? (inner : Readers) : Passage := fun tokens =>
  if opens .brace tokens then afterOwnedBody? inner tokens else afterLiteral? tokens

/-! ### Bounds -/

def startsBound (isConstant : Bool) (tokens : List Token) : Bool :=
  match tokens with
  | .word _ :: _ => true
  | .lifetime :: _ => true
  | .opening .paren :: _ => true
  | .opening .bracket :: _ => isConstant
  | _ => startsAnySymbol ["::", "?"] tokens

def endsBounds (tokens : List Token) : Bool :=
  atEnd tokens || opens .brace tokens || startsAnySymbol [",", ";", "=", ">"] tokens
    || startsColon tokens || startsWord ["where"] tokens

/-- What follows a list with `+` between its parts, in which parts may be missing. -/
def afterSum? (part? : Passage) : Nat → Passage
  | 0, _ => none
  | fuel + 1, tokens =>
    if endsBounds tokens then some tokens
    else do
      let rest ← part? tokens
      match symbol? "+" rest with
      | some others => afterSum? part? fuel others
      | none => some rest

/-- What follows the bounds of what is declared, of which there may be none. -/
def afterDeclaredBounds? (inner : Readers) : Passage := fun tokens =>
  afterSum? (fun bound => (inner.bound? false true bound).map (·.2)) (tokens.length + 1) tokens

def afterLifetime? : Passage
  | .lifetime :: rest => some rest
  | _ => none

/-- What follows lifetimes with `+` between them, of which there may be none. -/
def afterLifetimes? : Passage := fun tokens =>
  afterSum? afterLifetime? (tokens.length + 1) tokens

/-- Reads bounds of which the first must be there, `isOpen` saying whether more may follow. The
answer says whether one of them names a trait. -/
def bounds? (inner : Readers) (isConstant isOpen : Bool) : Nat → Reader Bool
  | 0, _ => none
  | fuel + 1, tokens => do
    let (hasTrait, rest) ← inner.bound? isConstant isConstant tokens
    if isOpen && startsSymbol "+" rest then
      if startsBound isConstant (rest.drop 1) then do
        let (othersHave, after) ← bounds? inner isConstant isOpen fuel (rest.drop 1)
        return (hasTrait || othersHave, after)
      else return (hasTrait, rest.drop 1)
    else return (hasTrait, rest)

def afterTraits? (inner : Readers) (isConstant isOpen : Bool) : Passage := fun tokens => do
  let (hasTrait, rest) ← bounds? inner isConstant isOpen (tokens.length + 1) tokens
  if hasTrait then some rest else none

def afterPluses? (inner : Readers) : Nat → Passage
  | 0, _ => none
  | fuel + 1, tokens =>
    match symbol? "+" tokens with
    | some next => do
      let (_, rest) ← inner.bound? false false next
      afterPluses? inner fuel rest
    | none => some tokens

/-! ### Parameters -/

/-- What follows a parameter that stands for a lifetime, after its name. -/
def afterLifetimeParameter? : Passage := fun tokens =>
  match symbol? ":" tokens with
  | some bounds => afterLifetimes? bounds
  | none => some tokens

/-- What follows a parameter that stands for a type, after its name. -/
def afterTypeParameter? (inner : Readers) : Passage := fun tokens => do
  let bounded ← match symbol? ":" tokens with
    | some bounds => afterDeclaredBounds? inner bounds
    | none => some tokens
  match symbol? "=" bounded with
  | some default => inner.afterType? true default
  | none => some bounded

def afterConstantParameter? (inner : Readers) : Passage := fun tokens => do
  let typed ← inner.afterType? true
    (← symbol? ":" (← afterName? (← fixedWord? "const" tokens)))
  match symbol? "=" typed with
  | some default =>
    if startsName default then some (default.drop 1) else afterConstant? inner default
  | none => some typed

/-- What follows a parameter; `isItem` says whether it belongs to an item, where a parameter
need not have a name. -/
def afterParameter? (inner : Readers) (isItem : Bool) : Passage := fun tokens => do
  let parameter ← afterAttributes? inner tokens
  if startsLifetime parameter then afterLifetimeParameter? (parameter.drop 1)
  else if startsName parameter then afterTypeParameter? inner (parameter.drop 1)
  else if startsWord ["const"] parameter then afterConstantParameter? inner parameter
  else if isItem then fixedWord? "_" parameter
  else none

def afterParameters? (inner : Readers) (isItem : Bool) : Passage := fun tokens => do
  let inside ← symbol? "<" tokens
  symbol? ">" (← afterListUntil? (startsSymbol ">") (afterParameter? inner isItem) inside)

/-- What follows the parameters of an item, which may be missing. -/
def passParameters? (inner : Readers) : Passage := fun tokens =>
  if startsSymbol "<" tokens then afterParameters? inner true tokens else some tokens

/-- What follows a binder, `for<'a>`, which may be missing. -/
def passBinder? (inner : Readers) : Passage := fun tokens =>
  match fixedWord? "for" tokens with
  | some parameters => afterParameters? inner false parameters
  | none => some tokens

/-- Whether an angle bracket opens parameters, and no path that starts at a type. -/
def startsParameters (tokens : List Token) : Bool :=
  let inside := tokens.drop 1
  let after := inside.drop 1
  startsSymbol "<" tokens
    && (startsAnySymbol [">", "#"] inside || startsWord ["const"] inside
      || (startsLifetime inside || startsName inside)
        && (startsAnySymbol [">", ",", "="] after || startsColon after))

/-! ### Conditions -/

def afterCondition? (inner : Readers) : Passage := fun tokens =>
  if startsLifetime tokens && startsSymbol ":" (tokens.drop 1) then afterLifetimes? (tokens.drop 2)
  else do
    let bounded ← inner.afterType? true (← passBinder? inner tokens)
    afterDeclaredBounds? inner (← symbol? ":" bounded)

def afterConditions? (inner : Readers) : Passage :=
  afterListUntil? endsBounds (afterCondition? inner)

/-- What follows `where` and conditions, which may be missing. -/
def passWhere? (inner : Readers) : Passage := fun tokens =>
  match fixedWord? "where" tokens with
  | some conditions =>
    if startsParameters conditions then none else afterConditions? inner conditions
  | none => some tokens

/-! ### Single bounds -/

def afterCapture? : Passage := fun tokens =>
  afterLifetime? tokens <|> fixedWord? "Self" tokens <|> afterName? tokens

/-- What follows the result type of a function, which may be missing. -/
def passResult? (inner : Readers) (isOpen : Bool) : Passage := fun tokens =>
  match symbol? "->" tokens with
  | some result => inner.afterType? isOpen result
  | none => some tokens

/-- What follows the path of a trait, which may have inputs and a result like a function. -/
def afterTraitPath? (inner : Readers) : Passage := fun tokens => do
  let (reading, rest) ← path? inner false tokens
  let inputs := passSymbol "::" rest
  if reading.arguments.isEmpty && opens .paren inputs then do
    passResult? inner false (← afterInside? .paren (afterList? (inner.afterType? true)) inputs)
  else some rest

/-- What follows a bound that names a trait; `isConstant` allows `const`. -/
def afterTrait? (inner : Readers) (isConstant : Bool) : Passage := fun tokens => do
  let unbound ← passBinder? inner tokens
  let modified ←
    if opens .bracket unbound then
      if isConstant then afterInside? .bracket (fixedWord? "const") unbound else none
    else if startsWord ["const"] unbound then
      if isConstant then some (unbound.drop 1) else none
    else some unbound
  match symbol? "?" modified with
  | some relaxed => if startsWord ["for"] tokens then none else afterTraitPath? inner relaxed
  | none => afterTraitPath? inner modified

/-- Reads one bound; `captures` allows the names that a type may capture and `isConstant`
allows `const`. The answer says whether the bound names a trait. -/
def bound? (inner : Readers) (captures isConstant : Bool) : Reader Bool := fun tokens =>
  if startsLifetime tokens then some (false, tokens.drop 1)
  else
    match fixedWord? "use" tokens with
    | some names =>
      if captures then do
        let inside ← symbol? "<" names
        let rest ← symbol? ">" (← afterListUntil? (startsSymbol ">") afterCapture? inside)
        return (false, rest)
      else none
    | none => do
      let rest ←
        if opens .paren tokens then afterInside? .paren (afterTrait? inner isConstant) tokens
        else afterTrait? inner isConstant tokens
      return (true, rest)

end StagedBuilder.TypeExpression
