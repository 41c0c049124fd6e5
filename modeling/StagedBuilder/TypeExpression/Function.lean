/-
This file reads the head of a function that is declared, from the words in front of
it to its conditions, and its body. An item may show how far it can be seen, with
`pub` and perhaps a restriction in parentheses.
-/

import StagedBuilder.TypeExpression.Form
import StagedBuilder.TypeExpression.Pattern

namespace StagedBuilder.TypeExpression

/-! ### Visibility -/

/-- What follows the visibility of an item, which may be missing. Parentheses that hold more
than a restriction belong to what comes next. -/
def passVisibility? : Passage := fun tokens =>
  match fixedWord? "pub" tokens with
  | none => some tokens
  | some rest =>
    match opened? .paren rest with
    | none => some rest
    | some inside =>
      if startsWord ["crate", "self", "super"] inside then
        some ((closed? .paren (inside.drop 1)).getD rest)
      else
        match fixedWord? "in" inside with
        | some place => do closed? .paren (← afterPlainPath? place)
        | none => some rest

/-! ### Inputs -/

/-- What follows the value itself as the first input of a function. -/
def afterReceiver? (inner : Readers) : Passage := fun tokens =>
  match symbol? "&" tokens with
  | some reference => fixedWord? "self" (passWord "mut" (passLifetime reference))
  | none => do
    let rest ← fixedWord? "self" (passWord "mut" tokens)
    match symbol? ":" rest with
    | some type => inner.afterType? true type
    | none => some rest

/-- What follows an input of a declared function. A name with arguments between angle brackets
is a type without a name in front. The answer says whether the input stands for any number of
values and is therefore the last. -/
def declaredInput? (inner : Readers) (isFirst : Bool) : Reader Bool := fun tokens =>
  match symbol? "..." tokens with
  | some rest => some (true, rest)
  | none =>
    match afterReceiver? inner tokens with
    | some rest => if isFirst then some (false, rest) else none
    | none =>
      if startsName tokens && startsSymbol "<" (tokens.drop 1) then
        (inner.afterType? true tokens).map (false, ·)
      else do
        let type ← symbol? ":" (← inner.afterPattern? tokens)
        match symbol? "..." type with
        | some rest => some (true, rest)
        | none => (inner.afterType? true type).map (false, ·)

/-- What follows the inputs of a declared function, up to the end of their parentheses. -/
def afterDeclaredInputs? (inner : Readers) : Bool → Nat → Passage
  | _, 0, _ => none
  | isFirst, fuel + 1, tokens =>
    if atEnd tokens then some tokens
    else do
      let (isLast, rest) ← declaredInput? inner isFirst (← afterAttributes? inner tokens)
      match symbol? "," rest with
      | some others => if isLast then some others else afterDeclaredInputs? inner false fuel others
      | none => some rest

/-! ### Heads and bodies -/

/-- The tokens after the words in front of `fn`; `allowsSafe` allows a word that is none
elsewhere. -/
def passFunctionWords (allowsSafe : Bool) (tokens : List Token) : List Token :=
  let rest := passWord "async" (passWord "const" tokens)
  passConvention
    (if allowsSafe && startsWord ["safe"] rest then rest.drop 1 else passWord "unsafe" rest)

def startsFunction (allowsSafe : Bool) (tokens : List Token) : Bool :=
  startsWord ["fn"] (passFunctionWords allowsSafe tokens)

def afterHead? (inner : Readers) (allowsSafe : Bool) : Passage := fun tokens => do
  let named ← afterName? (← fixedWord? "fn" (passFunctionWords allowsSafe tokens))
  let inputs ← passParameters? inner named
  let rest ← afterInside? .paren
    (fun inside => afterDeclaredInputs? inner true (inside.length + 1) inside) inputs
  passWhere? inner (← passResult? inner true rest)

/-- What follows a function. A semicolon may take the place of its body. -/
def afterDeclaredFunction? (inner : Readers) (allowsSafe : Bool) : Passage := fun tokens => do
  let rest ← afterHead? inner allowsSafe tokens
  match symbol? ";" rest with
  | some after => some after
  | none => afterOwnedBody? inner rest

end StagedBuilder.TypeExpression
