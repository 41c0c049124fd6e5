/-
This file reads the forms of types and the arguments between angle brackets.

Where a `+` may extend a type with bounds depends on the place: not after a
reference, a pointer or an arrow. The reader of types is therefore told whether a
`+` may follow.
-/

import StagedBuilder.TypeExpression.Bound

namespace StagedBuilder.TypeExpression

/-! ### Types of functions -/

/-- The words with which the type of a function may start. -/
def functionWords : List String := ["fn", "unsafe", "extern"]

/-- The name at the front that an input of a function may have, with its colon; `self` is a
name in the first input. -/
def passInputName (isFirst : Bool) (tokens : List Token) : List Token :=
  let isNamed := startsName tokens || startsWord ["_"] tokens
    || isFirst && startsWord ["self"] tokens
  if isNamed && startsColon (tokens.drop 1) then tokens.drop 2 else tokens

/-- Whether an input is the value itself, `mut self`. -/
def startsSelf (tokens : List Token) : Bool :=
  startsWord ["mut"] tokens && startsWord ["self"] (tokens.drop 1)

def afterInput? (inner : Readers) (isFirst : Bool) : Passage := fun tokens =>
  if isFirst && startsSelf tokens then
    match symbol? ":" (tokens.drop 2) with
    | some type => inner.afterType? true type
    | none => some (tokens.drop 2)
  else
    let input := passInputName isFirst tokens
    if isFirst && startsSelf input && !startsWord ["self"] tokens then some (input.drop 2)
    else inner.afterType? true input

/-- What follows the inputs of a function, up to the end of their parentheses; the last of
them may be points, which stand for any number. -/
def afterInputs? (inner : Readers) : Bool → Nat → Passage
  | _, 0, _ => none
  | isFirst, fuel + 1, tokens =>
    if atEnd tokens then some tokens
    else do
      let input ← afterAttributes? inner tokens
      match symbol? "..." (passInputName false input) with
      | some rest => some (passSymbol "," rest)
      | none => do
        let rest ← afterInput? inner isFirst input
        match symbol? "," rest with
        | some others => afterInputs? inner false fuel others
        | none => some rest

/-- What follows the convention of calls, `extern` and perhaps a text, which may be missing. -/
def passConvention (tokens : List Token) : List Token :=
  match fixedWord? "extern" tokens with
  | some rest => passText rest
  | none => tokens

def afterFunction? (inner : Readers) : Passage := fun tokens => do
  let inputs ← fixedWord? "fn" (passConvention (passWord "unsafe" tokens))
  let rest ← afterInside? .paren
    (fun inside => afterInputs? inner true (inside.length + 1) inside) inputs
  passResult? inner false rest

/-! ### Types that start with a path -/

/-- Reads a type that starts with a path: the path, an expansion, or bounds. A path after a
binder is a bound in any case. -/
def pathType? (inner : Readers) (hasBinder isOpen : Bool) : Reader TypeExpression := fun tokens =>
  if startsSymbol "<" tokens then
    (afterProjection? inner false tokens).map (TypeExpression.projection, ·)
  else do
    let (reading, rest) ← path? inner false tokens
    if startsExpansion rest && reading.isPlain then
      (afterGroup? (rest.drop 1)).map (TypeExpression.other, ·)
    else if isOpen && startsSymbol "+" rest then
      if startsBound false (rest.drop 1) then do
        let bounds := rest.drop 1
        let (_, after) ← bounds? inner false true (bounds.length + 1) bounds
        return (.other, after)
      else return (.other, rest.drop 1)
    else return (if hasBinder then .bound else reading.expression, rest)

/-- Reads a type that starts with a binder. -/
def boundType? (inner : Readers) (isOpen : Bool) : Reader TypeExpression := fun tokens => do
  let rest ← passBinder? inner tokens
  if startsWord functionWords rest then
    (afterFunction? inner rest).map (TypeExpression.other, ·)
  else if startsName rest || startsWord pathWords rest then pathType? inner true isOpen rest
  else none

/-! ### Types that start with a delimiter -/

/-- Whether parentheses around a type make it a bound that further ones may follow. -/
def isExtensible : TypeExpression → Bool
  | .path _ _ _ _ => true
  | .bound => true
  | _ => false

/-- Reads what starts with an opening parenthesis, after it. -/
def parenthesized? (inner : Readers) (isOpen : Bool) : Reader TypeExpression := fun inside =>
  if atEnd inside then (closed? .paren inside).map (TypeExpression.tuple [], ·)
  else if startsLifetime inside then do
    return (.transparent .other, ← closed? .paren (← afterTraits? inner false true inside))
  else if startsSymbol "?" inside then do
    let rest ← closed? .paren (← afterTrait? inner false inside)
    if startsSymbol "+" rest then
      (afterPluses? inner (rest.length + 1) rest).map (TypeExpression.other, ·)
    else return (.bound, rest)
  else do
    let (first, rest) ← inner.type? true inside
    match symbol? "," rest with
    | some others => do
      let (elements, after) ← listUntil? atEnd (inner.type? true) (others.length + 1) others
      return (.tuple (first :: elements), ← closed? .paren after)
    | none => do
      let after ← closed? .paren rest
      if isOpen && startsSymbol "+" after && isExtensible first then
        (afterPluses? inner (after.length + 1) after).map (TypeExpression.other, ·)
      else return (.transparent first, after)

/-- Reads what starts with an opening bracket, after it: a slice or an array. -/
def bracketed? (inner : Readers) : Reader TypeExpression := fun inside => do
  let (element, rest) ← inner.type? true inside
  match symbol? ";" rest with
  | some length => do
    return (.array element, ← closed? .bracket (← inner.afterExpression? true length))
  | none => return (.slice element, ← closed? .bracket rest)

/-! ### All types -/

/-- Reads a type; `isOpen` says whether a `+` may extend it. -/
def type? (inner : Readers) (isOpen : Bool) : Reader TypeExpression := fun tokens =>
  match tokens with
  | .opening .paren :: inside => parenthesized? inner isOpen inside
  | .opening .bracket :: inside => bracketed? inner inside
  | .mark '*' _ :: .word mutability :: pointee =>
    if mutability = "const" ∨ mutability = "mut" then
      (inner.afterType? false pointee).map (TypeExpression.other, ·)
    else none
  | .mark '&' _ :: referent =>
    (inner.type? false (passWord "mut" (passLifetime referent))).map
      fun (type, rest) => (.transparent type, rest)
  | .mark '!' _ :: rest => some (.other, rest)
  | .lifetime :: _ => (afterTraits? inner false true tokens).map (TypeExpression.other, ·)
  | .word "for" :: _ => boundType? inner isOpen tokens
  | .word "_" :: rest => some (.other, rest)
  | .word "dyn" :: bounds =>
    (afterTraits? inner false isOpen (passSymbol "*" bounds)).map (TypeExpression.other, ·)
  | .word "impl" :: bounds =>
    (afterTraits? inner true isOpen bounds).map (TypeExpression.other, ·)
  | _ =>
    if startsWord functionWords tokens then
      (afterFunction? inner tokens).map (TypeExpression.other, ·)
    else if startsPath tokens then pathType? inner false isOpen tokens
    else none

/-! ### Arguments -/

/-- Whether a type is a single name, which may be that of an associated item. -/
def isItemName : TypeExpression → Bool
  | .path absolute space _ _ => !absolute && space.isEmpty
  | _ => false

/-- What follows the value of an associated item: a constant or a type. -/
def afterItemValue? (inner : Readers) : Passage := fun tokens =>
  if startsConstant tokens then afterConstant? inner tokens else inner.afterType? true tokens

/-- Reads one argument between angle brackets. -/
def argument? (inner : Readers) : Reader Argument := fun tokens =>
  if startsLifetime tokens && !startsSymbol "+" (tokens.drop 1) then
    some (.lifetime, tokens.drop 1)
  else if startsConstant tokens then (afterConstant? inner tokens).map (Argument.other, ·)
  else do
    let (expression, rest) ← inner.type? true tokens
    if isItemName expression && startsSymbol "=" rest then
      (afterItemValue? inner (rest.drop 1)).map (Argument.other, ·)
    else if isItemName expression && startsSymbol ":" rest then
      (afterDeclaredBounds? inner (rest.drop 1)).map (Argument.other, ·)
    else return (.type expression, rest)

/-- Reads arguments between angle brackets. -/
def arguments? (inner : Readers) : Reader (List Argument) := fun tokens => do
  let inside ← symbol? "<" tokens
  let (arguments, rest) ← listUntil? (startsSymbol ">") (argument? inner) tokens.length inside
  return (arguments, ← symbol? ">" rest)

end StagedBuilder.TypeExpression
