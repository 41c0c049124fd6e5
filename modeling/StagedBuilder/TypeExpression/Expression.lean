/-
This file reads expressions, which stand for the length of an array and inside of
constant arguments. No expression is ever evaluated: the question is only where it
ends and whether it is one at all.

An expression is an operand followed by operators with further operands. How
strongly an operator binds matters only where it decides what may follow: no
comparison follows a comparison, and nothing extends a range. An operand is an atom
with marks in front of it and calls, accesses and indices after it.

Where a block must follow an expression, as after a condition, a brace cannot open
a value with named fields; the flag `structs` says where it can.
-/

import StagedBuilder.Text.Parts
import StagedBuilder.TypeExpression.Pattern

namespace StagedBuilder.TypeExpression

/-! ### Operators -/

/-- What follows the operators that bind more strongly than the one in front of an operand. An
assignment also takes further assignments. -/
def afterStronger? (inner : Readers) (precedence : Precedence) (structs : Bool) :
    Nat → Shape → Passage
  | 0, _, _ => none
  | fuel + 1, shape, tokens =>
    let next := nextPrecedence tokens
    if precedence.rank < next.rank ∨ (next = precedence ∧ precedence = .assign) then do
      let (extended, rest) ← inner.operators? next structs shape tokens
      if rest.length = tokens.length then some rest
      else afterStronger? inner precedence structs fuel extended rest
    else some tokens

/-- What follows the operand after an operator, with all that binds it more strongly. -/
def afterRight? (inner : Readers) (precedence : Precedence) (structs : Bool) : Passage :=
  fun tokens => do
    let (shape, rest) ← inner.operand? structs tokens
    afterStronger? inner precedence structs (rest.length + 1) shape rest

/-- What follows the symbol of a range and its upper end, which may be missing unless the
range claims to contain it. -/
def afterRange? (inner : Readers) (structs : Bool) : Passage := fun tokens => do
  let (isClosed, rest) ← rangeSymbol? false tokens
  if !isClosed && endsRange structs rest then some rest
  else afterRight? inner .range structs rest

def endsConversion (tokens : List Token) : Bool :=
  !(startsAccess tokens || startsSymbol "?" tokens || opens .bracket tokens || opens .paren tokens)

/-- Reads the operators that bind as strongly as `base` at least, after an operand. -/
def operators? (inner : Readers) (base : Precedence) (structs : Bool) (shape : Shape) :
    Reader Shape := fun tokens =>
  if shape = .range then some (shape, tokens)
  else
    match binary? tokens with
    | some (precedence, right) =>
      if precedence.rank < base.rank then some (shape, tokens)
      else if precedence = .compare ∧ shape = .comparison then none
      else do
        let rest ← afterRight? inner precedence structs right
        inner.operators? base structs (if precedence = .compare then .comparison else .plain) rest
    | none =>
      if base.rank ≤ Precedence.assign.rank && startsAssignment tokens then do
        inner.operators? base structs .plain
          (← afterRight? inner .assign structs (tokens.drop 1))
      else if base.rank ≤ Precedence.range.rank && startsSymbol ".." tokens then
        (afterRange? inner structs tokens).map (Shape.range, ·)
      else if base.rank ≤ Precedence.cast.rank && startsWord ["as"] tokens then do
        let rest ← inner.afterType? false (tokens.drop 1)
        if endsConversion rest then inner.operators? base structs .plain rest else none
      else some (shape, tokens)

def expression? (inner : Readers) (structs : Bool) : Reader Shape := fun tokens => do
  let (shape, rest) ← inner.operand? structs tokens
  inner.operators? .least structs shape rest

def startsExpression : List Token → Bool
  | .word text :: _ => text ≠ "as"
  | .lifetime :: _ => true
  | .literal _ :: _ => true
  | .opening _ :: _ => true
  | tokens =>
    startsExpansion tokens || startsAnySymbol ["..", "::", "#"] tokens || startsArguments tokens
      || (startsSymbol "-" tokens && !startsAnySymbol ["-=", "->"] tokens)
      || (startsSymbol "*" tokens && !startsSymbol "*=" tokens)
      || (startsSymbol "|" tokens && !startsSymbol "|=" tokens)
      || (startsSymbol "&" tokens && !startsSymbol "&=" tokens)

/-! ### Calls, accesses and indices -/

def afterParenthesized? (inner : Readers) : Passage :=
  afterInside? .paren (afterList? (inner.afterExpression? true))

/-- What follows the member of an access. A method with arguments between angle brackets must
be called. -/
def afterMember? (inner : Readers) : Passage := fun tokens =>
  match fixedWord? "await" tokens with
  | some rest => some rest
  | none => do
    let (isNamed, rest) ← member? tokens
    if isNamed && startsSymbol "::" rest then do
      let (_, call) ← inner.arguments? (rest.drop 2)
      if opens .paren call then some call else none
    else some rest

/-- What follows the point of an access. A number with a point names two places, or one place
and the point of another access. -/
def afterPoint? (inner : Readers) : Passage
  | .literal (.number written) :: rest =>
    if (Literal.integer? written).isSome then
      afterMember? inner (.literal (.number written) :: rest)
    else
      let parts := partsAt '.' written
      let places := if parts.getLast? = some [] then parts.dropLast else parts
      if !places.all (fun place => (Literal.place? place).isSome) then none
      else if places.length < parts.length then afterMember? inner rest
      else some rest
  | tokens => afterMember? inner tokens

/-- Reads the calls, accesses and indices after an operand. -/
def trailers? (inner : Readers) (shape : Shape) : Reader Shape := fun tokens =>
  if opens .paren tokens then do inner.trailers? .plain (← afterParenthesized? inner tokens)
  else if opens .bracket tokens then do
    inner.trailers? .plain (← afterInside? .bracket (inner.afterExpression? true) tokens)
  else if shape = .range then some (shape, tokens)
  else if startsSymbol "?" tokens then inner.trailers? .plain (tokens.drop 1)
  else if startsAccess tokens then do
    inner.trailers? .plain (← afterPoint? inner (tokens.drop 1))
  else some (shape, tokens)

end StagedBuilder.TypeExpression
