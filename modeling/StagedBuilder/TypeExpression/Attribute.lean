/-
This file reads attributes, `#[…]`, and blocks. An attribute stands in front of what
it belongs to; one with `!` after its `#` belongs to the block it stands in, and only
some blocks may start with such attributes of their own.
-/

import StagedBuilder.TypeExpression.Path

namespace StagedBuilder.TypeExpression

/-! ### Attributes -/

/-- What follows the content of an attribute: its name, and what is said about it. -/
def afterMeaning? (inner : Readers) : Passage := fun tokens => do
  let rest ← fixedWord? "unsafe" tokens <|> afterPlainPath? tokens
  if opensGroup rest then afterGroup? rest
  else if startsAssignment rest && !startsSymbol "==" rest then
    let value := rest.drop 1
    if startsSymbol "#" value && opens .bracket (value.drop 1) then none
    else inner.afterExpression? true value
  else some rest

def afterBrackets? (inner : Readers) : Passage := afterInside? .bracket (afterMeaning? inner)

def afterOuterAttributes? (inner : Readers) : Nat → Passage
  | 0, _ => none
  | fuel + 1, tokens =>
    match symbol? "#" tokens with
    | some brackets => do afterOuterAttributes? inner fuel (← afterBrackets? inner brackets)
    | none => some tokens

def afterAttributes? (inner : Readers) : Passage := fun tokens =>
  afterOuterAttributes? inner (tokens.length + 1) tokens

/-- What follows a number of attributes of the block that they stand in. -/
def afterInnerAttributes? (inner : Readers) : Nat → Passage
  | 0, _ => none
  | fuel + 1, .mark '#' _ :: .mark '!' _ :: brackets => do
    afterInnerAttributes? inner fuel (← afterBrackets? inner brackets)
  | _, tokens => some tokens

def afterOwnAttributes? (inner : Readers) : Passage := fun tokens =>
  afterInnerAttributes? inner (tokens.length + 1) tokens

/-! ### Blocks -/

def afterBody? (inner : Readers) : Passage := afterInside? .brace inner.statements?

/-- What follows a block that may start with attributes of its own. -/
def afterOwnedBody? (inner : Readers) : Passage :=
  afterInside? .brace fun tokens => do inner.statements? (← afterOwnAttributes? inner tokens)

end StagedBuilder.TypeExpression
