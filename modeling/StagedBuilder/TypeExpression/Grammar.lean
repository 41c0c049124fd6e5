/-
This file ties the rules of the grammar together and reads whole texts.

The readers of one level are made of the rules and the readers of the level below,
and those of the lowest level read nothing. A rule that hands over to a reader
without having taken a token does so to that of a smaller form, and such a chain has
fewer than eight links, so that as many levels for each token are enough for every
text.
-/

import StagedBuilder.TypeExpression.Form
import StagedBuilder.TypeExpression.Item
import StagedBuilder.TypeExpression.Lexer

namespace StagedBuilder.TypeExpression

/-- The readers of a level. -/
def readers : Nat → Readers
  | 0 => Readers.none
  | level + 1 =>
    let inner := readers level
    { type? := type? inner
      arguments? := arguments? inner
      bound? := bound? inner
      expression? := expression? inner
      leading? := leading? inner
      operand? := operand? inner
      operators? := operators? inner
      trailers? := trailers? inner
      pattern? := pattern? inner
      statements? := statements? inner
      item? := item? inner
      fields? := fields? inner
      imports? := imports? inner }

/-- The number of levels that are enough for a number of tokens. -/
def levelsFor (count : Nat) : Nat := 8 * count + 8

/-- Reads a whole text as a type expression. -/
def parse? (text : String) : Option TypeExpression := do
  let tokens ← tokens? text
  let (expression, rest) ← (readers (levelsFor tokens.length)).type? true tokens
  if rest.isEmpty then some expression else none

/-- The type that a text denotes, where `scope` names the type parameters. -/
def typeOf (scope : List String) (text : String) : Except Problem TypeTerm :=
  match parse? text with
  | some expression => expression.denoted scope
  | none => .error .malformed

end StagedBuilder.TypeExpression
