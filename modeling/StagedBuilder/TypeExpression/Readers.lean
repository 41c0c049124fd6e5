/-
This file is the frame of the grammar. Types, constants, patterns, statements and
items nest in one another, so the reader of each needs the readers of the others. A
rule of the grammar therefore takes the readers of all that nests as an argument,
and one module, which knows every rule, ties them together.

Only types and what stands between angle brackets have a value. Of every other form
it matters where it ends and whether it is one at all, so that most readers return
nothing but the tokens left over. Of an expression it also matters what kind it is,
because that decides what may follow it.
-/

import StagedBuilder.TypeExpression.Basic
import StagedBuilder.TypeExpression.Operator

namespace StagedBuilder.TypeExpression

/-! ### Readers -/

/-- A reader takes tokens from the front and returns what it read with the tokens left. -/
abbrev Reader (Value : Type) := List Token → Option (Value × List Token)

/-- A reader of what has no value returns only the tokens left. -/
abbrev Passage := List Token → Option (List Token)

/-- The kinds of expressions, as far as they decide what may follow. -/
inductive Shape where
  /-- A range, which no operator extends. -/
  | range
  /-- A comparison, which no further comparison extends. -/
  | comparison
  /-- A block or what ends with one, which is a statement without a semicolon. -/
  | block
  /-- A call between braces of something that is expanded, which is such a statement too. -/
  | expansion
  | plain
deriving DecidableEq, Inhabited

/-- The readers of all forms that nest. -/
structure Readers where
  /-- A type; the flag says whether a `+` may extend it. -/
  type? : Bool → Reader TypeExpression
  /-- Arguments between angle brackets. -/
  arguments? : Reader (List Argument)
  /-- A bound; the flags allow the names that a type may capture, and `const`. The answer says
  whether the bound names a trait. -/
  bound? : Bool → Bool → Reader Bool
  /-- An expression; the flag allows values with named fields. -/
  expression? : Bool → Reader Shape
  /-- An expression at the start of a statement, which a block may end. -/
  leading? : Reader Shape
  /-- An operand with the marks in front of it. -/
  operand? : Bool → Reader Shape
  /-- The operators that bind as strongly as the given one at least, after an operand. -/
  operators? : Precedence → Bool → Shape → Reader Shape
  /-- The calls, accesses and indices after an operand. -/
  trailers? : Shape → Reader Shape
  /-- A pattern without alternatives. The answer says whether it is a range that lacks an end. -/
  pattern? : Reader Bool
  /-- The statements of a block, up to its end. -/
  statements? : Passage
  /-- An item. -/
  item? : Passage
  /-- The named fields of a structure, up to the end of their group. -/
  fields? : Passage
  /-- What `use` imports; the flag allows `::` in front of the parts of a group. -/
  imports? : Bool → Passage
deriving Inhabited

namespace Readers

/-- Readers that read nothing. -/
def none : Readers where
  type? _ _ := .none
  arguments? _ := .none
  bound? _ _ _ := .none
  expression? _ _ := .none
  leading? _ := .none
  operand? _ _ := .none
  operators? _ _ _ _ := .none
  trailers? _ _ := .none
  pattern? _ := .none
  statements? _ := .none
  item? _ := .none
  fields? _ := .none
  imports? _ _ := .none

def afterType? (inner : Readers) (isOpen : Bool) (tokens : List Token) : Option (List Token) :=
  (inner.type? isOpen tokens).map (·.2)

def afterExpression? (inner : Readers) (structs : Bool) (tokens : List Token) :
    Option (List Token) :=
  (inner.expression? structs tokens).map (·.2)

def afterPattern? (inner : Readers) (tokens : List Token) : Option (List Token) :=
  (inner.pattern? tokens).map (·.2)

end Readers

/-! ### Groups and lists -/

def afterInside? (delimiter : Delimiter) (inside? : Passage) : Passage := fun tokens => do
  closed? delimiter (← inside? (← opened? delimiter tokens))

/-- What is read repeatedly up to the end of a group. -/
def afterEach? (item? : Passage) : Nat → Passage
  | 0, _ => none
  | fuel + 1, tokens =>
    if atEnd tokens then some tokens else do afterEach? item? fuel (← item? tokens)

/-- Values with commas between them and perhaps one at their end, up to where they are over. -/
def listUntil? {Value : Type} (isOver : List Token → Bool) (item? : Reader Value) :
    Nat → Reader (List Value)
  | 0, _ => none
  | fuel + 1, tokens =>
    if isOver tokens then some ([], tokens)
    else do
      let (first, rest) ← item? tokens
      match symbol? "," rest with
      | some others => do
        let (values, after) ← listUntil? isOver item? fuel others
        return (first :: values, after)
      | none => return ([first], rest)

/-- What follows a list of what has no value, up to where it is over. -/
def afterListUntil? (isOver : List Token → Bool) (item? : Passage) : Passage := fun tokens =>
  (listUntil? isOver (fun item => (item? item).map ((), ·)) (tokens.length + 1) tokens).map (·.2)

def afterList? (item? : Passage) : Passage := afterListUntil? atEnd item?

end StagedBuilder.TypeExpression
