/-
This file holds the operators of expressions: how they are written, how strongly
they bind, and which symbols make a range. A longer symbol goes before the shorter
ones it starts with.
-/

import StagedBuilder.TypeExpression.Token

namespace StagedBuilder.TypeExpression

/-! ### Precedence -/

/-- How strongly an operator binds, from the weakest to the strongest. -/
inductive Precedence where
  /-- Weaker than any operator. -/
  | least
  | assign
  | range
  | or
  | and
  | compare
  | bitOr
  | bitXor
  | bitAnd
  | shift
  | sum
  | product
  | cast
deriving DecidableEq, Inhabited

/-- The rank of a precedence; a stronger one has a higher rank. -/
def Precedence.rank : Precedence → Nat
  | .least => 0
  | .assign => 1
  | .range => 2
  | .or => 3
  | .and => 4
  | .compare => 5
  | .bitOr => 6
  | .bitXor => 7
  | .bitAnd => 8
  | .shift => 9
  | .sum => 10
  | .product => 11
  | .cast => 12

/-- The symbols between two operands, with how strongly they bind. -/
def binarySymbols : List (String × Precedence) :=
  ["+=", "-=", "*=", "/=", "%=", "^=", "&=", "|=", "<<=", ">>="].map (·, .assign)
    ++ [("&&", .and), ("||", .or), ("<<", .shift), (">>", .shift)]
    ++ ["==", "<=", "!=", ">="].map (·, .compare)
    ++ [("+", .sum), ("-", .sum), ("*", .product), ("/", .product), ("%", .product),
      ("^", .bitXor), ("&", .bitAnd), ("|", .bitOr), ("<", .compare), (">", .compare)]

/-- Reads an operator between two operands. -/
def binary? (tokens : List Token) : Option (Precedence × List Token) :=
  binarySymbols.findSome? fun (symbol, precedence) => (symbol? symbol tokens).map (precedence, ·)

/-! ### Symbols that are no part of a longer one -/

def startsAnySymbol (symbols : List String) (tokens : List Token) : Bool :=
  symbols.any (startsSymbol · tokens)

/-- Whether an assignment stands at the front; an arrow is none. -/
def startsAssignment (tokens : List Token) : Bool :=
  startsSymbol "=" tokens && !startsSymbol "=>" tokens

/-- Whether the point of an access stands at the front; two points are a range. -/
def startsAccess (tokens : List Token) : Bool :=
  startsSymbol "." tokens && !startsSymbol ".." tokens

def startsColon (tokens : List Token) : Bool :=
  startsSymbol ":" tokens && !startsSymbol "::" tokens

def startsExpansion (tokens : List Token) : Bool :=
  startsSymbol "!" tokens && !startsSymbol "!=" tokens

def startsAlternative (tokens : List Token) : Bool :=
  startsSymbol "|" tokens && !startsAnySymbol ["||", "|="] tokens

/-- The operator at the front tells how strongly it binds. -/
def nextPrecedence (tokens : List Token) : Precedence :=
  match binary? tokens with
  | some (precedence, _) => precedence
  | none =>
    if startsAssignment tokens then .assign
    else if startsSymbol ".." tokens then .range
    else if startsWord ["as"] tokens then .cast
    else .least

/-! ### Ranges -/

/-- Reads the symbol of a range; three points count as one only if they are allowed. The
answer says whether the upper end belongs to the range. -/
def rangeSymbol? (allowsPoints : Bool) (tokens : List Token) : Option (Bool × List Token) :=
  match symbol? "..=" tokens with
  | some rest => some (true, rest)
  | none =>
    match symbol? "..." tokens with
    | some rest => if allowsPoints then some (true, rest) else none
    | none => (symbol? ".." tokens).map (false, ·)

/-- The symbols before which a range has no upper end. -/
def symbolsAfterRange : List String :=
  [",", ";", "?", "=>", "=", "+", "/", "%", "^", ">", "<=", "!=", "-=", "*=", "&=", "|=", "<<="]

/-- Whether a range ends here, without an upper end. A brace opens an operand only where
values with named fields may stand. -/
def endsRange (structs : Bool) (tokens : List Token) : Bool :=
  atEnd tokens || startsAnySymbol symbolsAfterRange tokens || startsAccess tokens
    || startsWord ["as"] tokens || (opens .brace tokens && !structs)

end StagedBuilder.TypeExpression
