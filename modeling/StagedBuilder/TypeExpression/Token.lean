/-
This file holds the tokens of type expressions. A token is a word, that is an
identifier or a keyword, a lifetime, a literal, a delimiter, or a single mark. A
mark knows whether another mark follows it immediately, because only then can the
two be read as one symbol such as `::` or `->`. Of a literal only its kind is of
interest, and how it is written if it is a number.

The grammar looks at the tokens at the front of a list, takes what it recognises,
and goes on with the rest. The readings that know nothing but tokens are here: a
symbol, a fixed word, a name, a literal, a group between delimiters.
-/

import StagedBuilder.TypeExpression.Literal

namespace StagedBuilder.TypeExpression

/-! ### Tokens -/

/-- The pairs of delimiters. -/
inductive Delimiter where
  | paren
  | bracket
  | brace
deriving DecidableEq, Inhabited

/-- A token of a type expression. -/
inductive Token where
  /-- An identifier or a keyword; a raw identifier keeps its `r#`. -/
  | word (text : String)
  /-- A mark, and whether a mark follows it immediately. -/
  | mark (character : Char) (joint : Bool)
  | lifetime
  | literal (literal : Literal)
  | opening (delimiter : Delimiter)
  | closing (delimiter : Delimiter)
deriving DecidableEq, Inhabited

/-! ### Symbols -/

/-- What follows a symbol at the front. All its marks but the last need the next one right
after them; the symbol may be the beginning of a longer one. -/
def afterSymbol? : List Char → List Token → Option (List Token)
  | [], tokens => some tokens
  | [last], .mark character _ :: rest => if character = last then some rest else none
  | first :: others, .mark character true :: rest =>
    if character = first then afterSymbol? others rest else none
  | _, _ => none

def startsSymbol (symbol : String) (tokens : List Token) : Bool :=
  (afterSymbol? symbol.toList tokens).isSome

/-- What follows a symbol that must be there. -/
def symbol? (symbol : String) (tokens : List Token) : Option (List Token) :=
  afterSymbol? symbol.toList tokens

/-- What follows a symbol that may be missing. -/
def passSymbol (symbol : String) (tokens : List Token) : List Token :=
  (symbol? symbol tokens).getD tokens

/-! ### Words -/

/-- The words that are no names. -/
def reservedWords : List String :=
  ["_", "abstract", "as", "async", "await", "become", "box", "break", "const", "continue",
    "crate", "do", "dyn", "else", "enum", "extern", "false", "final", "fn", "for", "if",
    "impl", "in", "let", "loop", "macro", "match", "mod", "move", "mut", "override", "priv",
    "pub", "ref", "return", "Self", "self", "static", "struct", "super", "trait", "true",
    "try", "type", "typeof", "unsafe", "unsized", "use", "virtual", "where", "while", "yield"]

/-- Whether a word may name something. -/
def isName (text : String) : Bool := !reservedWords.contains text

def fixedWord? (text : String) : List Token → Option (List Token)
  | .word found :: rest => if found = text then some rest else none
  | _ => none

/-- Whether one of several fixed words stands at the front. -/
def startsWord (texts : List String) : List Token → Bool
  | .word found :: _ => texts.contains found
  | _ => false

def passWord (text : String) (tokens : List Token) : List Token :=
  (fixedWord? text tokens).getD tokens

def startsName : List Token → Bool
  | .word found :: _ => isName found
  | _ => false

def afterName? : List Token → Option (List Token)
  | .word found :: rest => if isName found then some rest else none
  | _ => none

def startsLifetime : List Token → Bool
  | .lifetime :: _ => true
  | _ => false

def passLifetime : List Token → List Token
  | .lifetime :: rest => rest
  | tokens => tokens

/-! ### Literals -/

/-- Whether a literal stands at the front; a number may have a minus in front. -/
def startsLiteral : List Token → Bool
  | .literal _ :: _ => true
  | .mark '-' _ :: .literal (.number _) :: _ => true
  | tokens => startsWord ["true", "false"] tokens

def afterLiteral? (tokens : List Token) : Option (List Token) :=
  if startsLiteral tokens then some ((passSymbol "-" tokens).drop 1) else none

/-- What follows a text between quotes that may be missing. -/
def passText : List Token → List Token
  | .literal .text :: rest => rest
  | tokens => tokens

/-! ### Groups -/

/-- Whether a group of the given delimiters opens at the front. -/
def opens (delimiter : Delimiter) : List Token → Bool
  | .opening found :: _ => found = delimiter
  | _ => false

def opened? (delimiter : Delimiter) : List Token → Option (List Token)
  | .opening found :: rest => if found = delimiter then some rest else none
  | _ => none

def closed? (delimiter : Delimiter) : List Token → Option (List Token)
  | .closing found :: rest => if found = delimiter then some rest else none
  | _ => none

/-- Whether nothing is left of a group, or of the whole text. -/
def atEnd : List Token → Bool
  | [] => true
  | .closing _ :: _ => true
  | _ => false

/-- What follows the group that a number of delimiters opened. Delimiters are known to be
balanced, so their kinds need no further look. -/
def afterOpen? : Nat → List Token → Option (List Token)
  | _, [] => none
  | depth, .opening _ :: rest => afterOpen? (depth + 1) rest
  | depth, .closing _ :: rest => if depth ≤ 1 then some rest else afterOpen? (depth - 1) rest
  | depth, _ :: rest => afterOpen? depth rest

/-- What follows a group of any delimiters at the front, whatever it holds. -/
def afterGroup? : List Token → Option (List Token)
  | .opening _ :: rest => afterOpen? 1 rest
  | _ => none

def opensGroup : List Token → Bool
  | .opening _ :: _ => true
  | _ => false

/-- What follows one token, of which a whole group counts as one. Nothing follows the last
token of a group. -/
def skip (tokens : List Token) : List Token :=
  if atEnd tokens then []
  else if opensGroup tokens then (afterGroup? tokens).getD []
  else tokens.drop 1

end StagedBuilder.TypeExpression
