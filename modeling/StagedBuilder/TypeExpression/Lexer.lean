/-
This file splits type expressions into tokens. White space and comments separate
tokens and mean nothing else; comments that begin with `/` or `!` after their mark
are documentation and stand for an attribute. Every delimiter needs its partner,
so whoever reads the tokens can rely on groups that close.

Every scanner takes the characters that are left and returns what it found with
what remains after it.
-/

import StagedBuilder.TypeExpression.Token

namespace StagedBuilder.TypeExpression

/-! ### White space and comments -/

/-- White space of the Unicode standard, and the two marks of writing direction. -/
def isBlank (character : Char) : Bool :=
  let code := character.toNat
  (0x09 ≤ code && code ≤ 0x0D) || code = 0x20 || code = 0x85 || code = 0xA0 || code = 0x1680
    || (0x2000 ≤ code && code ≤ 0x200A) || code = 0x200E || code = 0x200F
    || code = 0x2028 || code = 0x2029 || code = 0x202F || code = 0x205F || code = 0x3000

/-- What follows a block comment; comments nest, and `depth` of them are open. -/
def afterBlock? : Nat → List Char → Option (List Char)
  | depth, '/' :: '*' :: rest => afterBlock? (depth + 1) rest
  | depth, '*' :: '/' :: rest => if depth ≤ 1 then some rest else afterBlock? (depth - 1) rest
  | depth, _ :: rest => afterBlock? depth rest
  | _, [] => none

/-- What follows a line comment: the end of its line. -/
def afterLine (characters : List Char) : List Char := characters.dropWhile (· ≠ '\n')

def startsLine (characters : List Char) : Bool :=
  startsWith characters "//"
    && (!startsWith characters "///" || startsWith characters "////")
    && !startsWith characters "//!"

def startsBlock (characters : List Char) : Bool :=
  startsWith characters "/*"
    && (!startsWith characters "/**" || startsWith characters "/***"
      || startsWith characters "/**/")
    && !startsWith characters "/*!"

/-- What is left after white space and comments. A comment that is never closed is left. -/
def skipBlanks : Nat → List Char → List Char
  | 0, characters => characters
  | fuel + 1, characters =>
    if startsLine characters then skipBlanks fuel (afterLine characters)
    else if startsBlock characters then
      match afterBlock? 1 (characters.drop 2) with
      | some rest => skipBlanks fuel rest
      | none => characters
    else
      match characters with
      | first :: rest => if isBlank first then skipBlanks fuel rest else characters
      | [] => []

/-! ### Words -/

/-- Words that have no raw form. -/
def neverRaw : List String := ["_", "super", "self", "Self", "crate"]

/-- An identifier at the front, in raw form or not. -/
def anyIdentifier? (characters : List Char) : Option (String × List Char) :=
  match characters with
  | 'r' :: '#' :: rest => do
    let (found, after) ← identifier? rest
    if neverRaw.contains (String.ofList found) then none
    else some (String.ofList ('r' :: '#' :: found), after)
  | _ => (identifier? characters).map fun (found, after) => (String.ofList found, after)

/-- What starts a literal with a letter in front and therefore no word. -/
def literalStarts : List String :=
  ["r\"", "r#\"", "r##", "b\"", "b'", "br\"", "br#", "c\"", "cr\"", "cr#"]

/-- A word at the front. -/
def word? (characters : List Char) : Option (Token × List Char) :=
  if literalStarts.any (startsWith characters) then none
  else (anyIdentifier? characters).map fun (found, after) => (.word found, after)

/-! ### Marks and delimiters -/

/-- The characters that are marks. -/
def markCharacters : List Char := "~!@#$%^&*-=+|;:,<.>/?'".toList

/-- Whether a mark is at the front; the slash of a comment is none. -/
def startsMark (characters : List Char) : Bool :=
  match characters with
  | first :: _ =>
    markCharacters.contains first
      && !startsWith characters "//" && !startsWith characters "/*"
  | [] => false

/-- A mark or a lifetime at the front. A quote is the mark of a lifetime; if a literal starts
right after it, it stays a mark. -/
def mark? (characters : List Char) : Option (Token × List Char) :=
  if startsMark characters then
    match characters with
    | '\'' :: rest => do
      let (_, after) ← anyIdentifier? rest
      if after.head? = some '\'' ∨ (after.head? = some '#' ∧ !startsWith rest "r#") then none
      else if literalStarts.any (startsWith rest) then some (.mark '\'' true, rest)
      else some (.lifetime, after)
    | first :: rest => some (.mark first (startsMark rest), rest)
    | [] => none
  else none

/-- A delimiter at the front. -/
def delimiter? : List Char → Option (Token × List Char)
  | '(' :: rest => some (.opening .paren, rest)
  | '[' :: rest => some (.opening .bracket, rest)
  | '\x7b' :: rest => some (.opening .brace, rest)
  | ')' :: rest => some (.closing .paren, rest)
  | ']' :: rest => some (.closing .bracket, rest)
  | '\x7d' :: rest => some (.closing .brace, rest)
  | _ => none

/-- The attribute that a documentation comment stands for. -/
def documentationTokens (inner : Bool) : List Token :=
  [.mark '#' false] ++ (if inner then [.mark '!' false] else [])
    ++ [.opening .bracket, .word "doc", .mark '=' false, .literal .text, .closing .bracket]

/-- Whether a carriage return occurs that no line feed follows. -/
def hasLoneReturn : List Char → Bool
  | [] => false
  | '\r' :: rest => rest.head? ≠ some '\n' || hasLoneReturn rest
  | _ :: rest => hasLoneReturn rest

/-- A documentation comment at the front that goes to the end of its line. -/
def documentationLine? (inner : Bool) (characters : List Char) :
    Option (List Token × List Char) :=
  let rest := afterLine characters
  let line := characters.take (characters.length - rest.length + 1)
  if hasLoneReturn line then none else some (documentationTokens inner, rest)

/-- A documentation comment at the front that goes to its closing mark. -/
def documentationBlock? (inner : Bool) (characters : List Char) :
    Option (List Token × List Char) := do
  let rest ← afterBlock? 1 (characters.drop 2)
  let block := characters.take (characters.length - rest.length)
  if hasLoneReturn block then none else some (documentationTokens inner, rest)

/-- A documentation comment at the front. -/
def documentation? (characters : List Char) : Option (List Token × List Char) :=
  if startsWith characters "//!" then documentationLine? true characters
  else if startsWith characters "///" then documentationLine? false characters
  else if startsWith characters "/*!" then documentationBlock? true characters
  else if startsWith characters "/**" then documentationBlock? false characters
  else none

/-! ### Whole texts -/

/-- The mark that stands for a literal nobody could write. -/
def illegibleMark : String := "(/*ERROR*/)"

/-- A literal at the front. -/
def literal? (characters : List Char) : Option (Token × List Char) :=
  if startsWith characters illegibleMark then
    some (.literal .unspecified, characters.drop illegibleMark.length)
  else (Literal.read? characters).map fun (found, rest) => (.literal found, rest)

/-- The first of several readings that succeeds. -/
def token? (characters : List Char) : Option (List Token × List Char) :=
  documentation? characters <|>
    ((literal? characters <|> delimiter? characters <|> mark? characters
      <|> word? characters).map fun (token, rest) => ([token], rest))

/-- The tokens of a text; every token takes a character at least. -/
def tokensFrom? : Nat → List Char → Option (List Token)
  | 0, _ => none
  | fuel + 1, characters =>
    match skipBlanks (characters.length + 1) characters with
    | [] => some []
    | rest => do
      let (found, after) ← token? rest
      return found ++ (← tokensFrom? fuel after)

/-- Whether every delimiter is closed by its partner; `open` delimiters wait for theirs. -/
def isBalanced : List Delimiter → List Token → Bool
  | waiting, .opening delimiter :: rest => isBalanced (delimiter :: waiting) rest
  | first :: waiting, .closing delimiter :: rest => first = delimiter && isBalanced waiting rest
  | [], .closing _ :: _ => false
  | waiting, _ :: rest => isBalanced waiting rest
  | waiting, [] => waiting.isEmpty

/-- The tokens of a text in which every delimiter is closed. A byte order mark in front is
passed over. -/
def tokens? (text : String) : Option (List Token) := do
  let characters := match text.toList with
    | '\uFEFF' :: rest => rest
    | unmarked => unmarked
  let tokens ← tokensFrom? (characters.length + 1) characters
  if isBalanced [] tokens then some tokens else none

end StagedBuilder.TypeExpression
