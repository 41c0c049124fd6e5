/-
This file reads the statements of a block: declarations of names, items, expansions
and expressions. A statement that is not the last one needs a semicolon, unless it is
an item or a block ends it.
-/

import StagedBuilder.TypeExpression.Atom

namespace StagedBuilder.TypeExpression

/-! ### Expansions -/

/-- What follows the name of what is expanded, with its mark. -/
def afterExpansionName? : Passage := fun tokens => do symbol? "!" (← afterPlainPath? tokens)

/-- Whether an expansion stands at the front that declares what it names. -/
def startsNamingExpansion (tokens : List Token) : Bool :=
  match afterExpansionName? tokens with
  | some name => startsName name || startsWord ["try"] name
  | none => false

/-- What follows an expansion between braces that is a statement of its own. -/
def afterExpansion? : Passage := fun tokens => do
  let group ← afterExpansionName? tokens
  let rest := skip group
  if !opens .brace group || startsAccess rest || startsSymbol "?" rest then none
  else some (passSymbol ";" (← afterGroup? group))

/-! ### Items among statements -/

/-- The words with which only items start. -/
def itemWords : List String :=
  ["pub", "extern", "use", "fn", "mod", "type", "struct", "enum", "trait", "impl", "macro"]

/-- Whether `const` at the front starts an expression, its next tokens being given. -/
def startsConstantOperand (next : List Token) : Bool :=
  opens .brace next || startsWord ["static", "move"] next || startsSymbol "|" next
    || startsWord ["async"] next && !startsWord ["unsafe", "extern", "fn"] (next.drop 1)

def startsItem (tokens : List Token) : Bool :=
  let next := tokens.drop 1
  startsWord itemWords tokens
    || startsWord ["crate"] tokens && !startsSymbol "::" next
    || startsWord ["static"] tokens && (startsWord ["mut"] next || startsName next)
    || startsWord ["const"] tokens && !startsConstantOperand next
    || startsWord ["unsafe"] tokens && !opens .brace next
    || startsWord ["async"] tokens && startsWord ["unsafe", "extern", "fn"] next
    || startsWord ["union"] tokens && startsName next
    || startsWord ["auto"] tokens && startsWord ["trait"] next
    || startsWord ["default"] tokens && startsWord ["unsafe", "impl"] next
    || startsNamingExpansion tokens

/-! ### Statements -/

/-- Whether a brace is the last of the tokens that were read. -/
def endsWithBrace (tokens rest : List Token) : Bool :=
  (tokens.take (tokens.length - rest.length)).getLast? = some (.closing .brace)

/-- What follows the value of a declared name, and the block for values that the pattern does
not match. After a brace, `else` would be read as part of the value. -/
def afterInitial? (inner : Readers) : Passage := fun tokens => do
  let rest ← inner.afterExpression? true tokens
  match fixedWord? "else" rest with
  | some alternative => if endsWithBrace tokens rest then none else afterBody? inner alternative
  | none => some rest

/-- What follows a declaration of names, after its first word. -/
def afterDeclaration? (inner : Readers) : Passage := fun tokens => do
  let named ← inner.afterPattern? tokens
  let typed ← match symbol? ":" named with
    | some type => inner.afterType? true type
    | none => some named
  let valued ← match symbol? "=" typed with
    | some value => afterInitial? inner value
    | none => some typed
  symbol? ";" valued

/-- Reads a statement; the answer says whether it lacks a semicolon. -/
def statement? (inner : Readers) : Reader Bool := fun tokens => do
  let start ← afterAttributes? inner tokens
  match afterExpansion? start with
  | some rest => some (false, rest)
  | none =>
    match fixedWord? "let" start with
    | some declaration => (afterDeclaration? inner declaration).map (false, ·)
    | none =>
      if startsItem start then (inner.item? start).map (false, ·)
      else do
        let (shape, rest) ← inner.leading? start
        match symbol? ";" rest with
        | some others => some (false, others)
        | none => return (shape ≠ .block && shape ≠ .expansion, rest)

/-- What follows the statements of a block, up to its end. -/
def statements? (inner : Readers) : Passage := fun tokens =>
  match symbol? ";" tokens with
  | some others => inner.statements? others
  | none =>
    if atEnd tokens then some tokens
    else do
      let (lacksSemicolon, rest) ← statement? inner tokens
      if atEnd rest then some rest
      else if lacksSemicolon then none
      else inner.statements? rest

end StagedBuilder.TypeExpression
