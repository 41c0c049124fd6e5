/-
This file reads patterns, which take values apart. A pattern may have alternatives
with `|` between them; the reader of single patterns leaves those to its caller. It
also tells whether it has read a range that lacks one of its ends, because such a
range may not be the element of a slice.
-/

import StagedBuilder.TypeExpression.Bound

namespace StagedBuilder.TypeExpression

/-! ### Ends of ranges -/

def endsRangePattern (tokens : List Token) : Bool :=
  atEnd tokens || startsAnySymbol ["|", "=", ",", ";"] tokens || startsColon tokens
    || startsWord ["if"] tokens

/-- What follows an end of a range: a literal, a path or a constant block. -/
def afterRangeEnd? (inner : Readers) : Passage := fun tokens =>
  if startsLiteral tokens then afterLiteral? tokens
  else if startsPath tokens then (valuePath? inner tokens).map (·.2)
  else do afterOwnedBody? inner (← fixedWord? "const" tokens)

/-- Reads what follows the lower end of a range. Without an upper end the range lacks one, and
may not claim to contain it. -/
def rangeRest? (inner : Readers) : Reader Bool := fun tokens => do
  let (isClosed, rest) ← rangeSymbol? true tokens
  if endsRangePattern rest then
    if isClosed then none else some (true, rest)
  else return (false, ← afterRangeEnd? inner rest)

/-- Reads a range without a lower end. Two points alone stand for any number of elements. -/
def halfRange? (inner : Readers) : Reader Bool := fun tokens => do
  let (isClosed, rest) ← rangeSymbol? false tokens
  if endsRangePattern rest then
    if isClosed then none else some (false, rest)
  else return (true, ← afterRangeEnd? inner rest)

/-! ### Alternatives -/

def afterAlternatives? (inner : Readers) : Nat → Passage
  | 0, _ => none
  | fuel + 1, tokens =>
    if startsAlternative tokens then do
      afterAlternatives? inner fuel (← inner.afterPattern? (tokens.drop 1))
    else some tokens

/-- Reads a pattern with alternatives, of which the first may have a `|` in front. -/
def alternatives? (inner : Readers) : Reader Bool := fun tokens => do
  let (isOpenRange, rest) ← inner.pattern? (passSymbol "|" tokens)
  let after ← afterAlternatives? inner (rest.length + 1) rest
  return (isOpenRange && !startsSymbol "|" tokens && !startsAlternative rest, after)

def afterPatterns? (inner : Readers) : Passage := fun tokens =>
  (alternatives? inner tokens).map (·.2)

def afterElement? (inner : Readers) : Passage := fun tokens => do
  let (isOpenRange, rest) ← alternatives? inner tokens
  if isOpenRange then none else some rest

/-! ### Parts -/

/-- Reads a member: a name or the number of a place. The answer says whether it is a name. -/
def member? : Reader Bool
  | .word name :: rest => if isName name then some (true, rest) else none
  | .literal (.number written) :: rest => (Literal.place? written).map fun _ => (false, rest)
  | _ => none

/-- What follows a field of a pattern. A name with a mark in front takes no pattern of its own,
and the number of a place needs one. -/
def afterFieldPattern? (inner : Readers) : Passage := fun tokens =>
  if startsWord ["box", "ref", "mut"] tokens then
    afterName? (passWord "mut" (passWord "ref" (passWord "box" tokens)))
  else do
    let (isNamed, rest) ← member? tokens
    match symbol? ":" rest with
    | some pattern => afterPatterns? inner pattern
    | none => if isNamed then some rest else none

/-- What follows the fields of a pattern, up to the end of their braces. Two points stand for
all other fields and come last. -/
def afterFieldPatterns? (inner : Readers) : Nat → Passage
  | 0, _ => none
  | fuel + 1, tokens =>
    if atEnd tokens then some tokens
    else do
      let field ← afterAttributes? inner tokens
      match symbol? ".." field with
      | some rest => some rest
      | none => do
        let rest ← afterFieldPattern? inner field
        match symbol? "," rest with
        | some others => afterFieldPatterns? inner fuel others
        | none => some rest

/-- Reads a pattern that starts with a path: an expansion, a structure, a tuple, a range, or
the path alone. -/
def pathPattern? (inner : Readers) : Reader Bool := fun tokens => do
  let (isPlain, rest) ← valuePath? inner tokens
  if startsExpansion rest && isPlain then (afterGroup? (rest.drop 1)).map (false, ·)
  else if opens .brace rest then
    (afterInside? .brace
      (fun inside => afterFieldPatterns? inner (inside.length + 1) inside) rest).map (false, ·)
  else if opens .paren rest then
    (afterInside? .paren (afterList? (afterPatterns? inner)) rest).map (false, ·)
  else if startsSymbol ".." rest then rangeRest? inner rest
  else some (false, rest)

/-- Reads a pattern that starts with a literal or a constant block. -/
def literalPattern? (inner : Readers) : Reader Bool := fun tokens => do
  let rest ← afterRangeEnd? inner tokens
  if startsSymbol ".." rest then rangeRest? inner rest else some (false, rest)

/-- What follows a name that is given to what the pattern matches. -/
def afterBinding? (inner : Readers) : Passage := fun tokens => do
  let named := passWord "mut" (passWord "ref" tokens)
  let rest ← fixedWord? "self" named <|> afterName? named
  match symbol? "@" rest with
  | some pattern => inner.afterPattern? pattern
  | none => some rest

/-! ### Single patterns -/

/-- Whether the pattern at the front starts with a path and is no mere name. -/
def startsPathPattern (tokens : List Token) : Bool :=
  let next := tokens.drop 1
  startsName tokens
      && (startsAnySymbol ["::", "!", ".."] next || opens .brace next || opens .paren next)
    || startsWord ["self"] tokens && startsSymbol "::" next
    || startsAnySymbol ["::", "<"] tokens || startsWord ["Self", "super", "crate"] tokens

def pattern? (inner : Readers) : Reader Bool := fun tokens =>
  if startsPathPattern tokens then pathPattern? inner tokens
  else if startsWord ["_"] tokens then some (false, tokens.drop 1)
  else if startsWord ["box"] tokens then (inner.afterPattern? (tokens.drop 1)).map (false, ·)
  else if startsSymbol "-" tokens || startsLiteral tokens || startsWord ["const"] tokens then
    literalPattern? inner tokens
  else if startsName tokens || startsWord ["ref", "mut", "self"] tokens then
    (afterBinding? inner tokens).map (false, ·)
  else if startsSymbol "&" tokens then
    (inner.afterPattern? (passWord "mut" (tokens.drop 1))).map (false, ·)
  else if opens .paren tokens then
    (afterInside? .paren (afterList? (afterPatterns? inner)) tokens).map (false, ·)
  else if opens .bracket tokens then
    (afterInside? .bracket (afterList? (afterElement? inner)) tokens).map (false, ·)
  else if startsSymbol ".." tokens then halfRange? inner tokens
  else none

end StagedBuilder.TypeExpression
