/-
This file reads paths: names with `::` between them, each of which may have arguments
between angle brackets. In an expression a `<` after a name is a comparison, so
there the arguments need `::` in front. A plain path has no arguments at all; such
are the names of attributes, of imports, and of what is expanded.
-/

import StagedBuilder.TypeExpression.Readers

namespace StagedBuilder.TypeExpression

/-! ### What stands at the front -/

/-- The words with which a path may start, besides names. -/
def pathWords : List String := ["super", "self", "Self", "crate"]

def startsPath (tokens : List Token) : Bool :=
  startsName tokens || startsWord pathWords tokens || startsAnySymbol ["::", "<"] tokens

def startsArguments (tokens : List Token) : Bool :=
  startsSymbol "<" tokens && !startsAnySymbol ["<=", "<<="] tokens

/-- Whether `::` and then arguments stand at the front. -/
def startsMarkedArguments (tokens : List Token) : Bool :=
  startsSymbol "::" tokens && startsSymbol "<" (tokens.drop 2)

/-! ### Segments -/

/-- A segment of a path: its name, and the arguments if there are angle brackets. -/
structure Segment where
  name : String
  arguments : Option (List Argument)

/-- The words that are segments and never have arguments. -/
def bareSegments : List String := ["super", "self", "crate", "try"]

/-- Reads a segment of a path; `isValue` says whether it occurs in an expression. -/
def segment? (inner : Readers) (isValue : Bool) : Reader Segment
  | .word name :: rest =>
    if bareSegments.contains name then some (⟨name, none⟩, rest)
    else if name = "Self" ∨ isName name then
      if !isValue && startsArguments rest || startsMarkedArguments rest then do
        let (arguments, after) ← inner.arguments? (passSymbol "::" rest)
        return (⟨name, some arguments⟩, after)
      else some (⟨name, none⟩, rest)
    else none
  | _ => none

/-! ### Paths -/

/-- A path as it is read. -/
structure PathReading where
  absolute : Bool
  /-- The names before the last, each with what stands between the angle brackets after it. -/
  space : List (String × List Argument)
  name : String
  /-- What stands between the angle brackets after the last name. -/
  arguments : List Argument
  /-- Whether no name has angle brackets after it. -/
  isPlain : Bool

namespace PathReading

/-- The path of a single segment. -/
def ofSegment (segment : Segment) : PathReading :=
  ⟨false, [], segment.name, segment.arguments.getD [], segment.arguments.isNone⟩

/-- A path with a segment in front. -/
def below (segment : Segment) (reading : PathReading) : PathReading :=
  { reading with
    space := (segment.name, segment.arguments.getD []) :: reading.space
    isPlain := segment.arguments.isNone && reading.isPlain }

/-- The expression of a path. -/
def expression (reading : PathReading) : TypeExpression :=
  .path reading.absolute reading.space reading.name reading.arguments

end PathReading

/-- Reads the segments of a path. A `::` in front of a parenthesis belongs to what follows. -/
def segments? (inner : Readers) (isValue : Bool) : Nat → Reader PathReading
  | 0, _ => none
  | fuel + 1, tokens => do
    let (segment, rest) ← segment? inner isValue tokens
    match symbol? "::" rest with
    | some others =>
      if opens .paren others then return (.ofSegment segment, rest)
      else do
        let (reading, after) ← segments? inner isValue fuel others
        return (reading.below segment, after)
    | none => return (.ofSegment segment, rest)

def path? (inner : Readers) (isValue : Bool) : Reader PathReading := fun tokens => do
  let (reading, rest) ←
    segments? inner isValue (tokens.length + 1) (passSymbol "::" tokens)
  return ({ reading with absolute := startsSymbol "::" tokens }, rest)

/-! ### Paths that start at a type -/

def afterMembers? (inner : Readers) (isValue : Bool) : Nat → Passage
  | 0, _ => none
  | fuel + 1, tokens => do
    let (_, rest) ← segment? inner isValue tokens
    match symbol? "::" rest with
    | some others => afterMembers? inner isValue fuel others
    | none => some rest

/-- What follows a path that starts at a type, `<T as U>::V`. -/
def afterProjection? (inner : Readers) (isValue : Bool) : Passage := fun tokens => do
  let type ← inner.afterType? true (← symbol? "<" tokens)
  let trait ← match fixedWord? "as" type with
    | some named => (path? inner false named).map (·.2)
    | none => some type
  let members ← symbol? "::" (← symbol? ">" trait)
  afterMembers? inner isValue (members.length + 1) members

/-- Reads the path of a value; the answer says whether it may name what is expanded. -/
def valuePath? (inner : Readers) : Reader Bool := fun tokens =>
  if startsSymbol "<" tokens then (afterProjection? inner true tokens).map (false, ·)
  else (path? inner true tokens).map fun (reading, rest) => (reading.isPlain, rest)

/-! ### Plain paths -/

def afterPlainNames? : Nat → Passage
  | 0, _ => none
  | fuel + 1, tokens =>
    if startsName tokens || startsWord pathWords tokens then
      match symbol? "::" (tokens.drop 1) with
      | some others => afterPlainNames? fuel others
      | none => some (tokens.drop 1)
    else none

def afterPlainPath? : Passage := fun tokens =>
  afterPlainNames? (tokens.length + 1) (passSymbol "::" tokens)

end StagedBuilder.TypeExpression
