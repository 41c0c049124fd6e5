/-
This file reads the items that a block may declare: functions, constants, types,
structures, traits and implementations, modules, imports, and what other languages
provide. Nothing is done with an item; it is only part of a constant that must be
well formed.
-/

import StagedBuilder.TypeExpression.Function
import StagedBuilder.TypeExpression.Statement

namespace StagedBuilder.TypeExpression

/-! ### Imports -/

/-- What follows the name that an import or a library is given, which may be missing. -/
def passRenaming? : Passage := fun tokens =>
  match fixedWord? "as" tokens with
  | some name => fixedWord? "_" name <|> afterName? name
  | none => some tokens

def startsImport (tokens : List Token) : Bool :=
  startsName tokens || startsWord ["self", "super", "crate", "try"] tokens

/-- What follows what `use` imports. Only a group without a path in front of it may hold parts
that `::` leads, which `allowsRoot` says. -/
def imports? (inner : Readers) (allowsRoot : Bool) : Passage := fun tokens =>
  if startsImport tokens then
    match symbol? "::" (tokens.drop 1) with
    | some members => inner.imports? false members
    | none => passRenaming? (tokens.drop 1)
  else if startsSymbol "*" tokens then some (tokens.drop 1)
  else
    let part? : Passage := fun part =>
      let hasRoot := allowsRoot && startsSymbol "::" part
      inner.imports? (allowsRoot && !hasRoot) (if hasRoot then part.drop 2 else part)
    afterInside? .brace (afterList? part?) tokens

/-- What follows an import, after its first word. -/
def afterUse? (inner : Readers) : Passage := fun tokens => do
  symbol? ";" (← inner.imports? (!startsSymbol "::" tokens) (passSymbol "::" tokens))

/-- What follows the import of a library, after its first two words. -/
def afterLibrary? : Passage := fun tokens => do
  symbol? ";" (← passRenaming? (← fixedWord? "self" tokens <|> afterName? tokens))

/-! ### Constants and types -/

def afterColonType? (inner : Readers) : Passage := fun tokens => do
  inner.afterType? true (← symbol? ":" tokens)

/-- What follows a value with `=` in front of it, which may be missing. -/
def passValue? (inner : Readers) : Passage := fun tokens =>
  match symbol? "=" tokens with
  | some value => inner.afterExpression? true value
  | none => some tokens

/-- What follows a constant, after its first word. -/
def afterConstantItem? (inner : Readers) : Passage := fun tokens => do
  let named ← fixedWord? "_" tokens <|> afterName? tokens
  let typed ← afterColonType? inner (← passParameters? inner named)
  symbol? ";" (← passWhere? inner (← passValue? inner typed))

/-- What follows a variable of the whole program, after its first word. Either its type or its
value may be missing, if `isFree` says so. -/
def afterStatic? (inner : Readers) (isFree : Bool) : Passage := fun tokens => do
  let named ← afterName? (passWord "mut" tokens)
  let typed ← if isFree && startsSymbol "=" named then some named else afterColonType? inner named
  symbol? ";" (← passValue? inner typed)

/-- Where the conditions of a named type stand. -/
inductive ConditionPlace where
  | beforeType
  | afterType
  | anywhere
deriving DecidableEq

/-- What follows a named type, after its first word; its type, its bounds and its conditions
may be missing. -/
def afterTypeItem? (inner : Readers) (place : ConditionPlace) : Passage := fun tokens => do
  let parameters ← passParameters? inner (← afterName? tokens)
  let bounded ← match symbol? ":" parameters with
    | some bounds => afterDeclaredBounds? inner bounds
    | none => some parameters
  let conditioned ← if place = .afterType then some bounded else passWhere? inner bounded
  let typed ← match symbol? "=" conditioned with
    | some type => inner.afterType? true type
    | none => some conditioned
  let mayFollow := place = .afterType
    || place = .anywhere && !startsWord ["where"] bounded
  symbol? ";" (← if mayFollow then passWhere? inner typed else some typed)

/-! ### Structures -/

/-- What follows a named field. A field without a name may be a structure of its own. -/
def afterField? (inner : Readers) : Passage := fun tokens => do
  let field ← passVisibility? (← afterAttributes? inner tokens)
  let type ← symbol? ":" (← fixedWord? "_" field <|> afterName? field)
  let isStructure := startsWord ["struct"] type
    || startsWord ["union"] type && opens .brace (type.drop 1)
  if startsWord ["_"] field && isStructure then afterInside? .brace inner.fields? (type.drop 1)
  else inner.afterType? true type

/-- What follows named fields, up to the end of their group. -/
def fields? (inner : Readers) : Passage := afterList? (afterField? inner)

def afterTupleFields? (inner : Readers) : Passage :=
  afterInside? .paren
    (afterList? fun tokens => do
      inner.afterType? true (← passVisibility? (← afterAttributes? inner tokens)))

/-- What follows a structure, after its first word. -/
def afterStructure? (inner : Readers) : Passage := fun tokens => do
  let parameters ← passParameters? inner (← afterName? tokens)
  if opens .paren parameters then do
    symbol? ";" (← passWhere? inner (← afterTupleFields? inner parameters))
  else do
    let body ← passWhere? inner parameters
    symbol? ";" body <|> afterInside? .brace inner.fields? body

def afterVariant? (inner : Readers) : Passage := fun tokens => do
  let named ← afterName? (← passVisibility? (← afterAttributes? inner tokens))
  passValue? inner (←
    if opens .brace named then afterInside? .brace inner.fields? named
    else if opens .paren named then afterTupleFields? inner named
    else some named)

/-- What follows an enumeration, after its first word. -/
def afterEnumeration? (inner : Readers) : Passage := fun tokens => do
  let parameters ← passParameters? inner (← afterName? tokens)
  afterInside? .brace (afterList? (afterVariant? inner)) (← passWhere? inner parameters)

/-- What follows a union, after its first word. -/
def afterUnion? (inner : Readers) : Passage := fun tokens => do
  let parameters ← passParameters? inner (← afterName? tokens)
  afterInside? .brace inner.fields? (← passWhere? inner parameters)

/-! ### Expansions -/

/-- What follows an expansion as an item, which may name what it declares. Only braces need no
semicolon. -/
def afterExpansionItem? (allowsName : Bool) : Passage := fun tokens => do
  let next ← afterExpansionName? tokens
  let group := if allowsName && (startsName next || startsWord ["try"] next) then next.drop 1
    else next
  let rest ← afterGroup? group
  if opens .brace group then some rest else symbol? ";" rest

def startsExpansionItem (tokens : List Token) : Bool :=
  startsName tokens || startsWord ["self", "super", "crate"] tokens || startsSymbol "::" tokens

/-- What follows a rule of expansion, after its first word. -/
def afterExpansionRule? : Passage := fun tokens => do
  let named ← afterName? tokens
  let body ← if opens .paren named then afterGroup? named else some named
  if opens .brace body then afterGroup? body else none

/-! ### Bodies of items -/

/-- What follows a body of items, which may start with attributes of its own. -/
def afterItems? (inner : Readers) (item? : Passage) : Passage :=
  afterInside? .brace fun tokens => do
    let items ← afterOwnAttributes? inner tokens
    afterEach? item? (items.length + 1) items

/-- What follows a module, after its first word. -/
def afterModule? (inner : Readers) : Passage := fun tokens => do
  let named ← fixedWord? "try" tokens <|> afterName? tokens
  symbol? ";" named <|> afterItems? inner inner.item? named

def afterForeignItem? (inner : Readers) : Passage := fun tokens => do
  let declared ← afterAttributes? inner tokens
  let item ← passVisibility? declared
  let unmarked := if startsWord ["unsafe", "safe"] item then item.drop 1 else item
  if startsFunction true item then afterDeclaredFunction? inner true item
  else if startsWord ["static"] unmarked then afterStatic? inner false (unmarked.drop 1)
  else if startsWord ["type"] item then afterTypeItem? inner .anywhere (item.drop 1)
  else if !startsWord ["pub"] declared && startsExpansionItem item then
    afterExpansionItem? false item
  else none

/-- What follows a block of items that another language provides, with the words in front. -/
def afterForeignBlock? (inner : Readers) : Passage := fun tokens => do
  let convention ← fixedWord? "extern" (passWord "unsafe" tokens)
  afterItems? inner (afterForeignItem? inner) (passText convention)

/-! ### Traits -/

def afterTraitItem? (inner : Readers) : Passage := fun tokens => do
  let declared ← afterAttributes? inner tokens
  let visible ← passVisibility? declared
  let item := passWord "default" visible
  if startsFunction false item then afterDeclaredFunction? inner false item
  else if startsWord ["const"] item then afterConstantItem? inner (item.drop 1)
  else if startsWord ["type"] item then afterTypeItem? inner .afterType (item.drop 1)
  else if item.length = declared.length && startsExpansionItem item then
    afterExpansionItem? false item
  else none

/-- What follows a trait, after its words. Only one without other words may stand for bounds. -/
def afterTraitBody? (inner : Readers) (mayStand : Bool) : Passage := fun tokens => do
  let parameters ← passParameters? inner (← afterName? tokens)
  if mayStand && startsSymbol "=" parameters then do
    let value := parameters.drop 1
    let bounds ← afterSum? (fun bound => (inner.bound? false false bound).map (·.2))
      (value.length + 1) value
    symbol? ";" (← passWhere? inner bounds)
  else do
    let bounded ← match symbol? ":" parameters with
      | some bounds => afterDeclaredBounds? inner bounds
      | none => some parameters
    afterItems? inner (afterTraitItem? inner) (← passWhere? inner bounded)

def afterImplementedItem? (inner : Readers) : Passage := fun tokens => do
  let declared ← afterAttributes? inner tokens
  let visible ← passVisibility? declared
  let isDefault := startsWord ["default"] visible && !startsSymbol "!" (visible.drop 1)
  let item := if isDefault then visible.drop 1 else visible
  if startsFunction false item then afterDeclaredFunction? inner false item
  else if startsWord ["const"] item then afterConstantItem? inner (item.drop 1)
  else if startsWord ["type"] item then afterTypeItem? inner .afterType (item.drop 1)
  else if item.length = declared.length && startsExpansionItem item then
    afterExpansionItem? false item
  else none

/-- What follows an implementation. Only that of a trait may say that there is none. -/
def afterImplementation? (inner : Readers) : Passage := fun tokens => do
  let start ← fixedWord? "impl" (passWord "unsafe" (passWord "default" tokens))
  let parameters ← if startsParameters start then afterParameters? inner true start else some start
  let modified := (fixedWord? "const" (passSymbol "?" parameters)).getD parameters
  let isNegative := startsSymbol "!" modified && !opens .brace (modified.drop 1)
  let type ← inner.afterType? true (if isNegative then modified.drop 1 else modified)
  let subject ← match fixedWord? "for" type with
    | some subject => inner.afterType? true subject
    | none => if isNegative then none else some type
  afterItems? inner (afterImplementedItem? inner) (← passWhere? inner subject)

/-! ### All items -/

/-- What follows an item whose first word is not the one that says what it is. -/
def afterUnsafeItem? (inner : Readers) (isVisible : Bool) : Passage := fun tokens =>
  match tokens with
  | .word "trait" :: rest => afterTraitBody? inner false rest
  | .word "auto" :: .word "trait" :: rest => afterTraitBody? inner false rest
  | .word "impl" :: _ => afterImplementation? inner tokens
  | .word "mod" :: rest => afterModule? inner rest
  | .word "extern" :: _ => if isVisible then none else afterForeignBlock? inner tokens
  | _ => none

def afterVisibleItem? (inner : Readers) (isVisible : Bool) : Passage := fun tokens =>
  if startsFunction false tokens then afterDeclaredFunction? inner false tokens
  else
    match tokens with
    | .word "extern" :: .word "crate" :: rest => afterLibrary? rest
    | .word "extern" :: _ => if isVisible then none else afterForeignBlock? inner tokens
    | .word "use" :: rest => afterUse? inner rest
    | .word "static" :: rest => afterStatic? inner true rest
    | .word "const" :: rest => afterConstantItem? inner rest
    | .word "unsafe" :: rest => afterUnsafeItem? inner isVisible rest
    | .word "mod" :: rest => afterModule? inner rest
    | .word "type" :: rest => afterTypeItem? inner .beforeType rest
    | .word "struct" :: rest => afterStructure? inner rest
    | .word "enum" :: rest => afterEnumeration? inner rest
    | .word "trait" :: rest => afterTraitBody? inner true rest
    | .word "auto" :: .word "trait" :: rest => afterTraitBody? inner false rest
    | .word "impl" :: _ => afterImplementation? inner tokens
    | .word "macro" :: rest => afterExpansionRule? rest
    | _ =>
      if startsWord ["union"] tokens && startsName (tokens.drop 1) then
        afterUnion? inner (tokens.drop 1)
      else if startsWord ["default"] tokens && !startsSymbol "!" (tokens.drop 1) then
        afterImplementation? inner tokens
      else if !isVisible && startsExpansionItem tokens then afterExpansionItem? true tokens
      else none

/-- What follows an item. -/
def item? (inner : Readers) : Passage := fun tokens => do
  let declared ← afterAttributes? inner tokens
  afterVisibleItem? inner (startsWord ["pub"] declared) (← passVisibility? declared)

end StagedBuilder.TypeExpression
