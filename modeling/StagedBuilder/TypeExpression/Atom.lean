/-
This file reads the atoms of expressions, operands, and expressions that start a
statement. Blocks and what ends with one are read alike in both places, but at the
start of a statement such a form stands alone unless an access follows it.
-/

import StagedBuilder.TypeExpression.Expression

namespace StagedBuilder.TypeExpression

/-! ### Blocks and what ends with one -/

/-- The words in front of a block that is an expression, and of what ends with a block. -/
def blockWords : List String := ["if", "while", "loop", "match", "unsafe"]

/-- Whether a block or what ends with one stands at the front. -/
def startsBlockForm (tokens : List Token) : Bool :=
  let next := tokens.drop 1
  opens .brace tokens || startsLifetime tokens || startsWord blockWords tokens
    || startsWord ["const", "try"] tokens && opens .brace next
    || startsWord ["for"] tokens && !startsParameters next

def afterChoice? (inner : Readers) : Nat → Passage
  | 0, _ => none
  | fuel + 1, tokens => do
    let condition ← inner.afterExpression? false (← fixedWord? "if" tokens)
    let rest ← afterBody? inner condition
    match fixedWord? "else" rest with
    | some alternative =>
      if startsWord ["if"] alternative then afterChoice? inner fuel alternative
      else afterBody? inner alternative
    | none => some rest

/-- What follows one case of a match; only a case that ends with a block needs no comma. -/
def afterCase? (inner : Readers) : Passage := fun tokens => do
  let matched ← afterPatterns? inner (← afterAttributes? inner tokens)
  let guarded ← match fixedWord? "if" matched with
    | some condition => inner.afterExpression? true condition
    | none => some matched
  let (shape, rest) ← inner.leading? (← symbol? "=>" guarded)
  if shape = .block ∨ atEnd rest then some (passSymbol "," rest) else symbol? "," rest

def afterCases? (inner : Readers) : Passage :=
  afterInside? .brace fun tokens => do
    let cases ← afterOwnAttributes? inner tokens
    afterEach? (afterCase? inner) (cases.length + 1) cases

/-- What follows a loop over values, after its first word. -/
def afterIteration? (inner : Readers) : Passage := fun tokens => do
  let values ← fixedWord? "in" (← afterPatterns? inner tokens)
  afterOwnedBody? inner (← inner.afterExpression? false values)

/-- What follows a block or what ends with one, without a label. -/
def afterUnlabelled? (inner : Readers) : Passage := fun tokens =>
  match tokens with
  | .word "if" :: _ => afterChoice? inner tokens.length tokens
  | .word "while" :: condition => do
    afterOwnedBody? inner (← inner.afterExpression? false condition)
  | .word "for" :: pattern => afterIteration? inner pattern
  | .word "match" :: subject => do
    afterCases? inner (← inner.afterExpression? false subject)
  | .word "try" :: body => afterBody? inner body
  | .word _ :: body => afterOwnedBody? inner body
  | _ => afterOwnedBody? inner tokens

/-- What follows a block or what ends with one; only loops and blocks have a label. -/
def afterBlockForm? (inner : Readers) : Passage := fun tokens =>
  if startsLifetime tokens then do
    let labelled ← symbol? ":" (tokens.drop 1)
    if startsWord ["while", "for", "loop"] labelled || opens .brace labelled then
      afterUnlabelled? inner labelled
    else none
  else afterUnlabelled? inner tokens

/-! ### Closures -/

/-- Whether a closure stands at the front. -/
def startsClosure (tokens : List Token) : Bool :=
  let next := tokens.drop 1
  startsSymbol "|" tokens || startsWord ["move", "static"] tokens
    || startsWord ["for"] tokens && startsParameters next
    || startsWord ["const"] tokens && !opens .brace next
    || startsWord ["async"] tokens && (startsSymbol "|" next || startsWord ["move"] next)

/-- What follows an input of a closure, whose type may be missing. -/
def afterClosureInput? (inner : Readers) : Passage := fun tokens => do
  let named ← inner.afterPattern? (← afterAttributes? inner tokens)
  match symbol? ":" named with
  | some type => inner.afterType? true type
  | none => some named

/-- What follows a closure. With a result type its body must be a block. -/
def afterClosure? (inner : Readers) (structs : Bool) : Passage := fun tokens => do
  let unbound ← passBinder? inner tokens
  let start := ["const", "static", "async", "move"].foldl (fun rest word => passWord word rest)
    unbound
  let inputs ← symbol? "|" start
  let rest ← symbol? "|" (← afterListUntil? (startsSymbol "|") (afterClosureInput? inner) inputs)
  match symbol? "->" rest with
  | some result => do afterBody? inner (← inner.afterType? true result)
  | none => inner.afterExpression? structs rest

/-! ### Paths, arrays and named fields -/

/-- What follows the value of a named field. A name alone stands for its own value. -/
def afterFieldValue? (inner : Readers) : Passage := fun tokens => do
  let (isNamed, rest) ← member? (← afterAttributes? inner tokens)
  match symbol? ":" rest with
  | some value => inner.afterExpression? true value
  | none => if isNamed then some rest else none

/-- What follows the values of named fields, up to the end of their braces. Two points and
perhaps a value stand for all other fields and come last. -/
def afterFieldValues? (inner : Readers) : Nat → Passage
  | 0, _ => none
  | fuel + 1, tokens =>
    if atEnd tokens then some tokens
    else
      match symbol? ".." tokens with
      | some others => if atEnd others then some others else inner.afterExpression? true others
      | none => do
        let rest ← afterFieldValue? inner tokens
        match symbol? "," rest with
        | some others => afterFieldValues? inner fuel others
        | none => some rest

/-- Whether a path stands at the front. One word in front of a block is also the name of what
is expanded. -/
def startsPathAtom (tokens : List Token) : Bool :=
  startsPath tokens || startsWord ["try"] tokens && startsAnySymbol ["!", "::"] (tokens.drop 1)

/-- Reads an atom that starts with a path: an expansion, a value with named fields, or the path
alone. -/
def pathAtom? (inner : Readers) (structs : Bool) : Reader Shape := fun tokens => do
  let (isPlain, rest) ← valuePath? inner tokens
  if startsExpansion rest && isPlain then
    let group := rest.drop 1
    (afterGroup? group).map (if opens .brace group then Shape.expansion else .plain, ·)
  else if structs && opens .brace rest then
    (afterInside? .brace
      (fun inside => afterFieldValues? inner (inside.length + 1) inside) rest).map (Shape.plain, ·)
  else some (.plain, rest)

/-- What follows an array: its elements, or one element and a length. -/
def afterArray? (inner : Readers) : Passage :=
  afterInside? .bracket fun tokens =>
    if atEnd tokens then some tokens
    else do
      let rest ← inner.afterExpression? true tokens
      match symbol? ";" rest with
      | some length => inner.afterExpression? true length
      | none =>
        match symbol? "," rest with
        | some others => afterList? (inner.afterExpression? true) others
        | none => some rest

/-! ### Words -/

def passExpression? (inner : Readers) : Passage := fun tokens =>
  if startsExpression tokens then inner.afterExpression? true tokens else some tokens

/-- What follows the label and the value with which a loop is left, both of which may be
missing. A label of the value itself would be taken for that of the loop. -/
def afterBreak? (inner : Readers) (structs : Bool) : Passage := fun tokens =>
  let value := passLifetime tokens
  if startsLifetime tokens && startsSymbol ":" value then none
  else if !structs && opens .brace value then some value
  else passExpression? inner value

def afterLet? (inner : Readers) (structs : Bool) : Passage := fun tokens => do
  let value ← symbol? "=" (← afterPatterns? inner tokens)
  let (shape, rest) ← inner.operand? structs value
  (inner.operators? .compare structs shape rest).map (·.2)

/-- What follows an atom that starts with a word of its own. -/
def afterWordAtom? (inner : Readers) (structs : Bool) : Passage
  | .word "_" :: rest => some rest
  | .word "break" :: rest => afterBreak? inner structs rest
  | .word "continue" :: rest => some (passLifetime rest)
  | .word "return" :: rest => passExpression? inner rest
  | .word "yield" :: rest => passExpression? inner rest
  | .word "become" :: rest => inner.afterExpression? true rest
  | .word "let" :: rest => afterLet? inner structs rest
  | _ => none

def startsAsyncBlock (tokens : List Token) : Bool :=
  startsWord ["async"] tokens && opens .brace (passWord "move" (tokens.drop 1))

def startsBuiltin (tokens : List Token) : Bool :=
  startsWord ["builtin"] tokens && startsSymbol "#" (tokens.drop 1)

/-- What follows a form that is built in: a name, and anything in parentheses. -/
def afterBuiltin? : Passage := fun tokens => do
  let group ← afterName? (tokens.drop 2)
  if opens .paren group then afterGroup? group else none

/-! ### Operands -/

/-- Reads an atom: an operand without marks in front and without what follows it closely. -/
def atom? (inner : Readers) (structs : Bool) : Reader Shape :=
  fun tokens =>
    if startsLiteral tokens then (afterLiteral? tokens).map (Shape.plain, ·)
    else if startsAsyncBlock tokens then
      (afterBody? inner (passWord "move" (tokens.drop 1))).map (Shape.plain, ·)
    else if startsBlockForm tokens then
      (afterBlockForm? inner tokens).map (Shape.block, ·)
    else if startsClosure tokens then (afterClosure? inner structs tokens).map (Shape.plain, ·)
    else if startsBuiltin tokens then (afterBuiltin? tokens).map (Shape.plain, ·)
    else if startsPathAtom tokens then pathAtom? inner structs tokens
    else if opens .paren tokens then (afterParenthesized? inner tokens).map (Shape.plain, ·)
    else if opens .bracket tokens then (afterArray? inner tokens).map (Shape.plain, ·)
    else if startsSymbol ".." tokens then (afterRange? inner structs tokens).map (Shape.range, ·)
    else (afterWordAtom? inner structs tokens).map (Shape.plain, ·)

def passMutability (tokens : List Token) : List Token :=
  if startsWord ["raw"] tokens && startsWord ["mut", "const"] (tokens.drop 1) then tokens.drop 2
  else passWord "mut" tokens

/-- Reads an operand with the marks in front of it. A range without a lower end takes no
attributes. -/
def operand? (inner : Readers) (structs : Bool) : Reader Shape :=
  fun tokens => do
    let start ← afterAttributes? inner tokens
    if startsSymbol "&" start then do
      let (_, rest) ← inner.operand? structs (passMutability (start.drop 1))
      return (.plain, rest)
    else if startsAnySymbol ["*", "!", "-"] start then do
      let (_, rest) ← inner.operand? structs (start.drop 1)
      return (.plain, rest)
    else do
      let (atom, rest) ← atom? inner structs start
      let (shape, after) ← inner.trailers? atom rest
      if shape = .range ∧ startsSymbol "#" tokens then none else return (shape, after)

/-- Reads an expression at the start of a statement. -/
def leading? (inner : Readers) : Reader Shape := fun tokens => do
  let start ← afterAttributes? inner tokens
  if startsBlockForm start then do
    let rest ← afterBlockForm? inner start
    if startsAccess rest || startsSymbol "?" rest then do
      let (shape, after) ← inner.trailers? .block rest
      inner.operators? .least true shape after
    else return (.block, rest)
  else inner.expression? true start

end StagedBuilder.TypeExpression
