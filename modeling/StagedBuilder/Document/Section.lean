/-
This file says what a document declares: for each of its roots, in order, the
declarations of the constructors that refer to it, in order.

The document is gone through once from front to back, roots first. The first thing
that makes no sense decides the fault: a type expression without a meaning, a root
that is there already, or a constructor whose root is not there.

The type parameters that an expression may use are those of the entry around it.
The bounds of type parameters may use all of them, whatever their order. A
converter knows its own type parameters only, and the type that declares
converters knows none.
-/

import StagedBuilder.Document.Basic
import StagedBuilder.Fault
import StagedBuilder.TypeExpression.Grammar

namespace StagedBuilder.Document

/-! ### What makes no sense -/

/-- Why a text declares nothing. -/
inductive Problem where
  /-- The text is no document. -/
  | malformed
  /-- A root has the qualified name of an earlier one. -/
  | repeatedRoot (name : String)
  /-- A constructor of a target refers to a root that is not in the document. -/
  | unknownRoot (target root : String)
  /-- A type expression denotes no type. -/
  | type (expression : String) (problem : TypeExpression.Problem)
deriving DecidableEq, Inhabited

def Problem.fault (path : String) : Problem → Fault
  | .malformed => .document path "<json>"
  | .repeatedRoot name => .document path ("root `" ++ name ++ "` declared twice")
  | .unknownRoot target root =>
    .document path
      ("constructor of `" ++ target ++ "` targets unknown root `" ++ root ++ "`")
  | .type expression problem => (Fault.type expression problem.message).inFile path

/-! ### Types -/

/-- The type that an expression denotes. -/
def typeOf (scope : List String) (expression : String) : Except Problem TypeTerm :=
  match TypeExpression.typeOf scope expression with
  | .ok type => .ok type
  | .error problem => .error (.type expression problem)

/-- The names of type parameters. -/
def scopeOf (entries : List TypeParameterEntry) : List String := entries.map (·.name)

/-- The type parameters that entries declare. -/
def declaredTypeParameters (entries : List TypeParameterEntry) :
    Except Problem (List TypeParameter) :=
  entries.mapM fun entry => do
    let bounds ← entry.bounds.mapM (typeOf (scopeOf entries))
    return ⟨entry.name, { entry.constraints with bounds }⟩

/-! ### Entries -/

def RootEntry.declared (entry : RootEntry) : Except Problem Root := do
  return { entry.root with typeParameters := ← declaredTypeParameters entry.typeParameters }

def TargetEntry.declared (entry : TargetEntry) : Except Problem Target := do
  return { entry.target with typeParameters := ← declaredTypeParameters entry.typeParameters }

def ConverterEntry.declared (entry : ConverterEntry) : Except Problem Converter := do
  let typeParameters ← declaredTypeParameters entry.typeParameters
  let scope := scopeOf entry.typeParameters
  let parameters ← entry.parameters.mapM fun (name, expression) => do
    return ⟨name, ← typeOf scope expression⟩
  let returnType ← typeOf scope entry.returnType
  return {
    name := entry.name
    typeParameters
    parameters
    returnType
    isStatic := entry.isStatic
    priority := entry.priority
    documentation := entry.documentation
    locations := entry.locations }

def GroupEntry.declared (entry : GroupEntry) : Except Problem ConverterGroup := do
  let converters ← entry.converters.mapM ConverterEntry.declared
  return {
    declaringType := ← typeOf [] entry.declaringType, converters, location := entry.location }

/-- The parameter that an entry declares, among the type parameters of the target. -/
def ParameterEntry.declared (scope : List String) (entry : ParameterEntry) :
    Except Problem Parameter := do
  let group ← match entry.group with
    | some group => do pure (some (← group.declared))
    | none => pure none
  return {
    name := entry.name
    type := ← typeOf scope entry.type
    methodName := entry.methodName
    priority := entry.priority
    group
    member := entry.member
    documentation := entry.documentation
    location := entry.location }

/-- The declaration that an entry makes. A name given for the create method counts as asked
for among the options. -/
def ConstructorEntry.declared (entry : ConstructorEntry) : Except Problem Declaration := do
  let target ← entry.target.declared
  let parameters ←
    entry.parameters.mapM (ParameterEntry.declared (scopeOf entry.target.typeParameters))
  return {
    constructor := {
      target
      parameters
      documentation := entry.documentation
      location := entry.location }
    root := entry.root
    options := { entry.options with
      customCreateMethodName :=
        entry.options.customCreateMethodName || entry.createMethodName.isSome }
    createMethodName := entry.createMethodName
    attributeLocation := entry.attributeLocation }

/-! ### Sections -/

/-- A root and the declarations that refer to it. -/
structure Section where
  root : Root
  declarations : List Declaration
deriving DecidableEq, Inhabited

/-- The roots that entries declare after those declared already. -/
def declaredRoots : List Root → List RootEntry → Except Problem (List Root)
  | earlier, [] => .ok earlier
  | earlier, entry :: rest => do
    let root ← entry.declared
    if earlier.any (·.qualifiedName == root.qualifiedName) then
      .error (.repeatedRoot root.qualifiedName)
    else declaredRoots (earlier ++ [root]) rest

/-- The declaration that an entry makes, if its root is one of the given ones. -/
def declaredFor (roots : List Root) (entry : ConstructorEntry) : Except Problem Declaration :=
  if roots.any (·.qualifiedName == entry.root) then entry.declared
  else .error (.unknownRoot entry.target.target.name entry.root)

/-- What a document declares, root by root. -/
def sections (document : Document) : Except Problem (List Section) := do
  let roots ← declaredRoots [] document.roots
  let declarations ← document.constructors.mapM (declaredFor roots)
  return roots.map fun root =>
    ⟨root, declarations.filter fun declaration => declaration.root == root.qualifiedName⟩

end StagedBuilder.Document
