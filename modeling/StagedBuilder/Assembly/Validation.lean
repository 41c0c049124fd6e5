/-
This file checks declarations before a builder is made from them. The root must be
marked as a factory. A declaration that says its create method has a name of its
own must give the name; a given name must be an identifier, must not come with the
wish for no create method at all, and must not be given twice for one target. A
builder is made only if nothing is found.
-/

import StagedBuilder.Declaration.Basic
import StagedBuilder.Diagnostic.Basic
import StagedBuilder.Text.Identifier

namespace StagedBuilder.Validation

/-- The finding at one declaration if the root is not marked. -/
def markerFinding (root : Root) (declaration : Declaration) : Diagnostic :=
  { code := .missingMarker
    location := declaration.attributeLocation
    arguments := [root.qualifiedName, declaration.constructor.display] }

/-- The findings about a given name, apart from repetition. -/
def nameFindings (declaration : Declaration) (name : String) : List Diagnostic :=
  (if Identifier.isValid name then [] else
    [{ code := .invalidCreateName
       location := declaration.attributeLocation
       arguments := [name, declaration.constructor.display] }])
  ++ (if declaration.options.noCreateMethod then
    [{ code := .suppressedCreateName
       location := declaration.attributeLocation
       arguments := [declaration.constructor.display, name] }]
    else [])

/-- The findings about the names of create methods, given the names seen before together
with the targets they were given for. -/
def createNameFindings (seen : List (String × String)) : List Declaration → List Diagnostic
  | [] => []
  | declaration :: rest =>
    match declaration.createMethodName with
    | none =>
      (if declaration.options.customCreateMethodName then
        [{ code := .invalidCreateName
           location := declaration.attributeLocation
           arguments := ["", declaration.constructor.display] }]
        else [])
      ++ createNameFindings seen rest
    | some name =>
      let owner := declaration.target.qualifiedName
      nameFindings declaration name
        ++ (if seen.contains (owner, name) then
          [{ code := .duplicateCreateName
             location := declaration.attributeLocation
             arguments := [name, owner] }]
          else [])
        ++ createNameFindings ((owner, name) :: seen) rest

/-- Everything that is wrong with the declarations of a root. -/
def findings (root : Root) (declarations : List Declaration) : List Diagnostic :=
  (if root.hasMarker then [] else declarations.map (markerFinding root))
    ++ createNameFindings [] declarations

end StagedBuilder.Validation
