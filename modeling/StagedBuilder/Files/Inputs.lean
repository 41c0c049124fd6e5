/-
This file says which files of a folder are input documents. Below a root, every
file whose name ends as input documents do is one, in any directory except those
that hold what tools put there. A root that is a file is an input itself, whatever
it is called, and a root that is such a directory has none.

Inputs come in the order of their names, directory by directory.
-/

import StagedBuilder.Files.Folder

namespace StagedBuilder.Folder

/-- How the names of input documents end. -/
def inputEnding : String := ".fluent.json"

/-- The names of directories that are never searched. -/
def excludedNames : List String := ["target", ".git", "node_modules"]

/-- Whether a name is that of an input document. -/
def isInputName (name : String) : Bool := inputEnding.toList.isSuffixOf name.toList

/-- Whether the file that names lead to, from a root on, is an input document. -/
def isInput (names : List String) : Bool :=
  names.getLast?.any isInputName && !names.dropLast.any excludedNames.contains

/-- Whether a directory can list something under the name. -/
def isListable (name : String) : Bool :=
  name ≠ "" && name ≠ "." && name ≠ ".." && !name.toList.contains '/'

/-- The names that lead from a place to each file below it, as the directories on the way list
them. -/
def namesBelow (folder : Folder) (place : List String) : List (List String) :=
  folder.files.filterMap fun (names, _) =>
    if place.isPrefixOf names && (names.drop place.length).all isListable then
      some (names.drop place.length)
    else none

/-- The order of names on the way: name by name, and a shorter way first. -/
def orderNames : List String → List String → Ordering
  | [], [] => .eq
  | [], _ :: _ => .lt
  | _ :: _, [] => .gt
  | left :: lefts, right :: rights => (compare left right).then (orderNames lefts rights)

/-- The inputs below a root that is a directory. -/
def inputsBelow (folder : Folder) (root : String) (place : List String) : List String :=
  if excludedNames.contains (lastName root) then []
  else
    let found := (folder.namesBelow place).filter isInput
    (found.mergeSort fun left right => (orderNames left right).isLE).map (·.foldl join root)

/-- The paths of the inputs at and below a root; none if nothing is there. -/
def inputs? (folder : Folder) (root : String) : Option (List String) :=
  if folder.isFile root then some [root]
  else if folder.isDirectory root then (folder.place? root).map (folder.inputsBelow root)
  else none

end StagedBuilder.Folder
