/-
This file holds the command line program. It looks at the files that a run can be
about, the input and what lies below it with the configuration beside it, hands
them over, and prints and writes what comes back.
-/

import StagedBuilder.CommandLine.Run

namespace StagedBuilder.CommandLine

/-! ### Looking -/

/-- What two folders hold together. -/
def together (left right : Folder) : Folder :=
  ⟨left.files ++ right.files, left.directories ++ right.directories⟩

/-- The place of a path whose names are all taken for directories. -/
def assumedPlace (written : List String) : List String :=
  let next := fun (names : List String) (name : String) =>
    if name = "" ∨ name = "." then names
    else if name = ".." then Folder.goBack names
    else names ++ [name]
  match written with
  | "" :: rest => rest.foldl next [""]
  | names => names.foldl next []

/-- Whether a path leads to a directory. -/
def isDirectory (path : String) : IO Bool := do
  try
    let found ← IO.FS.realPath path
    found.isDir
  catch _ => return false

/-- The file at a path, if there is one. -/
def fileAt (path : String) (names : List String) : IO Folder := do
  try
    let bytes ← IO.FS.readBinFile path
    return { files := [(names, String.fromUTF8? bytes)] }
  catch _ => return { directories := if ← isDirectory path then [names] else [] }

/-- The inputs and directories below a directory, except where no input is looked for. -/
partial def below (path : String) (names : List String) : IO Folder := do
  let directory ← IO.FS.realPath path
  let mut folder : Folder := { directories := [names] }
  for entry in ← directory.readDir do
    let name := entry.fileName
    let inner := Folder.join path name
    if ← entry.path.isDir then
      unless Folder.excludedNames.contains name do
        folder := together folder (← below inner (names ++ [name]))
    else if Folder.isInputName name then
      folder := together folder (← fileAt inner (names ++ [name]))
  return folder

/-- What a run with the given input can be about. -/
def visible (input : String) : IO Folder := do
  let written := Folder.writtenNames input
  let mut folder : Folder := {}
  for length in List.range written.length do
    let front := written.take (length + 1)
    if ← isDirectory ("/".intercalate front ++ "/") then
      folder := together folder { directories := [assumedPlace front] }
  let place := assumedPlace written
  if ← isDirectory input then folder := together folder (← below input place)
  else folder := together folder (← fileAt input place)
  let path := Folder.join (Project.configurationDirectory folder input) Project.configurationName
  return together folder (← fileAt path (assumedPlace (Folder.writtenNames path)))

/-! ### Acting -/

/-- The reason why a file cannot be written. -/
def writeReason (problem : IO.Error) : String :=
  match problem with
  | .noFileOrDirectory _ _ _ => Folder.WriteProblem.missing.message
  | .inappropriateType _ code _ =>
    if code = 21 then Folder.WriteProblem.directory.message
    else Folder.WriteProblem.notDirectory.message
  | other => toString other

/-- Prints and writes what a run comes to. -/
def act (outcome : Outcome) : IO UInt32 := do
  IO.print outcome.output
  for message in outcome.messages do
    IO.eprintln message
  match outcome.written with
  | none => pure ()
  | some (path, text) =>
    try IO.FS.writeFile path text
    catch problem => IO.eprintln (writeWarning path (writeReason problem))
  return outcome.exit

end StagedBuilder.CommandLine

open StagedBuilder.CommandLine in
def main (words : List String) : IO UInt32 := do
  match Arguments.ofWords? words with
  | none =>
    IO.eprintln "error: unexpected arguments"
    return 2
  | some arguments => act (run (← visible arguments.input) arguments)
