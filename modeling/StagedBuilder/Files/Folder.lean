/-
This file holds folders and says where a path leads in them. A folder is what can
be seen of the files around the working directory: files and directories, each by
the names on the way to it. What a file holds is a text, or something else that
cannot be read as one.

A path is followed name by name. Each name, the point that stays and the two
points that go back included, needs a directory to start from, so that nothing
follows a file, not even a slash. Paths from outside of the working directory begin
with an empty name or with two points, and lead somewhere only if the folder
covers what is there.
-/

import StagedBuilder.Text.Parts

namespace StagedBuilder

/-- The files and directories that can be seen. -/
structure Folder where
  /-- The files by their names from the working directory on, with the texts they hold. -/
  files : List (List String × Option String) := []
  /-- Directories; those on the way to something need not be listed. -/
  directories : List (List String) := []
deriving DecidableEq, Inhabited

namespace Folder

/-! ### What is there -/

def listed (folder : Folder) : List (List String) :=
  folder.files.map (·.1) ++ folder.directories

def hasDirectory (folder : Folder) (names : List String) : Bool :=
  names = [] || folder.directories.contains names
    || folder.listed.any fun other => names.isPrefixOf other && names.length < other.length

def hasFile (folder : Folder) (names : List String) : Bool :=
  (folder.files.lookup names).isSome

/-! ### Paths -/

/-- The names of a path, as it is written. -/
def writtenNames (path : String) : List String :=
  (partsAt '/' path.toList).map String.ofList

/-- The names after going back from a directory. -/
def goBack (names : List String) : List String :=
  match names.getLast? with
  | none => [".."]
  | some last => if last = "" then names else if last = ".." then names ++ [".."]
    else names.dropLast

/-- The names after following one written name from a directory. -/
def follow? (folder : Folder) (names : List String) (written : String) :
    Option (List String) :=
  if !folder.hasDirectory names then none
  else if written = "" ∨ written = "." then some names
  else if written = ".." then some (goBack names)
  else some (names ++ [written])

/-- The place that a path leads to, by names, whether or not something is there. -/
def place? (folder : Folder) (path : String) : Option (List String) :=
  match writtenNames path with
  | [""] => none
  | "" :: rest => rest.foldlM folder.follow? [""]
  | written => written.foldlM folder.follow? []

def isDirectory (folder : Folder) (path : String) : Bool :=
  (folder.place? path).any folder.hasDirectory

def isFile (folder : Folder) (path : String) : Bool := (folder.place? path).any folder.hasFile

def holds (folder : Folder) (path : String) : Bool :=
  folder.isFile path || folder.isDirectory path

/-- The text that the file at the end of a path holds. -/
def text? (folder : Folder) (path : String) : Option String := do
  (folder.files.lookup (← folder.place? path)).join

/-! ### Putting paths together -/

/-- A path with a name after it. -/
def join (path name : String) : String :=
  if path = "" ∨ path.toList.getLast? = some '/' then path ++ name else path ++ "/" ++ name

/-- The written names of a path without those at the end that say nothing. -/
def significant (written : List String) : List String :=
  match written with
  | [] => []
  | first :: rest =>
    first :: (rest.reverse.dropWhile fun name => name = "" || name = ".").reverse

/-- The path to the directory in which a path ends. -/
def parent (path : String) : String :=
  let before := significant (significant (writtenNames path)).dropLast
  if before = [""] then "/" else "/".intercalate before

/-- The last name of a path, or the path itself if it ends without one. -/
def lastName (path : String) : String :=
  match (significant (writtenNames path)).getLast? with
  | some last => if last = ".." ∨ last = "." ∨ last = "" then path else last
  | none => path

/-! ### Writing -/

/-- Why a file cannot be written. -/
inductive WriteProblem where
  | missing
  | notDirectory
  | directory
deriving DecidableEq, Inhabited

/-- How the reason is reported. -/
def WriteProblem.message : WriteProblem → String
  | .missing => "No such file or directory (os error 2)"
  | .notDirectory => "Not a directory (os error 20)"
  | .directory => "Is a directory (os error 21)"

/-- Why a name cannot be followed from a place. -/
def blocked (folder : Folder) (names : List String) : WriteProblem :=
  if folder.hasFile names then .notDirectory else .missing

/-- The place that names lead to, or why they do not. -/
def reach (folder : Folder) : List String → List String → Except WriteProblem (List String)
  | names, [] => .ok names
  | names, written :: rest =>
    match folder.follow? names written with
    | some further => reach folder further rest
    | none => .error (folder.blocked names)

/-- The folder after a text is written to a file. The file may be there already; the directory
has to be. A slash at the end asks for a directory, which no text can be written to. -/
def write (folder : Folder) (path text : String) : Except WriteProblem Folder :=
  if path = "" then .error .missing
  else do
    let written := writtenNames path
    let names := (written.reverse.dropWhile (· = "")).reverse
    let directory ← match names.dropLast with
      | "" :: rest => folder.reach [""] rest
      | front => folder.reach [] front
    if !folder.hasDirectory directory then .error (folder.blocked directory)
    else
      let last := names.getLast?.getD ""
      let place := directory ++ [last]
      if names.length < written.length ∨ last = "." ∨ last = ".."
          ∨ folder.hasDirectory place then
        .error .directory
      else
        .ok { folder with
          files := (place, some text) :: folder.files.filter (·.1 ≠ place) }

end Folder

end StagedBuilder
