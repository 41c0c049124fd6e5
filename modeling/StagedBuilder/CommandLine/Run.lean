/-
This file says what the command line program does: which texts it prints, which
file it writes and how it ends. All of it follows from the arguments and from the
files that can be seen; printing and writing are left to the caller.

Drawings are written only inside of the working directory. A path that leads out
of it ends the program after the results are printed; a file that cannot be
written is only warned about.
-/

import StagedBuilder.CommandLine.Arguments
import StagedBuilder.Project.Report

namespace StagedBuilder.CommandLine

/-! ### Where drawings may go -/

/-- Why a path is refused. -/
inductive PathProblem where
  | null
  | absolute
  | climbing
deriving DecidableEq, Inhabited

/-- What is said about a refused path. -/
def PathProblem.message (path : String) : PathProblem → String
  | .null => "Output path contains null bytes"
  | .absolute => "Output path must be relative, not absolute: " ++ path
  | .climbing => "Path traversal (..) not allowed in output paths: " ++ path

/-- What is wrong with a path for drawings. -/
def pathProblem? (path : String) : Option PathProblem :=
  if path.toList.contains '\x00' then some .null
  else if path.toList.head? = some '/' then some .absolute
  else if (Folder.writtenNames path).contains ".." then some .climbing
  else none

/-! ### Outcomes -/

/-- What the program does. -/
structure Outcome where
  exit : UInt32
  /-- The text that is printed. -/
  output : String := ""
  /-- The lines that are printed for the attention of the user. -/
  messages : List String := []
  /-- The file that is written, and the text that it gets. -/
  written : Option (String × String) := none
deriving DecidableEq, Inhabited

/-- The outcome of a run that ends early. -/
def Outcome.failed (message : String) : Outcome := { exit := 1, messages := ["Error: " ++ message] }

/-- The line about a file that cannot be written. -/
def writeWarning (path reason : String) : String :=
  "[WARN] DOT write failed to " ++ path ++ ": " ++ reason

/-- The outcome with the drawings of the results. -/
def Outcome.withDrawings (outcome : Outcome) (arguments : Arguments)
    (results : Project.Results) : Outcome :=
  if !arguments.drawing then outcome
  else
    match arguments.drawingFile with
    | none => { outcome with output := outcome.output ++ unlines [results.drawings] }
    | some path =>
      match pathProblem? path with
      | some problem =>
        { outcome with
          exit := 2
          messages := outcome.messages
            ++ ["[ERROR] Invalid output path: " ++ problem.message path] }
      | none => { outcome with written := some (path, results.drawings) }

/-- The results, printed as the arguments and the configuration ask for. -/
def printed (arguments : Arguments) (configuration : Configuration)
    (results : Project.Results) : String :=
  if arguments.fingerprint then results.fingerprints
  else if arguments.data || configuration.printsData then results.data
  else results.listing

/-- What the program does once it has its configuration. -/
def runConfigured (folder : Folder) (arguments : Arguments) (configuration : Configuration) :
    Outcome :=
  let settings : Project.Settings :=
    { roots := arguments.roots, configuration := some configuration }
  match Project.build folder arguments.input settings with
  | .error _ => .failed ("Failed to build models from " ++ arguments.input)
  | .ok results =>
    let outcome : Outcome :=
      { exit := if results.hasErrors then 1 else 0
        output := printed arguments configuration results }
    outcome.withDrawings arguments results

/-- What the program does. -/
def run (folder : Folder) (arguments : Arguments) : Outcome :=
  let input := arguments.input
  if !folder.holds input then .failed ("Input path does not exist: " ++ input)
  else
    match Project.configurationIn folder (Project.configurationDirectory folder input) with
    | .error _ => .failed ("Failed to load configuration near " ++ input)
    | .ok configuration => runConfigured folder arguments (configuration.getD {})

end StagedBuilder.CommandLine
