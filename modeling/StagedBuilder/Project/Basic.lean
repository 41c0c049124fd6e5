/-
This file builds whole projects: the inputs at and below a root, one builder for
each root that they declare, under the configuration that lies beside them.

An input that makes no sense is skipped and the reason is kept with the results.
Everything else that goes wrong ends the whole: a configuration that cannot be
read or makes no sense, a root that is not there, an input that is no text.
-/

import StagedBuilder.Assembly.Basic
import StagedBuilder.Configuration.Toml
import StagedBuilder.Document.Json
import StagedBuilder.Document.Section
import StagedBuilder.Files.Inputs

namespace StagedBuilder

/-! ### What ends the whole -/

/-- A reason why a project cannot be built. -/
inductive ProjectFailure where
  /-- The configuration file cannot be read. -/
  | unreadableConfiguration (path : String)
  /-- The configuration file makes no sense. -/
  | malformedConfiguration
  /-- A supertype in the configuration is no type. -/
  | supertypes
  /-- The root is not there. -/
  | missingInputs
  /-- An input cannot be read. -/
  | unreadableInput (path : String)
deriving DecidableEq, Inhabited

def ProjectFailure.message : ProjectFailure → String
  | .unreadableConfiguration path => "Failed to read " ++ path
  | .malformedConfiguration => "Invalid fluentgen.toml"
  | .supertypes => "Invalid [types] section in fluentgen.toml"
  | .missingInputs => "Failed to gather input files"
  | .unreadableInput path => "Failed to load " ++ path

namespace Project

/-! ### Configuration -/

/-- The name of configuration files. -/
def configurationName : String := "fluentgen.toml"

/-- The directory whose configuration applies to a root. -/
def configurationDirectory (folder : Folder) (root : String) : String :=
  if folder.isFile root then Folder.parent root else root

/-- The configuration in a directory, if there is one. -/
def configurationIn (folder : Folder) (directory : String) :
    Except ProjectFailure (Option Configuration) :=
  let path := Folder.join directory configurationName
  if !folder.holds path then .ok none
  else
    match folder.text? path with
    | none => .error (.unreadableConfiguration path)
    | some text =>
      match Configuration.parse? text with
      | none => .error .malformedConfiguration
      | some configuration => .ok (some configuration)

/-! ### Inputs -/

/-- An input that makes no sense. -/
structure Skipped where
  path : String
  message : String
deriving DecidableEq, Inhabited

/-- What the text of the input at a path declares. -/
def declaredBy (path text : String) : Except Fault (List Document.Section) :=
  let found := match Document.parse? text with
    | some document => document.sections
    | none => .error .malformed
  match found with
  | .ok sections => .ok sections
  | .error problem => .error (problem.fault path)

/-- What the input at a path declares. -/
def declaredAt (folder : Folder) (path : String) : Except Fault (List Document.Section) :=
  match folder.text? path with
  | some text => declaredBy path text
  | none => .error (.file path "stream did not contain valid UTF-8")

/-- What inputs declare, and those that are skipped. -/
structure Loaded where
  sections : List Document.Section := []
  skipped : List Skipped := []

/-- What was loaded, with the input at one more path. A fault that spoils more than this input
ends the whole. -/
def Loaded.add (loaded : Loaded) (path : String) :
    Except Fault (List Document.Section) → Except ProjectFailure Loaded
  | .ok sections => .ok { loaded with sections := loaded.sections ++ sections }
  | .error fault =>
    if fault.isRecoverable then
      .ok { loaded with skipped := loaded.skipped ++ [⟨path, fault.message⟩] }
    else .error (.unreadableInput path)

/-- What the inputs at the paths declare. -/
def load (folder : Folder) (paths : List String) : Except ProjectFailure Loaded :=
  paths.foldlM (fun loaded path => loaded.add path (declaredAt folder path)) {}

/-! ### Results -/

/-- What to build, and what is settled without looking at the files. -/
structure Settings where
  /-- The qualified names of the roots that are wanted; all if there are none. -/
  roots : List String := []
  /-- The configuration, in place of the one beside the inputs. -/
  configuration : Option Configuration := none
  /-- The type system, in place of the configured one. -/
  system : Option TypeSystem := none

def Settings.wants (settings : Settings) (root : Root) : Bool :=
  settings.roots.isEmpty || settings.roots.contains root.qualifiedName

/-- What becomes of a project. -/
structure Results where
  root : String
  builders : List Builder
  skipped : List Skipped
deriving DecidableEq, Inhabited

namespace Results

/-- Every finding about the declarations. -/
def diagnostics (results : Results) : List Diagnostic :=
  results.builders.flatMap Builder.diagnostics

/-- Whether anything is wrong: an error about a root, or an input that is skipped. -/
def hasErrors (results : Results) : Bool :=
  !results.skipped.isEmpty || results.builders.any Builder.hasErrors

end Results

/-- The configuration that settings ask for. -/
def Settings.resolve (settings : Settings) (folder : Folder) (root : String) :
    Except ProjectFailure Configuration :=
  match settings.configuration with
  | some configuration => .ok configuration
  | none => do
    return (← configurationIn folder (configurationDirectory folder root)).getD {}

/-- The type system that settings ask for. -/
def Settings.resolveSystem (settings : Settings) (configuration : Configuration) :
    Except ProjectFailure TypeSystem :=
  match settings.system with
  | some system => .ok system
  | none =>
    match configuration.typeSystem with
    | .ok system => .ok system
    | .error _ => .error .supertypes

/-- The inputs at and below a root. -/
def inputsAt (folder : Folder) (root : String) : Except ProjectFailure (List String) :=
  match folder.inputs? root with
  | some paths => .ok paths
  | none => .error .missingInputs

/-- Builds the project at a root. -/
def build (folder : Folder) (root : String) (settings : Settings) :
    Except ProjectFailure Results := do
  let configuration ← settings.resolve folder root
  let system ← settings.resolveSystem configuration
  let paths ← inputsAt folder root
  let loaded ← load folder paths
  return {
    root
    builders := (loaded.sections.filter fun part => settings.wants part.root).map fun part =>
      assemble system configuration.naming part.root part.declarations
    skipped := loaded.skipped }

end Project

end StagedBuilder
