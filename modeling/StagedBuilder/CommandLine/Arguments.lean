/-
This file reads the arguments of the command line. A word that begins with two
hyphens is an option, and its value, if it takes one, is the next word or follows
an equals sign; a lone pair of hyphens ends the options. Any other word is the path
of the input. Only the wanted roots may be given repeatedly.
-/

namespace StagedBuilder.CommandLine

/-- What the command line asks for. -/
structure Arguments where
  /-- The input document, or the directory that holds input documents. -/
  path : Option String := none
  /-- Whether results are printed as data. -/
  data : Bool := false
  /-- The qualified names of the roots that are wanted. -/
  roots : List String := []
  /-- Whether fingerprints are printed in place of results. -/
  fingerprint : Bool := false
  /-- Whether the call graphs are drawn. -/
  drawing : Bool := false
  /-- The file that drawings are written to. -/
  drawingFile : Option String := none
deriving DecidableEq, Inhabited

namespace Arguments

def input (arguments : Arguments) : String := arguments.path.getD "."

/-- The arguments with the path of the input, of which there is one. -/
def withPath? (arguments : Arguments) (path : String) : Option Arguments :=
  if arguments.path.isSome then none else some { arguments with path := some path }

/-- The arguments with an option that takes no value. -/
def withFlag? (arguments : Arguments) (option : String) : Option Arguments :=
  if option = "--json" ∧ !arguments.data then some { arguments with data := true }
  else if option = "--fingerprint" ∧ !arguments.fingerprint then
    some { arguments with fingerprint := true }
  else if option = "--dot" ∧ !arguments.drawing then some { arguments with drawing := true }
  else none

/-- The arguments with an option and its value. -/
def withValue? (arguments : Arguments) (option value : String) : Option Arguments :=
  if option = "--root" then some { arguments with roots := arguments.roots ++ [value] }
  else if option = "--dot-file" ∧ arguments.drawingFile.isNone then
    some { arguments with drawingFile := some value }
  else none

def takesValue (option : String) : Bool := option = "--root" || option = "--dot-file"

/-- Whether a word is meant as an option and not as a value; a lone hyphen is a value. -/
def isOption (word : String) : Bool := word ≠ "-" && word.toList.head? = some '-'

/-- The option and the value of a word with an equals sign. -/
def assignment? (word : String) : Option (String × String) :=
  let characters := word.toList
  match characters.dropWhile (· ≠ '=') with
  | _ :: value => some (String.ofList (characters.takeWhile (· ≠ '=')), String.ofList value)
  | [] => none

/-- Reads the words of the command line; `none` if they are misused. -/
def read? (arguments : Arguments) : List String → Option Arguments
  | [] => some arguments
  | "--" :: words => words.foldlM withPath? arguments
  | [word] =>
    if isOption word then
      match assignment? word with
      | some (option, value) => arguments.withValue? option value
      | none => arguments.withFlag? word
    else arguments.withPath? word
  | word :: next :: words =>
    if isOption word then
      match assignment? word with
      | some (option, value) => do read? (← arguments.withValue? option value) (next :: words)
      | none =>
        if takesValue word then
          if isOption next then none
          else do read? (← arguments.withValue? word next) words
        else do read? (← arguments.withFlag? word) (next :: words)
    else do read? (← arguments.withPath? word) (next :: words)

def ofWords? (words : List String) : Option Arguments := read? {} words

end Arguments

end StagedBuilder.CommandLine
