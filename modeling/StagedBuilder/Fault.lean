/-
This file holds what can go wrong before any builder is worked out: a file cannot
be read, a document or a type expression makes no sense, a configuration is
wrong. What is wrong with the declarations themselves is never a fault but a
diagnostic of the builder.

A fault in a document spoils that document only; the others are still used. A
fault in a type expression knows nothing of the file that the expression is in
until somebody tells it.
-/

namespace StagedBuilder

/-- A reason why an input cannot be used. -/
inductive Fault where
  /-- A file that cannot be read. -/
  | file (path message : String)
  /-- A document that makes no sense. -/
  | document (path message : String)
  /-- A type expression without a meaning. -/
  | type (expression message : String)
  /-- A configuration that makes no sense. -/
  | configuration (path message : String)
  /-- Something that never happens. -/
  | internal (message : String)
deriving DecidableEq, Inhabited

namespace Fault

def message : Fault → String
  | .file path message => "I/O error at " ++ path ++ ": " ++ message
  | .document path message => "Input error in " ++ path ++ ": " ++ message
  | .type expression message =>
    "Invalid type expression `" ++ expression ++ "`: " ++ message
  | .configuration path message => "Config error at " ++ path ++ ": " ++ message
  | .internal message => "Internal error: " ++ message

/-- Whether a fault spoils one input only. -/
def isRecoverable : Fault → Bool
  | .document _ _ => true
  | .type _ _ => true
  | _ => false

/-- The file that a fault is about. -/
def path? : Fault → Option String
  | .file path _ => some path
  | .document path _ => some path
  | .configuration path _ => some path
  | _ => none

/-- The fault, said of a file; only a fault in a type expression did not know of one. -/
def inFile (path : String) : Fault → Fault
  | .type expression message => .document path ("type `" ++ expression ++ "`: " ++ message)
  | other => other

end Fault

end StagedBuilder
