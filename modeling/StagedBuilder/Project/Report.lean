/-
This file lays the results of a project out for printing: as a listing for
readers, as data, as fingerprints, or as drawings in the DOT language.
-/

import StagedBuilder.Builder.Fingerprint
import StagedBuilder.Builder.Report
import StagedBuilder.Project.Basic

namespace StagedBuilder.Project

def Skipped.toJson (skipped : Skipped) : Json :=
  .object [("path", .string skipped.path), ("message", .string skipped.message)]

namespace Results

/-- The listing: every builder, then the skipped inputs. -/
def listing (results : Results) : String :=
  (if results.builders.isEmpty then "No factory roots found.\n" else "")
    ++ String.join (results.builders.map Builder.report)
    ++ unlines (results.skipped.map fun skipped =>
      "SKIPPED " ++ skipped.path ++ ": " ++ skipped.message)

def toJson (results : Results) : Json :=
  .object [
    ("root", .string results.root),
    ("units", .ofList Builder.toJson results.builders),
    ("failed_inputs", .ofList Skipped.toJson results.skipped)]

/-- The results as data, laid out over indented lines. -/
def data (results : Results) : String := unlines [results.toJson.indented]

/-- A line with root and fingerprint for every builder. -/
def fingerprints (results : Results) : String :=
  unlines (results.builders.map fun builder =>
    builder.root.display ++ " " ++ builder.fingerprint)

/-- The drawings of all builders, each under a comment with the name of its root. -/
def drawings (results : Results) : String :=
  String.join (results.builders.map fun builder =>
    unlines ["// === " ++ builder.root.qualifiedName ++ " ==="] ++ builder.drawing)

end Results

end StagedBuilder.Project
