/-
This file lays builders out for readers: as a plain listing of methods and steps
with the findings at the end, and as a drawing of the call graph in the DOT
language.

In the listing each method stands on a line with what it returns. In the drawing
a node is written by its name: the root by its type, a step by the name of its
type, a target by the constructor that makes it. Quotes inside a name are escaped.
-/

import StagedBuilder.Builder.CallGraph

namespace StagedBuilder

/-! ### Listing -/

/-- What a method returns, by name. -/
def Builder.describeResult (builder : Builder) : Result → String
  | .product value => value.target.display
  | .step index =>
    ((builder.step? index).map Step.name).getD (CallNode.step index).display

/-- A line for every method of a list. -/
def Builder.methodLines (builder : Builder) (indent : String) (methods : List Method) :
    List String :=
  methods.map fun method =>
    indent ++ method.display ++ " -> " ++ builder.describeResult method.result

/-- The heading of a step: its kind, its name and the known values. -/
def Step.heading (step : Step) : String :=
  let kind := match step with
    | .synthesized _ => "step"
    | .existing _ => "existing"
  "  " ++ kind ++ " " ++ step.name ++ " ["
    ++ displayParameters (step.known.map fun value => (value.name, value.type)) ++ "]"

/-- The lines of a listing. -/
def Builder.reportLines (builder : Builder) : List String :=
  ["FACTORY " ++ builder.root.display ++ " (" ++ toString builder.methods.length
    ++ " root methods, " ++ toString builder.steps.length ++ " steps)"]
  ++ builder.methodLines "  " builder.methods
  ++ (builder.steps.flatMap fun step =>
    step.heading :: builder.methodLines "    " step.methods)
  ++ (if builder.diagnostics.isEmpty then [] else
    ("  DIAGNOSTICS (" ++ toString builder.diagnostics.length ++ "):")
      :: builder.diagnostics.map fun diagnostic => "  - " ++ diagnostic.display)

/-- Lines as a text, each with its end. -/
def unlines (lines : List String) : String := String.join (lines.map (· ++ "\n"))

def Builder.report (builder : Builder) : String := unlines builder.reportLines

/-! ### Drawing -/

/-- A text with a backslash in front of every quote. -/
def escapeQuotes (text : String) : String :=
  String.ofList (text.toList.flatMap fun character =>
    if character = '"' then ['\\', '"'] else [character])

def Builder.nodeName (builder : Builder) : CallNode → String
  | .root => builder.root.display
  | .step index => ((builder.step? index).map Step.name).getD (CallNode.step index).display
  | .target constructor =>
    ((builder.constructor? constructor).map ConstructorSummary.display).getD
      (CallNode.target constructor).display

def Builder.nodeLabel (builder : Builder) (node : CallNode) : String :=
  "\"" ++ escapeQuotes (builder.nodeName node) ++ "\""

def CallNode.colour : CallNode → String
  | .root => "lightblue"
  | .step _ => "lightyellow"
  | .target _ => "lightgreen"

/-- The drawing of a call graph with the names of a builder. -/
def CallGraph.drawing (graph : CallGraph) (builder : Builder) : String :=
  unlines (
    ["digraph fluentgen \x7b",
      "  rankdir=LR;",
      "  node [shape=box, style=filled, fontname=\"JetBrains Mono\"];",
      ""]
    ++ (graph.nodes.map fun node =>
      "  " ++ builder.nodeLabel node ++ " [fillcolor=" ++ node.colour ++ "];")
    ++ [""]
    ++ (graph.edges.map fun (source, reached) =>
      "  " ++ builder.nodeLabel source ++ " -> " ++ builder.nodeLabel reached ++ ";")
    ++ ["\x7d"])

def Builder.drawing (builder : Builder) : String := (CallGraph.ofBuilder builder).drawing builder

end StagedBuilder
