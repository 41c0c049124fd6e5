/-
This file makes the builder of a root from the declarations that belong to it.

The declarations are checked first, and if anything is wrong with them the builder
holds the findings and nothing else. Otherwise every constructor is planned and
the usable ones are put into a prefix tree, whose walk yields the methods of the
root and provisional steps. A step that no chain of calls from the root leads to is
dropped, because a collision has displaced the methods that led there; the others
are numbered in the order in which they were entered.

Two reports are made in the end, when it is known what leads where: converters that
lost a collision and whose loss matters, and constructors that no chain of calls
ends at.
-/

import StagedBuilder.Assembly.Validation
import StagedBuilder.Assembly.Walk
import StagedBuilder.Builder.CallGraph
import StagedBuilder.Diagnostic.Coverage
import StagedBuilder.Diagnostic.Superseded

namespace StagedBuilder

/-! ### Plans and tree -/

/-- The plans of all declared constructors, numbered from zero. -/
def planAll (system : TypeSystem) (naming : Naming) (declarations : List Declaration) :
    List ConstructorPlan :=
  declarations.zipIdx.map fun (declaration, id) => declaration.plan system naming id

/-- The prefix tree of the usable constructors among the planned ones. -/
def planTree (plans : List ConstructorPlan) : PlanTree :=
  (plans.filter ConstructorPlan.isUsable).foldl
    (fun tree plan => tree.insert plan.parameters plan) .empty

/-- The account of the usable constructors, none of them reached yet. -/
def planCoverage (plans : List ConstructorPlan) : Coverage :=
  (plans.filter ConstructorPlan.isUsable).foldl
    (fun coverage plan => coverage.declare plan.id {
      display := plan.declaration.constructor.display
      location := plan.declaration.constructor.location
      attributeLocation := some plan.declaration.attributeLocation })
    {}

/-- The name spaces that the declarations draw on, without the root's own. -/
def usings (root : Root) (declarations : List Declaration) : List String :=
  (sortedNames (declarations.flatMap Declaration.spaces)).filter fun space =>
    root.space ≠ some space

/-! ### Methods and provisional steps -/

/-- The methods of the root and the walk that made them. -/
def walkTree (naming : Naming) (root : Root) (tree : PlanTree) : List Method × Walk :=
  let (candidates, walk) := branches naming {} root.typeParameters tree.children [] {}
  let (survivors, walk) := walk.select
    (proposeCreations naming {} root.typeParameters candidates tree.endings)
  (survivors.map Candidate.method, walk)

/-- The provisional steps of a walk as a call graph needs them. -/
def Walk.table (walk : Walk) : CallGraph.Table := walk.steps.map (·.map Step.stop)

/-! ### Converters that lost -/

/-- What a method leads to in a graph. -/
def outcome (graph : CallGraph) (method : Method) : Outcome :=
  { display := method.display
    location := method.location
    converterType := match method with
      | .conversion conversion => some conversion.converter.declaringType
      | _ => none
    reach := graph.methodReach method }

/-- A candidate that lost, if it goes through a converter. -/
def displacedConversion? (declarations : List Declaration) (graph : CallGraph)
    (candidate : Candidate) : Option Displaced :=
  match candidate.method with
  | .conversion conversion => some {
      outcome := outcome graph candidate.method
      attributeLocation := conversion.attributeLocation
      converterLocations := conversion.converterLocations
      parameter := conversion.source.name
      constructor :=
        (declarations[conversion.source.constructor]?.map (·.constructor.display)).getD "" }
  | _ => none

/-- The findings about converters that lost. Lost methods may lead to steps that nothing
else leads to, so the graph is entered through every method of every collision. -/
def displacedFindings (declarations : List Declaration) (rootMethods : List Method)
    (walk : Walk) : List Diagnostic :=
  let entries := rootMethods ++ walk.displaced.flatMap fun collision =>
    collision.survivor.method :: collision.displaced.map Candidate.method
  let graph := CallGraph.build entries walk.table
  walk.displaced.flatMap fun collision =>
    Displaced.diagnostics (outcome graph collision.survivor.method)
      (collision.displaced.filterMap (displacedConversion? declarations graph))

/-! ### Final numbers -/

/-- The provisional numbers of the steps that are kept. -/
def keptSteps (graph : CallGraph) (walk : Walk) : List Nat :=
  graph.liveSteps.filter fun index => (walk.step? index).isSome

/-- The final number of a step: its place among those that are kept. -/
def finalNumber (kept : List Nat) (index : Nat) : Nat :=
  (kept.findIdx? (· == index)).getD index

/-- The kept steps with their final numbers. -/
def finalSteps (naming : Naming) (root : Root) (kept : List Nat) (walk : Walk) : List Step :=
  (kept.filterMap walk.step?).zipIdx.map fun (step, index) =>
    (step.number naming.stepPrefix root.name index).mapMethods (·.mapStep (finalNumber kept))

/-! ### The builder -/

/-- The constructors of the declarations, numbered from zero. -/
def summaries (declarations : List Declaration) : List ConstructorSummary :=
  declarations.zipIdx.map fun (declaration, id) =>
    { id
      display := declaration.constructor.display
      target := declaration.target.asType
      location := declaration.constructor.location }

/-- The builder of declarations in which nothing is wrong. -/
def assembleValid (system : TypeSystem) (naming : Naming) (root : Root)
    (declarations : List Declaration) : Builder :=
  let plans := planAll system naming declarations
  let (rootMethods, walk) := walkTree naming root (planTree plans)
  let graph := CallGraph.build rootMethods walk.table
  let kept := keptSteps graph walk
  { Builder.empty root with
    usings := usings root declarations
    methods := rootMethods.map (·.mapStep (finalNumber kept))
    steps := finalSteps naming root kept walk
    constructors := summaries declarations
    diagnostics := declarations.flatMap (Declaration.planFindings system)
      ++ displacedFindings declarations rootMethods walk
      ++ ((planCoverage plans).reach graph.reachableConstructors).diagnostics }

/-- The builder of a root. If anything is wrong with the declarations it holds the findings
and nothing else. -/
def assemble (system : TypeSystem) (naming : Naming) (root : Root)
    (declarations : List Declaration) : Builder :=
  let findings := Validation.findings root declarations
  if findings.any Diagnostic.isError then { Builder.empty root with diagnostics := findings }
  else
    let builder := assembleValid system naming root declarations
    { builder with diagnostics := findings ++ builder.diagnostics }

end StagedBuilder
