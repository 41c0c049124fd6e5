/-
This file carries what is known of a walk over to the builder that is made of it. Every
place of the builder is a place of the walk with the same known values and the same
methods, only that these return steps by their final numbers; and a chain of calls of the
walk comes to it. Where declarations are refused the builder has no methods and no steps,
which is what is kept of a walk that has not begun.
-/

import StagedBuilder.Proofs.FinalNumber
import StagedBuilder.Proofs.Place

namespace StagedBuilder

open CallGraph (Calls Reached methodsAt Table)
open PrefixTree (Under)
open Relation (ReflTransGen)

/-! ### Places with final numbers -/

/-- The place with the steps its methods return numbered anew. -/
def Place.mapStep (renumber : Nat → Nat) (place : Place) : Place :=
  { place with methods := place.methods.map (·.mapStep renumber) }

theorem place_number_mapMethods (stepPrefix rootName : String) (index : Nat)
    (renumber : Nat → Nat) (step : Step) :
    ((step.number stepPrefix rootName index).mapMethods (·.mapStep renumber)).place =
      step.place.mapStep renumber := by
  cases step <;> rfl

theorem Result.eq_step_of_node {result : Result} {index : Nat}
    (leads : result.node = .step index) : result = .step index := by
  cases result with
  | product value => cases leads
  | step other =>
    cases leads
    rfl

/-- The methods of a node are those of its place. -/
theorem methodsAt_eq {table : Table} {step? : Nat → Option Step}
    (agree : ∀ index, table.stop? index = (step? index).map Step.stop) (rootMethods : List Method)
    (node : CallNode) :
    methodsAt rootMethods table node =
      ((placeOf rootMethods step? node).map Place.methods).getD [] := by
  cases node with
  | root => rfl
  | step index =>
    rw [methodsAt, agree, placeOf]
    cases step? index with
    | none => rfl
    | some step => exact (Step.methods_place step).symm
  | target constructor => rfl

theorem mem_methodsAt {table : Table} {step? : Nat → Option Step}
    (agree : ∀ index, table.stop? index = (step? index).map Step.stop) {rootMethods : List Method}
    {node : CallNode} {method : Method} :
    method ∈ methodsAt rootMethods table node ↔
      ∃ place, placeOf rootMethods step? node = some place ∧ method ∈ place.methods := by
  rw [methodsAt_eq agree]
  cases placeOf rootMethods step? node with
  | none => simp
  | some place => simp

/-- The table of a builder's steps. -/
def Builder.table (builder : Builder) : Table := builder.steps.map fun step => some step.stop

theorem Builder.stop?_table (builder : Builder) (index : Nat) :
    builder.table.stop? index = (builder.step? index).map Step.stop := by
  rw [table, Table.stop?, List.getElem?_map, step?]
  cases builder.steps[index]? <;> rfl

/-! ### Builders made of a walk -/

/-- Where a builder comes from: it consists of what is kept of a sound walk of a tree that is
grown from plans of the declarations. -/
structure Builder.Origin (naming : Naming) (root : Root) (declarations : List Declaration)
    (builder : Builder) where
  plans : List ConstructorPlan
  allDeclared : ∀ plan ∈ plans, plan.Declared declarations
  tree : PlanTree
  grown : PlanTree.Grown plans tree
  walk : Walk
  sound : walk.Sound naming tree
  rootMethods : List Method
  furnished : Furnished naming tree walk {} rootMethods
  methods : builder.methods = walk.finalMethods rootMethods
  steps : builder.steps = finalSteps naming root (walk.kept rootMethods) walk

namespace Builder.Origin

variable {naming : Naming} {root : Root} {declarations : List Declaration} {builder : Builder}

/-- The place of a node of the walk. -/
abbrev place? (origin : builder.Origin naming root declarations) : CallNode → Option Place :=
  origin.walk.place? origin.rootMethods

/-- A chain of calls of the walk comes to the node. -/
abbrev Reached (origin : builder.Origin naming root declarations) : CallNode → Prop :=
  CallGraph.Reached origin.rootMethods origin.walk.table

/-- The final number of a step. -/
abbrev number (origin : builder.Origin naming root declarations) : Nat → Nat :=
  finalNumber (origin.walk.kept origin.rootMethods)

/-- A path leads to the place. -/
abbrev Leads (origin : builder.Origin naming root declarations) (path : Path) (place : Place) :
    Prop := place.Sound naming origin.tree origin.walk path

variable (origin : builder.Origin naming root declarations)

/-- A path leads to every place. -/
theorem leads {node : CallNode} {place : Place} (found : origin.place? node = some place) :
    ∃ path, origin.Leads path place :=
  origin.sound.sound_place origin.furnished origin.grown origin.allDeclared found

/-- A step that a method returns is filled, and it knows one value more. -/
theorem returned {path : Path} {place : Place} (leads : origin.Leads path place) {method : Method}
    (member : method ∈ place.methods) {index : Nat} (returns : method.result = .step index) :
    ∃ step name, origin.walk.step? index = some step ∧
      step.known.length = place.known.length + 1 ∧
      (step.place.isTarget = false →
        step.known.map (·.name) = path.key.map (·.2) ++ [name]) := by
  rw [leads.length_known]
  exact (leads.furnished.offered method member).exists_step origin.sound origin.grown
    origin.allDeclared leads.walked returns

theorem complete : origin.walk.Complete origin.rootMethods := by
  intro index reached
  obtain same | ⟨node, -, last⟩ := ReflTransGen.cases_tail reached
  · cases same
  generalize atStep : CallNode.step index = target at last
  cases last with
  | @call _ method member =>
    obtain ⟨place, found, isMethod⟩ := (mem_methodsAt origin.walk.stop?_table).1 member
    obtain ⟨path, leads⟩ := origin.leads found
    obtain ⟨step, -, filled, -⟩ :=
      origin.returned leads isMethod (Result.eq_step_of_node atStep.symm)
    rw [filled, Option.isSome_some]
  | arrive => cases atStep

theorem table_eq : builder.table = origin.walk.finalTable naming root origin.rootMethods := by
  rw [table, origin.steps]

/-- A kept step has its place at its final number. -/
theorem place?_mapStep {node : CallNode} (reached : origin.Reached node) :
    builder.place? (node.mapStep origin.number) =
      (origin.place? node).map (Place.mapStep origin.number) := by
  cases node with
  | root =>
    show some _ = some _
    rw [origin.methods]
    rfl
  | step index =>
    show (builder.steps[origin.number index]?).map Step.place = _
    rw [origin.steps, getElem?_finalSteps,
      getElem?_finalNumber (origin.complete.mem_kept.2 reached), Option.bind_some,
      Option.map_map, place?, Walk.place?, placeOf, Option.map_map]
    exact congrArg (Option.map · _) (funext fun step => place_number_mapMethods _ _ _ _ step)
  | target constructor => rfl

/-- The kept step that a step of the builder was. -/
theorem exists_kept {number : Nat} {final : Step} (found : builder.step? number = some final) :
    ∃ index step, origin.Reached (.step index) ∧ origin.number index = number ∧
      origin.walk.step? index = some step ∧
      final = (step.number naming.stepPrefix root.name number).mapMethods
        (·.mapStep origin.number) := by
  rw [step?, origin.steps, getElem?_finalSteps] at found
  obtain ⟨step, isStep, rfl⟩ := Option.map_eq_some_iff.1 found
  obtain ⟨index, atPlace, isKept⟩ := Option.bind_eq_some_iff.1 isStep
  exact ⟨index, step, reached_of_mem_kept (List.mem_of_getElem? atPlace),
    finalNumber_of_getElem? (nodup_kept _ _) atPlace, isKept, rfl⟩

/-- A step that chains of calls of the walk come to is a step of the builder, with its final
number. -/
theorem step?_number {index : Nat} {step : Step} (reached : origin.Reached (.step index))
    (found : origin.walk.step? index = some step) :
    builder.step? (origin.number index) =
      some ((step.number naming.stepPrefix root.name (origin.number index)).mapMethods
        (·.mapStep origin.number)) := by
  rw [step?, origin.steps, getElem?_finalSteps,
    getElem?_finalNumber (origin.complete.mem_kept.2 reached), Option.bind_some, found,
    Option.map_some]

/-- Every place of the builder is a place that chains of calls of the walk come to, with the
steps numbered anew. -/
theorem exists_source {node : CallNode} {place : Place} (found : builder.place? node = some place) :
    ∃ source before, origin.Reached source ∧ source.mapStep origin.number = node ∧
      origin.place? source = some before ∧ place = before.mapStep origin.number := by
  obtain ⟨source, reached, rfl⟩ :
      ∃ source, origin.Reached source ∧ source.mapStep origin.number = node := by
    cases node with
    | root => exact ⟨.root, .refl, rfl⟩
    | step number =>
      obtain ⟨final, isFinal, -⟩ := Option.map_eq_some_iff.1 found
      obtain ⟨index, -, reached, isNumber, -⟩ := origin.exists_kept isFinal
      exact ⟨.step index, reached, congrArg CallNode.step isNumber⟩
    | target constructor => cases found
  rw [origin.place?_mapStep reached] at found
  obtain ⟨before, isBefore, rfl⟩ := Option.map_eq_some_iff.1 found
  exact ⟨source, before, reached, rfl, isBefore, rfl⟩

/-- Every place of the builder is a place of the walk with the methods numbered anew. -/
theorem exists_place {node : CallNode} {place : Place} (found : builder.place? node = some place) :
    ∃ source before path, origin.Reached source ∧ origin.place? source = some before ∧
      origin.Leads path before ∧ place = before.mapStep origin.number := by
  obtain ⟨source, before, reached, -, isBefore, rfl⟩ := origin.exists_source found
  obtain ⟨path, leads⟩ := origin.leads isBefore
  exact ⟨source, before, path, reached, isBefore, leads, rfl⟩

/-- Chains of calls of the builder are those of the walk with the steps numbered anew. -/
theorem reached_iff {target : CallNode} :
    CallGraph.Reached builder.methods builder.table target ↔
      ∃ before, origin.Reached before ∧ before.mapStep origin.number = target := by
  rw [origin.methods, origin.table_eq]
  exact reached_finalNode origin.complete

end Builder.Origin

/-! ### Builders of declarations -/

/-- The plans of the usable constructors among the declared ones. -/
abbrev usablePlans (system : TypeSystem) (naming : Naming) (declarations : List Declaration) :
    List ConstructorPlan :=
  (planAll system naming declarations).filter ConstructorPlan.isUsable

/-- The builder of declarations that are not refused comes from the walk of their tree. -/
def originOfValid (system : TypeSystem) (naming : Naming) (root : Root)
    (declarations : List Declaration) :
    (assembleValid system naming root declarations).Origin naming root declarations where
  plans := usablePlans system naming declarations
  allDeclared _ member := declared_of_mem_planAll (List.mem_filter.1 member).1
  tree := planTree (planAll system naming declarations)
  grown := PlanTree.grown_planTree _
  walk := (walkTree naming root (planTree (planAll system naming declarations))).2
  sound := (sound_walkTree naming root _).1
  rootMethods := (walkTree naming root (planTree (planAll system naming declarations))).1
  furnished := (sound_walkTree naming root _).2
  methods := rfl
  steps := rfl

/-- A builder in which nothing is comes from a walk that has not begun. -/
def originOfEmpty (naming : Naming) (root : Root) (declarations : List Declaration)
    {builder : Builder} (noMethods : builder.methods = []) (noSteps : builder.steps = []) :
    builder.Origin naming root declarations where
  plans := []
  allDeclared _ member := absurd member List.not_mem_nil
  tree := planTree []
  grown := PlanTree.grown_planTree []
  walk := {}
  sound := .start naming _
  rootMethods := []
  furnished := ⟨fun _ member => absurd member List.not_mem_nil, List.nodup_nil⟩
  methods := noMethods
  steps := by
    have noneKept : Walk.kept {} [] = [] :=
      List.filter_eq_nil_iff.2 fun _ _ => Bool.false_ne_true
    rw [noSteps, noneKept]
    rfl

theorem assemble_of_refused {system : TypeSystem} {naming : Naming} {root : Root}
    {declarations : List Declaration}
    (refused : (Validation.findings root declarations).any Diagnostic.isError = true) :
    assemble system naming root declarations =
      { Builder.empty root with diagnostics := Validation.findings root declarations } :=
  if_pos refused

theorem assemble_of_accepted {system : TypeSystem} {naming : Naming} {root : Root}
    {declarations : List Declaration}
    (accepted : ¬ (Validation.findings root declarations).any Diagnostic.isError = true) :
    assemble system naming root declarations =
      { assembleValid system naming root declarations with
        diagnostics := Validation.findings root declarations ++
          (assembleValid system naming root declarations).diagnostics } :=
  if_neg accepted

/-- Every builder comes from a walk, whether or not the declarations are refused. -/
theorem nonempty_origin (system : TypeSystem) (naming : Naming) (root : Root)
    (declarations : List Declaration) :
    Nonempty ((assemble system naming root declarations).Origin naming root declarations) := by
  by_cases refused : (Validation.findings root declarations).any Diagnostic.isError = true
  · rw [assemble_of_refused refused]
    exact ⟨originOfEmpty naming root declarations rfl rfl⟩
  · rw [assemble_of_accepted refused]
    exact ⟨{ originOfValid system naming root declarations with methods := rfl, steps := rfl }⟩

end StagedBuilder
