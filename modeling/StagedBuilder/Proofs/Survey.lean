/-
This file carries the chart of a walk over to the builder that is made of it. Every method
of the builder stands where the chart places the method of the walk that it was, numbers
of steps apart. No two constructors have one number, and each was inserted once, so for a
constructor and a depth there is one mark; in particular a constructor ends at one node.
-/

import StagedBuilder.Proofs.Assembly
import StagedBuilder.Proofs.Chart

namespace StagedBuilder

open PrefixTree (Under)

/-! ### The tree of ordered plans -/

section

variable {plans : List ConstructorPlan}

theorem keyed_planTree (plans : List ConstructorPlan) : (planTree plans).Keyed := by
  have keyed := PrefixTree.keyed_insertions
    ((plans.filter ConstructorPlan.isUsable).map fun plan => (plan.parameters, plan))
  rwa [List.foldl_map] at keyed

/-- The tree holds the usable plans. -/
theorem values_planTree_perm (plans : List ConstructorPlan) :
    (planTree plans).values.Perm (plans.filter ConstructorPlan.isUsable) := by
  have inserted := PrefixTree.values_foldl_insert_perm
    ((plans.filter ConstructorPlan.isUsable).map fun plan => (plan.parameters, plan)) .empty
  rw [List.foldl_map, List.map_map] at inserted
  have nothing : (PrefixTree.empty : PlanTree).values = [] := rfl
  rw [nothing, List.append_nil] at inserted
  exact inserted.trans (List.Perm.of_eq (List.map_id _))

theorem nodup_map_id (ordered : plans.Pairwise fun earlier later => earlier.id < later.id) :
    (plans.map (·.id)).Nodup :=
  List.pairwise_map.2 (ordered.imp fun less => Nat.ne_of_lt less)

end

/-! ### Builders with a chart -/

/-- Where a builder comes from, with a chart of the walk. -/
structure Builder.Survey (naming : Naming) (root : Root) (declarations : List Declaration)
    (builder : Builder) extends Builder.Origin naming root declarations builder where
  chart : List Mark
  surveyed : walk.Surveyed naming tree rootMethods chart
  keyed : tree.Keyed
  /-- No plan was inserted twice. -/
  distinct : tree.values.Nodup
  /-- No two plans have one number. -/
  identified : (plans.map (·.id)).Nodup
  usable : ∀ plan ∈ plans, plan.isUsable = true

variable {naming : Naming} {root : Root} {declarations : List Declaration} {builder : Builder}

/-- A builder that comes from the tree of ordered plans has a survey if the walk has a chart. -/
theorem Builder.Origin.exists_survey (origin : builder.Origin naming root declarations)
    {plans : List ConstructorPlan}
    (ordered : plans.Pairwise fun earlier later => earlier.id < later.id)
    (arePlans : origin.plans = plans.filter ConstructorPlan.isUsable)
    (isTree : origin.tree = planTree plans)
    (charted : ∃ chart, origin.walk.Surveyed naming (planTree plans) origin.rootMethods chart) :
    ∃ survey : builder.Survey naming root declarations, survey.toOrigin = origin := by
  obtain ⟨chart, surveyed⟩ := charted
  have identified : ((plans.filter ConstructorPlan.isUsable).map (·.id)).Nodup :=
    nodup_map_id (ordered.filter _)
  refine ⟨{
    toOrigin := origin
    chart
    surveyed := isTree ▸ surveyed
    keyed := isTree ▸ keyed_planTree plans
    distinct := isTree ▸ (values_planTree_perm plans).nodup_iff.2 identified.of_map
    identified := arePlans ▸ identified
    usable := fun plan member => (List.mem_filter.1 (arePlans ▸ member)).2 }, rfl⟩

theorem exists_surveyOfValid (system : TypeSystem) (naming : Naming) (root : Root)
    (declarations : List Declaration) :
    ∃ survey : (assembleValid system naming root declarations).Survey naming root declarations,
      survey.toOrigin = originOfValid system naming root declarations :=
  Builder.Origin.exists_survey _ (pairwise_id_planAll system naming declarations) rfl rfl
    (exists_surveyed_walkTree naming root (keyed_planTree _))

/-- Every builder has a survey, whether or not the declarations are refused. -/
theorem nonempty_survey (system : TypeSystem) (naming : Naming) (root : Root)
    (declarations : List Declaration) :
    Nonempty ((assemble system naming root declarations).Survey naming root declarations) := by
  by_cases refused : (Validation.findings root declarations).any Diagnostic.isError = true
  · rw [assemble_of_refused refused]
    let mark : Mark := ⟨⟨planTree [], none, []⟩, .root⟩
    have surveyed : ({} : Walk).Surveyed naming (planTree []) [] [mark] := {
      charted := Walk.Charted.start.mark fun constructor isTarget => CallNode.noConfusion isTarget
      placedRoot := fun _ member => absurd member List.not_mem_nil
      visits := rfl
      root := List.mem_singleton_self mark }
    let origin : Builder.Origin naming root declarations
        { Builder.empty root with diagnostics := Validation.findings root declarations } :=
      originOfEmpty naming root declarations rfl rfl
    obtain ⟨survey, -⟩ := origin.exists_survey List.Pairwise.nil rfl rfl ⟨[mark], surveyed⟩
    exact ⟨survey⟩
  · rw [assemble_of_accepted refused]
    obtain ⟨survey, -⟩ := exists_surveyOfValid system naming root declarations
    exact ⟨{ survey with methods := survey.methods, steps := survey.steps }⟩

/-! ### Marks and constructors -/

namespace Builder.Survey

variable (survey : builder.Survey naming root declarations)

/-- A constructor that ends at a marked node is one of the plans and has as many parameters as
keys lead to the node. -/
theorem ends {mark : Mark} (met : mark ∈ survey.chart) {plan : ConstructorPlan}
    (ends : plan ∈ mark.node.endings) :
    plan ∈ survey.plans ∧ plan.parameters.length = mark.depth := by
  obtain ⟨isPlan, sameTypes⟩ :=
    survey.grown.ended (survey.surveyed.under survey.keyed met) ends
  have lengths := congrArg List.length sameTypes
  rw [List.length_map, List.length_map] at lengths
  exact ⟨isPlan, lengths⟩

theorem plan_eq {first second : ConstructorPlan} (isFirst : first ∈ survey.plans)
    (isSecond : second ∈ survey.plans) (sameId : first.id = second.id) : first = second :=
  List.inj_on_of_nodup_map survey.identified isFirst isSecond sameId

/-- One mark is left for a depth and a constructor. -/
theorem mark_eq {first second : Mark} (metFirst : first ∈ survey.chart)
    (metSecond : second ∈ survey.chart) (sameDepth : first.depth = second.depth)
    {plan : ConstructorPlan} (inFirst : plan ∈ first.node.values)
    (inSecond : plan ∈ second.node.values) : first = second :=
  survey.surveyed.mark_eq survey.keyed survey.distinct metFirst metSecond sameDepth inFirst inSecond

/-- A constructor ends at one node. -/
theorem mark_eq_of_ends {first second : Mark} (metFirst : first ∈ survey.chart)
    (metSecond : second ∈ survey.chart) {plan other : ConstructorPlan}
    (endsFirst : plan ∈ first.node.endings) (endsSecond : other ∈ second.node.endings)
    (sameId : plan.id = other.id) : first = second := by
  obtain ⟨isPlan, depthFirst⟩ := survey.ends metFirst endsFirst
  obtain ⟨isOther, depthSecond⟩ := survey.ends metSecond endsSecond
  obtain rfl := survey.plan_eq isPlan isOther sameId
  exact survey.mark_eq metFirst metSecond (depthFirst.symm.trans depthSecond)
    (PrefixTree.mem_values.2 (Or.inl endsFirst)) (PrefixTree.mem_values.2 (Or.inl endsSecond))

/-- The declaration of a constructor that ends at a marked node. -/
theorem declared {mark : Mark} (met : mark ∈ survey.chart) {plan : ConstructorPlan}
    (ends : plan ∈ mark.node.endings) : declarations[plan.id]? = some plan.declaration :=
  (survey.allDeclared plan (survey.ends met ends).1).declared

/-! ### Methods and the chart -/

/-- The chart places the methods of the walk. -/
theorem placed_source {source : CallNode} {place : Place}
    (found : survey.place? source = some place) {method : Method}
    (member : method ∈ place.methods) : Placed naming survey.chart source method := by
  cases source with
  | root =>
    cases found
    exact survey.surveyed.placedRoot method member
  | step index =>
    obtain ⟨step, isStep, rfl⟩ := Option.map_eq_some_iff.1 found
    rw [step.methods_place] at member
    exact survey.surveyed.charted.placed index step isStep method member
  | target constructor => cases found

/-- Every method of the builder is one that the chart places, with the steps numbered anew. -/
theorem placed {node : CallNode} {owner : Place} (found : builder.place? node = some owner)
    {method : Method} (member : method ∈ owner.methods) :
    ∃ source before, source.mapStep survey.number = node ∧
      before.mapStep survey.number = method ∧ Placed naming survey.chart source before := by
  obtain ⟨source, place, -, isNode, isPlace, rfl⟩ := survey.exists_source found
  obtain ⟨before, isBefore, isMethod⟩ := List.mem_map.1 member
  exact ⟨source, before, isNode, isMethod, survey.placed_source isPlace isBefore⟩

end Builder.Survey

end StagedBuilder
