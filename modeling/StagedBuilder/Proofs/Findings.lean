/-
This file says which part of the findings depends on nothing but looks. The text of a finding
displays types, so it depends on names. The code of a finding and the places it points to do
not: findings about declarations depend on what a declaration shows without names, findings
about lost collisions on what the collisions look like and where the graph leads, and
findings about unreachable constructors on what the graph leads to from the root.
-/

import StagedBuilder.Proofs.Account
import StagedBuilder.Proofs.Correspondence

namespace StagedBuilder

/-! ### Places -/

/-- What a finding says apart from its text: its code, its severity and the places it points
to. -/
def Diagnostic.place (finding : Diagnostic) :
    DiagnosticCode × Severity × Location × List Location :=
  (finding.code, finding.severity, finding.location, finding.additionalLocations)

/-- Whether anything is refused depends on severities only. -/
theorem any_isError_eq {findings others : List Diagnostic}
    (places : findings.map Diagnostic.place = others.map Diagnostic.place) :
    findings.any Diagnostic.isError = others.any Diagnostic.isError := by
  have byPlace : ∀ findings : List Diagnostic, findings.any Diagnostic.isError =
      (findings.map Diagnostic.place).any fun place => place.2.1 = .error := by
    intro findings
    rw [List.any_map]
    rfl
  rw [byPlace, places, byPlace]

/-! ### Declarations -/

section

variable (root : Root)

theorem map_place_nameFindings (declaration : Declaration) (name : String) :
    (Validation.nameFindings declaration.nameless name).map Diagnostic.place =
      (Validation.nameFindings declaration name).map Diagnostic.place := by
  simp only [Validation.nameFindings, List.map_append, apply_ite (List.map Diagnostic.place),
    List.map_cons, List.map_nil]
  rfl

theorem map_place_createNameFindings (seen : List (String × String))
    (declarations : List Declaration) :
    (Validation.createNameFindings seen (declarations.map Declaration.nameless)).map
        Diagnostic.place =
      (Validation.createNameFindings seen declarations).map Diagnostic.place := by
  induction declarations generalizing seen with
  | nil => rfl
  | cons declaration rest inductionHypothesis =>
    rw [List.map_cons, Validation.createNameFindings, Validation.createNameFindings]
    have sameName : declaration.nameless.createMethodName = declaration.createMethodName := rfl
    rw [sameName]
    cases declaration.createMethodName with
    | none =>
      simp only [List.map_append, apply_ite (List.map Diagnostic.place), List.map_cons,
        List.map_nil, inductionHypothesis]
      rfl
    | some name =>
      simp only [List.map_append, apply_ite (List.map Diagnostic.place), List.map_cons,
        List.map_nil, inductionHypothesis, map_place_nameFindings]
      rfl

/-- The places of what is wrong with declarations do not depend on names. -/
theorem map_place_findings (declarations : List Declaration) :
    (Validation.findings root (declarations.map Declaration.nameless)).map Diagnostic.place =
      (Validation.findings root declarations).map Diagnostic.place := by
  rw [Validation.findings, Validation.findings, List.map_append, List.map_append,
    map_place_createNameFindings]
  refine congrArg (· ++ _) ?_
  split
  · rfl
  · rw [List.map_map, List.map_map, List.map_map]
    rfl

end

/-! ### Lost collisions -/

section

variable (view : View)

/-- Two outcomes that look the same, whatever the texts. -/
structure Outcome.Alike (left right : Outcome) : Prop where
  location : left.location = right.location
  converterType : left.converterType = right.converterType
  reach : left.reach = right.reach.map view.number

/-- Two lost converters that look the same, whatever the texts. -/
structure Displaced.Alike (left right : Displaced) : Prop where
  outcome : left.outcome.Alike view right.outcome
  attributeLocation : left.attributeLocation = right.attributeLocation
  converterLocations : left.converterLocations = right.converterLocations

variable {view}

theorem map_place_diagnostics {survivor other : Outcome} (survivors : survivor.Alike view other)
    {displaced others : List Displaced}
    (alike : List.Forall₂ (Displaced.Alike view) displaced others) :
    (Displaced.diagnostics survivor displaced).map Diagnostic.place =
      (Displaced.diagnostics other others).map Diagnostic.place := by
  have losesNothing : Displaced.losesNothing survivor displaced =
      Displaced.losesNothing other others := by
    refine Lists.all_eq_all alike fun left right loser => ?_
    rw [loser.outcome.reach, List.all_map]
    refine congrArg (List.all _) (funext fun id => Bool.eq_iff_iff.2 ?_)
    rw [Function.comp_apply, List.contains_iff_mem, List.contains_iff_mem, survivors.reach]
    exact List.mem_map_of_injective view.increasing.injective
  have sameFamily : Displaced.sameFamily survivor displaced =
      Displaced.sameFamily other others := by
    unfold Displaced.sameFamily
    rw [survivors.converterType]
    cases other.converterType with
    | none => rfl
    | some family =>
      refine Lists.all_eq_all alike fun left right loser => ?_
      rw [loser.outcome.converterType]
  have findings : (displaced.flatMap (Displaced.findings survivor)).map Diagnostic.place =
      (others.flatMap (Displaced.findings other)).map Diagnostic.place := by
    rw [List.map_flatMap, List.map_flatMap]
    clear losesNothing sameFamily
    induction alike with
    | nil => rfl
    | @cons left right _ _ loser _ inductionHypothesis =>
      rw [List.flatMap_cons, List.flatMap_cons, inductionHypothesis]
      refine congrArg (· ++ _) ?_
      rw [Displaced.findings, Displaced.findings, List.map_cons, List.map_cons, List.map_map,
        List.map_map, loser.converterLocations]
      refine congrArg₂ List.cons ?_ rfl
      rw [Diagnostic.place, Diagnostic.place, loser.attributeLocation, survivors.location]
  unfold Displaced.diagnostics
  rw [losesNothing, sameFamily]
  split
  · rfl
  · exact findings

variable (view)

theorem alike_outcome (graph : CallGraph) (method : Method) :
    (outcome (view.graph graph) (view.method method)).Alike view (outcome graph method) where
  location := view.location_method method
  converterType := by cases method <;> rfl
  reach := view.methodReach_graph graph method

theorem alike_displacedConversion? (declarations others : List Declaration) (graph : CallGraph)
    (candidate : Candidate) :
    Option.Rel (Displaced.Alike view)
      (displacedConversion? others (view.graph graph) (view.candidate candidate))
      (displacedConversion? declarations graph candidate) := by
  have alike := alike_outcome view graph candidate.method
  unfold displacedConversion? View.candidate
  cases method : candidate.method with
  | supply supply => exact .none
  | conversion conversion =>
    rw [method] at alike
    exact .some ⟨alike, rfl, rfl⟩
  | creation creation => exact .none

/-- The places of the findings about lost collisions can be told from the looks of the walk. -/
theorem map_place_displacedFindings (declarations others : List Declaration)
    (rootMethods : List Method) (walk : Walk) :
    (displacedFindings others (rootMethods.map view.method) (view.walk walk)).map
        Diagnostic.place =
      (displacedFindings declarations rootMethods walk).map Diagnostic.place := by
  have entries : rootMethods.map view.method ++ (view.walk walk).displaced.flatMap
      (fun collision => collision.survivor.method :: collision.displaced.map Candidate.method) =
        (rootMethods ++ walk.displaced.flatMap fun collision =>
          collision.survivor.method :: collision.displaced.map Candidate.method).map
            view.method := by
    rw [List.map_append, View.walk, List.flatMap_map, List.map_flatMap]
    refine congrArg (_ ++ ·) (List.flatMap_congr fun collision _ => ?_)
    rw [List.map_cons, List.map_map, View.collision, List.map_map]
    rfl
  unfold displacedFindings
  simp only [entries, view.table_walk, view.build_eq]
  generalize CallGraph.build _ walk.table = graph
  rw [List.map_flatMap, View.walk, List.flatMap_map, List.map_flatMap]
  refine List.flatMap_congr fun collision _ => ?_
  refine map_place_diagnostics (alike_outcome view graph collision.survivor.method) ?_
  have seen : List.Forall₂ (fun shown candidate => shown = view.candidate candidate)
      (collision.displaced.map view.candidate) collision.displaced :=
    List.forall₂_map_left_iff.2 (List.forall₂_same.2 fun _ _ => rfl)
  refine List.rel_filterMap (fun shown candidate same => ?_) seen
  rw [same]
  exact alike_displacedConversion? view declarations others graph candidate

end

/-! ### Unreachable constructors -/

variable {first second : View}

/-- What a graph leads to can be told from the looks of the walk. -/
theorem map_number_reachableConstructors (view : View) (rootMethods : List Method) (walk : Walk) :
    (CallGraph.build rootMethods walk.table).reachableConstructors.map view.number =
      (CallGraph.build (rootMethods.map view.method)
        (view.walk walk).table).reachableConstructors := by
  rw [view.table_walk, view.build_eq, view.reachableConstructors_graph]

theorem map_place_reach_planCoverage (agree : first.named = second.named)
    {plans others : List ConstructorPlan}
    (ordered : plans.Pairwise fun earlier later => earlier.id < later.id)
    (orderedOthers : others.Pairwise fun earlier later => earlier.id < later.id)
    (alike : List.Forall₂ (ConstructorPlan.Alike first second)
      (plans.filter ConstructorPlan.isUsable) (others.filter ConstructorPlan.isUsable))
    {ids otherIds : List Nat} (numbers : ids.map first.number = otherIds.map second.number) :
    ((planCoverage plans).reach ids).diagnostics.map Diagnostic.place =
      ((planCoverage others).reach otherIds).diagnostics.map Diagnostic.place := by
  have listed : ∀ (plans : List ConstructorPlan) (ids : List Nat),
      plans.Pairwise (fun earlier later => earlier.id < later.id) →
        ((planCoverage plans).reach ids).diagnostics.map Diagnostic.place =
          ((plans.filter ConstructorPlan.isUsable).filter fun plan => !ids.contains plan.id).map
            fun plan => plan.declaration.unreachableFinding.place := by
    intro plans ids ordered
    rw [diagnostics_reach_planCoverage ordered, List.map_map, List.filter_filter]
    exact congrArg (List.map _) (List.filter_congr fun plan _ => Bool.and_comm _ _)
  rw [listed plans ids ordered, listed others otherIds orderedOthers]
  revert alike
  generalize plans.filter ConstructorPlan.isUsable = usable
  generalize others.filter ConstructorPlan.isUsable = usableOthers
  intro alike
  induction alike with
  | nil => rfl
  | @cons plan other _ _ plans _ inductionHypothesis =>
    have reached : ids.contains plan.id = otherIds.contains other.id := by
      rw [Bool.eq_iff_iff, List.contains_iff_mem, List.contains_iff_mem,
        ← List.mem_map_of_injective first.increasing.injective, numbers, plans.id,
        List.mem_map_of_injective second.increasing.injective]
    have place : plan.declaration.unreachableFinding.place =
        other.declaration.unreachableFinding.place := by
      show plan.declaration.nameless.unreachableFinding.place =
        other.declaration.nameless.unreachableFinding.place
      rw [View.nameless_eq_of_declaration agree plans.declaration]
    rw [List.filter_cons, List.filter_cons, reached]
    split
    · rw [List.map_cons, List.map_cons, place, inductionHypothesis]
    · exact inductionHypothesis

end StagedBuilder
