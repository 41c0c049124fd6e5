/-
This file follows a path back to the keys that made its edges. They tell all that the path
knows: its known values are theirs, and its scope binds, one after another, what they
introduce, each placeholder with the constraints that came with it.

Every synthesized step was made along such a way. It knows what is known there and declares
what is bound there, also if nodes below other ways share it later.
-/

import Mathlib.Data.List.Induction
import StagedBuilder.Proofs.Scoping

namespace StagedBuilder

open PrefixTree (Under)

/-! ### Ways -/

/-- The path along the edges that the given keys made. -/
def Path.along (way : List ParameterPlan) : Path := way.foldl Path.extend {}

theorem Path.along_append_singleton (way : List ParameterPlan) (last : ParameterPlan) :
    Path.along (way ++ [last]) = (Path.along way).extend last := List.foldl_concat ..

/-- The scope binds what the keys introduce, in order. -/
theorem Path.scope_along (way : List ParameterPlan) :
    (Path.along way).scope = Scope.bindAll {} (way.flatMap (·.introduced)) := by
  induction way using List.reverseRecOn with
  | nil => rfl
  | append_singleton way last inductionHypothesis =>
    rw [along_append_singleton, scope_extend, inductionHypothesis, List.flatMap_append,
      List.flatMap_singleton, Scope.bindAll, Scope.bindAll, Scope.bindAll, List.foldl_append]

/-- The keys of the edges that a walked path goes down. The node at which it goes on may be any
that stands below the same types and names. -/
inductive Trail (tree : PlanTree) : List ParameterPlan → Prop
  | start : Trail tree []
  | extend {way above : List ParameterPlan} {node child : PlanTree}
      {representative : ParameterPlan} (trail : Trail tree way)
      (under : Under tree above node) (leads : keyOf above = keyOf way)
      (member : child ∈ node.children) (made : child.representative? = some representative) :
      Trail tree (way ++ [representative])

theorem Path.key_along (way : List ParameterPlan) : (Path.along way).key = keyOf way := by
  induction way using List.reverseRecOn with
  | nil => rfl
  | append_singleton way last inductionHypothesis =>
    rw [along_append_singleton, ← Walked.keyOf_append_singleton inductionHypothesis.symm]

theorem Walked.exists_trail {tree : PlanTree} {path : Path} (walked : Walked tree path) :
    ∃ way, Trail tree way ∧ path = Path.along way := by
  induction walked with
  | start => exact ⟨[], .start, rfl⟩
  | extend _ under leads member made inductionHypothesis =>
    obtain ⟨way, trail, rfl⟩ := inductionHypothesis
    rw [Path.key_along] at leads
    exact ⟨_, trail.extend under leads member made, (Path.along_append_singleton way _).symm⟩

namespace Trail

variable {tree : PlanTree} {way : List ParameterPlan}

theorem walked (trail : Trail tree way) : Walked tree (Path.along way) := by
  induction trail with
  | start => exact .start
  | @extend way _ _ _ representative _ under leads member made inductionHypothesis =>
    rw [Path.along_append_singleton]
    exact .extend inductionHypothesis under (leads.trans (Path.key_along way).symm) member made

/-- The known values bear the names of the keys. -/
theorem map_name_known (trail : Trail tree way) :
    (Path.along way).known.map (·.name) = way.map (·.key.name) := by
  rw [trail.walked.map_name_known, Path.key_along, keyOf, List.map_map]
  rfl

variable {system : TypeSystem} {naming : Naming} {declarations : List Declaration}
  {plans : List ConstructorPlan}

/-- Every key on the way is the plan of a parameter of a declared constructor, and stands in the
constructor at the same place as on the way. -/
theorem exists_declaration (trail : Trail tree way) (grown : PlanTree.Grown plans tree)
    (planned : ∀ plan ∈ plans, plan ∈ planAll system naming declarations) {place : Nat}
    {key : ParameterPlan} (onWay : way[place]? = some key) :
    ∃ (id : Nat) (declaration : Declaration), declarations[id]? = some declaration ∧
      (declaration.plan system naming id).parameters[place]? = some key := by
  induction trail with
  | start => cases onWay
  | @extend way above _ _ representative _ under leads member made inductionHypothesis =>
    have within := (List.getElem?_eq_some_iff.1 onWay).1
    rw [List.length_append, List.length_singleton] at within
    by_cases before : place < way.length
    · rw [List.getElem?_append_left before] at onWay
      exact inductionHypothesis onWay
    · obtain rfl : place = way.length := by omega
      rw [List.getElem?_concat_length, Option.some.injEq] at onWay
      subst onWay
      obtain ⟨-, plan, isPlan, before, after, parts, sameTypes⟩ :=
        grown.taken under member made (List.mem_of_mem_head? made)
      obtain ⟨id, declaration, declared, rfl⟩ := mem_planAll.1 (planned plan isPlan)
      have lengths : before.length = way.length := by
        have sameLength := congrArg List.length sameTypes
        have leadLength := congrArg List.length leads
        rw [List.length_map, List.length_map] at sameLength
        rw [keyOf, keyOf, List.length_map, List.length_map] at leadLength
        exact sameLength.trans leadLength
      refine ⟨id, declaration, declared, ?_⟩
      rw [parts, ← lengths, Lists.getElem?_middle]

end Trail

/-! ### What is bound along a way -/

namespace Trail

variable {tree : PlanTree} {way : List ParameterPlan} {declarations : List Declaration}
  {plans : List ConstructorPlan}

/-- The keys on a way introduce the placeholders of its scope in order, and the scope binds them
with the constraints that came with them. -/
theorem introduced (trail : Trail tree way) (grown : PlanTree.Grown plans tree)
    (allDeclared : ∀ plan ∈ plans, plan.Declared declarations) :
    (way.flatMap (·.introduced)).map (·.1) = List.range (Path.along way).scope.size ∧
      (Path.along way).scope.bound.map (·.2) = (way.flatMap (·.introduced)).map (·.2.2) := by
  induction trail with
  | start => exact ⟨rfl, rfl⟩
  | @extend way _ _ _ representative trail under leads member made inductionHypothesis =>
    obtain ⟨numbers, constraints⟩ := inductionHypothesis
    have wellScoped := trail.walked.wellScoped grown allDeclared
    obtain ⟨-, -, -, -, -, -, -, numbered⟩ := wellScoped.exists_declared grown allDeclared under
      (leads.trans (Path.key_along way).symm) member made
    rw [Path.along_append_singleton, Path.scope_extend, List.flatMap_append, List.map_append,
      List.map_append, List.flatMap_singleton]
    refine ⟨?_, ?_⟩
    · rw [numbers, numbered, Scope.size_bindAll _ _ numbered, List.range_eq_range',
        List.range_eq_range', ← List.range'_append_1, Nat.zero_add]
    · rw [Scope.constraints_bindAll _ _ numbered, constraints]

/-- A placeholder is bound with the constraints that came with it. -/
theorem getElem?_bound (trail : Trail tree way) (grown : PlanTree.Grown plans tree)
    (allDeclared : ∀ plan ∈ plans, plan.Declared declarations) {key : ParameterPlan}
    (onWay : key ∈ way) {number : Nat} {name : String} {constraints : Constraints}
    (introduced : (number, name, constraints) ∈ key.introduced) :
    ∃ shown, (Path.along way).scope.bound[number]? = some (shown, constraints) := by
  obtain ⟨numbers, sameConstraints⟩ := trail.introduced grown allDeclared
  obtain ⟨place, atPlace⟩ := List.getElem?_of_mem (List.mem_flatMap.2 ⟨key, onWay, introduced⟩)
  -- What stands at a place of the introduced ones has the place for its number.
  have numbered := congrArg (·[place]?) numbers
  simp only [List.getElem?_map, atPlace, Option.map_some] at numbered
  obtain ⟨inRange, rfl⟩ := List.getElem?_eq_some_iff.1 numbered.symm
  rw [List.getElem_range]
  have bound := congrArg (·[place]?) sameConstraints
  simp only [List.getElem?_map, atPlace, Option.map_some] at bound
  obtain ⟨⟨shown, found⟩, isBound, rfl⟩ := Option.map_eq_some_iff.1 bound
  exact ⟨shown, isBound⟩

/-- Every placeholder that is bound was introduced by a key on the way. -/
theorem exists_introduced (trail : Trail tree way) (grown : PlanTree.Grown plans tree)
    (allDeclared : ∀ plan ∈ plans, plan.Declared declarations) {number : Nat}
    (bound : number < (Path.along way).scope.size) :
    ∃ key ∈ way, ∃ name constraints, (number, name, constraints) ∈ key.introduced := by
  obtain ⟨numbers, -⟩ := trail.introduced grown allDeclared
  have listed : number ∈ (way.flatMap (·.introduced)).map (·.1) := by
    rw [numbers]
    exact List.mem_range.2 bound
  obtain ⟨⟨_, name, constraints⟩, member, rfl⟩ := List.mem_map.1 listed
  obtain ⟨key, onWay, introduced⟩ := List.mem_flatMap.1 member
  exact ⟨key, onWay, name, constraints, introduced⟩

end Trail

/-! ### Steps -/

/-- The step knows what is known along the way, and it declares what is bound there. -/
structure SynthesizedStep.MadeAlong (tree : PlanTree) (way : List ParameterPlan)
    (step : SynthesizedStep) : Prop where
  trail : Trail tree way
  known : step.known = (Path.along way).known
  typeParameters : step.typeParameters = (Path.along way).scope.declarations

theorem SynthesizedStep.MadeAlong.length_known {tree : PlanTree} {way : List ParameterPlan}
    {step : SynthesizedStep} (made : step.MadeAlong tree way) :
    step.known.length = way.length := by
  rw [made.known, made.trail.walked.length_known, Path.key_along, keyOf, List.length_map]

/-- Every synthesized step of a builder was made along a way. -/
theorem Builder.Setting.exists_madeAlong {system : TypeSystem} {naming : Naming} {root : Root}
    {declarations : List Declaration} {builder : Builder}
    (setting : builder.Setting system naming root declarations) {step : SynthesizedStep}
    (member : Step.synthesized step ∈ builder.steps) :
    ∃ way, step.MadeAlong setting.tree way := by
  obtain ⟨number, found⟩ := List.getElem?_of_mem member
  obtain ⟨index, before, -, -, isStep, final⟩ := setting.exists_kept found
  cases before with
  | existing before => cases final
  | synthesized before =>
    cases final
    obtain ⟨key, shared, isShared, rfl⟩ := setting.sound.registered index before isStep
    have sound := setting.sound.shared key shared isShared
    obtain ⟨filled, isFilled, sameKnown, -⟩ := sound.filled
    obtain rfl : filled = before := by
      rw [isStep, Option.some.injEq, Step.synthesized.injEq] at isFilled
      exact isFilled.symm
    obtain ⟨way, trail, isAlong⟩ := sound.walked.exists_trail
    refine ⟨way, trail, ?_, ?_⟩
    · rw [← isAlong]
      exact sameKnown
    · rw [← isAlong]
      exact (setting.settled.shared key shared filled isShared isStep).typeParameters

namespace Builder.Origin

variable {naming : Naming} {root : Root} {declarations : List Declaration} {builder : Builder}
  (origin : builder.Origin naming root declarations)

/-- A chain of calls goes on to what a method returns. -/
theorem reached_next {node : CallNode} (reached : origin.Reached node) {next : CallNode}
    (returned : next ∈ (CallGraph.methodsAt origin.rootMethods origin.walk.table node).map
      (·.result.node)) : origin.Reached next := by
  obtain ⟨method, member, rfl⟩ := List.mem_map.1 returned
  exact reached.tail (.call member)

/-- A synthesized step of the walk that a chain of calls comes to is one of the builder. -/
theorem exists_synthesized {index : Nat} (reached : origin.Reached (.step index))
    {step : SynthesizedStep} (found : origin.walk.step? index = some (.synthesized step)) :
    ∃ final, Step.synthesized final ∈ builder.steps ∧ final.known = step.known ∧
      final.typeParameters = step.typeParameters :=
  ⟨_, List.mem_of_getElem? (origin.step?_number reached found), rfl, rfl⟩

end Builder.Origin

/-- If all that is proposed at the root leads to one node, a chain of calls comes to it. -/
theorem reached_originOfValid {system : TypeSystem} {naming : Naming} {root : Root}
    {declarations : List Declaration} {node : CallNode} {count : Nat}
    (leads : (rootCandidates naming root (planTree (planAll system naming declarations))).map
      (·.method.result.node) = List.replicate (count + 1) node) :
    (originOfValid system naming root declarations).Reached node :=
  reached_of_rootCandidates leads _

end StagedBuilder
