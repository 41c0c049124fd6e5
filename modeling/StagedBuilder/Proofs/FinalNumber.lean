/-
This file shows that dropping steps and numbering the rest anew does not change what
leads where. If every step that a chain of calls comes to is filled, the kept steps are
just those steps; a kept step has its place among them as its number, so different steps
get different numbers and every number below their count is given. Calls between places
are then the same calls with the new numbers written, in both directions, and so are
chains of calls.
-/

import Mathlib.Data.List.Nodup
import StagedBuilder.Assembly.Basic
import StagedBuilder.Proofs.CallGraph
import StagedBuilder.Proofs.Lists

namespace StagedBuilder

open CallGraph (Calls Reached methodsAt Table)
open Relation (ReflTransGen)

/-! ### Nodes with other numbers -/

/-- The node with its step numbered anew. -/
def CallNode.mapStep (renumber : Nat → Nat) : CallNode → CallNode
  | .root => .root
  | .step index => .step (renumber index)
  | .target constructor => .target constructor

namespace Method

theorem result_mapStep (renumber : Nat → Nat) (method : Method) :
    (method.mapStep renumber).result = mapStep.renumbered renumber method.result := by
  cases method <;> rfl

theorem node_mapStep (renumber : Nat → Nat) (method : Method) :
    (method.mapStep renumber).result.node = method.result.node.mapStep renumber := by
  rw [result_mapStep]
  cases method.result <;> rfl

theorem step?_mapStep (renumber : Nat → Nat) (method : Method) :
    (method.mapStep renumber).step? = method.step?.map renumber := by
  rw [step?, step?, result_mapStep]
  cases method.result <;> rfl

theorem signature_mapStep (renumber : Nat → Nat) (method : Method) :
    (method.mapStep renumber).signature = method.signature := by
  cases method <;> rfl

theorem priority_mapStep (renumber : Nat → Nat) (method : Method) :
    (method.mapStep renumber).priority = method.priority := by
  cases method <;> rfl

theorem source?_mapStep (renumber : Nat → Nat) (method : Method) :
    (method.mapStep renumber).source? = method.source? := by
  cases method <;> rfl

end Method

/-! ### The kept steps -/

theorem Walk.stop?_table (walk : Walk) (index : Nat) :
    walk.table.stop? index = (walk.step? index).map Step.stop := by
  unfold Walk.table Table.stop? Walk.step?
  rw [List.getElem?_map]
  cases walk.steps[index]? with
  | none => rfl
  | some place => rfl

/-- Every step that a chain of calls comes to is filled. -/
def Walk.Complete (walk : Walk) (rootMethods : List Method) : Prop :=
  ∀ index, Reached rootMethods walk.table (.step index) → (walk.step? index).isSome

/-- The provisional numbers of the steps that are kept for the methods of a root. -/
abbrev Walk.kept (walk : Walk) (rootMethods : List Method) : List Nat :=
  keptSteps (CallGraph.build rootMethods walk.table) walk

variable {walk : Walk} {rootMethods : List Method}

theorem nodup_kept (walk : Walk) (rootMethods : List Method) : (walk.kept rootMethods).Nodup :=
  (CallGraph.nodup_liveSteps _).filter _

theorem isSome_of_mem_kept {index : Nat} (member : index ∈ walk.kept rootMethods) :
    (walk.step? index).isSome := (List.mem_filter.1 member).2

theorem reached_of_mem_kept {index : Nat} (member : index ∈ walk.kept rootMethods) :
    Reached rootMethods walk.table (.step index) :=
  CallGraph.mem_liveSteps_build.1 (List.mem_filter.1 member).1

theorem Walk.Complete.mem_kept (complete : walk.Complete rootMethods) {index : Nat} :
    index ∈ walk.kept rootMethods ↔ Reached rootMethods walk.table (.step index) :=
  ⟨reached_of_mem_kept, fun reached =>
    List.mem_filter.2 ⟨CallGraph.mem_liveSteps_build.2 reached, complete index reached⟩⟩

/-- The number of a kept step is its place. -/
theorem getElem?_finalNumber {kept : List Nat} {index : Nat} (member : index ∈ kept) :
    kept[finalNumber kept index]? = some index := by
  unfold finalNumber
  cases found : kept.findIdx? (· == index) with
  | none =>
    have absent := List.findIdx?_eq_none_iff.1 found index member
    simp at absent
  | some place =>
    obtain ⟨bound, isIndex, -⟩ := List.findIdx?_eq_some_iff_getElem.1 found
    rw [Option.getD_some, List.getElem?_eq_getElem bound, eq_of_beq isIndex]

theorem finalNumber_of_getElem? {kept : List Nat} (distinct : kept.Nodup) {place index : Nat}
    (found : kept[place]? = some index) : finalNumber kept index = place := by
  have atNumber := getElem?_finalNumber (List.mem_of_getElem? found)
  obtain ⟨bound, -⟩ := List.getElem?_eq_some_iff.1 atNumber
  exact (List.getElem?_inj bound distinct).1 (atNumber.trans found.symm)

/-! ### The final steps -/

/-- The final steps are the kept ones in order, with their places for numbers. -/
theorem getElem?_finalSteps (naming : Naming) (root : Root) (walk : Walk)
    (rootMethods : List Method) (place : Nat) :
    (finalSteps naming root (walk.kept rootMethods) walk)[place]? =
      ((walk.kept rootMethods)[place]?.bind walk.step?).map fun step =>
        (step.number naming.stepPrefix root.name place).mapMethods
          (·.mapStep (finalNumber (walk.kept rootMethods))) := by
  rw [finalSteps, List.getElem?_map, List.getElem?_zipIdx,
    Lists.getElem?_filterMap fun index member => isSome_of_mem_kept member, Option.map_map]
  refine congrArg (Option.map · _) (funext fun step => ?_)
  show (step.number _ _ (0 + place)).mapMethods _ = _
  rw [Nat.zero_add]

/-! ### Calls with final numbers -/

/-- The methods of the root with final numbers. -/
abbrev Walk.finalMethods (walk : Walk) (rootMethods : List Method) : List Method :=
  rootMethods.map (·.mapStep (finalNumber (walk.kept rootMethods)))

/-- The final steps as a call graph needs them. -/
abbrev Walk.finalTable (walk : Walk) (naming : Naming) (root : Root) (rootMethods : List Method) :
    Table :=
  (finalSteps naming root (walk.kept rootMethods) walk).map fun step => some step.stop

/-- A node with the final number of its step. -/
abbrev Walk.finalNode (walk : Walk) (rootMethods : List Method) : CallNode → CallNode :=
  CallNode.mapStep (finalNumber (walk.kept rootMethods))

theorem stop_number_mapMethods (stepPrefix rootName : String) (index : Nat)
    (change : Method → Method) (step : Step) :
    ((step.number stepPrefix rootName index).mapMethods change).stop =
      { step.stop with methods := step.stop.methods.map change } := by
  cases step <;> rfl

variable {naming : Naming} {root : Root}

theorem stop?_finalTable {index : Nat} (member : index ∈ walk.kept rootMethods) :
    (walk.finalTable naming root rootMethods).stop? (finalNumber (walk.kept rootMethods) index) =
      (walk.table.stop? index).map fun stop =>
        { stop with
          methods := stop.methods.map (·.mapStep (finalNumber (walk.kept rootMethods))) } := by
  rw [Table.stop?, List.getElem?_map, getElem?_finalSteps, getElem?_finalNumber member,
    Option.bind_some, Walk.stop?_table]
  cases walk.step? index with
  | none => rfl
  | some step =>
    rw [Option.map_some, Option.map_some, Option.join_some, stop_number_mapMethods]
    rfl

/-- The methods of a node that calls come to are those of the final node, numbered anew. -/
theorem methodsAt_finalNode (complete : walk.Complete rootMethods) {node : CallNode}
    (reached : Reached rootMethods walk.table node) :
    methodsAt (walk.finalMethods rootMethods) (walk.finalTable naming root rootMethods)
        (walk.finalNode rootMethods node) =
      (methodsAt rootMethods walk.table node).map
        (·.mapStep (finalNumber (walk.kept rootMethods))) := by
  cases node with
  | root => rfl
  | step index =>
    show (((walk.finalTable naming root rootMethods).stop?
      (finalNumber (walk.kept rootMethods) index)).map Stop.methods).getD [] = _
    rw [stop?_finalTable (complete.mem_kept.2 reached), methodsAt]
    cases walk.table.stop? index <;> rfl
  | target constructor => rfl

/-- A call leads to the same node as before, numbered anew. -/
theorem calls_finalNode (complete : walk.Complete rootMethods) {source target : CallNode}
    (reached : Reached rootMethods walk.table source)
    (calls : Calls rootMethods walk.table source target) :
    Calls (walk.finalMethods rootMethods) (walk.finalTable naming root rootMethods)
      (walk.finalNode rootMethods source) (walk.finalNode rootMethods target) := by
  cases calls with
  | @call _ method member =>
    rw [Walk.finalNode, ← Method.node_mapStep]
    refine .call ?_
    rw [methodsAt_finalNode complete reached]
    exact List.mem_map_of_mem member
  | @arrive index stop constructor held arrives =>
    have heldFinal : (walk.finalTable naming root rootMethods).stop?
        (finalNumber (walk.kept rootMethods) index) = some { stop with
          methods := stop.methods.map (·.mapStep (finalNumber (walk.kept rootMethods))) } := by
      rw [stop?_finalTable (complete.mem_kept.2 reached), held, Option.map_some]
    exact .arrive heldFinal arrives

/-- Every call between final nodes is a call that was there before. -/
theorem calls_of_calls_finalNode (complete : walk.Complete rootMethods) {source target : CallNode}
    (reached : Reached rootMethods walk.table source)
    (calls : Calls (walk.finalMethods rootMethods) (walk.finalTable naming root rootMethods)
      (walk.finalNode rootMethods source) target) :
    ∃ before, Calls rootMethods walk.table source before ∧
      walk.finalNode rootMethods before = target := by
  generalize atFinal : walk.finalNode rootMethods source = final at calls
  cases calls with
  | @call _ method member =>
    rw [← atFinal, methodsAt_finalNode complete reached] at member
    obtain ⟨before, isBefore, rfl⟩ := List.mem_map.1 member
    exact ⟨before.result.node, .call isBefore, (Method.node_mapStep _ before).symm⟩
  | @arrive index stop constructor held arrives =>
    cases source <;> cases atFinal
    rw [stop?_finalTable (complete.mem_kept.2 reached)] at held
    obtain ⟨before, heldBefore, rfl⟩ := Option.map_eq_some_iff.1 held
    exact ⟨.target constructor, .arrive heldBefore arrives, rfl⟩

/-- From the final node of a node that calls come to, chains of calls lead to the final nodes of
those that they led to before. -/
theorem exists_chain_of_finalNode (complete : walk.Complete rootMethods) {source target : CallNode}
    (reached : Reached rootMethods walk.table source)
    (chain : ReflTransGen (Calls (walk.finalMethods rootMethods)
      (walk.finalTable naming root rootMethods)) (walk.finalNode rootMethods source) target) :
    ∃ before, ReflTransGen (Calls rootMethods walk.table) source before ∧
      walk.finalNode rootMethods before = target := by
  induction chain with
  | refl => exact ⟨source, .refl, rfl⟩
  | tail _ calls inductionHypothesis =>
    obtain ⟨last, chainBefore, rfl⟩ := inductionHypothesis
    obtain ⟨before, callsBefore, atFinal⟩ :=
      calls_of_calls_finalNode complete (reached.trans chainBefore) calls
    exact ⟨before, chainBefore.tail callsBefore, atFinal⟩

/-- Chains of calls come to the final nodes of the nodes that they came to before. -/
theorem reached_finalNode (complete : walk.Complete rootMethods) {target : CallNode} :
    Reached (walk.finalMethods rootMethods) (walk.finalTable naming root rootMethods) target ↔
      ∃ before, Reached rootMethods walk.table before ∧
        walk.finalNode rootMethods before = target := by
  constructor
  · exact exists_chain_of_finalNode complete .refl
  · rintro ⟨before, reached, rfl⟩
    induction reached with
    | refl => exact .refl
    | tail reached calls inductionHypothesis =>
      exact inductionHypothesis.tail (calls_finalNode complete reached calls)

end StagedBuilder
