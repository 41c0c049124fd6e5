/-
This file proves that builders look the same if the usable constructors they are made from
are alike. The usable constructors make alike trees, alike trees have walks that look the
same, and what is kept of a walk, and under which numbers, can be told by its looks.
Constructors that are not usable leave no trace in methods and steps.
-/

import StagedBuilder.Proofs.Assembly
import StagedBuilder.Proofs.GraphView
import StagedBuilder.Proofs.Parallel
import StagedBuilder.Proofs.Plan

namespace StagedBuilder

open PrefixTree (Alike)

/-! ### Trees -/

section

variable {first second : View}

/-- Alike plans lead the same way if others like them do. -/
theorem testsAlike_alike : PrefixTree.TestsAlike (ParameterPlan.Alike first second) := by
  intro left right other another leftAlike rightAlike
  show left.key.meets right.key = other.key.meets another.key
  rw [EdgeKey.meets, EdgeKey.overlaps, leftAlike.type, rightAlike.type, leftAlike.methodNames,
    rightAlike.methodNames]
  rfl

theorem alike_planTree {plans others : List ConstructorPlan}
    (alike : List.Forall₂ (ConstructorPlan.Alike first second)
      (plans.filter ConstructorPlan.isUsable) (others.filter ConstructorPlan.isUsable)) :
    Alike (ParameterPlan.Alike first second) (ConstructorPlan.Alike first second)
      (planTree plans) (planTree others) :=
  PrefixTree.alike_foldl_insert testsAlike_alike alike fun plans => plans.parameters

end

/-! ### Kept steps -/

theorem View.kept_walk (view : View) (walk : Walk) (rootMethods : List Method) :
    (view.walk walk).kept (rootMethods.map view.method) = walk.kept rootMethods := by
  rw [Walk.kept, view.table_walk, view.build_eq, view.keptSteps_walk]

theorem View.finalMethods_walk (view : View) (walk : Walk) (rootMethods : List Method) :
    (view.walk walk).finalMethods (rootMethods.map view.method) =
      (walk.finalMethods rootMethods).map view.method := by
  rw [Walk.finalMethods, view.kept_walk, List.map_map, Walk.finalMethods, List.map_map]
  exact List.map_congr_left fun method _ => (view.method_mapStep _ method).symm

theorem View.finalSteps_kept (view : View) (naming : Naming) (root : Root) (walk : Walk)
    (rootMethods : List Method) :
    finalSteps naming root ((view.walk walk).kept (rootMethods.map view.method))
        (view.walk walk) =
      (finalSteps naming root (walk.kept rootMethods) walk).map view.step := by
  rw [view.kept_walk, view.finalSteps_walk]

/-! ### Builders -/

/-- The methods and steps of two builders look the same. -/
structure Builder.Alike (first second : View) (left right : Builder) : Prop where
  methods : left.methods.map first.method = right.methods.map second.method
  steps : left.steps.map first.step = right.steps.map second.step

variable {first second : View}

/-- Builders without methods and steps look the same. -/
theorem alike_empty (root : Root) (findings others : List Diagnostic) :
    Builder.Alike first second { Builder.empty root with diagnostics := findings }
      { Builder.empty root with diagnostics := others } := ⟨rfl, rfl⟩

/-- The methods of the root and the walks of alike plans look the same. -/
theorem walkTree_planTree_eq (agree : first.named = second.named) (naming : Naming) (root : Root)
    {plans others : List ConstructorPlan}
    (alike : List.Forall₂ (ConstructorPlan.Alike first second)
      (plans.filter ConstructorPlan.isUsable) (others.filter ConstructorPlan.isUsable)) :
    (walkTree naming root (planTree plans)).1.map first.method =
        (walkTree naming root (planTree others)).1.map second.method ∧
      first.walk (walkTree naming root (planTree plans)).2 =
        second.walk (walkTree naming root (planTree others)).2 :=
  walkTree_eq agree root (alike_planTree alike) (PlanTree.grown_planTree plans)

theorem alike_assembleValid (agree : first.named = second.named) {system : TypeSystem}
    {naming : Naming} {root : Root} {declarations others : List Declaration}
    (alike : List.Forall₂ (ConstructorPlan.Alike first second)
      ((planAll system naming declarations).filter ConstructorPlan.isUsable)
      ((planAll system naming others).filter ConstructorPlan.isUsable)) :
    (assembleValid system naming root declarations).Alike first second
      (assembleValid system naming root others) := by
  obtain ⟨methods, walks⟩ := walkTree_planTree_eq agree naming root alike
  let origin := originOfValid system naming root declarations
  let originOther := originOfValid system naming root others
  have rootMethods : origin.rootMethods.map first.method =
      originOther.rootMethods.map second.method := methods
  have walked : first.walk origin.walk = second.walk originOther.walk := walks
  refine ⟨?_, ?_⟩
  · rw [origin.methods, ← first.finalMethods_walk, rootMethods, walked,
      second.finalMethods_walk, ← originOther.methods]
  · rw [origin.steps, ← first.finalSteps_kept, rootMethods, walked, second.finalSteps_kept,
      ← originOther.steps]

end StagedBuilder
