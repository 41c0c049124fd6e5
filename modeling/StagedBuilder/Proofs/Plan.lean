/-
This file says what the plans of declarations are like. A plan carries the number of its
declaration and numbers the type parameters of the constructor; the types of its keys are
the constructor's parameter types in positional form; and the placeholders that a
parameter introduces are the next ones after those that occur before it.

The prefix tree holds plans of usable constructors only, each along the way of its own
keys. Keys on one edge have one type in positional form, so the way to a node spells the
positional form of every constructor that goes there, down to the node.
-/

import StagedBuilder.Assembly.Basic
import StagedBuilder.Proofs.Positional
import StagedBuilder.Proofs.PrefixTree
import StagedBuilder.Proofs.PrefixVisits

namespace StagedBuilder

/-! ### The types of a declaration -/

namespace Declaration

/-- The types of the parameters of a declared constructor. -/
abbrev types (declaration : Declaration) : List TypeTerm :=
  declaration.constructor.parameters.map (·.type)

/-- How many type parameters occur in the first parameters of a declared constructor. -/
abbrev width (declaration : Declaration) (count : Nat) : Nat :=
  (numberingOf (declaration.types.take count)).names.length

end Declaration

/-! ### Plans -/

/-- The plan of one of the given declarations. -/
structure ConstructorPlan.Declared (declarations : List Declaration) (plan : ConstructorPlan) :
    Prop where
  declared : declarations[plan.id]? = some plan.declaration
  numbering : plan.numbering = numberingOf plan.declaration.types
  types : plan.parameters.map (·.key.type) = positionalTypes plan.declaration.types
  constructor : ∀ parameter ∈ plan.parameters, parameter.key.constructor = plan.id
  index : ∀ before parameter after, plan.parameters = before ++ parameter :: after →
    parameter.key.index = before.length
  introduced : ∀ before parameter after, plan.parameters = before ++ parameter :: after →
    parameter.introduced.map (·.1) =
        List.range' (plan.declaration.width before.length) parameter.introduced.length ∧
      plan.declaration.width (before.length + 1) =
        plan.declaration.width before.length + parameter.introduced.length

namespace Declaration

variable {system : TypeSystem} {naming : Naming} {id : Nat} {declaration : Declaration}

theorem getElem?_parameters_plan {index : Nat} {parameter : ParameterPlan}
    (found : (declaration.plan system naming id).parameters[index]? = some parameter) :
    ∃ declared form, declaration.constructor.parameters[index]? = some declared ∧
      (positionalForm declaration.types).2[index]? = some form ∧
      parameter =
        parameterPlan system naming id declaration (numberingOf declaration.types) index declared
          form := by
  simp only [plan, List.getElem?_map, List.getElem?_zipIdx, Option.map_map,
    Option.map_eq_some_iff] at found
  obtain ⟨⟨declared, form⟩, inZip, rfl⟩ := found
  obtain ⟨isDeclared, isForm⟩ := List.getElem?_zip_eq_some.1 inZip
  exact ⟨declared, form, isDeclared, isForm, by rw [Nat.zero_add]; rfl⟩

/-- What is read off the plans of the parameters and does not depend on their places. -/
theorem map_parameters_plan {Image : Type} {read : ParameterPlan → Image}
    {image : Parameter × Positioned → Image} (same : ∀ index parameter form,
      read (parameterPlan system naming id declaration (numberingOf declaration.types) index
        parameter form) = image (parameter, form)) :
    (declaration.plan system naming id).parameters.map read =
      (declaration.constructor.parameters.zip (positionalForm declaration.types).2).map image := by
  have forget : (declaration.plan system naming id).parameters.map read =
      ((declaration.constructor.parameters.zip (positionalForm declaration.types).2).zipIdx.map
        Prod.fst).map image := by
    rw [plan, List.map_map, List.map_map]
    exact List.map_congr_left fun _ _ => same _ _ _
  rw [forget, List.zipIdx_map_fst]

/-- There is a plan for each parameter. -/
theorem map_parameters_plan_of_parameter {Image : Type} {read : ParameterPlan → Image}
    {image : Parameter → Image} (same : ∀ index parameter form,
      read (parameterPlan system naming id declaration (numberingOf declaration.types) index
        parameter form) = image parameter) :
    (declaration.plan system naming id).parameters.map read =
      declaration.constructor.parameters.map image := by
  rw [@map_parameters_plan system naming id declaration _ read (image ·.1) same]
  refine Eq.trans List.map_map.symm (congrArg _ (List.map_fst_zip ?_))
  exact Nat.le_of_eq (by rw [length_positionalForm, List.length_map])

/-- There is a plan for each positional form. -/
theorem map_parameters_plan_of_form {Image : Type} {read : ParameterPlan → Image}
    {image : Positioned → Image} (same : ∀ index parameter form,
      read (parameterPlan system naming id declaration (numberingOf declaration.types) index
        parameter form) = image form) :
    (declaration.plan system naming id).parameters.map read =
      (positionalForm declaration.types).2.map image := by
  rw [@map_parameters_plan system naming id declaration _ read (image ·.2) same]
  refine Eq.trans List.map_map.symm (congrArg _ (List.map_snd_zip ?_))
  exact Nat.le_of_eq (by rw [length_positionalForm, List.length_map])

theorem map_type_parameters_plan :
    (declaration.plan system naming id).parameters.map (·.key.type) =
      positionalTypes declaration.types := by
  rw [← map_type_positionalForm]
  exact map_parameters_plan_of_form fun _ _ _ => rfl

theorem length_parameters_plan (system : TypeSystem) (naming : Naming) (id : Nat)
    (declaration : Declaration) :
    (declaration.plan system naming id).parameters.length =
      declaration.constructor.parameters.length := by
  have lengths := congrArg List.length (@map_type_parameters_plan system naming id declaration)
  rwa [List.length_map, List.length_map, List.length_map] at lengths

/-- Every parameter of a constructor has a plan. -/
theorem exists_parameterPlan (system : TypeSystem) (naming : Naming) (id : Nat) {index : Nat}
    {parameter : Parameter}
    (isParameter : declaration.constructor.parameters[index]? = some parameter) :
    ∃ plan, (declaration.plan system naming id).parameters[index]? = some plan ∧
      plan.parameter = parameter := by
  obtain ⟨less, -⟩ := List.getElem?_eq_some_iff.1 isParameter
  rw [← length_parameters_plan system naming id] at less
  have isPlan := List.getElem?_eq_getElem less
  obtain ⟨declared, form, isDeclared, -, made⟩ := getElem?_parameters_plan isPlan
  refine ⟨_, isPlan, ?_⟩
  rw [made]
  exact Option.some.inj (isDeclared.symm.trans isParameter)

/-- What a parameter introduces is what the parameters before it leave without number. -/
theorem introduced_parameters_plan {before after : List ParameterPlan} {parameter : ParameterPlan}
    (parts : (declaration.plan system naming id).parameters = before ++ parameter :: after) :
    ∃ type, declaration.types[before.length]? = some type ∧
      parameter.introduced.map (·.1) =
        ((numberingOf (declaration.types.take before.length)).introduces type).map (·.1) := by
  have found : (declaration.plan system naming id).parameters[before.length]? = some parameter := by
    rw [parts, Lists.getElem?_middle]
  obtain ⟨declared, form, isDeclared, isForm, rfl⟩ := getElem?_parameters_plan found
  have isType : declaration.types[before.length]? = some declared.type := by
    rw [List.getElem?_map, isDeclared, Option.map_some]
  have atForm := isForm
  rw [Lists.eq_take_append_cons_drop isType, positionalForm_append_cons] at atForm
  -- The form of a beginning is as long as the beginning.
  have length := (length_positionalForm _).trans (Lists.length_take_of_getElem? isType)
  rw [List.getElem?_append_right (Nat.le_of_eq length), length, Nat.sub_self,
    List.getElem?_cons_zero, Option.some.injEq] at atForm
  refine ⟨declared.type, isType, ?_⟩
  rw [parameterPlan, ← atForm, List.map_map]
  rfl

/-- The plan of a declaration is as the declaration says. -/
theorem declared_plan {declarations : List Declaration}
    (declared : declarations[id]? = some declaration) :
    (declaration.plan system naming id).Declared declarations where
  declared := declared
  numbering := rfl
  types := map_type_parameters_plan
  constructor parameter member := by
    obtain ⟨index, found⟩ := List.getElem?_of_mem member
    obtain ⟨declared, form, -, -, rfl⟩ := getElem?_parameters_plan found
    rfl
  index before parameter after parts := by
    have found : (declaration.plan system naming id).parameters[before.length]? =
        some parameter := by
      rw [parts, Lists.getElem?_middle]
    obtain ⟨declared, form, -, -, rfl⟩ := getElem?_parameters_plan found
    rfl
  introduced before parameter after parts := by
    obtain ⟨type, isType, numbers⟩ := introduced_parameters_plan parts
    obtain ⟨bound, atPlace⟩ := List.getElem?_eq_some_iff.1 isType
    have length : parameter.introduced.length =
        ((numberingOf (declaration.types.take before.length)).introduces type).length := by
      have lengths := congrArg List.length numbers
      rwa [List.length_map, List.length_map] at lengths
    refine ⟨?_, ?_⟩
    · rw [numbers, Numbering.map_fst_introduces, length]
      rfl
    · show (numberingOf (declaration.types.take (before.length + 1))).names.length =
        (numberingOf (declaration.types.take before.length)).names.length + _
      rw [length, ← Numbering.length_extend, ← numberingOf_append_singleton, ← atPlace,
        List.take_append_getElem]

end Declaration

/-- The plans of the given declarations. -/
theorem mem_planAll {system : TypeSystem} {naming : Naming} {declarations : List Declaration}
    {plan : ConstructorPlan} :
    plan ∈ planAll system naming declarations ↔
      ∃ id, ∃ declaration : Declaration, declarations[id]? = some declaration ∧
        plan = declaration.plan system naming id := by
  rw [planAll, List.mem_map]
  constructor
  · rintro ⟨⟨declaration, id⟩, member, rfl⟩
    exact ⟨id, declaration, List.mem_zipIdx_iff_getElem?.1 member, rfl⟩
  · rintro ⟨id, declaration, declared, rfl⟩
    exact ⟨(declaration, id), List.mem_zipIdx_iff_getElem?.2 declared, rfl⟩

theorem declared_of_mem_planAll {system : TypeSystem} {naming : Naming}
    {declarations : List Declaration} {plan : ConstructorPlan}
    (member : plan ∈ planAll system naming declarations) : plan.Declared declarations := by
  obtain ⟨id, declaration, declared, rfl⟩ := mem_planAll.1 member
  exact Declaration.declared_plan declared

/-- No two declarations have plans of one number, and the numbers increase. -/
theorem pairwise_id_planAll (system : TypeSystem) (naming : Naming)
    (declarations : List Declaration) :
    (planAll system naming declarations).Pairwise fun earlier later => earlier.id < later.id := by
  rw [planAll, List.pairwise_map]
  have increasing : (declarations.zipIdx.map Prod.snd).Pairwise (· < ·) := by
    rw [List.zipIdx_map_snd]
    exact List.pairwise_lt_range'
  exact List.pairwise_map.1 increasing

/-! ### The tree of the plans -/

namespace PlanTree

open PrefixTree (Under Follows Agrees Recorded Everywhere)

theorem type_eq_of_agrees {representative key : ParameterPlan}
    (agrees : Agrees representative key) :
    key.key.type = representative.key.type := by
  rcases agrees with rfl | tested
  · rfl
  · have meets : representative.key.meets key.key = true := tested
    rw [EdgeKey.meets, Bool.and_eq_true, decide_eq_true_eq] at meets
    exact meets.1.symm

theorem map_type_of_follows {above keys : List ParameterPlan} (follows : Follows above keys) :
    keys.map (·.key.type) = above.map (·.key.type) := by
  induction follows with
  | nil => rfl
  | cons agrees _ inductionHypothesis =>
    rw [List.map_cons, List.map_cons, type_eq_of_agrees agrees, inductionHypothesis]

/-- A tree in which everything comes from the given plans, each inserted under its own keys. -/
def Grown (plans : List ConstructorPlan) (tree : PlanTree) : Prop :=
  Everywhere (Recorded (plans.map fun plan => (plan.parameters, plan))) [] tree

theorem grown_planTree (plans : List ConstructorPlan) :
    Grown (plans.filter ConstructorPlan.isUsable) (planTree plans) := by
  have recorded := PrefixTree.recorded_insertions
    ((plans.filter ConstructorPlan.isUsable).map fun plan => (plan.parameters, plan))
  rwa [List.foldl_map] at recorded

variable {plans : List ConstructorPlan} {tree node : PlanTree} {above : List ParameterPlan}

/-- A constructor that ends at a node has the types of the keys that lead there. -/
theorem Grown.ended (grown : Grown plans tree) (under : Under tree above node)
    {plan : ConstructorPlan} (ends : plan ∈ node.endings) :
    plan ∈ plans ∧ plan.parameters.map (·.key.type) = above.map (·.key.type) := by
  obtain ⟨sequence, isInserted, follows⟩ := (Everywhere.of_under grown under).here.ended plan ends
  obtain ⟨other, member, same⟩ := List.mem_map.1 isInserted
  rw [Prod.mk.injEq] at same
  obtain ⟨rfl, rfl⟩ := same
  exact ⟨member, map_type_of_follows follows⟩

/-- A constructor that ends at a node or below has, to begin with, the types of the keys that lead
to the node. -/
theorem Grown.passed (grown : Grown plans tree) (under : Under tree above node)
    {plan : ConstructorPlan} (passes : plan ∈ node.values) :
    plan ∈ plans ∧
      (plan.parameters.map (·.key.type)).take above.length = above.map (·.key.type) := by
  induction node using PrefixTree.inductionOn generalizing above with
  | node node inductionHypothesis =>
    rcases PrefixTree.mem_values.1 passes with ends | ⟨child, member, below⟩
    · obtain ⟨isPlan, sameTypes⟩ := grown.ended under ends
      refine ⟨isPlan, ?_⟩
      rw [sameTypes, List.take_of_length_le (Nat.le_of_eq (List.length_map _))]
    · obtain ⟨representative, made⟩ := (Everywhere.of_under grown under).here.made child member
      obtain ⟨isPlan, sameTypes⟩ :=
        inductionHypothesis child member (under.down member made) below
      refine ⟨isPlan, ?_⟩
      have first := congrArg (List.take above.length) sameTypes
      rwa [List.take_take, List.length_append, Nat.min_eq_left (Nat.le_add_right _ _),
        List.map_append, List.take_left' (List.length_map _)] at first

/-- A key on an edge is the next key of a constructor that has the types of the keys that lead
to the edge, and it has the type of the key that made the edge. -/
theorem Grown.taken (grown : Grown plans tree) (under : Under tree above node)
    {child : PlanTree} (member : child ∈ node.children) {representative key : ParameterPlan}
    (made : child.representative? = some representative) (onEdge : key ∈ child.keys) :
    key.key.type = representative.key.type ∧
      ∃ plan ∈ plans, ∃ before after, plan.parameters = before ++ key :: after ∧
        before.map (·.key.type) = above.map (·.key.type) := by
  obtain ⟨agrees, before, after, value, isInserted, follows, -⟩ :=
    (Everywhere.of_under grown under).here.taken child member representative made key onEdge
  obtain ⟨plan, isPlan, same⟩ := List.mem_map.1 isInserted
  rw [Prod.mk.injEq] at same
  exact ⟨type_eq_of_agrees agrees, plan, isPlan, before, after, same.1,
    map_type_of_follows follows⟩

/-- A key on an edge belongs to a constructor that ends below the edge, and stands in it after as
many keys as lead to the edge. -/
theorem Grown.carried (grown : Grown plans tree) (under : Under tree above node)
    {child : PlanTree} (member : child ∈ node.children) {key : ParameterPlan}
    (onEdge : key ∈ child.keys) :
    ∃ plan ∈ plans, plan ∈ child.values ∧ ∃ before after,
      plan.parameters = before ++ key :: after ∧ before.length = above.length := by
  have recorded := (Everywhere.of_under grown under).here
  obtain ⟨representative, made⟩ := recorded.made child member
  obtain ⟨-, before, after, value, isInserted, follows, below⟩ :=
    recorded.taken child member representative made key onEdge
  obtain ⟨plan, isPlan, same⟩ := List.mem_map.1 isInserted
  rw [Prod.mk.injEq] at same
  obtain ⟨parts, rfl⟩ := same
  exact ⟨plan, isPlan, below, before, after, parts, follows.length_eq.symm⟩

end PlanTree

end StagedBuilder
