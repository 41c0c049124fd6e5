/-
This file proves that a builder is built in layers. Steps are numbered by their place,
every step a method returns is one of them, and chains of calls from the root come to
all of them. A method at a place where some number of values is known supplies the
parameter that stands after so many others in its constructor, and the step it returns
knows one value more; between the root and synthesized steps the names of the known
values are kept and one is added. A chain of calls therefore never comes back to a node
that it has left.
-/

import StagedBuilder.Proofs.Assembly

namespace StagedBuilder

open CallGraph (Calls Reached methodsAt)
open Relation (TransGen)

namespace Builder

variable {naming : Naming} {root : Root} {declarations : List Declaration} {builder : Builder}

/-! ### Layers -/

/-- The layers of a builder: what holds between a place and the places its methods lead to. -/
structure Layered (declarations : List Declaration) (builder : Builder) : Prop where
  /-- Steps are numbered by their place. -/
  numbered : ∀ index step, builder.step? index = some step → step.index = index
  /-- Every step that a method returns is there. -/
  closed : ∀ method ∈ builder.allMethods, ∀ index, method.step? = some index →
    index < builder.steps.length
  /-- Chains of calls from the root come to every step. -/
  reached : ∀ index < builder.steps.length,
    Reached builder.methods builder.table (.step index)
  /-- A method supplies the parameter whose turn it is, of a constructor that has it. -/
  supplies : ∀ node owner, builder.place? node = some owner → ∀ method ∈ owner.methods,
    ∀ source, method.source? = some source →
      source.index = owner.known.length ∧
        ∃ declaration, declarations[source.constructor]? = some declaration ∧
          owner.known.length < declaration.constructor.parameters.length
  /-- A step that is returned knows one value more. -/
  deepens : ∀ node owner, builder.place? node = some owner → ∀ method ∈ owner.methods,
    ∀ index step, method.step? = some index → builder.step? index = some step →
      step.known.length = owner.known.length + 1
  /-- Unless a finished target takes part, the names stay and one is added. -/
  names : ∀ node owner, builder.place? node = some owner → owner.isTarget = false →
    ∀ method ∈ owner.methods, ∀ index step, method.step? = some index →
      builder.step? index = some (.synthesized step) →
        ∃ name, step.known.map (·.name) = owner.known.map (·.name) ++ [name]
  /-- No chain of calls comes back. -/
  acyclic : ∀ node, ¬ TransGen (Calls builder.methods builder.table) node node

/-! ### From a place to the next -/

/-- A method's step is there, knows one value more than the method's place and, if no finished
target takes part, keeps the names and adds one. -/
theorem Origin.exists_returned (origin : builder.Origin naming root declarations)
    {node : CallNode} {owner : Place} (found : builder.place? node = some owner)
    {method : Method} (member : method ∈ owner.methods) {index : Nat}
    (returns : method.step? = some index) :
    ∃ step name, builder.step? index = some step ∧
      step.known.length = owner.known.length + 1 ∧
      (owner.isTarget = false → step.place.isTarget = false →
        step.known.map (·.name) = owner.known.map (·.name) ++ [name]) := by
  obtain ⟨source, before, path, reached, isBefore, leads, rfl⟩ := origin.exists_place found
  obtain ⟨beforeMethod, isMethod, rfl⟩ := List.mem_map.1 member
  rw [Method.step?_mapStep, Option.map_eq_some_iff] at returns
  obtain ⟨beforeIndex, returnsBefore, rfl⟩ := returns
  have node := CallGraph.node_of_step? returnsBefore
  have calls : Calls origin.rootMethods origin.walk.table source (.step beforeIndex) := by
    rw [← node]
    exact .call ((mem_methodsAt origin.walk.stop?_table).2 ⟨before, isBefore, isMethod⟩)
  obtain ⟨step, name, isStep, length, names⟩ :=
    origin.returned leads isMethod (Result.eq_step_of_node node)
  -- The step is looked up by its final number.
  have isFinal : (builder.step? (origin.number beforeIndex)).map Step.place =
      ((origin.walk.step? beforeIndex).map Step.place).map (Place.mapStep origin.number) :=
    origin.place?_mapStep (reached.tail calls)
  rw [isStep, Option.map_some, Option.map_some] at isFinal
  obtain ⟨final, atNumber, samePlace⟩ := Option.map_eq_some_iff.1 isFinal
  have sameKnown : final.known = step.known := by
    rw [← final.known_place, samePlace, ← step.known_place]
    rfl
  refine ⟨final, name, atNumber, ?_, fun noTarget finalNoTarget => ?_⟩
  · rw [sameKnown, length]
    rfl
  · rw [samePlace] at finalNoTarget
    rw [sameKnown, names finalNoTarget, ← leads.names noTarget]
    rfl

theorem exists_place_of_mem_allMethods {method : Method} (member : method ∈ builder.allMethods) :
    ∃ node owner, builder.place? node = some owner ∧ method ∈ owner.methods := by
  rcases List.mem_append.1 member with atRoot | atStep
  · exact ⟨.root, _, rfl, atRoot⟩
  · obtain ⟨step, isStep, isMethod⟩ := List.mem_flatMap.1 atStep
    obtain ⟨index, found⟩ := List.getElem?_of_mem isStep
    refine ⟨.step index, step.place, ?_, step.methods_place ▸ isMethod⟩
    show (builder.steps[index]?).map Step.place = _
    rw [found, Option.map_some]

theorem mem_allMethods_of_place {node : CallNode} {owner : Place}
    (found : builder.place? node = some owner) {method : Method}
    (member : method ∈ owner.methods) : method ∈ builder.allMethods := by
  cases node with
  | root =>
    cases found
    exact List.mem_append_left _ member
  | step index =>
    obtain ⟨step, isStep, rfl⟩ := Option.map_eq_some_iff.1 found
    rw [step.methods_place] at member
    exact List.mem_append_right _
      (List.mem_flatMap.2 ⟨step, List.mem_of_getElem? isStep, member⟩)
  | target constructor => cases found

/-- Only from places calls lead away. -/
theorem exists_place_of_calls {source target : CallNode}
    (calls : Calls builder.methods builder.table source target) :
    ∃ place, builder.place? source = some place := by
  cases calls with
  | call member =>
    obtain ⟨place, found, -⟩ := (mem_methodsAt builder.stop?_table).1 member
    exact ⟨place, found⟩
  | @arrive index stop _ held _ =>
    rw [builder.stop?_table] at held
    obtain ⟨step, isStep, -⟩ := Option.map_eq_some_iff.1 held
    exact ⟨step.place, Option.map_eq_some_iff.2 ⟨step, isStep, rfl⟩⟩

/-- A call from a place to a place leads to one more known value. -/
theorem Origin.length_known_of_calls (origin : builder.Origin naming root declarations)
    {source target : CallNode} (calls : Calls builder.methods builder.table source target)
    {owner place : Place} (isOwner : builder.place? source = some owner)
    (isPlace : builder.place? target = some place) :
    place.known.length = owner.known.length + 1 := by
  cases calls with
  | @call _ method member =>
    obtain ⟨other, isOther, isMethod⟩ := (mem_methodsAt builder.stop?_table).1 member
    cases isOwner.symm.trans isOther
    cases result : method.result with
    | product value =>
      rw [result] at isPlace
      cases isPlace
    | step index =>
      have returns : method.step? = some index := by rw [Method.step?, result]; rfl
      obtain ⟨step, name, isStep, length, -⟩ := origin.exists_returned isOwner isMethod returns
      rw [result] at isPlace
      obtain ⟨other, isOther, rfl⟩ := Option.map_eq_some_iff.1 isPlace
      rw [isStep, Option.some.injEq] at isOther
      rw [← isOther, step.known_place, length]
  | arrive => cases isPlace

/-- Along a chain of calls between places more and more is known. -/
theorem Origin.length_known_lt (origin : builder.Origin naming root declarations)
    {source target : CallNode}
    (chain : TransGen (Calls builder.methods builder.table) source target)
    {owner place : Place} (isOwner : builder.place? source = some owner)
    (isPlace : builder.place? target = some place) :
    owner.known.length < place.known.length := by
  induction chain generalizing place with
  | single calls =>
    have length := origin.length_known_of_calls calls isOwner isPlace
    omega
  | tail _ calls inductionHypothesis =>
    obtain ⟨middle, isMiddle⟩ := exists_place_of_calls calls
    have length := origin.length_known_of_calls calls isMiddle isPlace
    have shorter := inductionHypothesis isMiddle
    omega

/-! ### The layers of a builder made of a walk -/

/-- A builder that comes from a walk is layered. -/
theorem Origin.layered (origin : builder.Origin naming root declarations) :
    builder.Layered declarations where
  numbered index final found := by
    obtain ⟨-, step, -, -, -, rfl⟩ := origin.exists_kept found
    cases step <;> rfl
  closed method member index returns := by
    obtain ⟨node, owner, found, isMethod⟩ := exists_place_of_mem_allMethods member
    obtain ⟨step, -, isStep, -⟩ := origin.exists_returned found isMethod returns
    exact (List.getElem?_eq_some_iff.1 isStep).1
  reached number bound := by
    obtain ⟨index, -, reached, isNumber, -⟩ := origin.exists_kept (List.getElem?_eq_getElem bound)
    exact origin.reached_iff.2 ⟨.step index, reached, congrArg CallNode.step isNumber⟩
  supplies node owner found method member source supplied := by
    obtain ⟨-, before, path, -, -, leads, rfl⟩ := origin.exists_place found
    obtain ⟨beforeMethod, isMethod, rfl⟩ := List.mem_map.1 member
    rw [Method.source?_mapStep] at supplied
    show source.index = before.known.length ∧ ∃ declaration, _ ∧ before.known.length < _
    rw [leads.length_known]
    exact (leads.furnished.offered beforeMethod isMethod).source origin.grown origin.allDeclared
      supplied
  deepens node owner found method member index step returns isStep := by
    obtain ⟨other, -, isOther, length, -⟩ := origin.exists_returned found member returns
    cases isStep.symm.trans isOther
    exact length
  names node owner found noTarget method member index step returns isStep := by
    obtain ⟨other, name, isOther, -, names⟩ := origin.exists_returned found member returns
    cases isStep.symm.trans isOther
    exact ⟨name, names noTarget rfl⟩
  acyclic node chain := by
    obtain ⟨next, calls, -⟩ := Relation.TransGen.head'_iff.1 chain
    obtain ⟨place, found⟩ := exists_place_of_calls calls
    exact Nat.lt_irrefl _ (origin.length_known_lt chain found found)

end Builder

/-- Every builder is layered, whatever it is made from. -/
theorem layered_assemble (system : TypeSystem) (naming : Naming) (root : Root)
    (declarations : List Declaration) :
    (assemble system naming root declarations).Layered declarations := by
  obtain ⟨origin⟩ := nonempty_origin system naming root declarations
  exact origin.layered

end StagedBuilder
