/-
This file says how a walk changes while it goes on. A step is entered before the steps
below it and filled after them, so between the two its place has to be left alone; and a
shared step is filled anew as often as a node shares it. What never changes is what other
methods rely on: an existing step once it is there, and the number, the scope and the
known values of a shared step.

Steps are shared by the way that leads to them, so what goes on below a node records
steps only for ways that are longer than the way to the node.
-/

import StagedBuilder.Assembly.Walk

namespace StagedBuilder.Walk

/-! ### Looking up -/

/-- A place that is reserved holds no step yet, so nothing is found that was not there. -/
theorem step?_reserve (walk : Walk) (index : Nat) :
    walk.reserve.2.step? index = walk.step? index := by
  show ((walk.steps ++ [none])[index]?).join = (walk.steps[index]?).join
  by_cases old : index < walk.steps.length
  · rw [List.getElem?_append_left old]
  · rw [List.getElem?_append_right (Nat.le_of_not_lt old),
      List.getElem?_eq_none (Nat.le_of_not_lt old)]
    cases index - walk.steps.length <;> rfl

theorem step?_length (walk : Walk) : walk.step? walk.steps.length = none := by
  rw [step?, List.getElem?_eq_none (Nat.le_refl _), Option.join_none]

theorem lt_length_of_step? {walk : Walk} {index : Nat} {step : Step}
    (found : walk.step? index = some step) : index < walk.steps.length := by
  refine Nat.lt_of_not_le fun outside => ?_
  rw [step?, List.getElem?_eq_none outside] at found
  cases found

theorem step?_put_self {walk : Walk} {index : Nat} (bound : index < walk.steps.length)
    (step : Step) :
    (walk.put index step).step? index = some step := by
  show ((walk.steps.set index (some step))[index]?).join = some step
  rw [List.getElem?_set_self bound, Option.join_some]

theorem step?_put_of_ne {index other : Nat} (differ : other ≠ index) (walk : Walk) (step : Step) :
    (walk.put index step).step? other = walk.step? other := by
  show ((walk.steps.set index (some step))[other]?).join = (walk.steps[other]?).join
  rw [List.getElem?_set_ne differ.symm]

theorem length_steps_put (walk : Walk) (index : Nat) (step : Step) :
    (walk.put index step).steps.length = walk.steps.length := List.length_set

/-- What is found after putting a step is this step, or it was there elsewhere. -/
theorem eq_or_step?_of_step?_put {walk : Walk} {index other : Nat} {step found : Step}
    (isFound : (walk.put index step).step? other = some found) :
    (other = index ∧ found = step) ∨ (other ≠ index ∧ walk.step? other = some found) := by
  by_cases same : other = index
  · subst same
    have bound := lt_length_of_step? isFound
    rw [length_steps_put] at bound
    rw [step?_put_self bound] at isFound
    exact .inl ⟨rfl, (Option.some.inj isFound).symm⟩
  · rw [step?_put_of_ne same] at isFound
    exact .inr ⟨same, isFound⟩

theorem shared?_share_self (walk : Walk) (key : StepKey) (shared : SharedStep) :
    (walk.share key shared).shared? key = some shared := List.lookup_cons_self

theorem shared?_share_of_ne {key other : StepKey} (differ : other ≠ key) (walk : Walk)
    (shared : SharedStep) : (walk.share key shared).shared? other = walk.shared? other := by
  show List.lookup other ((key, shared) :: walk.shared) = walk.shared.lookup other
  rw [List.lookup_cons, beq_eq_false_iff_ne.2 differ]

/-- What is recorded for a way after recording a step is this step, or it was recorded for
another way. -/
theorem eq_or_shared?_of_shared?_share {walk : Walk} {key other : StepKey}
    {shared found : SharedStep} (isFound : (walk.share key shared).shared? other = some found) :
    (other = key ∧ found = shared) ∨ (other ≠ key ∧ walk.shared? other = some found) := by
  by_cases same : other = key
  · subst same
    rw [shared?_share_self] at isFound
    exact .inl ⟨rfl, (Option.some.inj isFound).symm⟩
  · rw [shared?_share_of_ne same] at isFound
    exact .inr ⟨same, isFound⟩

/-! ### What stays -/

/-- Existing steps are as they were, and shared steps have the number, the scope and the known
values that they had. -/
structure Keeps (walk later : Walk) : Prop where
  existing : ∀ index step, walk.step? index = some (.existing step) →
    later.step? index = some (.existing step)
  shared : ∀ key shared, walk.shared? key = some shared →
    ∃ survivors, later.shared? key = some { shared with survivors }

/-- What going on at the given depth may do to a walk: nothing that was there is lost, places
that are reserved stay reserved, and nothing is recorded for shorter ways. -/
structure Extends (depth : Nat) (walk later : Walk) : Prop extends Keeps walk later where
  longer : walk.steps.length ≤ later.steps.length
  reserved : ∀ index < walk.steps.length, walk.step? index = none → later.step? index = none
  shallow : ∀ key : StepKey, key.length < depth → later.shared? key = walk.shared? key

/-- Two walks with the same steps. -/
theorem Keeps.of_same {walk later : Walk} (steps : ∀ index, later.step? index = walk.step? index)
    (shared : ∀ key, later.shared? key = walk.shared? key) : Keeps walk later where
  existing index _ found := (steps index).trans found
  shared key shared' found := ⟨shared'.survivors, (shared key).trans found⟩

theorem Keeps.trans {walk later latest : Walk} (first : Keeps walk later)
    (second : Keeps later latest) : Keeps walk latest where
  existing index step found := second.existing index step (first.existing index step found)
  shared key shared found := by
    obtain ⟨survivors, foundLater⟩ := first.shared key shared found
    obtain ⟨others, foundLatest⟩ := second.shared key _ foundLater
    exact ⟨others, foundLatest⟩

/-- A step may be put wherever no existing step is. -/
theorem Keeps.put {walk : Walk} {index : Nat}
    (free : ∀ existing, walk.step? index ≠ some (.existing existing)) (step : Step) :
    Keeps walk (walk.put index step) where
  existing other existingStep found := by
    have differ : other ≠ index := by
      rintro rfl
      exact free existingStep found
    rw [step?_put_of_ne differ]
    exact found
  shared key shared found := ⟨shared.survivors, found⟩

/-- A step may be recorded for a way again as long as only its methods differ. -/
theorem Keeps.share {walk : Walk} {key : StepKey} {shared : SharedStep}
    (same : ∀ earlier, walk.shared? key = some earlier →
      ∃ survivors, shared = { earlier with survivors }) : Keeps walk (walk.share key shared) where
  existing _ _ found := found
  shared other earlier found := by
    by_cases isKey : other = key
    · subst isKey
      obtain ⟨survivors, rfl⟩ := same earlier found
      exact ⟨survivors, shared?_share_self _ _ _⟩
    · rw [shared?_share_of_ne isKey]
      exact ⟨earlier.survivors, found⟩

namespace Extends

variable {depth : Nat} {walk later latest : Walk}

theorem trans (first : Extends depth walk later) (second : Extends depth later latest) :
    Extends depth walk latest where
  toKeeps := first.toKeeps.trans second.toKeeps
  longer := Nat.le_trans first.longer second.longer
  reserved index bound none :=
    second.reserved index (Nat.lt_of_lt_of_le bound first.longer) (first.reserved index bound none)
  shallow key short := (second.shallow key short).trans (first.shallow key short)

/-- What may be done further down may be done here. -/
theorem mono {shallower : Nat} (grows : Extends depth walk later) (less : shallower ≤ depth) :
    Extends shallower walk later :=
  { grows with shallow := fun key short => grows.shallow key (Nat.lt_of_lt_of_le short less) }

/-- Reserving places and keeping account of collisions changes no step. -/
theorem of_same (longer : walk.steps.length ≤ later.steps.length)
    (steps : ∀ index, later.step? index = walk.step? index)
    (shared : ∀ key, later.shared? key = walk.shared? key) : Extends depth walk later where
  toKeeps := .of_same steps shared
  longer := longer
  reserved index _ none := (steps index).trans none
  shallow key _ := shared key

theorem reserve (depth : Nat) (walk : Walk) : Extends depth walk walk.reserve.2 := by
  refine .of_same ?_ walk.step?_reserve fun _ => rfl
  show walk.steps.length ≤ (walk.steps ++ [none]).length
  rw [List.length_append]
  exact Nat.le_add_right _ _

theorem select (depth : Nat) (walk : Walk) (candidates : List Candidate) :
    Extends depth walk (walk.select candidates).2 :=
  .of_same (Nat.le_refl _) (fun _ => rfl) fun _ => rfl

theorem put (grows : Extends depth walk later) {index : Nat}
    (free : ∀ existing, later.step? index ≠ some (.existing existing))
    (unreserved : index < walk.steps.length → later.step? index ≠ none) (step : Step) :
    Extends depth walk (later.put index step) where
  toKeeps := grows.toKeeps.trans (.put free step)
  longer := by
    rw [length_steps_put]
    exact grows.longer
  reserved other bound none := by
    have noneLater := grows.reserved other bound none
    have differ : other ≠ index := by
      rintro rfl
      exact unreserved bound noneLater
    rw [step?_put_of_ne differ]
    exact noneLater
  shallow := grows.shallow

theorem share (grows : Extends depth walk later) {key : StepKey} (deep : depth ≤ key.length)
    {shared : SharedStep}
    (same : ∀ earlier, later.shared? key = some earlier →
      ∃ survivors, shared = { earlier with survivors }) :
    Extends depth walk (later.share key shared) where
  toKeeps := grows.toKeeps.trans (.share same)
  longer := grows.longer
  reserved := grows.reserved
  shallow other short := by
    have differ : other ≠ key := by
      rintro rfl
      exact Nat.not_lt_of_le deep short
    rw [shared?_share_of_ne differ]
    exact grows.shallow other short

end Extends

end StagedBuilder.Walk
