/-
This file shows what resolving collisions keeps. Every survivor was proposed, and
the signatures of the survivors are the signatures of all proposals, each once and
in the order in which they first appear. In particular no two survivors have the
same signature, which is what resolving is for. Preference is a total preorder, so a
survivor is preferred to every candidate with its signature.
-/

import StagedBuilder.Assembly.Collision
import StagedBuilder.Proofs.Lists

namespace StagedBuilder

/-! ### Preference -/

namespace Candidate

/-- Preference compares one thing after another. -/
theorem preference_eq :
    preference = compareLex (compareLex (compareLex (compareLex
      (fun left right => compareOn (fun candidate : Candidate => candidate.method.priority.toInt)
        right left)
      (compareOn fun candidate => candidate.method.kindRank))
      (compareOn fun candidate => candidate.method.name)) (compareOn Candidate.origin))
      (compareOn Candidate.order) := rfl

instance : Std.TransCmp preference := by
  rw [preference_eq]
  infer_instance

theorem isPreferred_trans (first second third : Candidate)
    (one : first.isPreferred second = true) (two : second.isPreferred third = true) :
    first.isPreferred third = true := Std.TransCmp.isLE_trans one two

theorem isPreferred_total (first second : Candidate) :
    (first.isPreferred second || second.isPreferred first) = true := by
  have swapped : preference second first = (preference first second).swap :=
    Std.OrientedCmp.eq_swap
  rw [isPreferred, isPreferred, swapped]
  cases preference first second <;> rfl

theorem isPreferred_refl (candidate : Candidate) : candidate.isPreferred candidate = true :=
  (Bool.or_self _).symm.trans (isPreferred_total candidate candidate)

/-- How two candidates compare by what they are, the time of their proposal left aside. -/
def merit (left right : Candidate) : Ordering :=
  (((compare right.method.priority.toInt left.method.priority.toInt).then
    (compare left.method.kindRank right.method.kindRank)).then
    (compare left.method.name right.method.name)).then
    (compare left.origin right.origin)

theorem preference_eq_then (left right : Candidate) :
    preference left right = (merit left right).then (compare left.order right.order) := rfl

theorem merit_eq :
    merit = compareLex (compareLex (compareLex
      (fun left right => compareOn (fun candidate : Candidate => candidate.method.priority.toInt)
        right left)
      (compareOn fun candidate => candidate.method.kindRank))
      (compareOn fun candidate => candidate.method.name)) (compareOn Candidate.origin) := rfl

instance : Std.TransCmp merit := by
  rw [merit_eq]
  infer_instance

/-- What a candidate proposes: a method that comes from an origin, at whatever time. -/
def proposal (candidate : Candidate) : Method × String := (candidate.method, candidate.origin)

/-- Merit is a matter of what is proposed. -/
theorem merit_congr {left right otherLeft otherRight : Candidate}
    (sameLeft : left.proposal = otherLeft.proposal)
    (sameRight : right.proposal = otherRight.proposal) :
    merit left right = merit otherLeft otherRight := by
  obtain ⟨leftMethod, leftOrigin⟩ := Prod.mk.inj sameLeft
  obtain ⟨rightMethod, rightOrigin⟩ := Prod.mk.inj sameRight
  rw [merit, merit, leftMethod, leftOrigin, rightMethod, rightOrigin]

/-- Candidates of equal merit agree in everything that counts before the time of their proposal. -/
theorem agree_of_merit {left right : Candidate} (equal : merit left right = .eq) :
    left.method.priority = right.method.priority ∧
      left.method.kindRank = right.method.kindRank ∧ left.origin = right.origin := by
  obtain ⟨others, origin⟩ := Ordering.then_eq_eq.1 equal
  obtain ⟨others, -⟩ := Ordering.then_eq_eq.1 others
  obtain ⟨priority, kindRank⟩ := Ordering.then_eq_eq.1 others
  exact ⟨Int32.toInt_inj.1 (Std.LawfulEqCmp.eq_of_compare priority).symm,
    Std.LawfulEqCmp.eq_of_compare kindRank, Std.LawfulEqCmp.eq_of_compare origin⟩

/-- A candidate that is of no less merit is of no lower priority. -/
theorem priority_le_of_merit {left right : Candidate} (notLess : (merit left right).isLE = true) :
    right.method.priority ≤ left.method.priority := by
  have byPriority :
      (compare right.method.priority.toInt left.method.priority.toInt).isLE = true :=
    Ordering.isLE_left_of_isLE_then (Ordering.isLE_left_of_isLE_then
      (Ordering.isLE_left_of_isLE_then notLess))
  exact Int32.le_iff_toInt_le.2 (Int.isLE_compare.1 byPriority)

/-- A candidate that is preferred is of no less merit. -/
theorem isLE_merit_of_isPreferred {left right : Candidate}
    (preferred : left.isPreferred right = true) : (merit left right).isLE = true := by
  rw [isPreferred, preference_eq_then] at preferred
  exact Ordering.isLE_left_of_isLE_then preferred

end Candidate

namespace Collision

/-- The candidates of a collision, the survivor first. -/
def members (collision : Collision) : List Candidate :=
  collision.survivor :: collision.displaced

/-! ### One group -/

/-- The same with a sorting that evaluates by structural recursion. -/
theorem among?_eq : among? = fun candidates =>
    match candidates.insertionSort (Candidate.isPreferred · ·) with
    | [] => none
    | survivor :: displaced => some { survivor, displaced } := by
  funext candidates
  rw [← Lists.mergeSort_eq_insertionSort Candidate.isPreferred_trans Candidate.isPreferred_total]
  rfl

theorem exists_among? {candidates : List Candidate} (inhabited : candidates ≠ []) :
    ∃ collision, among? candidates = some collision := by
  unfold among?
  split
  · next sorted =>
    have length : (candidates.mergeSort Candidate.isPreferred).length = candidates.length :=
      List.length_mergeSort candidates
    rw [sorted, List.length_nil] at length
    exact absurd (List.length_eq_zero_iff.1 length.symm) inhabited
  · exact ⟨_, rfl⟩

/-- The candidates of a collision are those among which it is. -/
theorem perm_of_among? {candidates : List Candidate} {collision : Collision}
    (found : among? candidates = some collision) : collision.members.Perm candidates := by
  unfold among? at found
  split at found
  · cases found
  · next survivor displaced sorted =>
    cases found
    rw [members, ← sorted]
    exact List.mergeSort_perm candidates Candidate.isPreferred

theorem survivor_mem_of_among? {candidates : List Candidate} {collision : Collision}
    (found : among? candidates = some collision) : collision.survivor ∈ candidates :=
  (perm_of_among? found).mem_iff.1 List.mem_cons_self

/-- The survivor is preferred to all candidates, itself included. -/
theorem survivor_isPreferred {candidates : List Candidate} {collision : Collision}
    (found : among? candidates = some collision) {candidate : Candidate}
    (member : candidate ∈ candidates) : collision.survivor.isPreferred candidate = true := by
  have ordered := List.pairwise_mergeSort Candidate.isPreferred_trans Candidate.isPreferred_total
    candidates
  have isMember := (perm_of_among? found).mem_iff.2 member
  unfold among? at found
  split at found
  · cases found
  · next survivor displaced sorted =>
    cases found
    rw [sorted] at ordered
    rcases List.mem_cons.1 isMember with rfl | isDisplaced
    · exact Candidate.isPreferred_refl _
    · exact (List.pairwise_cons.1 ordered).1 candidate isDisplaced

/-! ### All groups -/

/-- The candidates of one signature. -/
def group (candidates : List Candidate) (signature : Signature) : List Candidate :=
  candidates.filter (·.method.signature = signature)

theorem resolve_eq (candidates : List Candidate) :
    resolve candidates =
      (candidates.map (·.method.signature)).eraseDups.filterMap fun signature =>
        among? (group candidates signature) := by
  simp only [resolve, List.map_map]
  refine List.filterMap_congr fun signature _ => congrArg among? ?_
  rw [List.filter_map, List.map_map, group]
  exact List.map_id _

/-- A survivor was proposed. -/
theorem survivor_mem {candidates : List Candidate} {candidate : Candidate}
    (member : candidate ∈ survivors (resolve candidates)) : candidate ∈ candidates := by
  rw [survivors, resolve_eq, List.mem_map] at member
  obtain ⟨collision, inResolved, rfl⟩ := member
  obtain ⟨signature, -, found⟩ := List.mem_filterMap.1 inResolved
  exact (List.mem_filter.1 (survivor_mem_of_among? found)).1

/-- In a collision all candidates have one signature and the survivor is preferred to them, itself
included. -/
theorem member_of_mem_resolve {candidates : List Candidate} {collision : Collision}
    (resolved : collision ∈ resolve candidates) {candidate : Candidate}
    (member : candidate ∈ collision.members) :
    candidate.method.signature = collision.survivor.method.signature ∧
      collision.survivor.isPreferred candidate = true := by
  rw [resolve_eq] at resolved
  obtain ⟨signature, -, found⟩ := List.mem_filterMap.1 resolved
  have signed : ∀ other ∈ group candidates signature, other.method.signature = signature :=
    fun other inGroup => of_decide_eq_true (List.mem_filter.1 inGroup).2
  have inGroup := (perm_of_among? found).mem_iff.1 member
  refine ⟨?_, survivor_isPreferred found inGroup⟩
  rw [signed candidate inGroup, signed _ (survivor_mem_of_among? found)]

/-- Every candidate takes part in a collision. -/
theorem exists_collision {candidates : List Candidate} {candidate : Candidate}
    (member : candidate ∈ candidates) :
    ∃ collision ∈ resolve candidates, candidate ∈ collision.members := by
  have inGroup : candidate ∈ group candidates candidate.method.signature :=
    List.mem_filter.2 ⟨member, decide_eq_true rfl⟩
  obtain ⟨collision, found⟩ := exists_among? (List.ne_nil_of_mem inGroup)
  refine ⟨collision, ?_, (perm_of_among? found).mem_iff.2 inGroup⟩
  rw [resolve_eq]
  exact List.mem_filterMap.2
    ⟨_, List.mem_eraseDups.2 (List.mem_map_of_mem member), found⟩

/-- A candidate loses to the survivor of its signature, or is the survivor. -/
theorem exists_survivor {candidates : List Candidate} {candidate : Candidate}
    (member : candidate ∈ candidates) :
    ∃ survivor ∈ survivors (resolve candidates),
      survivor.method.signature = candidate.method.signature ∧
        survivor.isPreferred candidate = true := by
  obtain ⟨collision, resolved, takesPart⟩ := exists_collision member
  obtain ⟨signature, preferred⟩ := member_of_mem_resolve resolved takesPart
  exact ⟨collision.survivor, List.mem_map_of_mem resolved, signature.symm, preferred⟩

/-- The signatures of the survivors are those of the proposals, each once. -/
theorem map_signature_survivors (candidates : List Candidate) :
    (survivors (resolve candidates)).map (·.method.signature) =
      (candidates.map (·.method.signature)).eraseDups := by
  rw [survivors, resolve_eq, List.map_map, List.map_filterMap]
  have each : ∀ signature ∈ (candidates.map (·.method.signature)).eraseDups,
      (among? (group candidates signature)).map
          ((fun candidate : Candidate => candidate.method.signature) ∘ Collision.survivor) =
        some signature := by
    intro signature member
    obtain ⟨candidate, proposed, signed⟩ := List.mem_map.1 (List.mem_eraseDups.1 member)
    have inhabited : group candidates signature ≠ [] :=
      List.ne_nil_of_mem (List.mem_filter.2 ⟨proposed, decide_eq_true signed⟩)
    obtain ⟨collision, found⟩ := exists_among? inhabited
    rw [found, Option.map_some]
    exact congrArg some (of_decide_eq_true (List.mem_filter.1 (survivor_mem_of_among? found)).2)
  rw [List.filterMap_congr each, List.filterMap_some]

/-- No two survivors have the same signature. -/
theorem nodup_signature_survivors (candidates : List Candidate) :
    ((survivors (resolve candidates)).map (·.method.signature)).Nodup := by
  rw [map_signature_survivors]
  exact Lists.nodup_eraseDups _

/-- If anything was proposed, something survives. -/
theorem survivors_eq_nil {candidates : List Candidate} :
    survivors (resolve candidates) = [] ↔ candidates = [] := by
  rw [← List.map_eq_nil_iff, map_signature_survivors]
  cases candidates with
  | nil => simp
  | cons first rest => simp [List.eraseDups_cons]

end Collision

end StagedBuilder
