/-
This file proves that collisions may be resolved in batches. What a batch leaves behind is
numbered anew and resolved again together with the next batch, and the methods that are
left in the end are those that one resolution of all batches leaves. So it does not matter
that the losers of a batch are forgotten: whatever wins against a survivor wins against
all that the survivor has displaced.

The time of a proposal decides between candidates of equal merit, and numbering anew
changes it; but it never puts a later candidate before an earlier one. So among candidates
that are listed in the order of their proposal the survivor is the first one of those with
the greatest merit, and this can be said without any numbers.
-/

import StagedBuilder.Proofs.Collision

namespace StagedBuilder

namespace Candidate

/-! ### The best candidate -/

/-- The candidate of greater merit, and of two with equal merit the left one. -/
def better (left right : Candidate) : Candidate :=
  if (merit left right).isLE then left else right

/-- The first one of the candidates with the greatest merit. -/
def best? : List Candidate → Option Candidate
  | [] => none
  | first :: rest => some ((best? rest).elim first (better first))

theorem isLE_merit_trans {first second third : Candidate}
    (one : (merit first second).isLE = true) (two : (merit second third).isLE = true) :
    (merit first third).isLE = true := Std.TransCmp.isLE_trans one two

/-- A candidate of greater merit is preferred. -/
theorem isPreferred_of_not {left right : Candidate} (less : ¬ (merit left right).isLE = true) :
    right.isPreferred left = true := by
  have swapped : merit right left = (merit left right).swap := Std.OrientedCmp.eq_swap
  rw [isPreferred, preference_eq_then, swapped]
  revert less
  cases merit left right <;> simp [Ordering.isLE]

theorem isLE_merit_of_not {left right : Candidate} (less : ¬ (merit left right).isLE = true) :
    (merit right left).isLE = true := isLE_merit_of_isPreferred (isPreferred_of_not less)

theorem better_assoc (first second third : Candidate) :
    better first (better second third) = better (better first second) third := by
  unfold better
  by_cases one : (merit first second).isLE = true
  · by_cases two : (merit second third).isLE = true
    · rw [if_pos two, if_pos one, if_pos (isLE_merit_trans one two)]
    · rw [if_neg two, if_pos one]
  · by_cases two : (merit second third).isLE = true
    · rw [if_pos two, if_neg one, if_pos two]
    · have last : ¬ (merit first third).isLE = true :=
        fun notLess => one (isLE_merit_trans notLess (isLE_merit_of_not two))
      rw [if_neg two, if_neg one, if_neg two, if_neg last]

/-- The best of several candidates may stand for them. -/
theorem best?_append (first second : List Candidate) :
    best? (first ++ second) = best? ((best? first).toList ++ second) := by
  induction first with
  | nil => rfl
  | cons candidate rest inductionHypothesis =>
    rw [List.cons_append, best?, inductionHypothesis, best?]
    cases best? rest with
    | none => rfl
    | some other =>
      show some (better candidate ((best? second).elim other (better other))) =
        some ((best? second).elim (better candidate other) (better (better candidate other)))
      cases best? second with
      | none => rfl
      | some last => exact congrArg some (better_assoc candidate other last)

theorem exists_best? {candidates : List Candidate} (inhabited : candidates ≠ []) :
    ∃ best, best? candidates = some best := by
  cases candidates with
  | nil => exact absurd rfl inhabited
  | cons first rest => exact ⟨_, rfl⟩

theorem mem_of_best? {candidates : List Candidate} {best : Candidate}
    (found : best? candidates = some best) : best ∈ candidates := by
  induction candidates generalizing best with
  | nil => cases found
  | cons first rest inductionHypothesis =>
    cases ofRest : best? rest with
    | none =>
      rw [best?, ofRest] at found
      cases found
      exact List.mem_cons_self
    | some other =>
      rw [best?, ofRest] at found
      cases found
      show better first other ∈ first :: rest
      unfold better
      split
      · exact List.mem_cons_self
      · exact List.mem_cons_of_mem _ (inductionHypothesis ofRest)

/-- Candidates that are listed in the order of their proposal. -/
abbrev Chronological (candidates : List Candidate) : Prop :=
  candidates.Pairwise fun earlier later => earlier.order < later.order

/-- The earlier one of two candidates is preferred if it is of no less merit. -/
theorem isPreferred_of_lt {earlier later : Candidate}
    (notLess : (merit earlier later).isLE = true) (before : earlier.order < later.order) :
    earlier.isPreferred later = true := by
  have byTime : compare earlier.order later.order = .lt := Nat.compare_eq_lt.2 before
  rw [isPreferred, preference_eq_then, byTime]
  revert notLess
  cases merit earlier later <;> decide

/-- In the order of their proposal the best candidate is preferred to all. -/
theorem Chronological.best?_isPreferred {candidates : List Candidate}
    (chronological : Chronological candidates) {best : Candidate}
    (found : best? candidates = some best) :
    ∀ candidate ∈ candidates, best.isPreferred candidate = true := by
  induction candidates generalizing best with
  | nil => cases found
  | cons first rest inductionHypothesis =>
    obtain ⟨firstBefore, chronologicalRest⟩ := List.pairwise_cons.1 chronological
    intro candidate member
    cases ofRest : best? rest with
    | none =>
      have noRest : rest = [] := by
        by_contra inhabited
        obtain ⟨other, isOther⟩ := exists_best? inhabited
        exact Option.some_ne_none _ (isOther.symm.trans ofRest)
      rw [best?, ofRest] at found
      cases found
      rw [noRest, List.mem_singleton] at member
      rw [member]
      exact isPreferred_refl first
    | some other =>
      have preferredInRest := inductionHypothesis chronologicalRest ofRest
      rw [best?, ofRest] at found
      cases found
      show (better first other).isPreferred candidate = true
      unfold better
      split
      · next notLess =>
        rcases List.mem_cons.1 member with rfl | inRest
        · exact isPreferred_refl _
        · exact isPreferred_of_lt (isLE_merit_trans notLess
            (isLE_merit_of_isPreferred (preferredInRest candidate inRest)))
              (firstBefore candidate inRest)
      · next less =>
        rcases List.mem_cons.1 member with rfl | inRest
        · exact isPreferred_of_not less
        · exact preferredInRest candidate inRest

/-- Two candidates that are preferred to each other were proposed at one time. -/
theorem order_eq_of_isPreferred {left right : Candidate}
    (one : left.isPreferred right = true) (two : right.isPreferred left = true) :
    left.order = right.order := by
  have equal : preference left right = .eq := Std.OrientedCmp.isLE_antisymm one two
  rw [preference_eq_then] at equal
  exact Nat.compare_eq_eq.1 (Ordering.then_eq_eq.1 equal).2

theorem Chronological.eq_of_order {candidates : List Candidate}
    (chronological : Chronological candidates) {left right : Candidate}
    (leftMember : left ∈ candidates) (rightMember : right ∈ candidates)
    (same : left.order = right.order) : left = right := by
  have distinct : (candidates.map order).Nodup :=
    List.pairwise_map.2 (chronological.imp fun before => Nat.ne_of_lt before)
  exact List.inj_on_of_nodup_map distinct leftMember rightMember same

/-! ### The time of a proposal left aside -/

/-- The candidate as if it had been proposed first of all. -/
def timeless (candidate : Candidate) : Candidate := { candidate with order := 0 }

@[simp] theorem proposal_timeless (candidate : Candidate) :
    candidate.timeless.proposal = candidate.proposal := rfl

theorem map_method_timeless (candidates : List Candidate) :
    (candidates.map timeless).map method = candidates.map method := List.map_map

/-- Numbering anew changes nothing but times. -/
theorem map_timeless_renumber (candidates : List Candidate) :
    (renumber candidates).map timeless = candidates.map timeless := by
  calc (renumber candidates).map timeless
      = candidates.zipIdx.map (timeless ∘ Prod.fst) := List.map_map
    _ = (candidates.zipIdx.map Prod.fst).map timeless := List.map_map.symm
    _ = candidates.map timeless := by rw [List.zipIdx_map_fst]

/-- Candidates whose times are their places in the list. -/
def InOrder (candidates : List Candidate) : Prop :=
  candidates.map order = List.range candidates.length

theorem inOrder_renumber (candidates : List Candidate) : InOrder (renumber candidates) := by
  rw [InOrder, renumber, List.map_map, List.length_map, List.length_zipIdx, List.range_eq_range']
  exact List.zipIdx_map_snd 0 candidates

theorem InOrder.chronological {candidates : List Candidate} (inOrder : InOrder candidates) :
    Chronological candidates := by
  have increasing : (candidates.map order).Pairwise (· < ·) := by
    rw [inOrder]
    exact List.pairwise_lt_range
  exact List.pairwise_map.1 increasing

/-- The next candidate to propose has the number of the earlier ones as its time. -/
theorem InOrder.append_singleton {candidates : List Candidate} (inOrder : InOrder candidates)
    {candidate : Candidate} (next : candidate.order = candidates.length) :
    InOrder (candidates ++ [candidate]) := by
  rw [InOrder, List.map_append, inOrder, List.map_singleton, next, List.length_append,
    List.length_singleton, List.range_succ]

/-- The best candidate stays the best if only the times of the proposals change. -/
theorem best?_map {change : Candidate → Candidate}
    (same : ∀ candidate, (change candidate).proposal = candidate.proposal)
    (candidates : List Candidate) :
    best? (candidates.map change) = (best? candidates).map change := by
  induction candidates with
  | nil => rfl
  | cons first rest inductionHypothesis =>
    rw [List.map_cons, best?, best?, inductionHypothesis]
    cases best? rest with
    | none => rfl
    | some other =>
      show some (better (change first) (change other)) = some (change (better first other))
      rw [better, better, merit_congr (same first) (same other), apply_ite change]

end Candidate

namespace Collision

open Candidate (Chronological best? renumber timeless)

/-- In the order of their proposal the best candidate survives. -/
theorem survivor_among? {candidates : List Candidate} (chronological : Chronological candidates) :
    (among? candidates).map survivor = best? candidates := by
  by_cases nothing : candidates = []
  · rw [nothing, among?, List.mergeSort_nil]
    rfl
  obtain ⟨collision, found⟩ := exists_among? nothing
  obtain ⟨best, isBest⟩ := Candidate.exists_best? nothing
  rw [found, isBest, Option.map_some, Option.some.injEq]
  have survivorMember := survivor_mem_of_among? found
  have bestMember := Candidate.mem_of_best? isBest
  exact chronological.eq_of_order survivorMember bestMember
    (Candidate.order_eq_of_isPreferred (survivor_isPreferred found bestMember)
      (chronological.best?_isPreferred isBest _ survivorMember))

/-! ### The best candidates -/

/-- The best candidate of each signature, in the order in which the signatures first appear. -/
def champions (candidates : List Candidate) : List Candidate :=
  (candidates.map (·.method.signature)).eraseDups.filterMap fun signature =>
    best? (group candidates signature)

theorem group_append (first second : List Candidate) (signature : Signature) :
    group (first ++ second) signature = group first signature ++ group second signature :=
  List.filter_append first second

/-- In the order of their proposal the best candidates survive. -/
theorem survivors_resolve {candidates : List Candidate}
    (chronological : Chronological candidates) :
    survivors (resolve candidates) = champions candidates := by
  rw [survivors, resolve_eq, List.map_filterMap]
  exact List.filterMap_congr fun signature _ => survivor_among? (chronological.filter _)

theorem signature_of_best?_group {candidates : List Candidate} {signature : Signature}
    {best : Candidate} (found : best? (group candidates signature) = some best) :
    best.method.signature = signature :=
  of_decide_eq_true (List.mem_filter.1 (Candidate.mem_of_best? found)).2

/-- Of one signature there is the best candidate, if there is any. -/
theorem group_champions (candidates : List Candidate) (signature : Signature) :
    group (champions candidates) signature = (best? (group candidates signature)).toList := by
  refine Lists.filter_filterMap_key (fun _ _ => signature_of_best?_group)
    (Lists.nodup_eraseDups _) fun unproposed => ?_
  have nothing : group candidates signature = [] := by
    refine List.filter_eq_nil_iff.2 fun candidate member signed => unproposed ?_
    rw [List.mem_eraseDups, ← of_decide_eq_true signed]
    exact List.mem_map_of_mem member
  rw [nothing]
  rfl

theorem map_signature_champions (candidates : List Candidate) :
    (champions candidates).map (·.method.signature) =
      (candidates.map (·.method.signature)).eraseDups := by
  have each : ∀ signature ∈ (candidates.map (·.method.signature)).eraseDups,
      (best? (group candidates signature)).map (·.method.signature) = some signature := by
    intro signature proposed
    obtain ⟨candidate, member, signed⟩ := List.mem_map.1 (List.mem_eraseDups.1 proposed)
    have inhabited : group candidates signature ≠ [] :=
      List.ne_nil_of_mem (List.mem_filter.2 ⟨member, decide_eq_true signed⟩)
    obtain ⟨best, isBest⟩ := Candidate.exists_best? inhabited
    rw [isBest, Option.map_some, signature_of_best?_group isBest]
  rw [champions, List.map_filterMap, List.filterMap_congr each, List.filterMap_some]

/-- The best candidates may stand for those among which they are the best. -/
theorem champions_append (first second : List Candidate) :
    champions (champions first ++ second) = champions (first ++ second) := by
  have sameSignatures : ((champions first ++ second).map (·.method.signature)).eraseDups =
      ((first ++ second).map (·.method.signature)).eraseDups := by
    rw [List.map_append, map_signature_champions, Lists.eraseDups_eraseDups_append,
      List.map_append]
  have sameBest : ∀ signature, best? (group (champions first ++ second) signature) =
      best? (group (first ++ second) signature) := by
    intro signature
    rw [group_append, group_append, group_champions, ← Candidate.best?_append]
  unfold champions at sameSignatures ⊢
  rw [sameSignatures]
  exact List.filterMap_congr fun signature _ => sameBest signature

/-- The best candidates stay the best if only the times of the proposals change. -/
theorem champions_map {change : Candidate → Candidate}
    (same : ∀ candidate, (change candidate).proposal = candidate.proposal)
    (candidates : List Candidate) :
    champions (candidates.map change) = (champions candidates).map change := by
  have sameMethod : ∀ candidate, (change candidate).method = candidate.method :=
    fun candidate => congrArg Prod.fst (same candidate)
  have sameGroup : ∀ signature,
      group (candidates.map change) signature = (group candidates signature).map change := by
    intro signature
    rw [group, group, List.filter_map]
    refine congrArg (List.map change) (List.filter_congr fun candidate _ => ?_)
    rw [Function.comp_apply, sameMethod]
  rw [champions, champions, List.map_filterMap, List.map_map]
  have sameSignatures : candidates.map ((·.method.signature) ∘ change) =
      candidates.map (·.method.signature) :=
    List.map_congr_left fun candidate _ => congrArg Method.signature (sameMethod candidate)
  rw [sameSignatures]
  exact List.filterMap_congr fun signature _ => by
    rw [sameGroup, Candidate.best?_map same]

/-! ### Batches -/

/-- Resolves candidates, no matter when they were proposed, in the order in which they are
listed. -/
def settle (candidates : List Candidate) : List Candidate :=
  survivors (resolve (renumber candidates))

/-- Resolves what a former resolution has left behind together with one more batch. -/
def fold (kept batch : List Candidate) : List Candidate := settle (kept ++ batch)

/-- The survivors of candidates with their places as times are the best of them. -/
theorem timeless_survivors {candidates : List Candidate}
    (inOrder : Candidate.InOrder candidates) :
    (survivors (resolve candidates)).map timeless = champions (candidates.map timeless) := by
  rw [survivors_resolve inOrder.chronological]
  exact (champions_map Candidate.proposal_timeless candidates).symm

theorem timeless_settle (candidates : List Candidate) :
    (settle candidates).map timeless = champions (candidates.map timeless) := by
  rw [settle, timeless_survivors (Candidate.inOrder_renumber candidates),
    Candidate.map_timeless_renumber]

/-- The methods that are left of a second batch and of what is left of a first one are those that
are left of both. -/
theorem map_method_settle_append (first second : List Candidate) :
    (settle (settle first ++ second)).map Candidate.method =
      (settle (first ++ second)).map Candidate.method := by
  rw [← Candidate.map_method_timeless, timeless_settle, List.map_append, timeless_settle,
    champions_append, ← List.map_append, ← timeless_settle, Candidate.map_method_timeless]

theorem timeless_fold (kept batch : List Candidate) :
    (fold kept batch).map timeless = champions (kept.map timeless ++ batch.map timeless) := by
  rw [fold, timeless_settle, List.map_append]

/-- What is left after any number of batches is what one resolution of all of them leaves. -/
theorem timeless_foldl_fold (batches : List (List Candidate)) {kept before : List Candidate}
    (same : kept.map timeless = champions (before.map timeless)) :
    (batches.foldl fold kept).map timeless =
      champions ((before ++ batches.flatten).map timeless) := by
  induction batches generalizing kept before with
  | nil => rw [List.flatten_nil, List.append_nil, List.foldl_nil, same]
  | cons batch rest inductionHypothesis =>
    rw [List.foldl_cons, List.flatten_cons, ← List.append_assoc]
    refine inductionHypothesis ?_
    rw [timeless_fold, same, champions_append, List.map_append]

/-- The methods that are left after any number of batches are those that one resolution of all of
them leaves. -/
theorem map_method_foldl_fold (batches : List (List Candidate)) :
    (batches.foldl fold []).map Candidate.method =
      (settle batches.flatten).map Candidate.method := by
  have nothing : ([] : List Candidate).map timeless =
      champions (([] : List Candidate).map timeless) := rfl
  rw [← Candidate.map_method_timeless, timeless_foldl_fold batches nothing, List.nil_append,
    ← timeless_settle, Candidate.map_method_timeless]

end Collision

end StagedBuilder
