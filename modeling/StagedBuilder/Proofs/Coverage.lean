/-
This file says what the account of constructors reports. Constructors that are declared
by increasing number are kept in the order in which they are declared, so the findings
are those of the declared constructors that are not reached, in that order.
-/

import StagedBuilder.Diagnostic.Coverage

namespace StagedBuilder.Coverage

/-- A constructor with a larger number than all others comes last. -/
theorem putExpected_of_forall_lt {id : Nat} (expected : Expected) {held : List (Nat × Expected)}
    (larger : ∀ entry ∈ held, entry.1 < id) :
    putExpected id expected held = held ++ [(id, expected)] := by
  induction held with
  | nil => rfl
  | cons first rest inductionHypothesis =>
    have less := larger first List.mem_cons_self
    rw [putExpected, if_neg (Nat.lt_asymm less), if_pos less,
      inductionHypothesis fun entry member => larger entry (List.mem_cons_of_mem _ member)]
    rfl

/-- Declared by increasing number, the constructors are kept in order after those before. -/
theorem declared_foldl_declare {Entry : Type} (id : Entry → Nat) (expected : Entry → Expected)
    (entries : List Entry) (coverage : Coverage)
    (ordered : entries.Pairwise fun earlier later => id earlier < id later)
    (larger : ∀ held ∈ coverage.declared, ∀ entry ∈ entries, held.1 < id entry) :
    (entries.foldl (fun coverage entry => coverage.declare (id entry) (expected entry))
        coverage).declared =
      coverage.declared ++ entries.map fun entry => (id entry, expected entry) := by
  induction entries generalizing coverage with
  | nil => exact (List.append_nil _).symm
  | cons first rest inductionHypothesis =>
    obtain ⟨firstLess, restOrdered⟩ := List.pairwise_cons.1 ordered
    have atEnd : (coverage.declare (id first) (expected first)).declared =
        coverage.declared ++ [(id first, expected first)] :=
      putExpected_of_forall_lt _ fun held member => larger held member first List.mem_cons_self
    rw [List.foldl_cons, inductionHypothesis _ restOrdered, atEnd, List.append_assoc]
    · rfl
    · intro held member entry inRest
      rw [atEnd] at member
      rcases List.mem_append.1 member with wasHeld | isFirst
      · exact larger held wasHeld entry (List.mem_cons_of_mem _ inRest)
      · rw [List.mem_singleton.1 isFirst]
        exact firstLess entry inRest

theorem reached_foldl_declare {Entry : Type} (id : Entry → Nat) (expected : Entry → Expected)
    (entries : List Entry) (coverage : Coverage) :
    (entries.foldl (fun coverage entry => coverage.declare (id entry) (expected entry))
        coverage).reached = coverage.reached := by
  induction entries generalizing coverage with
  | nil => rfl
  | cons first rest inductionHypothesis => exact inductionHypothesis _

end StagedBuilder.Coverage
