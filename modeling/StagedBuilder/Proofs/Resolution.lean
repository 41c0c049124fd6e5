/-
This file proves that resolving collisions loses nothing and does not hang on chance. The
candidates are parted by signature, so that each of them takes part in one collision, and
the survivor of a collision is preferred to all that are in it. Only where two candidates
of one signature agree in priority, kind and origin does the time of their proposal
decide. If no two do, the methods that survive are the same in whatever order the
candidates are proposed.
-/

import Mathlib.Data.List.Pairwise
import Mathlib.Data.List.Perm.Basic
import StagedBuilder.Proofs.Collision

namespace StagedBuilder

namespace Collision

/-! ### The parts -/

/-- The collisions among candidates: one for each signature, in the order in which the signatures
first appear, which together have all candidates, and in each of which the survivor is preferred. -/
structure Resolves (collisions : List Collision) (candidates : List Candidate) : Prop where
  signatures : collisions.map (·.survivor.method.signature) =
    (candidates.map (·.method.signature)).eraseDups
  alike : ∀ collision ∈ collisions, ∀ candidate ∈ collision.members,
    candidate.method.signature = collision.survivor.method.signature
  lossless : (collisions.flatMap members).Perm candidates
  least : ∀ collision ∈ collisions, ∀ candidate ∈ collision.members,
    collision.survivor.isPreferred candidate = true
  highest : ∀ collision ∈ collisions, ∀ candidate ∈ collision.members,
    candidate.method.priority ≤ collision.survivor.method.priority

/-- The members of the collision among candidates, if there is one, are these candidates. -/
theorem flatMap_members_among?_perm (candidates : List Candidate) :
    ((among? candidates).toList.flatMap members).Perm candidates := by
  cases found : among? candidates with
  | none =>
    have nothing : candidates = [] := by
      by_contra inhabited
      obtain ⟨collision, isFound⟩ := exists_among? inhabited
      exact Option.some_ne_none _ (isFound.symm.trans found)
    rw [nothing]
    exact .nil
  | some collision =>
    rw [Option.toList_some, List.flatMap_singleton]
    exact perm_of_among? found

/-- Every candidate takes part in one collision. -/
theorem flatMap_members_resolve_perm (candidates : List Candidate) :
    ((resolve candidates).flatMap members).Perm candidates := by
  have covered : ∀ candidate ∈ candidates,
      candidate.method.signature ∈ (candidates.map (·.method.signature)).eraseDups :=
    fun candidate member => List.mem_eraseDups.2 (List.mem_map_of_mem member)
  rw [resolve_eq, List.filterMap_eq_flatMap_toList, List.flatMap_assoc]
  exact (List.Perm.flatMap_left _ fun signature _ =>
    flatMap_members_among?_perm (group candidates signature)).trans
      (Lists.flatMap_filter_perm (fun candidate : Candidate => candidate.method.signature)
        (Lists.nodup_eraseDups _) covered)

theorem resolves (candidates : List Candidate) : Resolves (resolve candidates) candidates where
  signatures := by
    rw [← map_signature_survivors, survivors, List.map_map]
    rfl
  alike _ resolved _ member := (member_of_mem_resolve resolved member).1
  lossless := flatMap_members_resolve_perm candidates
  least _ resolved _ member := (member_of_mem_resolve resolved member).2
  highest _ resolved _ member := Candidate.priority_le_of_merit
    (Candidate.isLE_merit_of_isPreferred (member_of_mem_resolve resolved member).2)

/-! ### The order of proposals -/

/-- The survivor of a signature is preferred to all candidates of the signature. -/
theorem survivor_isPreferred_of_mem {candidates : List Candidate} {survivor candidate : Candidate}
    (survives : survivor ∈ survivors (resolve candidates)) (member : candidate ∈ candidates)
    (signature : survivor.method.signature = candidate.method.signature) :
    survivor.isPreferred candidate = true := by
  obtain ⟨other, otherSurvives, otherSignature, preferred⟩ := exists_survivor member
  have same : survivor = other := List.inj_on_of_nodup_map (nodup_signature_survivors candidates)
    survives otherSurvives (signature.trans otherSignature.symm)
  rwa [same]

end Collision

namespace Candidate

/-- No two candidates of one signature agree in priority, kind and origin. -/
def Decided (candidates : List Candidate) : Prop :=
  candidates.Pairwise fun left right => left.method.signature = right.method.signature →
    ¬ (left.method.priority = right.method.priority ∧
      left.method.kindRank = right.method.kindRank ∧ left.origin = right.origin)

instance (candidates : List Candidate) : Decidable (Decided candidates) :=
  inferInstanceAs (Decidable (candidates.Pairwise _))

/-- Among decided candidates equal merit is that of one candidate. -/
theorem Decided.eq_of_merit {candidates : List Candidate} (decided : Decided candidates)
    {left right : Candidate} (leftMember : left ∈ candidates) (rightMember : right ∈ candidates)
    (signature : left.method.signature = right.method.signature)
    (equal : merit left right = .eq) : left = right := by
  have symmetric : Std.Symm fun left right : Candidate =>
      left.method.signature = right.method.signature →
        ¬ (left.method.priority = right.method.priority ∧
          left.method.kindRank = right.method.kindRank ∧ left.origin = right.origin) :=
    ⟨fun _ _ apart signature ⟨priority, kindRank, origin⟩ =>
      apart signature.symm ⟨priority.symm, kindRank.symm, origin.symm⟩⟩
  by_contra differ
  exact decided.forall leftMember rightMember differ signature (agree_of_merit equal)

/-- What is proposed among some candidates is proposed among others that propose the same. -/
theorem exists_mem_of_perm {candidates others : List Candidate}
    (same : (candidates.map proposal).Perm (others.map proposal)) {candidate : Candidate}
    (member : candidate ∈ candidates) : ∃ other ∈ others, other.proposal = candidate.proposal :=
  List.mem_map.1 (same.mem_iff.1 (List.mem_map_of_mem member))

/-- Of one signature the same method survives among decided candidates and among others that
propose the same. -/
theorem Decided.method_eq {candidates others : List Candidate} (decided : Decided candidates)
    (same : (candidates.map proposal).Perm (others.map proposal)) {survivor other : Candidate}
    (survives : survivor ∈ Collision.survivors (Collision.resolve candidates))
    (otherSurvives : other ∈ Collision.survivors (Collision.resolve others))
    (signature : survivor.method.signature = other.method.signature) :
    survivor.method = other.method := by
  have isCandidate := Collision.survivor_mem survives
  obtain ⟨twin, isOther, isTwin⟩ := exists_mem_of_perm same isCandidate
  obtain ⟨otherTwin, isTwinCandidate, isOtherTwin⟩ :=
    exists_mem_of_perm same.symm (Collision.survivor_mem otherSurvives)
  have twinMethod : twin.method = survivor.method := congrArg Prod.fst isTwin
  have otherTwinMethod : otherTwin.method = other.method := congrArg Prod.fst isOtherTwin
  -- Each of the two is preferred to the one that proposes the same as the other.
  have notLess : (merit survivor other).isLE = true := by
    rw [merit_congr (Eq.refl survivor.proposal) isOtherTwin.symm]
    refine isLE_merit_of_isPreferred
      (Collision.survivor_isPreferred_of_mem survives isTwinCandidate ?_)
    rw [otherTwinMethod, signature]
  have notMore : (merit other survivor).isLE = true := by
    rw [merit_congr (Eq.refl other.proposal) isTwin.symm]
    refine isLE_merit_of_isPreferred
      (Collision.survivor_isPreferred_of_mem otherSurvives isOther ?_)
    rw [twinMethod, signature]
  have equal : merit survivor otherTwin = .eq := by
    rw [merit_congr (Eq.refl survivor.proposal) isOtherTwin]
    exact Std.OrientedCmp.isLE_antisymm notLess notMore
  rw [decided.eq_of_merit isCandidate isTwinCandidate
    (signature.trans (congrArg Method.signature otherTwinMethod.symm)) equal]
  exact otherTwinMethod

/-- What survives among some candidates has a survivor of its signature among others that propose
the same. -/
theorem exists_survivor_of_perm {candidates others : List Candidate}
    (same : (candidates.map proposal).Perm (others.map proposal)) {survivor : Candidate}
    (survives : survivor ∈ Collision.survivors (Collision.resolve candidates)) :
    ∃ other ∈ Collision.survivors (Collision.resolve others),
      other.method.signature = survivor.method.signature := by
  obtain ⟨twin, isOther, isTwin⟩ := exists_mem_of_perm same (Collision.survivor_mem survives)
  obtain ⟨other, otherSurvives, signature, -⟩ := Collision.exists_survivor isOther
  exact ⟨other, otherSurvives, signature.trans (congrArg (·.1.signature) isTwin)⟩

end Candidate

namespace Collision

theorem nodup_method_survivors (candidates : List Candidate) :
    ((survivors (resolve candidates)).map Candidate.method).Nodup := by
  refine List.Nodup.of_map Method.signature ?_
  rw [List.map_map]
  exact nodup_signature_survivors candidates

/-- Candidates are parted into collisions by signature without loss, the survivor of each is
preferred and of the highest priority in it, and if the candidates are decided, the same methods
survive among all others that propose the same, whatever their order and whenever they do. -/
theorem resolves_resolve (candidates : List Candidate) :
    Resolves (resolve candidates) candidates ∧
      ∀ others : List Candidate, Candidate.Decided candidates →
        (candidates.map Candidate.proposal).Perm (others.map Candidate.proposal) →
          ((survivors (resolve candidates)).map Candidate.method).Perm
            ((survivors (resolve others)).map Candidate.method) := by
  refine ⟨resolves candidates, fun others decided same => ?_⟩
  rw [List.perm_ext_iff_of_nodup (nodup_method_survivors _) (nodup_method_survivors _)]
  intro method
  constructor
  · intro member
    obtain ⟨survivor, survives, rfl⟩ := List.mem_map.1 member
    obtain ⟨other, otherSurvives, signature⟩ := Candidate.exists_survivor_of_perm same survives
    rw [decided.method_eq same survives otherSurvives signature.symm]
    exact List.mem_map_of_mem otherSurvives
  · intro member
    obtain ⟨other, otherSurvives, rfl⟩ := List.mem_map.1 member
    obtain ⟨survivor, survives, signature⟩ :=
      Candidate.exists_survivor_of_perm same.symm otherSurvives
    rw [← decided.method_eq same survives otherSurvives signature]
    exact List.mem_map_of_mem survives

/-- A supply, a conversion of the same signature and of the same priority, and a supply of another
signature are decided: the kind decides between the first two, whichever is proposed first. -/
theorem resolves_resolve_kinds :
    let source : Source := ⟨0, 0, "value", .simple "String"⟩
    let text : List Argument := [⟨"value", .simple "String", none⟩]
    let supply : Supply :=
      ⟨"WithValue", source, text, [], .step 0, none, 2, {}⟩
    let conversion : Conversion :=
      ⟨"WithValue", source, text, [], .step 0, none, 2, ⟨.simple "Texts", "WithValue", ["value"]⟩,
        [], {}, []⟩
    let direct : Candidate := ⟨.supply supply, "A::value", 0⟩
    let converted : Candidate := ⟨.conversion conversion, "A::value", 1⟩
    let other : Candidate := ⟨.supply { supply with name := "WithText" }, "A::value", 2⟩
    Candidate.Decided [direct, converted, other] ∧
      ([direct, converted, other].map Candidate.proposal).Perm
        ([{ other with order := 0 }, converted, { direct with order := 7 }].map
          Candidate.proposal) ∧
      ((survivors (resolve [direct, converted, other])).map Candidate.method).Perm
        ((survivors (resolve [{ other with order := 0 }, converted,
          { direct with order := 7 }])).map Candidate.method) := by
  intro source text supply conversion direct converted other
  have decided : Candidate.Decided [direct, converted, other] := by decide
  have same : ([direct, converted, other].map Candidate.proposal).Perm
      ([{ other with order := 0 }, converted, { direct with order := 7 }].map
        Candidate.proposal) := by decide
  exact ⟨decided, same, (resolves_resolve _).2 _ decided same⟩

end Collision

end StagedBuilder
