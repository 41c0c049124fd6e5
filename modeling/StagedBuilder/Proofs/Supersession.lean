/-
This file says what the findings about superseded converters are worth. Such a finding
names the method that won a collision, but it is not the last word on it: when a later
node shares the step, the methods on the step collide with those of the node, and the
winner may lose in its turn. Only the place is never lost. Wherever a method once won,
a method with its signature stands in the end, one that is preferred to it or is the
method itself.

The place need not be part of the builder either, because steps that no chain of calls
leads to are dropped. If it is kept, the builder has the heir.
-/

import StagedBuilder.Proofs.Account
import StagedBuilder.Proofs.Layers
import StagedBuilder.Proofs.Validity

namespace StagedBuilder

open CallGraph (methodsAt)
open PrefixTree (Under)

/-! ### Heirs -/

/-- The heir has the signature of the method and is of higher priority, or else of the same priority
and not of a later kind. -/
structure Method.Inherits (heir method : Method) : Prop where
  signature : heir.signature = method.signature
  preferred : method.priority.toInt < heir.priority.toInt ∨
    heir.priority.toInt = method.priority.toInt ∧ heir.kindRank ≤ method.kindRank

namespace Method.Inherits

theorem refl (method : Method) : method.Inherits method :=
  ⟨rfl, .inr ⟨rfl, Nat.le_refl _⟩⟩

theorem trans {latest later method : Method} (second : latest.Inherits later)
    (first : later.Inherits method) : latest.Inherits method := by
  refine ⟨second.signature.trans first.signature, ?_⟩
  rcases first.preferred with higher | ⟨same, notLater⟩
  · rcases second.preferred with higherStill | ⟨sameStill, -⟩
    · exact .inl (Int.lt_trans higher higherStill)
    · rw [sameStill]
      exact .inl higher
  · rw [← same]
    exact second.preferred.imp_right fun ⟨sameStill, notLaterStill⟩ =>
      ⟨sameStill, Nat.le_trans notLaterStill notLater⟩

end Method.Inherits

/-- A candidate inherits from those of its signature to which it is preferred. -/
theorem Candidate.inherits_of_isPreferred {left right : Candidate}
    (signature : left.method.signature = right.method.signature)
    (preferred : left.isPreferred right = true) : left.method.Inherits right.method := by
  have byKind : ((compare right.method.priority.toInt left.method.priority.toInt).then
      (compare left.method.kindRank right.method.kindRank)).isLE = true :=
    Ordering.isLE_left_of_isLE_then (Ordering.isLE_left_of_isLE_then
      (Ordering.isLE_left_of_isLE_then preferred))
  refine ⟨signature, ?_⟩
  rcases Ordering.isLE_then_iff_or.1 byKind with higher | ⟨same, notLater⟩
  · exact .inl (Int.compare_eq_lt.1 higher)
  · exact .inr ⟨(Int.compare_eq_eq.1 same).symm, Nat.isLE_compare.1 notLater⟩

/-- In a collision the survivor inherits from all others. -/
theorem Collision.survivor_inherits {candidates : List Candidate} {collision : Collision}
    (resolved : collision ∈ resolve candidates) :
    ∀ loser ∈ collision.displaced, collision.survivor.method.Inherits loser.method := by
  intro loser displaced
  obtain ⟨signature, preferred⟩ :=
    member_of_mem_resolve resolved (List.mem_cons_of_mem _ displaced)
  exact Candidate.inherits_of_isPreferred signature.symm preferred

/-- Every candidate has an heir among the survivors. -/
theorem Collision.exists_heir {candidates : List Candidate} {candidate : Candidate}
    (member : candidate ∈ candidates) :
    ∃ heir ∈ (survivors (resolve candidates)).map Candidate.method,
      heir.Inherits candidate.method := by
  obtain ⟨survivor, survives, signature, preferred⟩ := exists_survivor member
  exact ⟨survivor.method, List.mem_map_of_mem survives,
    Candidate.inherits_of_isPreferred signature preferred⟩

/-! ### Heirs on the steps of a walk -/

/-- On a step of the walk stands an heir of the method. -/
def Walk.HasHeir (walk : Walk) (method : Method) : Prop :=
  ∃ index step, walk.step? index = some step ∧ ∃ heir ∈ step.methods, heir.Inherits method

/-- Every method that has won a collision inherits from those that lost, and has an heir itself. -/
def Walk.HasHeirs (walk : Walk) : Prop :=
  ∀ collision ∈ walk.displaced,
    (∀ loser ∈ collision.displaced, collision.survivor.method.Inherits loser.method) ∧
      walk.HasHeir collision.survivor.method

namespace Walk

variable {walk : Walk}

theorem HasHeir.of_same {later : Walk} {method : Method} (hasHeir : walk.HasHeir method)
    (steps : ∀ index, later.step? index = walk.step? index) : later.HasHeir method := by
  obtain ⟨index, step, found, heirs⟩ := hasHeir
  exact ⟨index, step, (steps index).trans found, heirs⟩

theorem HasHeirs.reserve (heirs : walk.HasHeirs) : walk.reserve.2.HasHeirs :=
  fun collision member =>
    ⟨(heirs collision member).1, (heirs collision member).2.of_same walk.step?_reserve⟩

/-- If what was on a step is among the candidates, the survivors may be put there. -/
theorem HasHeirs.select_put (heirs : walk.HasHeirs) {candidates : List Candidate} {index : Nat}
    (bound : index < walk.steps.length)
    (proposed : ∀ old, walk.step? index = some old →
      ∀ method ∈ old.methods, method ∈ candidates.map Candidate.method)
    {step : Step} (methods : step.methods = (walk.select candidates).1.map Candidate.method) :
    ((walk.select candidates).2.put index step).HasHeirs := by
  have putThere : ((walk.select candidates).2.put index step).step? index = some step :=
    step?_put_self bound step
  intro collision member
  rcases List.mem_append.1 member with wasThere | isNew
  · obtain ⟨won, place, old, found, heir, onOld, inherits⟩ := heirs collision wasThere
    refine ⟨won, ?_⟩
    by_cases same : place = index
    · subst same
      obtain ⟨candidate, isProposed, rfl⟩ := List.mem_map.1 (proposed old found heir onOld)
      obtain ⟨latest, survives, inheritsNext⟩ := Collision.exists_heir isProposed
      exact ⟨place, step, putThere, latest, methods ▸ survives, inheritsNext.trans inherits⟩
    · exact ⟨place, old, (step?_put_of_ne same _ _).trans found, heir, onOld, inherits⟩
  · have resolved := (List.mem_filter.1 isNew).1
    have survives : collision.survivor.method ∈ step.methods := by
      rw [methods]
      exact List.mem_map_of_mem (List.mem_map_of_mem resolved)
    exact ⟨Collision.survivor_inherits resolved, index, step, putThere, _, survives, .refl _⟩

end Walk

/-! ### What was proposed stays proposed -/

theorem mem_foldl_propose_of_mem {call : EdgeCall} {proposed : List Candidate}
    {candidate : Candidate} (member : candidate ∈ proposed) (keys : List ParameterPlan) :
    candidate ∈ keys.foldl call.propose proposed :=
  List.foldlRecOn keys call.propose member fun _ inHeld key _ =>
    List.foldlRecOn key.supplies _ inHeld fun _ inMade _ _ => List.mem_append_left _ inMade

theorem mem_proposeCreations_of_mem {proposed : List Candidate} {candidate : Candidate}
    (member : candidate ∈ proposed) (naming : Naming) (scope : Scope)
    (ambient : List TypeParameter) (endings : List ConstructorPlan) :
    candidate ∈ proposeCreations naming scope ambient proposed endings :=
  List.foldlRecOn _ _ member fun _ inMade _ _ => List.mem_append_left _ inMade

theorem mem_branches_of_mem {naming : Naming} {path : Path} {ambient : List TypeParameter}
    (children : List PlanTree) {proposed : List Candidate} {candidate : Candidate}
    (member : candidate ∈ proposed) (walk : Walk) :
    candidate ∈ (branches naming path ambient children proposed walk).1 := by
  induction children generalizing proposed walk with
  | nil =>
    rw [branches]
    exact member
  | cons child rest inductionHypothesis =>
    rw [branches]
    cases child.representative? with
    | none => exact inductionHypothesis member walk
    | some representative =>
      exact inductionHypothesis (mem_foldl_propose_of_mem member child.keys) _

/-- Candidates that are numbered anew are all there. -/
theorem Candidate.exists_renumbered {candidates : List Candidate} {candidate : Candidate}
    (member : candidate ∈ candidates) :
    ∃ again ∈ renumber candidates, again.method = candidate.method := by
  obtain ⟨place, bound, isThere⟩ := List.getElem_of_mem member
  have numbered : (candidate, place) ∈ candidates.zipIdx :=
    List.mem_zipIdx_iff_getElem?.2 (isThere ▸ List.getElem?_eq_getElem bound)
  exact ⟨_, List.mem_map_of_mem numbered, rfl⟩

/-! ### Entering nodes -/

section

variable {naming : Naming} {tree node : PlanTree} {path : Path} {walk : Walk} {descend : Descent}

/-- A descent that leaves heirs behind and keeps what was proposed, from every path of one key. -/
structure Bequeaths (naming : Naming) (tree : PlanTree) (key : StepKey) (descend : Descent) :
    Prop where
  heirs : ∀ (path : Path) (ambient : List TypeParameter) (proposed : List Candidate)
    (walk : Walk), path.key = key → Walked tree path → walk.Sound naming tree →
      (∀ candidate ∈ proposed, Offered naming tree walk path candidate.method) →
        walk.HasHeirs → (descend path ambient proposed walk).2.HasHeirs
  kept : ∀ (path : Path) (ambient : List TypeParameter) (proposed : List Candidate)
    (walk : Walk), ∀ candidate ∈ proposed, candidate ∈ (descend path ambient proposed walk).1

/-- Where a step is reserved nothing can be lost. -/
theorem Descends.hasHeirs_put {outcome : List Candidate × Walk}
    (descends : Descends naming tree path walk.reserve.2 outcome) (heirs : outcome.2.HasHeirs)
    (candidates : List Candidate) {step : Step}
    (methods : step.methods = (outcome.2.select candidates).1.map Candidate.method) :
    ((outcome.2.select candidates).2.put walk.steps.length step).HasHeirs := by
  obtain ⟨reserved, bound⟩ := descends.reserved
  refine heirs.select_put bound (fun old found => ?_) methods
  exact absurd (found.symm.trans reserved) (Option.some_ne_none old)

/-- At a step that is new the descent leaves heirs behind. -/
theorem Bequeaths.reserved (bequeaths : Bequeaths naming tree path.key descend)
    (walked : Walked tree path) (sound : walk.Sound naming tree) (heirs : walk.HasHeirs) :
    (descend path path.scope.declarations [] walk.reserve.2).2.HasHeirs :=
  bequeaths.heirs path _ [] _ rfl walked sound.reserve
    (fun _ member => absurd member List.not_mem_nil) heirs.reserve

theorem hasHeirs_enterExisting (walked : Walked tree path) (sound : walk.Sound naming tree)
    (heirs : walk.HasHeirs) (plan : ConstructorPlan)
    (below : DescendsFrom naming tree path.key descend)
    (bequeaths : Bequeaths naming tree path.key descend) :
    (enterExisting path plan descend walk).2.HasHeirs :=
  (below.reserved walked sound).hasHeirs_put (bequeaths.reserved walked sound heirs) _ rfl

theorem hasHeirs_enterNew (walked : Walked tree path) (sound : walk.Sound naming tree)
    (heirs : walk.HasHeirs) (endings : List ConstructorPlan) (digest : Option Digest)
    (below : DescendsFrom naming tree path.key descend)
    (bequeaths : Bequeaths naming tree path.key descend) :
    (enterNew naming path endings digest descend walk).2.HasHeirs :=
  (below.reserved walked sound).hasHeirs_put (bequeaths.reserved walked sound heirs) _ rfl

/-- What was on a shared step is proposed again. -/
theorem hasHeirs_enterShared (sound : walk.Sound naming tree) (heirs : walk.HasHeirs)
    {shared : SharedStep} (found : walk.shared? path.key = some shared)
    (endings : List ConstructorPlan) (digest : Option Digest)
    (below : DescendsFrom naming tree path.key descend)
    (bequeaths : Bequeaths naming tree path.key descend) :
    (enterShared naming path shared endings digest descend walk).2.HasHeirs := by
  let creator : Path := ⟨shared.scope, shared.known, path.key⟩
  have before := sound.shared path.key shared found
  let renumbered := Candidate.renumber shared.survivors
  let outcome := descend creator shared.scope.declarations renumbered walk
  have descends : Descends naming tree creator walk outcome :=
    below creator _ _ _ rfl before.walked sound before.offered
  have after : outcome.2.HasHeirs :=
    bequeaths.heirs creator _ _ _ rfl before.walked sound before.offered heirs
  let candidates :=
    proposeCreations naming shared.scope shared.scope.declarations outcome.1 endings
  obtain ⟨-, ⟨filled, isFilled, -, methods⟩, placeable⟩ := descends.exists_filled found candidates
  rw [enterShared_of_filled rfl isFilled]
  refine after.select_put (placeable []).bound (fun old isOld method onOld => ?_) rfl
  cases isOld.symm.trans isFilled
  have onFilled : method ∈ filled.methods := onOld
  rw [methods] at onFilled
  obtain ⟨candidate, survived, rfl⟩ := List.mem_map.1 onFilled
  obtain ⟨again, isRenumbered, sameMethod⟩ := Candidate.exists_renumbered survived
  refine List.mem_map.2 ⟨again, ?_, sameMethod⟩
  exact mem_proposeCreations_of_mem
    (bequeaths.kept creator shared.scope.declarations renumbered walk again isRenumbered) _ _ _ _

end

/-! ### The whole tree -/

mutual

/-- Arriving at a node leaves heirs behind. -/
theorem hasHeirs_arrive {naming : Naming} {tree : PlanTree} {above : List ParameterPlan} :
    (node : PlanTree) → (path : Path) → (walk : Walk) → Under tree above node →
      keyOf above = path.key → Walked tree path → walk.Sound naming tree → walk.HasHeirs →
        (arrive naming path node walk).2.HasHeirs
  | .node label keys endings children, path, walk, under, leads, walked, sound, heirs => by
    have below : DescendsFrom naming tree path.key fun path ambient proposed walk =>
        branches naming path ambient children proposed walk := descendsFrom_branches under leads
    have bequeaths : Bequeaths naming tree path.key fun path ambient proposed walk =>
        branches naming path ambient children proposed walk := by
      refine ⟨fun other ambient proposed walk sameKey walked sound offered heirs => ?_,
        fun other ambient proposed walk candidate member => ?_⟩
      · exact hasHeirs_branches children under other (leads.trans sameKey.symm)
          (fun child member => member) ambient proposed walk walked sound offered heirs
      · exact mem_branches_of_mem children member walk
    rw [arrive]
    cases nodeRole endings children.isEmpty with
    | finish plan => exact heirs
    | existing plan => exact hasHeirs_enterExisting walked sound heirs plan below bequeaths
    | synthesized =>
      show (enterSynthesized naming path endings _ _ walk).2.HasHeirs
      unfold enterSynthesized
      cases found : walk.shared? path.key with
      | none => exact hasHeirs_enterNew walked sound heirs _ _ below bequeaths
      | some shared => exact hasHeirs_enterShared sound heirs found _ _ below bequeaths

/-- Going down to children of a node leaves heirs behind. -/
theorem hasHeirs_branches {naming : Naming} {tree : PlanTree} {above : List ParameterPlan}
    {node : PlanTree} :
    (children : List PlanTree) → Under tree above node → (path : Path) → keyOf above = path.key →
      (∀ child ∈ children, child ∈ node.children) → (ambient : List TypeParameter) →
        (proposed : List Candidate) → (walk : Walk) → Walked tree path → walk.Sound naming tree →
          (∀ candidate ∈ proposed, Offered naming tree walk path candidate.method) →
            walk.HasHeirs → (branches naming path ambient children proposed walk).2.HasHeirs
  | [], _, path, _, _, ambient, proposed, walk, _, _, _, heirs => heirs
  | child :: rest, under, path, leads, included, ambient, proposed, walk, walked, sound, offered,
    heirs => by
    have includedRest : ∀ other ∈ rest, other ∈ node.children :=
      fun other member => included other (List.mem_cons_of_mem _ member)
    have member : child ∈ node.children := included child List.mem_cons_self
    rw [branches]
    cases made : child.representative? with
    | none =>
      exact hasHeirs_branches rest under path leads includedRest ambient proposed walk walked
        sound offered heirs
    | some representative =>
      have heirsNext := hasHeirs_arrive child (path.extend representative) walk
        (under.down member made) (Walked.keyOf_append_singleton leads representative)
        (.extend walked under leads member made) sound heirs
      obtain ⟨soundNext, offeredNext⟩ :=
        entered_child under leads walked sound offered member made ambient
      exact hasHeirs_branches rest under path leads includedRest ambient _ _ walked soundNext
        offeredNext heirsNext

end

/-- After the walk every method that has won a collision inherits from those that lost, and has an
heir on a step or among the methods of the root. -/
theorem exists_heir_walkTree (naming : Naming) (root : Root) (tree : PlanTree)
    {collision : Collision} (member : collision ∈ (walkTree naming root tree).2.displaced) :
    (∀ loser ∈ collision.displaced, collision.survivor.method.Inherits loser.method) ∧
      ((∃ heir ∈ (walkTree naming root tree).1, heir.Inherits collision.survivor.method) ∨
        (walkTree naming root tree).2.HasHeir collision.survivor.method) := by
  have noCollisions : ({} : Walk).HasHeirs := fun _ none => absurd none List.not_mem_nil
  have heirs := hasHeirs_branches tree.children .top {} rfl (fun _ member => member)
    root.typeParameters [] {} .start (.start naming tree)
    (fun _ member => absurd member List.not_mem_nil) noCollisions
  rcases List.mem_append.1 member with wasThere | isNew
  · exact (heirs collision wasThere).imp_right .inr
  · have resolved := (List.mem_filter.1 isNew).1
    refine ⟨Collision.survivor_inherits resolved, .inl ⟨collision.survivor.method, ?_, .refl _⟩⟩
    exact List.mem_map_of_mem (List.mem_map_of_mem resolved)

/-! ### Findings -/

/-- A finding about a superseded method names two methods of a collision, the second of which has
won. -/
theorem exists_collision_of_mem_displacedFindings {declarations : List Declaration}
    {rootMethods : List Method} {walk : Walk} {finding : Diagnostic}
    (member : finding ∈ displacedFindings declarations rootMethods walk)
    (superseded : finding.code = .supersededMethod) :
    ∃ collision ∈ walk.displaced, ∃ loser ∈ collision.displaced,
      loser.method.isConversion = true ∧
        finding.arguments = [loser.method.display, collision.survivor.method.display] := by
  obtain ⟨collision, recorded, ofCollision⟩ := List.mem_flatMap.1 member
  unfold Displaced.diagnostics at ofCollision
  split at ofCollision
  · exact absurd ofCollision List.not_mem_nil
  obtain ⟨displaced, isDisplaced, ofDisplaced⟩ := List.mem_flatMap.1 ofCollision
  obtain ⟨loser, lost, made⟩ := List.mem_filterMap.1 isDisplaced
  rcases List.mem_cons.1 ofDisplaced with rfl | atConverter
  · unfold displacedConversion? at made
    split at made
    · next isConversion =>
      cases made
      exact ⟨collision, recorded, loser, lost, by rw [isConversion]; rfl, rfl⟩
    · cases made
  · obtain ⟨location, -, rfl⟩ := List.mem_map.1 atConverter
    cases superseded

/-- What is wrong with declarations is never that a method is superseded. -/
theorem Validation.code_of_mem_findings {root : Root} {declarations : List Declaration}
    {finding : Diagnostic} (member : finding ∈ findings root declarations) :
    finding.code ≠ .supersededMethod := by
  intro superseded
  have refuses := (refuses_findings root declarations finding member).2
  rw [superseded] at refuses
  exact absurd refuses (by decide)

/-! ### In a builder -/

/-- Every finding about a superseded method names, in the second place, a method that the builder
has. -/
def Builder.ContainsWinners (builder : Builder) : Prop :=
  ∀ finding ∈ builder.diagnostics, finding.code = .supersededMethod →
    ∃ method ∈ builder.allMethods, finding.arguments[1]? = some method.display

/-- Every finding about a superseded method names a converter that has lost a collision of the walk
and the method that has won it. Of the winner the builder has an heir, unless the heir is on a step
that was dropped because no chain of calls leads there. -/
def Builder.NamesWinners (rootMethods : List Method) (walk : Walk) (builder : Builder) : Prop :=
  ∀ finding ∈ builder.diagnostics, finding.code = .supersededMethod →
    ∃ collision ∈ walk.displaced, ∃ loser ∈ collision.displaced,
      loser.method.isConversion = true ∧
      finding.arguments = [loser.method.display, collision.survivor.method.display] ∧
      collision.survivor.method.Inherits loser.method ∧
      ((∃ heir ∈ builder.allMethods, heir.Inherits collision.survivor.method) ∨
        ∃ index step, walk.step? index = some step ∧
          ¬ CallGraph.Reached rootMethods walk.table (.step index) ∧
            ∃ heir ∈ step.methods, heir.Inherits collision.survivor.method)

theorem Method.Inherits.mapStep {heir method : Method} (inherits : heir.Inherits method)
    (renumber : Nat → Nat) : (heir.mapStep renumber).Inherits method := by
  have priority : (heir.mapStep renumber).priority = heir.priority := by cases heir <;> rfl
  have kindRank : (heir.mapStep renumber).kindRank = heir.kindRank := by cases heir <;> rfl
  refine ⟨(heir.signature_mapStep renumber).trans inherits.signature, ?_⟩
  rw [priority, kindRank]
  exact inherits.preferred

/-- The builder has the methods of the places that chains of calls of the walk come to. -/
theorem Builder.Origin.mem_allMethods {naming : Naming} {root : Root}
    {declarations : List Declaration} {builder : Builder}
    (origin : builder.Origin naming root declarations) {node : CallNode}
    (reached : origin.Reached node) {place : Place} (found : origin.place? node = some place)
    {method : Method} (member : method ∈ place.methods) :
    method.mapStep origin.number ∈ builder.allMethods := by
  have isFinal := origin.place?_mapStep reached
  rw [found, Option.map_some] at isFinal
  exact mem_allMethods_of_place isFinal (List.mem_map_of_mem member)

theorem namesWinners_assembleValid (system : TypeSystem) (naming : Naming) (root : Root)
    (declarations : List Declaration) :
    (assembleValid system naming root declarations).NamesWinners
      (walkTree naming root (planTree (planAll system naming declarations))).1
      (walkTree naming root (planTree (planAll system naming declarations))).2 := by
  intro finding member superseded
  let origin := originOfValid system naming root declarations
  have displaced : finding ∈ displacedFindings declarations origin.rootMethods origin.walk := by
    rcases List.mem_append.1 member with others | unreached
    · rcases List.mem_append.1 others with planned | displaced
      · obtain ⟨declaration, -, ofDeclaration⟩ := List.mem_flatMap.1 planned
        exact absurd (superseded ▸ code_of_mem_planFindings ofDeclaration) (by decide)
      · exact displaced
    · obtain ⟨entry, -, rfl⟩ := List.mem_map.1 unreached
      cases superseded
  obtain ⟨collision, recorded, loser, lost, isConversion, names⟩ :=
    exists_collision_of_mem_displacedFindings displaced superseded
  obtain ⟨won, heirs⟩ := exists_heir_walkTree naming root _ recorded
  refine ⟨collision, recorded, loser, lost, isConversion, names, won loser lost, ?_⟩
  rcases heirs with ⟨heir, onRoot, inherits⟩ | ⟨index, step, found, heir, onStep, inherits⟩
  · have atRoot : origin.place? .root = some ⟨[], origin.rootMethods, false⟩ := rfl
    exact .inl ⟨_, origin.mem_allMethods .refl atRoot onRoot, inherits.mapStep _⟩
  · by_cases reached : origin.Reached (.step index)
    · have atStep : origin.place? (.step index) = some step.place :=
        Option.map_eq_some_iff.2 ⟨step, found, rfl⟩
      exact .inl ⟨_, origin.mem_allMethods reached atStep (step.methods_place ▸ onStep),
        inherits.mapStep _⟩
    · exact .inr ⟨index, step, found, reached, heir, onStep, inherits⟩

/-- In every builder superseded converters have lost against a method that has an heir, whatever it
is made from. -/
theorem namesWinners_assemble (system : TypeSystem) (naming : Naming) (root : Root)
    (declarations : List Declaration) :
    (assemble system naming root declarations).NamesWinners
      (walkTree naming root (planTree (planAll system naming declarations))).1
      (walkTree naming root (planTree (planAll system naming declarations))).2 := by
  intro finding member superseded
  by_cases refused : (Validation.findings root declarations).any Diagnostic.isError = true
  · rw [assemble_of_refused refused] at member
    exact absurd superseded (Validation.code_of_mem_findings member)
  · rw [assemble_of_accepted refused] at member ⊢
    rcases List.mem_append.1 member with invalid | ofValid
    · exact absurd superseded (Validation.code_of_mem_findings invalid)
    · exact namesWinners_assembleValid system naming root declarations finding ofValid superseded

/-- A constructor that takes a `value` by a method of the given name and one parameter more. -/
def Declaration.valued (target method : String) (further : Parameter) : Declaration where
  constructor := {
    target := .bare none target
    parameters :=
      [{ name := "value", type := .simple "String", methodName := some method }, further] }
  root := "Shop"

/-- Where the value is known, the converter of the second constructor loses against the first one,
which then loses against the third one, when it comes there by a method of its own. -/
theorem not_containsWinners_assemble_valued :
    let number : Parameter := { name := "n", type := .simple "Int" }
    let text : Parameter := {
      name := "t"
      type := .simple "Text"
      group := some {
        declaringType := .simple "Texts"
        converters := [{
          name := "WithN"
          parameters := [⟨"text", .simple "Int"⟩]
          returnType := .simple "Text" }] } }
    let preferred : Parameter :=
      { name := "m", type := .simple "Int", methodName := some "WithN", priority := 5 }
    let declarations := [Declaration.valued "A" "WithX" number, .valued "B" "WithX" text,
      .valued "C" "WithY" preferred]
    Validation.findings (.marked none "Shop") declarations = [] ∧
      ¬ (assemble {} {} (.marked none "Shop") declarations).ContainsWinners := by
  intro number text preferred declarations
  refine ⟨rfl, fun contains => ?_⟩
  have evaluated :
      (assemble {} {} (.marked none "Shop") declarations).diagnostics.map
          (fun finding => (finding.code, finding.arguments[1]?)) =
            [(.supersededMethod, some "WithN(n: Int)"), (.unreachableConstructor, none),
              (.unreachableConstructor, none)] ∧
        (assemble {} {} (.marked none "Shop") declarations).allMethods.map Method.display =
          ["WithX(value: String)", "WithY(value: String)", "WithN(m: Int)", "CreateC()"] := by
    -- Sorting is exchanged for one that evaluates, in the recursion of the walk as well.
    delta assemble assembleValid displacedFindings displacedConversion? outcome
      CallGraph.methodReach CallGraph.reachableConstructors keptSteps walkTree branches branches._f
      arrive._f enterSynthesized enterNew enterShared Walk.select Collision.resolve
    rw [Collision.among?_eq, CallGraph.liveSteps_eq, CallGraph.constructorsFrom_eq]
    decide +kernel
  obtain ⟨reported, held⟩ := evaluated
  have atFirst : (DiagnosticCode.supersededMethod, some "WithN(n: Int)") ∈
      (assemble {} {} (.marked none "Shop") declarations).diagnostics.map
        fun finding => (finding.code, finding.arguments[1]?) :=
    reported ▸ List.mem_cons_self
  obtain ⟨finding, member, isFinding⟩ := List.mem_map.1 atFirst
  obtain ⟨superseded, named⟩ := Prod.mk.inj isFinding
  obtain ⟨method, isMethod, displayed⟩ := contains finding member superseded
  have display : "WithN(n: Int)" = method.display := Option.some.inj (named.symm.trans displayed)
  have isHeld : "WithN(n: Int)" ∈
      (assemble {} {} (.marked none "Shop") declarations).allMethods.map Method.display :=
    display ▸ List.mem_map_of_mem isMethod
  rw [held] at isHeld
  exact absurd isHeld (by decide)

end StagedBuilder
