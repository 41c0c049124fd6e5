/-
This file relates the methods of a step to everything that the nodes sharing the step
propose. Each of these nodes resolves its own proposals together with what the nodes before
it have left behind, and it does not know what has been displaced there. A ledger of all
proposals, kept alongside the walk, shows that nothing is lost by this: the methods of a
step are those that one resolution of all its proposals would leave, in the same order.

The walk meets a step only at nodes whose ways are equally long, so while the nodes below
one of them are walked the step stays as it is.
-/

import StagedBuilder.Proofs.CandidateReach
import StagedBuilder.Proofs.Folding
import StagedBuilder.Proofs.Resolution

namespace StagedBuilder

open Candidate (InOrder renumber timeless)
open Collision (champions settle)

/-! ### Proposals -/

section

variable {naming : Naming}

theorem timeless_propose (call : EdgeCall) (proposed : List Candidate) (plan : ParameterPlan) :
    (call.propose proposed plan).map timeless =
      proposed.map timeless ++ plan.supplies.map fun supply => call.candidate plan 0 supply := by
  unfold EdgeCall.propose
  induction plan.supplies generalizing proposed with
  | nil => exact (List.append_nil _).symm
  | cons supply rest inductionHypothesis =>
    have same : ∀ order, (call.candidate plan order supply).timeless =
        call.candidate plan 0 supply := fun order => by cases supply <;> rfl
    rw [List.foldl_cons, inductionHypothesis, List.map_append, List.map_singleton, same,
      List.append_assoc, List.singleton_append, List.map_cons]

theorem Candidate.InOrder.propose {proposed : List Candidate} (inOrder : InOrder proposed)
    (call : EdgeCall) (plan : ParameterPlan) : InOrder (call.propose proposed plan) := by
  unfold EdgeCall.propose
  induction plan.supplies generalizing proposed with
  | nil => exact inOrder
  | cons supply rest inductionHypothesis =>
    refine inductionHypothesis (inOrder.append_singleton ?_)
    cases supply <;> rfl

/-- What is proposed with the keys of an edge does not depend on what was proposed before. -/
theorem timeless_foldl_propose (call : EdgeCall) (keys : List ParameterPlan)
    (proposed : List Candidate) :
    (keys.foldl call.propose proposed).map timeless =
      proposed.map timeless ++ (keys.foldl call.propose []).map timeless := by
  induction keys generalizing proposed with
  | nil => exact (List.append_nil _).symm
  | cons plan rest inductionHypothesis =>
    rw [List.foldl_cons, List.foldl_cons, inductionHypothesis, timeless_propose,
      inductionHypothesis (call.propose [] plan), timeless_propose, List.append_assoc,
      List.map_nil, List.nil_append]

theorem Candidate.InOrder.foldl_propose {proposed : List Candidate} (inOrder : InOrder proposed)
    (call : EdgeCall) (keys : List ParameterPlan) :
    InOrder (keys.foldl call.propose proposed) := by
  induction keys generalizing proposed with
  | nil => exact inOrder
  | cons plan rest inductionHypothesis => exact inductionHypothesis (inOrder.propose call plan)

theorem timeless_proposeCreations (scope : Scope) (ambient : List TypeParameter)
    (proposed : List Candidate) (endings : List ConstructorPlan) :
    (proposeCreations naming scope ambient proposed endings).map timeless =
      proposed.map timeless ++
        (proposeCreations naming scope ambient [] endings).map timeless := by
  unfold proposeCreations
  generalize endings.filter (fun plan => !plan.declaration.options.noCreateMethod) = creatable
  have apart : ∀ proposed : List Candidate, (creatable.foldl (fun candidates plan => candidates ++
      [{ method := plan.creation naming scope ambient
         origin := plan.declaration.target.qualifiedName
         order := candidates.length }]) proposed).map timeless =
      proposed.map timeless ++ creatable.map fun plan =>
        { method := plan.creation naming scope ambient
          origin := plan.declaration.target.qualifiedName
          order := 0 } := by
    intro proposed
    induction creatable generalizing proposed with
    | nil => exact (List.append_nil _).symm
    | cons plan rest inductionHypothesis =>
      rw [List.foldl_cons, inductionHypothesis, List.map_append, List.map_cons,
        List.append_assoc]
      rfl
  rw [apart, apart [], List.map_nil, List.nil_append]

theorem Candidate.InOrder.proposeCreations {proposed : List Candidate} (inOrder : InOrder proposed)
    (scope : Scope) (ambient : List TypeParameter) (endings : List ConstructorPlan) :
    InOrder (proposeCreations naming scope ambient proposed endings) := by
  unfold StagedBuilder.proposeCreations
  induction endings.filter (fun plan => !plan.declaration.options.noCreateMethod)
    generalizing proposed with
  | nil => exact inOrder
  | cons plan rest inductionHypothesis =>
    exact inductionHypothesis (inOrder.append_singleton rfl)

/-- What is proposed below a node, and what the walk is then, does not depend on what was proposed
before. -/
theorem branches_append (path : Path) (ambient : List TypeParameter) (children : List PlanTree)
    (proposed : List Candidate) (walk : Walk) :
    (branches naming path ambient children proposed walk).1.map timeless =
        proposed.map timeless ++ (branches naming path ambient children [] walk).1.map timeless ∧
      (branches naming path ambient children proposed walk).2 =
        (branches naming path ambient children [] walk).2 := by
  induction children generalizing proposed walk with
  | nil => exact ⟨(List.append_nil _).symm, rfl⟩
  | cons child rest inductionHypothesis =>
    rw [branches, branches]
    cases child.representative? with
    | none => exact inductionHypothesis proposed walk
    | some representative =>
      let below := path.extend representative
      let arrived := arrive naming below child walk
      let call := edgeCall path below ambient arrived.1.result arrived.1.finished
      obtain ⟨more, sameWalk⟩ :=
        inductionHypothesis (child.keys.foldl call.propose proposed) arrived.2
      obtain ⟨moreAlone, sameWalkAlone⟩ :=
        inductionHypothesis (child.keys.foldl call.propose []) arrived.2
      refine ⟨more.trans ?_, sameWalk.trans sameWalkAlone.symm⟩
      rw [timeless_foldl_propose, List.append_assoc]
      exact congrArg (proposed.map timeless ++ ·) moreAlone.symm

theorem Candidate.InOrder.branches {proposed : List Candidate} (inOrder : InOrder proposed)
    (path : Path) (ambient : List TypeParameter) (children : List PlanTree) (walk : Walk) :
    InOrder (branches naming path ambient children proposed walk).1 := by
  induction children generalizing proposed walk with
  | nil => exact inOrder
  | cons child rest inductionHypothesis =>
    rw [StagedBuilder.branches]
    cases child.representative? with
    | none => exact inductionHypothesis inOrder walk
    | some representative => exact inductionHypothesis (inOrder.foldl_propose _ child.keys) _

end

/-! ### The ledger -/

/-- What has been proposed for steps, one entry for each node that makes a step or shares one, in
the order in which the nodes are left. -/
abbrev Ledger := List (StepKey × List Candidate)

/-- All that has been proposed for the step along a way. -/
def Ledger.proposals (ledger : Ledger) (key : StepKey) : List Candidate :=
  (ledger.filter (·.1 = key)).flatMap (·.2)

namespace Walk

/-- The path that a synthesized step is made from, which is that of the earlier node if the step is
shared, and the walk that goes on below it. -/
def enter (walk : Walk) (path : Path) : Path × Walk :=
  match walk.shared? path.key with
  | some shared => (⟨shared.scope, shared.known, path.key⟩, walk)
  | none => (path, walk.reserve.2)

/-- The candidates that have survived on the step along a way. -/
def keptAt (walk : Walk) (key : StepKey) : List Candidate :=
  ((walk.shared? key).map SharedStep.survivors).getD []

end Walk

/-- What a node proposes for its synthesized step, from nothing that was proposed before. -/
def nodeProposals (naming : Naming) (creator : Path) (endings : List ConstructorPlan)
    (children : List PlanTree) (walk : Walk) : List Candidate :=
  let ambient := creator.scope.declarations
  proposeCreations naming creator.scope ambient
    (branches naming creator ambient children [] walk).1 endings

mutual

/-- What a node and the nodes below it propose for synthesized steps. -/
def arrivalLedger (naming : Naming) (path : Path) : PlanTree → Walk → Ledger
  | .node _ _ endings children, walk =>
    match nodeRole endings children.isEmpty with
    | .finish _ => []
    | .existing _ => branchLedger naming path children walk.reserve.2
    | .synthesized =>
      let (creator, walk) := walk.enter path
      branchLedger naming creator children walk ++
        [(path.key, nodeProposals naming creator endings children walk)]

/-- What the nodes below a node propose for synthesized steps. -/
def branchLedger (naming : Naming) (path : Path) : List PlanTree → Walk → Ledger
  | [], _ => []
  | child :: rest, walk =>
    match child.representative? with
    | none => branchLedger naming path rest walk
    | some representative =>
      let below := path.extend representative
      arrivalLedger naming below child walk ++
        branchLedger naming path rest (arrive naming below child walk).2

end

/-- All proposals for the synthesized steps of a tree. -/
def treeLedger (naming : Naming) (tree : PlanTree) : Ledger :=
  branchLedger naming {} tree.children {}

namespace Ledger

theorem proposals_append (first second : Ledger) (key : StepKey) :
    proposals (first ++ second) key = first.proposals key ++ second.proposals key := by
  rw [proposals, List.filter_append, List.flatMap_append]
  rfl

theorem proposals_singleton_self (key : StepKey) (proposed : List Candidate) :
    proposals [(key, proposed)] key = proposed := by
  simp [proposals]

theorem proposals_singleton_of_ne {key other : StepKey} (differ : other ≠ key)
    (proposed : List Candidate) : proposals [(key, proposed)] other = [] := by
  simp [proposals, differ.symm]

/-- For a way that has no entries nothing is proposed. -/
theorem proposals_eq_nil {ledger : Ledger} {key : StepKey}
    (without : ∀ entry ∈ ledger, entry.1 ≠ key) : ledger.proposals key = [] := by
  have nothing : ledger.filter (·.1 = key) = [] := by
    refine List.filter_eq_nil_iff.2 fun entry member isKey => ?_
    exact without entry member (of_decide_eq_true isKey)
  rw [proposals, nothing, List.flatMap_nil]

/-- The step of every way has the best of what has been proposed for it. -/
def Tallies (ledger : Ledger) (walk : Walk) : Prop :=
  ∀ key, (walk.keptAt key).map timeless = champions ((ledger.proposals key).map timeless)

end Ledger

/-! ### What the walk does to the ledger -/

section

variable {naming : Naming}

theorem Walk.key_enter (walk : Walk) (path : Path) : (walk.enter path).1.key = path.key := by
  unfold enter
  cases walk.shared? path.key <;> rfl

/-- Entering a step changes nothing that is kept. -/
theorem Walk.keptAt_enter (walk : Walk) (path : Path) (key : StepKey) :
    (walk.enter path).2.keptAt key = walk.keptAt key := by
  unfold enter
  cases walk.shared? path.key <;> rfl

mutual

/-- A node proposes something only for ways that are as long as its own or longer. -/
theorem length_le_of_mem_arrivalLedger :
    (node : PlanTree) → (path : Path) → (walk : Walk) →
      ∀ entry ∈ arrivalLedger naming path node walk, path.key.length ≤ entry.1.length
  | .node label keys endings children, path, walk => by
    intro entry member
    rw [arrivalLedger] at member
    cases role : nodeRole endings children.isEmpty with
    | finish plan =>
      rw [role] at member
      exact absurd member List.not_mem_nil
    | existing plan =>
      rw [role] at member
      exact Nat.le_of_lt (length_lt_of_mem_branchLedger children path _ entry member)
    | synthesized =>
      rw [role] at member
      rcases List.mem_append.1 member with below | here
      · rw [← walk.key_enter path]
        exact Nat.le_of_lt (length_lt_of_mem_branchLedger children _ _ entry below)
      · rw [List.mem_singleton.1 here]

/-- The nodes below a node propose something only for longer ways. -/
theorem length_lt_of_mem_branchLedger :
    (children : List PlanTree) → (path : Path) → (walk : Walk) →
      ∀ entry ∈ branchLedger naming path children walk, path.key.length < entry.1.length
  | [], _, _ => fun _ member => absurd member List.not_mem_nil
  | child :: rest, path, walk => by
    intro entry member
    rw [branchLedger] at member
    cases made : child.representative? with
    | none =>
      rw [made] at member
      exact length_lt_of_mem_branchLedger rest path walk entry member
    | some representative =>
      rw [made] at member
      rcases List.mem_append.1 member with first | later
      · have longer := length_le_of_mem_arrivalLedger child _ walk entry first
        rw [Path.key_extend, List.length_append] at longer
        exact longer
      · exact length_lt_of_mem_branchLedger rest path _ entry later

end

/-- So the nodes below a node propose nothing for its own step. -/
theorem proposals_branchLedger (children : List PlanTree) (path : Path) (walk : Walk) :
    (branchLedger naming path children walk).proposals path.key = [] := by
  refine Ledger.proposals_eq_nil fun entry member same => ?_
  have longer := length_lt_of_mem_branchLedger children path walk entry member
  rw [same] at longer
  exact Nat.lt_irrefl _ longer

theorem Walk.keptAt_share (walk : Walk) (key other : StepKey) (shared : SharedStep) :
    (walk.share key shared).keptAt other =
      if other = key then shared.survivors else walk.keptAt other := by
  unfold keptAt
  split
  · next same =>
    rw [same, shared?_share_self]
    rfl
  · next differ => rw [shared?_share_of_ne differ]

/-- A shared step is recorded again in the walk that comes from below the node. -/
theorem enterShared_eq_share (path : Path) (shared : SharedStep) (endings : List ConstructorPlan)
    (digest : Option Digest) (descend : Descent) (walk : Walk) :
    let outcome := descend ⟨shared.scope, shared.known, path.key⟩ shared.scope.declarations
      (renumber shared.survivors) walk
    ∃ before : Walk, before.shared = outcome.2.shared ∧
      (enterShared naming path shared endings digest descend walk).2 =
        before.share path.key { shared with
          survivors := Collision.survivors (Collision.resolve (proposeCreations naming
            shared.scope shared.scope.declarations outcome.1 endings)) } := by
  refine ⟨_, ?_, rfl⟩
  dsimp only
  split <;> rfl

/-- What is kept after a synthesized step has been made or shared. -/
theorem keptAt_enterSynthesized (path : Path) (endings : List ConstructorPlan)
    (digest : Option Digest) (descend : Descent) (walk : Walk) (key : StepKey) :
    let entered := walk.enter path
    let ambient := entered.1.scope.declarations
    let outcome := descend entered.1 ambient (renumber (walk.keptAt path.key)) entered.2
    (enterSynthesized naming path endings digest descend walk).2.keptAt key =
      if key = path.key then Collision.survivors (Collision.resolve
        (proposeCreations naming entered.1.scope ambient outcome.1 endings))
      else outcome.2.keptAt key := by
  unfold enterSynthesized Walk.enter Walk.keptAt
  cases found : walk.shared? path.key with
  | none => exact Walk.keptAt_share _ path.key key _
  | some shared =>
    obtain ⟨before, same, isShare⟩ :=
      enterShared_eq_share path shared endings digest descend walk
    have kept := Walk.keptAt_share before path.key key
    unfold Walk.keptAt Walk.shared? at kept
    rw [same] at kept
    dsimp only
    rw [isShare]
    exact kept _

/-- A synthesized step that is made or shared is left with the best of what was proposed for it
before and of what its node proposes. -/
theorem tallies_enterSynthesized {path : Path} {walk : Walk} {ledger : Ledger}
    (tallies : ledger.Tallies walk) (endings : List ConstructorPlan) (digest : Option Digest)
    (children : List PlanTree)
    (below : let entered := walk.enter path
      (ledger ++ branchLedger naming entered.1 children entered.2).Tallies
        (branches naming entered.1 entered.1.scope.declarations children [] entered.2).2) :
    let entered := walk.enter path
    (ledger ++ (branchLedger naming entered.1 children entered.2 ++
        [(path.key, nodeProposals naming entered.1 endings children entered.2)])).Tallies
      (enterSynthesized naming path endings digest (fun path ambient proposed walk =>
        branches naming path ambient children proposed walk) walk).2 := by
  intro entered key
  let ambient := entered.1.scope.declarations
  let kept := renumber (walk.keptAt path.key)
  obtain ⟨more, sameWalk⟩ := branches_append entered.1 ambient children kept entered.2
  rw [keptAt_enterSynthesized, Ledger.proposals_append, Ledger.proposals_append]
  by_cases isKey : key = path.key
  · have inOrder : InOrder (proposeCreations naming entered.1.scope ambient
        (branches naming entered.1 ambient children kept entered.2).1 endings) :=
      ((Candidate.inOrder_renumber _).branches entered.1 ambient children
        entered.2).proposeCreations entered.1.scope ambient endings
    have proposed : (nodeProposals naming entered.1 endings children entered.2).map timeless =
        (branches naming entered.1 ambient children [] entered.2).1.map timeless ++
          (proposeCreations naming entered.1.scope ambient [] endings).map timeless :=
      timeless_proposeCreations entered.1.scope ambient _ endings
    have nothingBelow : (branchLedger naming entered.1 children entered.2).proposals key = [] := by
      rw [isKey, ← walk.key_enter path]
      exact proposals_branchLedger children entered.1 entered.2
    rw [if_pos isKey, Collision.timeless_survivors inOrder, timeless_proposeCreations, more,
      Candidate.map_timeless_renumber, ← isKey, tallies key, nothingBelow, List.nil_append,
      Ledger.proposals_singleton_self, List.map_append, proposed, List.append_assoc,
      Collision.champions_append]
  · rw [if_neg isKey, sameWalk, below key, Ledger.proposals_append,
      Ledger.proposals_singleton_of_ne isKey, List.append_nil]

mutual

/-- Arriving at a node adds to the ledger what the steps there and below take in. -/
theorem tallies_arrive :
    (node : PlanTree) → (path : Path) → (walk : Walk) → (ledger : Ledger) → ledger.Tallies walk →
      (ledger ++ arrivalLedger naming path node walk).Tallies (arrive naming path node walk).2
  | .node label keys endings children, path, walk, ledger, tallies => by
    rw [arrive, arrivalLedger]
    cases role : nodeRole endings children.isEmpty with
    | finish plan =>
      show (ledger ++ []).Tallies walk
      rw [List.append_nil]
      exact tallies
    | existing plan =>
      exact tallies_branches children path path.scope.declarations [] walk.reserve.2 ledger tallies
    | synthesized =>
      have talliesEntered : ledger.Tallies (walk.enter path).2 := by
        intro key
        rw [walk.keptAt_enter]
        exact tallies key
      exact tallies_enterSynthesized tallies endings _ children
        (tallies_branches children (walk.enter path).1 _ [] (walk.enter path).2 ledger
          talliesEntered)

/-- So does going down to the children of a node. -/
theorem tallies_branches :
    (children : List PlanTree) → (path : Path) → (ambient : List TypeParameter) →
      (proposed : List Candidate) → (walk : Walk) → (ledger : Ledger) → ledger.Tallies walk →
        (ledger ++ branchLedger naming path children walk).Tallies
          (branches naming path ambient children proposed walk).2
  | [], _, _, _, walk, ledger, tallies => by
    show (ledger ++ []).Tallies walk
    rw [List.append_nil]
    exact tallies
  | child :: rest, path, ambient, proposed, walk, ledger, tallies => by
    rw [branches, branchLedger]
    cases child.representative? with
    | none => exact tallies_branches rest path ambient proposed walk ledger tallies
    | some representative =>
      have first := tallies_arrive child (path.extend representative) walk ledger tallies
      rw [← List.append_assoc]
      exact tallies_branches rest path ambient _ _ _ first

end

/-- After the walk of a tree every step has the methods that one resolution of all that was
proposed for it leaves. -/
theorem map_method_keptAt_walkTree (root : Root) (tree : PlanTree) (key : StepKey) :
    ((walkTree naming root tree).2.keptAt key).map Candidate.method =
      (settle ((treeLedger naming tree).proposals key)).map Candidate.method := by
  have start : Ledger.Tallies [] {} := fun _ => rfl
  have tallies : ((walkTree naming root tree).2.keptAt key).map timeless =
      champions (((treeLedger naming tree).proposals key).map timeless) :=
    tallies_branches tree.children {} root.typeParameters [] {} [] start key
  rw [← Candidate.map_method_timeless, tallies, ← Collision.timeless_settle,
    Candidate.map_method_timeless]

end

/-! ### In a builder -/

/-- Every synthesized step has the methods that one resolution of all proposals for the step leaves,
in the order in which it leaves them. So whatever was proposed for the step, by whichever node, has
lost at most to a method of its signature that has no lower priority. -/
structure Builder.ResolvesAtOnce (ledger : Ledger) (number : Nat → Nat) (builder : Builder) :
    Prop where
  methods : ∀ index step, builder.step? index = some (.synthesized step) →
    step.methods =
      ((settle (ledger.proposals step.key)).map Candidate.method).map (·.mapStep number)
  highest : ∀ index step, builder.step? index = some (.synthesized step) →
    ∀ entry ∈ ledger, entry.1 = step.key → ∀ candidate ∈ entry.2,
      ∃ method ∈ step.methods, method.signature = candidate.method.signature ∧
        candidate.method.priority ≤ method.priority

/-- Of the signature of a candidate a method is left that has no lower priority. -/
theorem exists_settled {candidates : List Candidate} {candidate : Candidate}
    (member : candidate ∈ candidates) :
    ∃ method ∈ (settle candidates).map Candidate.method,
      method.signature = candidate.method.signature ∧
        candidate.method.priority ≤ method.priority := by
  have proposed : candidate.method ∈ (renumber candidates).map Candidate.method := by
    rw [← Candidate.map_method_timeless, Candidate.map_timeless_renumber,
      Candidate.map_method_timeless]
    exact List.mem_map_of_mem member
  obtain ⟨numbered, isNumbered, sameMethod⟩ := List.mem_map.1 proposed
  obtain ⟨survivor, survives, signature, preferred⟩ := Collision.exists_survivor isNumbered
  rw [← sameMethod]
  exact ⟨survivor.method, List.mem_map_of_mem survives, signature,
    Candidate.priority_le_of_merit (Candidate.isLE_merit_of_isPreferred preferred)⟩

theorem Ledger.mem_proposals {ledger : Ledger} {entry : StepKey × List Candidate}
    (entered : entry ∈ ledger) {candidate : Candidate} (member : candidate ∈ entry.2) :
    candidate ∈ ledger.proposals entry.1 :=
  List.mem_flatMap.2 ⟨entry, List.mem_filter.2 ⟨entered, decide_eq_true rfl⟩, member⟩

section

variable {naming : Naming} {root : Root} {declarations : List Declaration} {builder : Builder}

/-- The methods of a synthesized step of the builder are those that the walk has kept. -/
theorem Builder.Origin.methods_eq (origin : builder.Origin naming root declarations)
    {number : Nat} {final : SynthesizedStep}
    (found : builder.step? number = some (.synthesized final)) :
    final.methods =
      ((origin.walk.keptAt final.key).map Candidate.method).map (·.mapStep origin.number) := by
  obtain ⟨shared, isShared, reached, rfl, -⟩ := origin.exists_shared found
  obtain ⟨filled, isFilled, -, methods⟩ :=
    (origin.sound.shared final.key shared isShared).filled
  cases found.symm.trans (origin.step?_number reached isFilled)
  rw [Walk.keptAt, isShared]
  exact congrArg (List.map _) methods

theorem Builder.ResolvesAtOnce.of_methods {ledger : Ledger} {number : Nat → Nat}
    (methods : ∀ index step, builder.step? index = some (.synthesized step) →
      step.methods =
        ((settle (ledger.proposals step.key)).map Candidate.method).map (·.mapStep number)) :
    builder.ResolvesAtOnce ledger number where
  methods := methods
  highest index step found entry entered isKey candidate member := by
    obtain ⟨method, settled, signature, priority⟩ :=
      exists_settled (Ledger.mem_proposals entered member)
    refine ⟨method.mapStep number, ?_, ?_, ?_⟩
    · rw [methods index step found, ← isKey]
      exact List.mem_map_of_mem settled
    · rw [Method.signature_mapStep, signature]
    · rw [Method.priority_mapStep]
      exact priority

end

theorem resolvesAtOnce_assembleValid (system : TypeSystem) (naming : Naming) (root : Root)
    (declarations : List Declaration) :
    let tree := planTree (planAll system naming declarations)
    let walked := walkTree naming root tree
    (assembleValid system naming root declarations).ResolvesAtOnce (treeLedger naming tree)
      (finalNumber (walked.2.kept walked.1)) := by
  refine .of_methods fun index step found => ?_
  rw [(originOfValid system naming root declarations).methods_eq found]
  exact congrArg (List.map _) (map_method_keptAt_walkTree root _ step.key)

/-- The methods that survive of two batches, the survivors of the first one numbered anew and the
second one numbered after them, are those that survive if both are resolved at once, in the same
order; so it is with any number of batches, and so it is with the methods of every synthesized step
of every builder, for which each node along its way proposes a batch. -/
theorem resolvesAtOnce_assemble :
    (∀ first second : List Candidate,
      (Collision.survivors (Collision.resolve (renumber
          (Collision.survivors (Collision.resolve (renumber first)) ++ second)))).map
          Candidate.method =
        (Collision.survivors (Collision.resolve (renumber (first ++ second)))).map
          Candidate.method) ∧
    (∀ batches : List (List Candidate),
      (batches.foldl Collision.fold []).map Candidate.method =
        (settle batches.flatten).map Candidate.method) ∧
    ∀ (system : TypeSystem) (naming : Naming) (root : Root) (declarations : List Declaration),
      let tree := planTree (planAll system naming declarations)
      let walked := walkTree naming root tree
      (assemble system naming root declarations).ResolvesAtOnce (treeLedger naming tree)
        (finalNumber (walked.2.kept walked.1)) := by
  refine ⟨Collision.map_method_settle_append, Collision.map_method_foldl_fold,
    fun system naming root declarations => ?_⟩
  by_cases refused : (Validation.findings root declarations).any Diagnostic.isError = true
  · rw [assemble_of_refused refused]
    exact .of_methods fun _ _ found => absurd found (Option.some_ne_none _).symm
  · rw [assemble_of_accepted refused]
    have valid := resolvesAtOnce_assembleValid system naming root declarations
    exact ⟨valid.methods, valid.highest⟩

end StagedBuilder
