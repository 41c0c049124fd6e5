/-
This file proves that no step of a walk is without methods. At every node below the root a
constructor ends or something goes on, because the node was made by an insertion; and what
goes on can be supplied, because constructors that cannot be are left out. A synthesized
step therefore has a creation or a way to go on: a node at which nothing goes on and that
has no creation is a finished target, not a step. Collisions leave one method of each
signature, so they never take the last one.
-/

import Mathlib.Algebra.GroupWithZero.Nat
import StagedBuilder.Proofs.Soundness

namespace StagedBuilder

open PrefixTree (Under)

/-! ### Proposals are not lost -/

theorem length_propose (call : EdgeCall) (proposed : List Candidate) (plan : ParameterPlan) :
    (call.propose proposed plan).length = proposed.length + plan.supplies.length :=
  Lists.length_foldl_append (fun order supply => call.candidate plan order supply) _ _

theorem length_foldl_propose (call : EdgeCall) (keys : List ParameterPlan)
    (proposed : List Candidate) :
    (keys.foldl call.propose proposed).length =
      proposed.length + (keys.map (·.supplies.length)).sum := by
  induction keys generalizing proposed with
  | nil => rfl
  | cons first rest inductionHypothesis =>
    rw [List.foldl_cons, inductionHypothesis, length_propose, List.map_cons, List.sum_cons,
      Nat.add_assoc]

/-- The constructors among those that end at a node that have a create method. -/
abbrev creatable (endings : List ConstructorPlan) : List ConstructorPlan :=
  endings.filter fun plan => !plan.declaration.options.noCreateMethod

theorem length_proposeCreations (naming : Naming) (scope : Scope) (ambient : List TypeParameter)
    (proposed : List Candidate) (endings : List ConstructorPlan) :
    (proposeCreations naming scope ambient proposed endings).length =
      proposed.length + (creatable endings).length :=
  Lists.length_foldl_append (fun order (plan : ConstructorPlan) =>
    (⟨plan.creation naming scope ambient, plan.declaration.target.qualifiedName, order⟩ :
      Candidate)) _ _

/-- A node at which nothing goes on is a step only if it has a creation. -/
theorem nodeRole_synthesized {endings : List ConstructorPlan} {isLeaf : Bool}
    (role : nodeRole endings isLeaf = .synthesized) (leaf : isLeaf = true) (ends : endings ≠ []) :
    creatable endings ≠ [] := by
  intro noCreation
  have allDirect : endings.filter (fun plan => plan.declaration.options.noCreateMethod) =
      endings := by
    refine List.filter_eq_self.2 fun plan member => ?_
    have notCreatable := List.filter_eq_nil_iff.1 noCreation plan member
    rwa [Bool.not_eq_true', Bool.not_eq_false] at notCreatable
  obtain ⟨first, rest, rfl⟩ := List.exists_cons_of_ne_nil ends
  unfold nodeRole at role
  rw [show List.filter _ _ = [] from noCreation, allDirect, leaf] at role
  cases rest <;> cases role

/-! ### Trees in which everything goes on -/

/-- At every node below the root a constructor ends or something goes on, and what goes on can
be supplied. -/
structure PlanTree.Live (tree : PlanTree) : Prop where
  supplied : ∀ above node, Under tree above node → ∀ child ∈ node.children,
    ∃ representative, child.representative? = some representative ∧ representative.supplies ≠ []
  continued : ∀ above node, Under tree above node → ∀ child ∈ node.children,
    child.endings ≠ [] ∨ child.children ≠ []

theorem ConstructorPlan.supplies_ne_nil {plan : ConstructorPlan} (usable : plan.isUsable = true)
    {parameter : ParameterPlan} (member : parameter ∈ plan.parameters) :
    parameter.supplies ≠ [] := by
  have supplied := List.all_eq_true.1 usable parameter member
  rwa [Bool.not_eq_true', List.isEmpty_eq_false_iff] at supplied

/-- A tree that is grown from usable constructors is live. -/
theorem PlanTree.Grown.live {plans : List ConstructorPlan} {tree : PlanTree}
    (grown : PlanTree.Grown plans tree) (usable : ∀ plan ∈ plans, plan.isUsable = true) :
    PlanTree.Live tree where
  supplied above node under child member := by
    have recorded := (PrefixTree.Everywhere.of_under grown under).here
    obtain ⟨representative, made⟩ := recorded.made child member
    obtain ⟨plan, isPlan, -, before, after, parts, -⟩ :=
      grown.carried under member (List.mem_of_mem_head? made)
    refine ⟨representative, made, ConstructorPlan.supplies_ne_nil (usable plan isPlan) ?_⟩
    rw [parts]
    exact List.mem_append_right _ List.mem_cons_self
  continued above node under child member := by
    have recorded := (PrefixTree.Everywhere.of_under grown under).here
    obtain ⟨representative, made⟩ := recorded.made child member
    obtain ⟨plan, -, below, -⟩ := grown.carried under member (List.mem_of_mem_head? made)
    rcases PrefixTree.mem_values.1 below with ends | ⟨other, isChild, -⟩
    · exact Or.inl (List.ne_nil_of_mem ends)
    · exact Or.inr (List.ne_nil_of_mem isChild)

/-! ### Steps with methods -/

/-- Every step has a method. -/
def Walk.Stocked (walk : Walk) : Prop :=
  ∀ index step, walk.step? index = some step → step.methods ≠ []

namespace Walk.Stocked

variable {walk : Walk}

theorem start : ({} : Walk).Stocked :=
  fun _ _ found => absurd found (Option.some_ne_none _).symm

theorem of_same (stocked : walk.Stocked) {later : Walk}
    (steps : ∀ index, later.step? index = walk.step? index) : later.Stocked :=
  fun index step found => stocked index step ((steps index).symm.trans found)

theorem put (stocked : walk.Stocked) (index : Nat) {step : Step} (methods : step.methods ≠ []) :
    (walk.put index step).Stocked := by
  intro other found isFound
  rcases eq_or_step?_of_step?_put isFound with ⟨-, rfl⟩ | ⟨-, before⟩
  · exact methods
  · exact stocked other found before

theorem share (stocked : walk.Stocked) (key : StepKey) (step : SharedStep) :
    (walk.share key step).Stocked :=
  stocked.of_same fun _ => rfl

end Walk.Stocked

/-- A descent that keeps a walk stocked and proposes at least so many methods. -/
def StocksFrom (count : Nat) (descend : Descent) : Prop :=
  ∀ (path : Path) (ambient : List TypeParameter) (proposed : List Candidate) (walk : Walk),
    walk.Stocked → (descend path ambient proposed walk).2.Stocked ∧
      proposed.length + count ≤ (descend path ambient proposed walk).1.length

/-- If anything is proposed, there are methods after collisions are resolved. -/
theorem methods_ne_nil {candidates : List Candidate} (something : 0 < candidates.length) :
    (Collision.survivors (Collision.resolve candidates)).map Candidate.method ≠ [] := by
  rw [Ne, List.map_eq_nil_iff, Collision.survivors_eq_nil]
  exact List.ne_nil_of_length_pos something

section

variable {naming : Naming} {path : Path} {walk : Walk} {count : Nat} {descend : Descent}

theorem stocked_enterExisting (plan : ConstructorPlan) (stocked : walk.Stocked)
    (stocks : StocksFrom count descend) (something : 0 < count) :
    (enterExisting path plan descend walk).2.Stocked := by
  obtain ⟨after, longer⟩ := stocks path path.scope.declarations [] walk.reserve.2
    (stocked.of_same walk.step?_reserve)
  rw [List.length_nil, Nat.zero_add] at longer
  refine Walk.Stocked.put ?_ walk.steps.length ?_
  · exact after.of_same fun _ => rfl
  · exact methods_ne_nil (Nat.lt_of_lt_of_le something longer)

theorem stocked_enterNew {endings : List ConstructorPlan} (digest : Option Digest)
    (stocked : walk.Stocked) (stocks : StocksFrom count descend)
    (something : 0 < count + (creatable endings).length) :
    (enterNew naming path endings digest descend walk).2.Stocked := by
  obtain ⟨after, longer⟩ := stocks path path.scope.declarations [] walk.reserve.2
    (stocked.of_same walk.step?_reserve)
  rw [List.length_nil, Nat.zero_add] at longer
  refine Walk.Stocked.share (Walk.Stocked.put ?_ walk.steps.length ?_) _ _
  · exact after.of_same fun _ => rfl
  · refine methods_ne_nil ?_
    rw [length_proposeCreations]
    exact Nat.lt_of_lt_of_le something (Nat.add_le_add_right longer _)

theorem stocked_enterShared {endings : List ConstructorPlan} (digest : Option Digest)
    (shared : SharedStep) (stocked : walk.Stocked) (stocks : StocksFrom count descend)
    (something : 0 < count + (creatable endings).length) :
    (enterShared naming path shared endings digest descend walk).2.Stocked := by
  obtain ⟨after, longer⟩ := stocks ⟨shared.scope, shared.known, path.key⟩
    shared.scope.declarations (Candidate.renumber shared.survivors) walk stocked
  have longest := Nat.le_trans (Nat.le_add_left count _) longer
  dsimp only [enterShared]
  refine Walk.Stocked.share ?_ _ _
  split
  · refine Walk.Stocked.put ?_ shared.index ?_
    · exact after.of_same fun _ => rfl
    · refine methods_ne_nil ?_
      rw [length_proposeCreations]
      exact Nat.lt_of_lt_of_le something (Nat.add_le_add_right longest _)
  · exact after.of_same fun _ => rfl

end

/-! ### The whole tree -/

variable {naming : Naming} {tree : PlanTree}

mutual

/-- Arriving at a node keeps a walk stocked. -/
theorem stocked_arrive {above : List ParameterPlan} : (node : PlanTree) → (path : Path) →
    (walk : Walk) → PlanTree.Live tree → Under tree above node →
      node.endings ≠ [] ∨ node.children ≠ [] → walk.Stocked →
        (arrive naming path node walk).2.Stocked
  | .node label keys endings children, path, walk, live, under, continued, stocked => by
    have stocks : StocksFrom children.length fun path ambient proposed walk =>
        branches naming path ambient children proposed walk :=
      fun path ambient proposed walk stocked =>
        stocked_branches children live under (fun child member => member) path ambient proposed
          walk stocked
    rw [arrive]
    cases role : nodeRole endings children.isEmpty with
    | finish plan => exact stocked
    | existing plan =>
      have notLeaf := (nodeRole_existing role).2.2.2
      rw [List.isEmpty_eq_false_iff] at notLeaf
      exact stocked_enterExisting plan stocked stocks (List.length_pos_of_ne_nil notLeaf)
    | synthesized =>
      have something : 0 < children.length + (creatable endings).length := by
        by_cases leaf : children.isEmpty = true
        · have ends : endings ≠ [] :=
            continued.resolve_right fun goesOn => goesOn (List.isEmpty_iff.1 leaf)
          exact Nat.add_pos_right _
            (List.length_pos_of_ne_nil (nodeRole_synthesized role leaf ends))
        · rw [Bool.not_eq_true, List.isEmpty_eq_false_iff] at leaf
          exact Nat.add_pos_left (List.length_pos_of_ne_nil leaf) _
      show Walk.Stocked (enterSynthesized naming path endings _ _ walk).2
      unfold enterSynthesized
      cases walk.shared? path.key with
      | none => exact stocked_enterNew _ stocked stocks something
      | some shared => exact stocked_enterShared _ shared stocked stocks something

/-- Going down to children of a node keeps a walk stocked and proposes a method for each. -/
theorem stocked_branches {above : List ParameterPlan} {node : PlanTree} :
    (children : List PlanTree) → PlanTree.Live tree → Under tree above node →
      (∀ child ∈ children, child ∈ node.children) → (path : Path) →
        (ambient : List TypeParameter) → (proposed : List Candidate) → (walk : Walk) →
          walk.Stocked → (branches naming path ambient children proposed walk).2.Stocked ∧
            proposed.length + children.length ≤
              (branches naming path ambient children proposed walk).1.length
  | [], live, under, included, path, ambient, proposed, walk, stocked =>
    ⟨stocked, Nat.le_refl _⟩
  | child :: rest, live, under, included, path, ambient, proposed, walk, stocked => by
    have includedRest : ∀ other ∈ rest, other ∈ node.children :=
      fun other member => included other (List.mem_cons_of_mem _ member)
    have member : child ∈ node.children := included child List.mem_cons_self
    obtain ⟨representative, made, supplied⟩ := live.supplied above node under child member
    let outcome := arrive naming (path.extend representative) child walk
    have after : outcome.2.Stocked :=
      stocked_arrive child _ walk live (under.down member made)
        (live.continued above node under child member) stocked
    let call := edgeCall path (path.extend representative) ambient outcome.1.result
      outcome.1.finished
    have longer : proposed.length + 1 ≤ (child.keys.foldl call.propose proposed).length := by
      obtain ⟨others, isKeys⟩ := List.head?_eq_some_iff.1 made
      have positive := List.length_pos_of_ne_nil supplied
      rw [length_foldl_propose, isKeys, List.map_cons, List.sum_cons]
      omega
    obtain ⟨last, longest⟩ := stocked_branches rest live under includedRest path ambient
      (child.keys.foldl call.propose proposed) outcome.2 after
    rw [branches, made]
    refine ⟨last, Nat.le_trans ?_ longest⟩
    rw [List.length_cons, Nat.add_comm rest.length, ← Nat.add_assoc]
    exact Nat.add_le_add_right longer _

end

/-- Going down from the root keeps a walk stocked and proposes a method for each child. -/
theorem stocked_root (naming : Naming) (root : Root) (live : PlanTree.Live tree) :
    (branches naming {} root.typeParameters tree.children [] {}).2.Stocked ∧
      tree.children.length ≤
        (branches naming {} root.typeParameters tree.children [] {}).1.length := by
  have atRoot : (branches naming {} root.typeParameters tree.children [] {}).2.Stocked ∧ _ :=
    stocked_branches tree.children live .top (fun child member => member) {} root.typeParameters []
      {} .start
  rwa [List.length_nil, Nat.zero_add] at atRoot

/-- The walk of a live tree is stocked. -/
theorem stocked_walkTree (naming : Naming) (root : Root) (live : PlanTree.Live tree) :
    (walkTree naming root tree).2.Stocked :=
  (stocked_root naming root live).1.of_same fun _ => rfl

/-- The root has no methods if and only if nothing goes on there and no constructor with a create
method ends there. -/
theorem walkTree_eq_nil (naming : Naming) (root : Root) (live : PlanTree.Live tree) :
    (walkTree naming root tree).1 = [] ↔ tree.children = [] ∧ creatable tree.endings = [] := by
  have methods : (walkTree naming root tree).1 =
      (Collision.survivors (Collision.resolve (proposeCreations naming {} root.typeParameters
        (branches naming {} root.typeParameters tree.children [] {}).1 tree.endings))).map
          Candidate.method := rfl
  rw [methods, List.map_eq_nil_iff, Collision.survivors_eq_nil, ← List.length_eq_zero_iff,
    length_proposeCreations, Nat.add_eq_zero_iff, List.length_eq_zero_iff, List.length_eq_zero_iff]
  refine and_congr_left fun _ => ⟨fun noProposal => ?_, fun noChild => ?_⟩
  · have longer := (stocked_root naming root live).2
    rw [noProposal, List.length_nil, Nat.le_zero, List.length_eq_zero_iff] at longer
    exact longer
  · rw [noChild]
    rfl

end StagedBuilder
