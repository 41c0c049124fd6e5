/-
This file proves that the walks of alike trees look the same all the way. Two walks go
down side by side. Whenever one of them reserves a place, finds a step to share, resolves
collisions or puts a step, so does the other, and what they have made so far looks the
same. The induction is over one of the trees; the other has the same shape.

That numbers are seen differently matters at one point: a step of a node names a
representative of the constructors that end at the node or below it, and it names the
first constructor of all if there are none. There always are some, because nodes are made
by insertions only.
-/

import StagedBuilder.Proofs.Likeness

namespace StagedBuilder

open PrefixTree (Alike AlikeAll Branch Everywhere Recorded)

/-! ### Proposals -/

variable {first second : View}

theorem EdgeCall.Alike.propose_eq (agree : first.named = second.named) {left right : EdgeCall}
    (alike : left.Alike first second right) {plan other : ParameterPlan}
    (plans : plan.Alike first second other) {proposed others : List Candidate}
    (same : proposed.map first.candidate = others.map second.candidate) :
    (left.propose proposed plan).map first.candidate =
      (right.propose others other).map second.candidate := by
  unfold EdgeCall.propose
  rw [plans.supplies]
  refine Lists.map_foldl_append (fun place supply => left.candidate plan place supply)
    (fun place supply => right.candidate other place supply)
    (List.forall₂_same.2 fun supply _ place => ?_) same
  exact alike.candidate_eq agree plans place supply

theorem EdgeCall.Alike.foldl_propose_eq (agree : first.named = second.named)
    {left right : EdgeCall} (alike : left.Alike first second right)
    {keys otherKeys : List ParameterPlan}
    (plans : List.Forall₂ (ParameterPlan.Alike first second) keys otherKeys)
    {proposed others : List Candidate}
    (same : proposed.map first.candidate = others.map second.candidate) :
    (keys.foldl left.propose proposed).map first.candidate =
      (otherKeys.foldl right.propose others).map second.candidate := by
  induction plans generalizing proposed others with
  | nil => exact same
  | cons plansFirst _ inductionHypothesis =>
    exact inductionHypothesis (alike.propose_eq agree plansFirst same)

/-- Alike constructors are chosen by what they ask for alike. -/
theorem forall₂_filter_options {endings otherEndings : List ConstructorPlan}
    (alike : List.Forall₂ (ConstructorPlan.Alike first second) endings otherEndings)
    (test : Options → Bool) :
    List.Forall₂ (ConstructorPlan.Alike first second)
      (endings.filter fun plan => test plan.declaration.options)
      (otherEndings.filter fun plan => test plan.declaration.options) :=
  List.rel_filter (fun _ _ plans => Bool.eq_iff_iff.1 (congrArg test plans.options_eq)) alike

theorem proposeCreations_eq (agree : first.named = second.named) (naming : Naming)
    {scope other : Scope} (scopes : first.scope scope = second.scope other)
    {ambient otherAmbient : List TypeParameter}
    (ambients : first.parameters ambient = second.parameters otherAmbient)
    {proposed others : List Candidate}
    (same : proposed.map first.candidate = others.map second.candidate)
    {endings otherEndings : List ConstructorPlan}
    (alike : List.Forall₂ (ConstructorPlan.Alike first second) endings otherEndings) :
    (proposeCreations naming scope ambient proposed endings).map first.candidate =
      (proposeCreations naming other otherAmbient others otherEndings).map second.candidate := by
  have creations := forall₂_filter_options alike fun options => !options.noCreateMethod
  refine Lists.map_foldl_append
    (fun order (plan : ConstructorPlan) => (⟨plan.creation naming scope ambient,
      plan.declaration.target.qualifiedName, order⟩ : Candidate))
    (fun order (plan : ConstructorPlan) => (⟨plan.creation naming other otherAmbient,
      plan.declaration.target.qualifiedName, order⟩ : Candidate))
    (creations.imp fun plan planOther alikePlan place => ?_) same
  simp only [View.candidate, alikePlan.creation_eq agree naming scopes ambients,
    alikePlan.qualifiedName_eq]

/-! ### Nodes -/

/-- Roles of alike nodes. -/
inductive NodeRole.Alike (first second : View) : NodeRole → NodeRole → Prop
  | finish {plan other : ConstructorPlan} (alike : plan.Alike first second other) :
      NodeRole.Alike first second (.finish plan) (.finish other)
  | existing {plan other : ConstructorPlan} (alike : plan.Alike first second other) :
      NodeRole.Alike first second (.existing plan) (.existing other)
  | synthesized : NodeRole.Alike first second .synthesized .synthesized

theorem alike_nodeRole {endings otherEndings : List ConstructorPlan}
    (alike : List.Forall₂ (ConstructorPlan.Alike first second) endings otherEndings)
    (isLeaf : Bool) :
    (nodeRole endings isLeaf).Alike first second (nodeRole otherEndings isLeaf) := by
  have direct := forall₂_filter_options alike fun options => options.noCreateMethod
  have creatable := forall₂_filter_options alike fun options => !options.noCreateMethod
  unfold nodeRole
  revert direct creatable
  generalize endings.filter (fun plan => plan.declaration.options.noCreateMethod) = ends
  generalize otherEndings.filter (fun plan => plan.declaration.options.noCreateMethod) = otherEnds
  generalize endings.filter (fun plan => !plan.declaration.options.noCreateMethod) = creations
  generalize otherEndings.filter (fun plan => !plan.declaration.options.noCreateMethod) =
    otherCreations
  intro direct creatable
  cases creatable with
  | cons _ _ => exact .synthesized
  | nil =>
    cases direct with
    | nil => exact .synthesized
    | cons alikeFirst alikeRest =>
      cases alikeRest with
      | nil =>
        simp only [alikeFirst.acceptsMembers_eq]
        split
        · exact .finish alikeFirst
        · split
          · exact .existing alikeFirst
          · exact .synthesized
      | cons _ _ =>
        cases isLeaf with
        | true => exact .finish alikeFirst
        | false => exact .synthesized

/-- The digests of alike nodes look the same. -/
theorem nodeDigest?_eq {endings otherEndings : List ConstructorPlan}
    (alike : List.Forall₂ (ConstructorPlan.Alike first second) endings otherEndings)
    {children otherChildren : List PlanTree}
    (alikeAll : AlikeAll (ParameterPlan.Alike first second) (ConstructorPlan.Alike first second)
      children otherChildren) (depth : Nat) :
    (nodeDigest? depth endings children).map first.digest =
      (nodeDigest? depth otherEndings otherChildren).map second.digest := by
  have digests : ∀ {plans others : List ConstructorPlan},
      List.Forall₂ (ConstructorPlan.Alike first second) plans others →
        (plans.map ConstructorPlan.digest).map first.digest =
          (others.map ConstructorPlan.digest).map second.digest := by
    intro plans others alike
    induction alike with
    | nil => rfl
    | cons alikeFirst _ inductionHypothesis =>
      rw [List.map_cons, List.map_cons, List.map_cons, List.map_cons, inductionHypothesis,
        alikeFirst.digest_eq]
  unfold nodeDigest?
  rw [← first.mergeAll?_map, ← second.mergeAll?_map,
    digests (List.rel_append alike alikeAll.values)]

/-- There is a digest of a node with a constructor at it or below it. -/
theorem exists_nodeDigest? {endings : List ConstructorPlan} {children : List PlanTree}
    (fruitful : endings ++ PrefixTree.valuesOfAll children ≠ []) (depth : Nat) :
    ∃ digest, nodeDigest? depth endings children = some digest := by
  unfold nodeDigest?
  cases held : endings ++ PrefixTree.valuesOfAll children with
  | nil => exact absurd held fruitful
  | cons plan plans => exact ⟨_, rfl⟩

/-! ### Paths -/

theorem View.fieldName_path (view : View) (path : Path) (name : String) :
    (view.path path).fieldName name = path.fieldName name := by
  have known : (path.known.map view.known).any (·.name == name) =
      path.known.any (·.name == name) := List.any_map
  simp only [Path.fieldName, View.path, known, List.length_map]

/-- Paths that look the same have one key, and scopes and known values that look the same. -/
theorem parts_of_path {path other : Path} (paths : first.path path = second.path other) :
    first.scope path.scope = second.scope other.scope ∧
      path.known.map first.known = other.known.map second.known ∧ path.key = other.key := by
  simpa only [View.path, Path.mk.injEq] using paths

theorem path_congr {path other : Path} (scopes : first.scope path.scope = second.scope other.scope)
    (known : path.known.map first.known = other.known.map second.known)
    (key : path.key = other.key) : first.path path = second.path other := by
  simp only [View.path, scopes, known, key]

/-- Paths that look the same still do after going down alike edges. -/
theorem extend_eq (agree : first.named = second.named) {path other : Path}
    (paths : first.path path = second.path other) {plan planOther : ParameterPlan}
    (plans : plan.Alike first second planOther) :
    first.path (path.extend plan) = second.path (other.extend planOther) := by
  obtain ⟨scopesAbove, knownAbove, keyAbove⟩ := parts_of_path paths
  have scopes : first.scope (path.extend plan).scope =
      second.scope (other.extend planOther).scope := by
    refine View.scope_congr agree fun named => ?_
    rw [Path.scope_extend, Path.scope_extend, plans.introduced named,
      View.eq_of_scope agree scopesAbove named]
  have fieldName : path.fieldName planOther.key.name = other.fieldName planOther.key.name := by
    rw [← first.fieldName_path, paths, second.fieldName_path]
  have shown := View.type_display agree scopes planOther.key.type
  have known : (path.extend plan).known.map first.known =
      (other.extend planOther).known.map second.known := by
    rw [Path.known_extend, Path.known_extend, List.map_append, List.map_append, List.map_singleton,
      List.map_singleton, plans.name, plans.type, fieldName]
    refine congrArg₂ (· ++ ·) knownAbove ?_
    exact congrArg (fun type => [Known.mk planOther.key.name type _]) shown
  have key : (path.extend plan).key = (other.extend planOther).key := by
    rw [Path.key_extend, Path.key_extend, plans.type, plans.name, keyAbove]
  exact path_congr scopes known key

/-! ### Two walks -/

section

variable (first second : View)

/-- Going down led to candidates and walks that look the same. -/
structure SameDescent (left right : List Candidate × Walk) : Prop where
  candidates : left.1.map first.candidate = right.1.map second.candidate
  walk : first.walk left.2 = second.walk right.2

/-- Entering nodes returned the same and led to walks that look the same. -/
structure SameArrival (left right : Arrival × Walk) : Prop where
  result : first.result left.1.result = second.result right.1.result
  finished : Option.Rel (ConstructorPlan.Alike first second) left.1.finished right.1.finished
  walk : first.walk left.2 = second.walk right.2

/-- Two descents that keep the same what looks the same. -/
def DescendAlike (descend descendOther : Descent) : Prop :=
  ∀ {path other : Path} {ambient otherAmbient : List TypeParameter}
    {proposed others : List Candidate} {walk walkOther : Walk},
    first.path path = second.path other →
      first.parameters ambient = second.parameters otherAmbient →
        proposed.map first.candidate = others.map second.candidate →
          first.walk walk = second.walk walkOther →
            SameDescent first second (descend path ambient proposed walk)
              (descendOther other otherAmbient others walkOther)

end

theorem same_select {left right : Walk} (walks : first.walk left = second.walk right)
    {candidates others : List Candidate}
    (same : candidates.map first.candidate = others.map second.candidate) :
    SameDescent first second (left.select candidates) (right.select others) := by
  have selected := first.select_walk left candidates
  rw [walks, same, second.select_walk] at selected
  exact ⟨(Prod.mk.inj selected).1.symm, (Prod.mk.inj selected).2.symm⟩

theorem length_steps_eq {left right : Walk} (walks : first.walk left = second.walk right) :
    left.steps.length = right.steps.length := by
  rw [← first.length_steps_walk, walks, second.length_steps_walk]

theorem reserve_eq {left right : Walk} (walks : first.walk left = second.walk right) :
    first.walk left.reserve.2 = second.walk right.reserve.2 := by
  rw [first.walk_reserve, walks, second.walk_reserve]

/-- The methods of candidates that look the same look the same. -/
theorem map_method_eq {candidates others : List Candidate}
    (same : candidates.map first.candidate = others.map second.candidate) :
    (candidates.map Candidate.method).map first.method =
      (others.map Candidate.method).map second.method := by
  have seen : ∀ (view : View) (candidates : List Candidate),
      (candidates.map Candidate.method).map view.method =
        (candidates.map view.candidate).map Candidate.method := by
    intro view candidates
    rw [List.map_map, List.map_map]
    rfl
  rw [seen, same, seen]

theorem declarations_eq (agree : first.named = second.named) {scope other : Scope}
    (scopes : first.scope scope = second.scope other) :
    first.parameters scope.declarations = second.parameters other.declarations :=
  View.parameters_congr agree fun named => congrArg Scope.declarations
    (View.eq_of_scope agree scopes named)

/-- Steps that are put look the same if all their parts do. -/
theorem existing_congr {step other : ExistingStep} (index : step.index = other.index)
    (target : first.type step.target = second.type other.target)
    (constructor : first.number step.constructor = second.number other.constructor)
    (known : step.known.map first.known = other.known.map second.known)
    (declared : first.parameters step.typeParameters = second.parameters other.typeParameters)
    (methods : step.methods.map first.method = other.methods.map second.method) :
    first.step (.existing step) = second.step (.existing other) := by
  simp only [View.step, index, target, constructor, known, declared, methods]

theorem synthesized_congr {step other : SynthesizedStep} (index : step.index = other.index)
    (name : step.name = other.name)
    (known : step.known.map first.known = other.known.map second.known)
    (declared : first.parameters step.typeParameters = second.parameters other.typeParameters)
    (methods : step.methods.map first.method = other.methods.map second.method)
    (constructor : first.number step.constructor = second.number other.constructor)
    (candidates : step.candidates.map first.number = other.candidates.map second.number) :
    first.step (.synthesized step) = second.step (.synthesized other) := by
  simp only [View.step, index, name, known, declared, methods, constructor, candidates]

theorem shared_congr {shared other : SharedStep} (index : shared.index = other.index)
    (scopes : first.scope shared.scope = second.scope other.scope)
    (known : shared.known.map first.known = other.known.map second.known)
    (survivors : shared.survivors.map first.candidate = other.survivors.map second.candidate) :
    first.shared shared = second.shared other := by
  simp only [View.shared, index, scopes, known, survivors]

theorem parts_of_shared {shared other : SharedStep}
    (same : first.shared shared = second.shared other) :
    shared.index = other.index ∧ first.scope shared.scope = second.scope other.scope ∧
      shared.known.map first.known = other.known.map second.known ∧
        shared.survivors.map first.candidate = other.survivors.map second.candidate := by
  simpa only [View.shared, SharedStep.mk.injEq] using same

theorem put_eq {left right : Walk} (walks : first.walk left = second.walk right)
    {index otherIndex : Nat} (indices : index = otherIndex) {step other : Step}
    (steps : first.step step = second.step other) :
    first.walk (left.put index step) = second.walk (right.put otherIndex other) := by
  rw [first.walk_put, second.walk_put, walks, indices, steps]

theorem share_eq {left right : Walk} (walks : first.walk left = second.walk right)
    {key otherKey : StepKey} (keys : key = otherKey) {shared other : SharedStep}
    (same : first.shared shared = second.shared other) :
    first.walk (left.share key shared) = second.walk (right.share otherKey other) := by
  rw [first.walk_share, second.walk_share, walks, keys, same]

/-- A synthesized step that gets other methods and more candidates. -/
def Walk.refill (walk : Walk) (index : Nat) (methods : List Method) (added : List Nat) : Walk :=
  match walk.step? index with
  | some (.synthesized step) => walk.put index (.synthesized { step with
      methods
      candidates := insertCandidates added step.candidates })
  | _ => walk

theorem View.walk_refill (view : View) (walk : Walk) (index : Nat) (methods : List Method)
    (added : List Nat) :
    view.walk (walk.refill index methods added) =
      (view.walk walk).refill index (methods.map view.method) (added.map view.number) := by
  have looked := view.step?_walk walk index
  unfold Walk.refill
  cases held : walk.step? index with
  | none =>
    rw [held] at looked
    rw [looked]
    rfl
  | some step =>
    rw [held] at looked
    rw [looked]
    cases step with
    | existing step => rfl
    | synthesized step =>
      show view.walk (walk.put index _) = (view.walk walk).put index (.synthesized _)
      rw [view.walk_put, View.step]
      simp only [view.insertCandidates_map]

theorem refill_eq {left right : Walk} (walks : first.walk left = second.walk right)
    {index otherIndex : Nat} (indices : index = otherIndex) {methods others : List Method}
    (same : methods.map first.method = others.map second.method) {added otherAdded : List Nat}
    (numbers : added.map first.number = otherAdded.map second.number) :
    first.walk (left.refill index methods added) =
      second.walk (right.refill otherIndex others otherAdded) := by
  rw [first.walk_refill, second.walk_refill, walks, indices, same, numbers]

/-! ### Entering nodes -/

section

variable {naming : Naming} {path other : Path} {left right : Walk}
  {descend descendOther : Descent}

theorem sameArrival_enterExisting (agree : first.named = second.named)
    (paths : first.path path = second.path other) (walks : first.walk left = second.walk right)
    {plan planOther : ConstructorPlan} (plans : plan.Alike first second planOther)
    (descends : DescendAlike first second descend descendOther) :
    SameArrival first second (enterExisting path plan descend left)
      (enterExisting other planOther descendOther right) := by
  obtain ⟨scopes, known, -⟩ := parts_of_path paths
  have declared := declarations_eq agree scopes
  have length := length_steps_eq walks
  have nothing : ([] : List Candidate).map first.candidate =
      ([] : List Candidate).map second.candidate := rfl
  have below := descends paths declared nothing (reserve_eq walks)
  have selected := same_select below.walk below.candidates
  have held : (existingKnown path.known plan.declaration.constructor).map first.known =
      (existingKnown other.known planOther.declaration.constructor).map second.known := by
    rw [first.existingKnown_map, plans.declaration, second.existingKnown_map, known]
  refine ⟨congrArg Result.step length, .none, ?_⟩
  refine put_eq selected.walk length (existing_congr length ?_ plans.id held declared ?_)
  · exact plans.targetIn_eq agree scopes
  · exact map_method_eq selected.candidates

/-- The digests of two nodes look the same, and there are digests. -/
def SameDigest (first second : View) (left right : Option Digest) : Prop :=
  ∃ digest other, left = some digest ∧ right = some other ∧
    first.digest digest = second.digest other

theorem SameDigest.candidates {left right : Option Digest}
    (digests : SameDigest first second left right) :
    ((left.map Digest.candidates).getD []).map first.number =
      ((right.map Digest.candidates).getD []).map second.number := by
  obtain ⟨digest, other, rfl, rfl, same⟩ := digests
  exact congrArg Digest.candidates same

theorem SameDigest.constructor {left right : Option Digest}
    (digests : SameDigest first second left right) :
    first.number ((left.map Digest.constructor).getD 0) =
      second.number ((right.map Digest.constructor).getD 0) := by
  obtain ⟨digest, other, rfl, rfl, same⟩ := digests
  exact congrArg Digest.constructor same

theorem sameArrival_enterNew (agree : first.named = second.named)
    (paths : first.path path = second.path other) (walks : first.walk left = second.walk right)
    {endings otherEndings : List ConstructorPlan}
    (alike : List.Forall₂ (ConstructorPlan.Alike first second) endings otherEndings)
    {digest digestOther : Option Digest} (digests : SameDigest first second digest digestOther)
    (descends : DescendAlike first second descend descendOther) :
    SameArrival first second (enterNew naming path endings digest descend left)
      (enterNew naming other otherEndings digestOther descendOther right) := by
  obtain ⟨scopes, known, key⟩ := parts_of_path paths
  have declared := declarations_eq agree scopes
  have length := length_steps_eq walks
  have nothing : ([] : List Candidate).map first.candidate =
      ([] : List Candidate).map second.candidate := rfl
  have below := descends paths declared nothing (reserve_eq walks)
  have selected := same_select below.walk
    (proposeCreations_eq agree naming scopes declared below.candidates alike)
  refine ⟨congrArg Result.step length, .none, ?_⟩
  refine share_eq ?_ key (shared_congr length scopes known selected.candidates)
  refine put_eq selected.walk length (synthesized_congr length rfl known declared ?_
    digests.constructor digests.candidates)
  exact map_method_eq selected.candidates

theorem sameArrival_enterShared (agree : first.named = second.named)
    (paths : first.path path = second.path other) (walks : first.walk left = second.walk right)
    {shared sharedOther : SharedStep} (same : first.shared shared = second.shared sharedOther)
    {endings otherEndings : List ConstructorPlan}
    (alike : List.Forall₂ (ConstructorPlan.Alike first second) endings otherEndings)
    {digest digestOther : Option Digest} (digests : SameDigest first second digest digestOther)
    (descends : DescendAlike first second descend descendOther) :
    SameArrival first second (enterShared naming path shared endings digest descend left)
      (enterShared naming other sharedOther otherEndings digestOther descendOther right) := by
  obtain ⟨-, -, key⟩ := parts_of_path paths
  obtain ⟨index, scopes, known, survivors⟩ := parts_of_shared same
  have declared := declarations_eq agree scopes
  have renumbered : (Candidate.renumber shared.survivors).map first.candidate =
      (Candidate.renumber sharedOther.survivors).map second.candidate := by
    rw [← first.renumber_map, survivors, second.renumber_map]
  have creators : first.path ⟨shared.scope, shared.known, path.key⟩ =
      second.path ⟨sharedOther.scope, sharedOther.known, other.key⟩ := path_congr scopes known key
  have below := descends creators declared renumbered walks
  have selected := same_select below.walk
    (proposeCreations_eq agree naming scopes declared below.candidates alike)
  refine ⟨congrArg Result.step index, .none, ?_⟩
  refine share_eq ?_ key (shared_congr index scopes known selected.candidates)
  exact refill_eq selected.walk index (map_method_eq selected.candidates) digests.candidates

theorem sameArrival_enterSynthesized (agree : first.named = second.named)
    (paths : first.path path = second.path other) (walks : first.walk left = second.walk right)
    {endings otherEndings : List ConstructorPlan}
    (alike : List.Forall₂ (ConstructorPlan.Alike first second) endings otherEndings)
    {digest digestOther : Option Digest} (digests : SameDigest first second digest digestOther)
    (descends : DescendAlike first second descend descendOther) :
    SameArrival first second (enterSynthesized naming path endings digest descend left)
      (enterSynthesized naming other otherEndings digestOther descendOther right) := by
  obtain ⟨-, -, key⟩ := parts_of_path paths
  have looked : (left.shared? path.key).map first.shared =
      (right.shared? other.key).map second.shared := by
    rw [← first.shared?_walk, walks, key, second.shared?_walk]
  unfold enterSynthesized
  cases found : left.shared? path.key with
  | none =>
    cases foundOther : right.shared? other.key with
    | none => exact sameArrival_enterNew agree paths walks alike digests descends
    | some shared =>
      rw [found, foundOther] at looked
      cases looked
  | some shared =>
    cases foundOther : right.shared? other.key with
    | none =>
      rw [found, foundOther] at looked
      cases looked
    | some sharedOther =>
      rw [found, foundOther] at looked
      exact sameArrival_enterShared agree paths walks (Option.some.inj looked) alike digests
        descends

end

/-! ### Going down -/

/-- Calls along alike edges are alike if they lead to what looks the same. -/
theorem alike_edgeCall (agree : first.named = second.named) {parent otherParent : Path}
    (parents : first.path parent = second.path otherParent) {child otherChild : Path}
    (children : first.path child = second.path otherChild)
    {ambient otherAmbient : List TypeParameter}
    (ambients : first.parameters ambient = second.parameters otherAmbient)
    {left right : Arrival × Walk} (arrivals : SameArrival first second left right) :
    (edgeCall parent child ambient left.1.result left.1.finished).Alike first second
      (edgeCall otherParent otherChild otherAmbient right.1.result right.1.finished) := by
  obtain ⟨parentScopes, -, -⟩ := parts_of_path parents
  obtain ⟨scopes, -, -⟩ := parts_of_path children
  refine ⟨scopes, fun named => ?_, ambients, arrivals.result⟩
  have finished := arrivals.finished
  have unbound : (left.1.finished.map fun plan => plan.unboundIn child.scope) =
      right.1.finished.map fun plan => plan.unboundIn otherChild.scope := by
    revert finished
    generalize left.1.finished = finished
    generalize right.1.finished = otherFinished
    intro related
    cases related with
    | none => rfl
    | some alike => exact congrArg some (alike.unboundIn_eq agree scopes named)
  show child.scope.declarationsFrom parent.scope.size ++ _ =
    otherChild.scope.declarationsFrom otherParent.scope.size ++ _
  rw [unbound, View.eq_of_scope agree scopes named, View.eq_of_scope agree parentScopes named]

/-- Something ends below every edge. -/
theorem values_ne_nil_of_branch {inserted : List (List ParameterPlan × ConstructorPlan)}
    {above : List ParameterPlan} {representative : ParameterPlan} {child : PlanTree}
    (branch : Branch inserted above representative child) : child.values ≠ [] := by
  have onEdge : representative ∈ child.keys := List.mem_of_mem_head? branch.made
  obtain ⟨-, -, -, value, -, -, member⟩ := branch.taken representative onEdge
  exact List.ne_nil_of_mem member

variable {naming : Naming} {inserted : List (List ParameterPlan × ConstructorPlan)}

mutual

/-- Arriving at alike nodes returns what looks the same. -/
theorem sameArrival_arrive (agree : first.named = second.named) {above : List ParameterPlan} :
    (node : PlanTree) → {nodeOther : PlanTree} →
      Alike (ParameterPlan.Alike first second) (ConstructorPlan.Alike first second) node nodeOther →
        Everywhere (Recorded inserted) above node → node.values ≠ [] → {path other : Path} →
          {left right : Walk} → first.path path = second.path other →
            first.walk left = second.walk right →
              SameArrival first second (arrive naming path node left)
                (arrive naming other nodeOther right)
  | .node _ _ endings children, .node _ _ otherEndings otherChildren, alike, everywhere, fruitful,
    path, other, left, right, paths, walks => by
    cases alike with
    | node keys alikeEndings alikeChildren =>
      have branched : ∀ child ∈ children, ∃ representative,
          Branch inserted above representative child := fun child member =>
        everywhere.branch member
      have descends : DescendAlike first second
          (fun path ambient proposed walk => branches naming path ambient children proposed walk)
          (fun path ambient proposed walk =>
            branches naming path ambient otherChildren proposed walk) :=
        fun paths ambients proposals walks =>
          sameDescent_branches agree children alikeChildren branched paths ambients proposals walks
      obtain ⟨-, known, -⟩ := parts_of_path paths
      have depth : path.known.length = other.known.length := by
        rw [← List.length_map first.known, known, List.length_map]
      have digests := nodeDigest?_eq alikeEndings alikeChildren path.known.length
      obtain ⟨digest, made⟩ := exists_nodeDigest? fruitful path.known.length
      obtain ⟨digestOther, madeOther, same⟩ : ∃ digestOther,
          nodeDigest? other.known.length otherEndings otherChildren = some digestOther ∧
            first.digest digest = second.digest digestOther := by
        rw [made, depth, Option.map_some] at digests
        obtain ⟨digestOther, madeOther, same⟩ := Option.map_eq_some_iff.1 digests.symm
        exact ⟨digestOther, madeOther, same.symm⟩
      have roles := alike_nodeRole alikeEndings children.isEmpty
      rw [arrive, arrive, ← alikeChildren.isEmpty_eq, made, madeOther]
      generalize nodeRole endings children.isEmpty = role at roles ⊢
      generalize nodeRole otherEndings children.isEmpty = roleOther at roles ⊢
      cases roles with
      | finish plans =>
        obtain ⟨scopes, -, -⟩ := parts_of_path paths
        have numbers : digest.candidates.map first.number =
            digestOther.candidates.map second.number := congrArg Digest.candidates same
        exact ⟨congrArg Result.product (plans.product_eq agree scopes numbers), .some plans, walks⟩
      | existing plans => exact sameArrival_enterExisting agree paths walks plans descends
      | synthesized =>
        exact sameArrival_enterSynthesized agree paths walks alikeEndings
          ⟨digest, digestOther, rfl, rfl, same⟩ descends

/-- Going down to alike children proposes what looks the same. -/
theorem sameDescent_branches (agree : first.named = second.named) {above : List ParameterPlan} :
    (children : List PlanTree) → {others : List PlanTree} →
      AlikeAll (ParameterPlan.Alike first second) (ConstructorPlan.Alike first second)
        children others →
        (∀ child ∈ children, ∃ representative, Branch inserted above representative child) →
          {path other : Path} → {ambient otherAmbient : List TypeParameter} →
            {proposed proposedOther : List Candidate} → {left right : Walk} →
              first.path path = second.path other →
                first.parameters ambient = second.parameters otherAmbient →
                  proposed.map first.candidate = proposedOther.map second.candidate →
                    first.walk left = second.walk right →
                      SameDescent first second
                        (branches naming path ambient children proposed left)
                        (branches naming other otherAmbient others proposedOther right)
  | [], _, .nil, _, _, _, _, _, _, _, _, _, _, _, proposals, walks => ⟨proposals, walks⟩
  | child :: rest, childOther :: restOther, .cons alike alikeRest, branched, path, other, ambient,
    otherAmbient, proposed, proposedOther, left, right, paths, ambients, proposals, walks => by
    obtain ⟨representative, branch⟩ := branched child List.mem_cons_self
    have branchedRest : ∀ child ∈ rest, ∃ representative,
        Branch inserted above representative child :=
      fun child member => branched child (List.mem_cons_of_mem _ member)
    obtain ⟨representativeOther, madeOther, plans⟩ : ∃ representativeOther,
        childOther.representative? = some representativeOther ∧
          representative.Alike first second representativeOther :=
      alike.exists_representative? branch.made
    have below := extend_eq agree paths plans
    have arrivals : SameArrival first second
        (arrive naming (path.extend representative) child left)
        (arrive naming (other.extend representativeOther) childOther right) :=
      sameArrival_arrive agree child alike branch.below (values_ne_nil_of_branch branch) below walks
    have calls := alike_edgeCall agree paths below ambients arrivals
    rw [branches, branches, branch.made, madeOther]
    exact sameDescent_branches agree rest alikeRest branchedRest paths ambients
      (calls.foldl_propose_eq agree alike.keys proposals) arrivals.walk

end

/-- The walks of alike trees look the same, and so do the methods of the root. -/
theorem walkTree_eq (agree : first.named = second.named) (root : Root) {tree other : PlanTree}
    (alike : Alike (ParameterPlan.Alike first second) (ConstructorPlan.Alike first second)
      tree other)
    (everywhere : Everywhere (Recorded inserted) [] tree) :
    (walkTree naming root tree).1.map first.method =
        (walkTree naming root other).1.map second.method ∧
      first.walk (walkTree naming root tree).2 = second.walk (walkTree naming root other).2 := by
  have start : first.path {} = second.path {} := path_congr (View.scope_congr agree fun _ => rfl)
    rfl rfl
  have walks : first.walk {} = second.walk {} := rfl
  have ambients : first.parameters root.typeParameters = second.parameters root.typeParameters :=
    View.parameters_congr agree fun _ => rfl
  have nothing : ([] : List Candidate).map first.candidate =
      ([] : List Candidate).map second.candidate := rfl
  have descent : SameDescent first second
      (branches naming {} root.typeParameters tree.children [] {})
      (branches naming {} root.typeParameters other.children [] {}) :=
    sameDescent_branches agree tree.children alike.children
      (fun child member => everywhere.branch member) start ambients nothing walks
  have scopes : first.scope {} = second.scope {} := View.scope_congr agree fun _ => rfl
  have selected := same_select descent.walk
    (proposeCreations_eq agree naming scopes ambients descent.candidates alike.endings)
  exact ⟨map_method_eq selected.candidates, selected.walk⟩

end StagedBuilder
