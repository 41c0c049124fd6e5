/-
This file follows the walk of a tree in which everything stands on one way, the tree of a single
constructor. The walk goes down the chain, and no step is there to be shared, because steps are
recorded on the way back only. So each node but the last makes a step of its own, whose
methods supply the next key, and the last node makes a step with the creation or, without a
creation, none.

Chains of calls come to all these steps, one after another, so all are kept and keep their
numbers.
-/

import StagedBuilder.Proofs.Likeness
import StagedBuilder.Proofs.PrefixValues
import StagedBuilder.Proofs.Trail

namespace StagedBuilder

/-! ### Single candidates -/

/-- A single candidate survives. -/
theorem Collision.survivors_singleton (candidate : Candidate) :
    survivors (resolve [candidate]) = [candidate] := by
  have alone : among? [candidate] = some ⟨candidate, []⟩ := by
    rw [among?, List.mergeSort_singleton]
  have grouped : group [candidate] candidate.method.signature = [candidate] :=
    List.filter_cons_of_pos (decide_eq_true rfl)
  rw [resolve_eq, List.map_singleton, Lists.eraseDups_of_nodup (List.nodup_singleton _),
    List.filterMap_cons, grouped, alone]
  rfl

/-! ### Steps along a way -/

namespace ConstructorPlan

variable (naming : Naming) (plan : ConstructorPlan)

/-- What a call returns that comes to the end of a way, with the given keys still to come: the
finished target if there are none and the constructor has no create method, and otherwise the
step of the given number. -/
def arrivalAlong (way rest : List ParameterPlan) (index : Nat) : Arrival :=
  if rest.isEmpty && plan.declaration.options.noCreateMethod then
    ⟨.product ⟨plan.targetIn (Path.along way).scope, plan.id, [plan.id]⟩, some plan⟩
  else ⟨.step index, none⟩

/-- The methods that supply the next key at the end of a way, with the type parameters that are
declared around them. -/
def methodsAlong (ambient : List TypeParameter) (way : List ParameterPlan) (next : ParameterPlan)
    (rest : List ParameterPlan) (index : Nat) : List Method :=
  let arrival := plan.arrivalAlong (way ++ [next]) rest index
  let call := edgeCall (Path.along way) (Path.along (way ++ [next])) ambient arrival.result
    arrival.finished
  (Collision.survivors (Collision.resolve (call.propose [] next))).map Candidate.method

/-- The step at the end of a way with the given methods. -/
def stepAlong (way : List ParameterPlan) (index : Nat) (methods : List Method) : Step :=
  .synthesized {
    index
    name := ""
    known := (Path.along way).known
    typeParameters := (Path.along way).scope.declarations
    methods
    constructor := plan.id
    candidates := [plan.id] }

/-- The steps from the end of a way on, with the given keys still to come. -/
def stepsAlong : List ParameterPlan → List ParameterPlan → Nat → List Step
  | way, [], index =>
    if plan.declaration.options.noCreateMethod then []
    else [plan.stepAlong way index
      [plan.creation naming (Path.along way).scope (Path.along way).scope.declarations]]
  | way, next :: rest, index =>
    plan.stepAlong way index
        (plan.methodsAlong (Path.along way).scope.declarations way next rest (index + 1)) ::
      stepsAlong (way ++ [next]) rest (index + 1)

end ConstructorPlan

/-! ### The walk of a chain -/

theorem nodeRole_finish_of_single {plan : ConstructorPlan}
    (noCreate : plan.declaration.options.noCreateMethod = true) :
    nodeRole [plan] true = .finish plan := by
  simp [nodeRole, noCreate]

theorem nodeRole_synthesized_of_single {plan : ConstructorPlan}
    (creates : plan.declaration.options.noCreateMethod = false) (isLeaf : Bool) :
    nodeRole [plan] isLeaf = .synthesized := by
  simp [nodeRole, creates]

/-- A node makes a new step if no step is there to be shared. The step holds what survives of
its candidates, and all that is made below it comes behind it. -/
theorem arrive_new {naming : Naming} {plan : ConstructorPlan} {way : List ParameterPlan}
    {label : Nat} {keys : List ParameterPlan} {endings : List ConstructorPlan}
    {children : List PlanTree} {walk : Walk} {candidates : List Candidate}
    {below : List (Option Step)} (role : nodeRole endings children.isEmpty = .synthesized)
    (single : endings ++ PrefixTree.valuesOfAll children = [plan]) (unshared : walk.shared = [])
    (descends : (branches naming (Path.along way) (Path.along way).scope.declarations children []
      walk.reserve.2).1 = candidates)
    (makes : (branches naming (Path.along way) (Path.along way).scope.declarations children []
      walk.reserve.2).2.steps = walk.steps ++ none :: below) :
    let outcome := arrive naming (Path.along way) (.node label keys endings children) walk
    outcome.1 = ⟨.step walk.steps.length, none⟩ ∧
      outcome.2.steps = walk.steps ++ some (plan.stepAlong way walk.steps.length
        ((Collision.survivors (Collision.resolve (proposeCreations naming (Path.along way).scope
          (Path.along way).scope.declarations candidates endings))).map
            Candidate.method)) :: below := by
  have digest : nodeDigest? (Path.along way).known.length endings children = some plan.digest := by
    rw [nodeDigest?, single]
    rfl
  have none : walk.shared? (Path.along way).key = none := by
    rw [Walk.shared?, unshared]
    rfl
  subst descends
  simp only [arrive, role, digest, enterSynthesized, none]
  refine ⟨rfl, ?_⟩
  show (branches naming (Path.along way) (Path.along way).scope.declarations children []
    walk.reserve.2).2.steps.set walk.steps.length _ = _
  rw [makes, List.set_append_right _ _ (Nat.le_refl _), Nat.sub_self]
  rfl

/-- Going down to a chain proposes what supplies its first key. -/
theorem branches_chain {naming : Naming} {plan : ConstructorPlan} {way : List ParameterPlan}
    {ambient : List TypeParameter} {label : Nat} {next : ParameterPlan}
    {rest : List ParameterPlan} {walk : Walk} {index : Nat}
    (arrives : (arrive naming (Path.along (way ++ [next])) (PrefixTree.chain label plan next rest)
      walk).1 = plan.arrivalAlong (way ++ [next]) rest index) :
    branches naming (Path.along way) ambient [PrefixTree.chain label plan next rest] [] walk =
      ((edgeCall (Path.along way) (Path.along (way ++ [next])) ambient
          (plan.arrivalAlong (way ++ [next]) rest index).result
          (plan.arrivalAlong (way ++ [next]) rest index).finished).propose [] next,
        (arrive naming (Path.along (way ++ [next])) (PrefixTree.chain label plan next rest)
          walk).2) := by
  rw [Path.along_append_singleton] at arrives ⊢
  rw [branches, PrefixTree.representative?, PrefixTree.keys_chain]
  simp only [List.head?_cons, branches, arrives, List.foldl_cons, List.foldl_nil]

/-- Arriving at a chain makes the steps along it. -/
theorem arrive_chain (naming : Naming) (plan : ConstructorPlan) (rest : List ParameterPlan) :
    ∀ (way : List ParameterPlan) (key : ParameterPlan) (label : Nat) (walk : Walk),
      walk.shared = [] →
        let outcome := arrive naming (Path.along (way ++ [key]))
          (PrefixTree.chain label plan key rest) walk
        outcome.1 = plan.arrivalAlong (way ++ [key]) rest walk.steps.length ∧
          outcome.2.steps = walk.steps ++
            (plan.stepsAlong naming (way ++ [key]) rest walk.steps.length).map some := by
  induction rest with
  | nil =>
    intro way key label walk unshared
    rw [PrefixTree.chain, ConstructorPlan.arrivalAlong, ConstructorPlan.stepsAlong]
    cases creates : plan.declaration.options.noCreateMethod with
    | true =>
      simp only [arrive, List.isEmpty_nil, nodeRole_finish_of_single creates]
      exact ⟨rfl, (List.append_nil _).symm⟩
    | false =>
      have creation : ∀ scope ambient, Collision.survivors (Collision.resolve
          (proposeCreations naming scope ambient [] [plan])) = [⟨plan.creation naming scope ambient,
            plan.declaration.target.qualifiedName, 0⟩] := by
        intro scope ambient
        rw [proposeCreations, List.filter_cons_of_pos (by rw [creates]; rfl)]
        exact Collision.survivors_singleton _
      have made := @arrive_new naming plan (way ++ [key]) label [key] [plan] [] walk [] []
        (nodeRole_synthesized_of_single creates true) rfl unshared rfl rfl
      rw [creation] at made
      exact made
  | cons next rest inductionHypothesis =>
    intro way key label walk unshared
    obtain ⟨arrives, makes⟩ :=
      inductionHypothesis (way ++ [key]) next (label + 1) walk.reserve.2 unshared
    have branched :=
      @branches_chain naming plan (way ++ [key]) (Path.along (way ++ [key])).scope.declarations
        _ _ _ _ _ arrives
    have single : [] ++ PrefixTree.valuesOfAll [PrefixTree.chain (label + 1) plan next rest] =
        [plan] := by
      rw [List.nil_append, PrefixTree.valuesOfAll, PrefixTree.values_chain]
      rfl
    have made := @arrive_new naming plan (way ++ [key]) label [key] []
      [PrefixTree.chain (label + 1) plan next rest] walk _ _ rfl single unshared
      (congrArg Prod.fst branched) (by
        rw [branched, makes]
        exact List.append_assoc ..)
    have bound : walk.reserve.2.steps.length = walk.steps.length + 1 := by
      show (walk.steps ++ [none]).length = _
      rw [List.length_append]
      rfl
    rw [bound] at made
    exact made

/-- The tree of a single usable constructor is one chain. -/
theorem planTree_single {plan : ConstructorPlan} (usable : plan.isUsable = true)
    {first : ParameterPlan} {rest : List ParameterPlan} (keys : plan.parameters = first :: rest) :
    planTree [plan] = .node 0 [] [] [PrefixTree.chain 1 plan first rest] := by
  rw [planTree, List.filter_cons_of_pos usable, List.filter_nil, List.foldl_cons, List.foldl_nil,
    keys]
  rfl

/-- The walk of a chain makes the methods that supply the first key, and the steps along it. -/
theorem walkTree_chain (naming : Naming) (root : Root) (plan : ConstructorPlan)
    (first : ParameterPlan) (rest : List ParameterPlan) :
    let outcome := walkTree naming root (.node 0 [] [] [PrefixTree.chain 1 plan first rest])
    outcome.1 = plan.methodsAlong root.typeParameters [] first rest 0 ∧
      outcome.2.steps = (plan.stepsAlong naming [first] rest 0).map some := by
  obtain ⟨arrives, makes⟩ := arrive_chain naming plan rest [] first 1 {} rfl
  have branched := @branches_chain naming plan [] root.typeParameters _ _ _ _ _ arrives
  have atRoot : branches naming {} root.typeParameters
      (PrefixTree.node 0 [] [] [PrefixTree.chain 1 plan first rest] : PlanTree).children [] {} =
        _ := branched
  simp only [walkTree, atRoot]
  exact ⟨rfl, makes⟩

/-! ### The steps one by one -/

namespace ConstructorPlan

variable (naming : Naming) (plan : ConstructorPlan)

theorem length_stepsAlong (rest : List ParameterPlan) : ∀ (way : List ParameterPlan) (index : Nat),
    (plan.stepsAlong naming way rest index).length =
      if plan.declaration.options.noCreateMethod then rest.length else rest.length + 1 := by
  induction rest with
  | nil =>
    intro way index
    rw [stepsAlong]
    split <;> rfl
  | cons next rest inductionHypothesis =>
    intro way index
    rw [stepsAlong, List.length_cons, inductionHypothesis]
    split <;> rfl

/-- The step before a key has the methods that supply the key. -/
theorem getElem?_stepsAlong {rest : List ParameterPlan} : ∀ {count : Nat} {next : ParameterPlan},
    rest[count]? = some next → ∀ (way : List ParameterPlan) (index : Nat),
      (plan.stepsAlong naming way rest index)[count]? =
        some (plan.stepAlong (way ++ rest.take count) (index + count)
          (plan.methodsAlong (Path.along (way ++ rest.take count)).scope.declarations
            (way ++ rest.take count) next (rest.drop (count + 1)) (index + count + 1))) := by
  induction rest with
  | nil => exact fun found => nomatch found
  | cons key rest inductionHypothesis =>
    intro count next found way index
    cases count with
    | zero =>
      obtain rfl := Option.some.inj found
      rw [List.take_zero, List.append_nil]
      rfl
    | succ count =>
      have below := inductionHypothesis found (way ++ [key]) (index + 1)
      rw [List.append_assoc, List.singleton_append, Nat.add_right_comm index 1] at below
      rw [stepsAlong, List.getElem?_cons_succ, below]
      rfl

/-- The step behind all keys has the creation. -/
theorem getElem?_length_stepsAlong (creates : plan.declaration.options.noCreateMethod = false)
    (rest : List ParameterPlan) : ∀ (way : List ParameterPlan) (index : Nat),
      (plan.stepsAlong naming way rest index)[rest.length]? =
        some (plan.stepAlong (way ++ rest) (index + rest.length)
          [plan.creation naming (Path.along (way ++ rest)).scope
            (Path.along (way ++ rest)).scope.declarations]) := by
  induction rest with
  | nil =>
    intro way index
    rw [stepsAlong, creates, List.append_nil]
    rfl
  | cons key rest inductionHypothesis =>
    intro way index
    have below := inductionHypothesis (way ++ [key]) (index + 1)
    rw [List.append_assoc, List.singleton_append, Nat.add_right_comm index 1] at below
    rw [stepsAlong, List.length_cons, List.getElem?_cons_succ, below]
    rfl

end ConstructorPlan

/-! ### Methods along a way -/

/-- How a way to supply the parameter of a key looks to a caller. -/
def ParameterPlan.supplySignature (key : ParameterPlan) : SupplyPlan → Signature
  | .direct name => ⟨name, [key.key.type.erased]⟩
  | .converted converted =>
    ⟨converted.converter.name, converted.parameters.map (·.type.erased)⟩

theorem EdgeCall.signature_candidate (call : EdgeCall) (key : ParameterPlan) (order : Nat)
    (supply : SupplyPlan) :
    (call.candidate key order supply).method.signature = key.supplySignature supply := by
  cases supply with
  | direct name =>
    show Signature.mk name [(call.scope.display key.key.type).erased] = _
    rw [View.erased_display]
    rfl
  | converted converted =>
    refine congrArg (Signature.mk converted.converter.name) (Eq.trans List.map_map ?_)
    exact List.map_congr_left fun parameter _ =>
      EdgeCall.Alike.erased_render converted _ _ parameter.type

theorem EdgeCall.map_signature_propose (call : EdgeCall) (proposed : List Candidate)
    (key : ParameterPlan) :
    (call.propose proposed key).map (·.method.signature) =
      proposed.map (·.method.signature) ++ key.supplies.map key.supplySignature :=
  @Lists.map_foldl_append_of_forall Candidate SupplyPlan Signature _
    (·.method.signature) _ (call.signature_candidate key) key.supplies proposed

namespace ConstructorPlan

variable {plan : ConstructorPlan} {ambient : List TypeParameter} {way rest : List ParameterPlan}
  {next : ParameterPlan} {index : Nat}

/-- There is one method for each signature among the ways to supply the key. -/
theorem map_signature_methodsAlong :
    (plan.methodsAlong ambient way next rest index).map Method.signature =
      (next.supplies.map next.supplySignature).eraseDups := by
  rw [methodsAlong, List.map_map]
  refine (Collision.map_signature_survivors _).trans (congrArg List.eraseDups ?_)
  exact EdgeCall.map_signature_propose _ [] next

/-- Each of them supplies the key and returns what is at the end of the way. -/
theorem of_mem_methodsAlong {method : Method}
    (member : method ∈ plan.methodsAlong ambient way next rest index) :
    method.source? = some (next.source (Path.along (way ++ [next])).scope) ∧
      method.result = (plan.arrivalAlong (way ++ [next]) rest index).result := by
  obtain ⟨candidate, survived, rfl⟩ := List.mem_map.1 member
  rcases mem_propose (Collision.survivor_mem survived) with nothing | ⟨supply, -, order, rfl⟩
  · exact absurd nothing List.not_mem_nil
  · exact ⟨EdgeCall.source?_candidate _ _ _ _, EdgeCall.result_candidate _ _ _ _⟩

/-- A key that can be supplied leads on. -/
theorem exists_methodAlong (supplied : next.supplies ≠ []) :
    ∃ method ∈ plan.methodsAlong ambient way next rest index,
      method.result = (plan.arrivalAlong (way ++ [next]) rest index).result := by
  have some : plan.methodsAlong ambient way next rest index ≠ [] := by
    intro none
    have signatures := @map_signature_methodsAlong plan ambient way rest next index
    rw [none, List.map_nil] at signatures
    obtain ⟨supply, others, isSome⟩ := List.exists_cons_of_ne_nil supplied
    rw [isSome, List.map_cons, List.eraseDups_cons] at signatures
    cases signatures
  obtain ⟨method, member⟩ := List.exists_mem_of_ne_nil _ some
  exact ⟨method, member, (of_mem_methodsAlong member).2⟩

end ConstructorPlan

/-! ### Steps that are all kept -/

theorem Method.mapStep_id (method : Method) : method.mapStep id = method := by
  have same : ∀ result : Result, mapStep.renumbered id result = result := by
    intro result
    cases result <;> rfl
  cases method with
  | supply method => rw [mapStep, same]
  | conversion method => rw [mapStep, same]
  | creation method => rfl

theorem Step.mapMethods_mapStep_id (step : Step) : step.mapMethods (·.mapStep id) = step := by
  have same : (fun method : Method => method.mapStep id) = id := funext Method.mapStep_id
  rw [same]
  cases step <;> rw [mapMethods, List.map_id]

/-- Among numbers in a row without gaps, each is its own place. -/
theorem finalNumber_range (count : Nat) : finalNumber (List.range count) = id := by
  funext index
  by_cases less : index < count
  · exact finalNumber_of_getElem? List.nodup_range (List.getElem?_range less)
  · have absent : (List.range count).findIdx? (· == index) = none := by
      rw [List.findIdx?_eq_none_iff]
      intro other member
      have differ : other ≠ index := fun same => less (same ▸ List.mem_range.1 member)
      exact beq_eq_false_iff_ne.2 differ
    rw [finalNumber, absent]
    rfl

namespace Builder.Origin

variable {naming : Naming} {root : Root} {declarations : List Declaration} {builder : Builder}
  (origin : builder.Origin naming root declarations)

/-- If chains of calls come to all steps, all are kept, in order. -/
theorem kept_eq_range
    (all : ∀ index < origin.walk.steps.length, origin.Reached (.step index)) :
    origin.walk.kept origin.rootMethods = List.range origin.walk.steps.length := by
  have sameMembers : (origin.walk.kept origin.rootMethods).Perm
      (List.range origin.walk.steps.length) := by
    rw [List.perm_ext_iff_of_nodup (nodup_kept _ _) List.nodup_range]
    intro index
    rw [origin.complete.mem_kept, List.mem_range]
    refine ⟨fun reached => ?_, all index⟩
    obtain ⟨step, found⟩ := Option.isSome_iff_exists.1 (origin.complete index reached)
    exact Walk.lt_length_of_step? found
  have increasing : (origin.walk.kept origin.rootMethods).Pairwise (· ≤ ·) :=
    (CallGraph.pairwise_liveSteps _).filter _
  exact sameMembers.eq_of_pairwise (fun _ _ _ _ => Nat.le_antisymm) increasing
    List.pairwise_le_range

theorem number_eq_id (all : ∀ index < origin.walk.steps.length, origin.Reached (.step index)) :
    origin.number = id := by
  rw [number, origin.kept_eq_range all, finalNumber_range]

/-- Then the steps are those of the walk, but for their names. -/
theorem getElem?_steps_eq
    (all : ∀ index < origin.walk.steps.length, origin.Reached (.step index)) (place : Nat) :
    builder.steps[place]? =
      (origin.walk.step? place).map (·.number naming.stepPrefix root.name place) := by
  have isKept : (origin.walk.kept origin.rootMethods)[place]?.bind origin.walk.step? =
      origin.walk.step? place := by
    rw [origin.kept_eq_range all]
    by_cases less : place < origin.walk.steps.length
    · rw [List.getElem?_range less, Option.bind_some]
    · have outside := Nat.le_of_not_lt less
      rw [List.getElem?_eq_none (by rw [List.length_range]; exact outside), Walk.step?,
        List.getElem?_eq_none outside]
      rfl
  rw [origin.steps, getElem?_finalSteps, isKept]
  refine congrArg (Option.map · _) (funext fun step => ?_)
  have numbers : finalNumber (origin.walk.kept origin.rootMethods) = id := origin.number_eq_id all
  rw [numbers, Step.mapMethods_mapStep_id]

/-- And so are the places. -/
theorem place?_eq (all : ∀ index < origin.walk.steps.length, origin.Reached (.step index))
    (node : CallNode) : builder.place? node = origin.place? node := by
  cases node with
  | root =>
    have same : (fun method : Method => method.mapStep origin.number) = id := by
      rw [origin.number_eq_id all]
      exact funext Method.mapStep_id
    show some _ = some _
    rw [origin.methods, Walk.finalMethods, same, List.map_id]
  | step index =>
    show (builder.steps[index]?).map Step.place = (origin.walk.step? index).map Step.place
    rw [origin.getElem?_steps_eq all, Option.map_map]
    refine congrArg (Option.map · _) (funext fun step => ?_)
    cases step <;> rfl
  | target constructor => rfl

end Builder.Origin

/-! ### Calls along a chain -/

/-- The node that a chain of calls comes to after so many calls if every call makes a step. -/
def CallNode.after : Nat → CallNode
  | 0 => .root
  | count + 1 => .step count

/-- The type parameters that are declared around the methods at the end of a way. -/
def Root.ambientAlong (root : Root) : List ParameterPlan → List TypeParameter
  | [] => root.typeParameters
  | first :: rest => (Path.along (first :: rest)).scope.declarations

/-- A builder comes from the walk of a chain all of whose keys can be supplied. -/
structure Builder.Origin.FollowsChain {naming : Naming} {root : Root}
    {declarations : List Declaration} {builder : Builder}
    (origin : builder.Origin naming root declarations) (plan : ConstructorPlan)
    (first : ParameterPlan) (rest : List ParameterPlan) : Prop where
  rootMethods : origin.rootMethods = plan.methodsAlong root.typeParameters [] first rest 0
  steps : origin.walk.steps = (plan.stepsAlong naming [first] rest 0).map some
  supplied : ∀ key ∈ first :: rest, key.supplies ≠ []

namespace Builder.Origin.FollowsChain

variable {naming : Naming} {root : Root} {declarations : List Declaration} {builder : Builder}
  {origin : builder.Origin naming root declarations} {plan : ConstructorPlan}
  {first key : ParameterPlan} {rest : List ParameterPlan} {count : Nat}

theorem step?_walk (follows : origin.FollowsChain plan first rest) (index : Nat) :
    origin.walk.step? index = (plan.stepsAlong naming [first] rest 0)[index]? := by
  rw [Walk.step?, follows.steps, List.getElem?_map]
  cases (plan.stepsAlong naming [first] rest 0)[index]? <;> rfl

theorem length_walk (follows : origin.FollowsChain plan first rest) :
    origin.walk.steps.length =
      if plan.declaration.options.noCreateMethod then rest.length else rest.length + 1 := by
  rw [follows.steps, List.length_map, plan.length_stepsAlong naming]

/-- Before a key is supplied, what comes before it is known. -/
theorem place?_walk (follows : origin.FollowsChain plan first rest)
    (found : (first :: rest)[count]? = some key) :
    origin.place? (.after count) = some ⟨(Path.along ((first :: rest).take count)).known,
      plan.methodsAlong (root.ambientAlong ((first :: rest).take count))
        ((first :: rest).take count) key ((first :: rest).drop (count + 1)) count, false⟩ := by
  cases count with
  | zero =>
    obtain rfl := Option.some.inj found
    show some (Place.mk _ origin.rootMethods _) = _
    rw [follows.rootMethods]
    rfl
  | succ count =>
    have behind : rest[count]? = some key := found
    show (origin.walk.step? count).map Step.place = _
    rw [follows.step?_walk, plan.getElem?_stepsAlong naming behind, Nat.zero_add]
    rfl

/-- The step behind all keys is there if the constructor has a create method. -/
theorem place?_last (follows : origin.FollowsChain plan first rest)
    (creates : plan.declaration.options.noCreateMethod = false) :
    origin.place? (.after (rest.length + 1)) = some ⟨(Path.along (first :: rest)).known,
      [plan.creation naming (Path.along (first :: rest)).scope
        (Path.along (first :: rest)).scope.declarations], false⟩ := by
  show (origin.walk.step? rest.length).map Step.place = _
  rw [follows.step?_walk, plan.getElem?_length_stepsAlong naming creates, Nat.zero_add,
    List.singleton_append]
  rfl

/-- Every step of the walk is a place of the chain. -/
theorem exists_place (follows : origin.FollowsChain plan first rest) {index : Nat}
    (less : index < origin.walk.steps.length) :
    ∃ methods, origin.place? (.after (index + 1)) =
      some ⟨(Path.along ((first :: rest).take (index + 1))).known, methods, false⟩ := by
  rw [follows.length_walk] at less
  by_cases within : index < rest.length
  · exact ⟨_, follows.place?_walk (List.getElem?_eq_getElem within)⟩
  · split at less
    · exact absurd less within
    · next creates =>
      obtain rfl : index = rest.length := by omega
      rw [List.take_of_length_le (Nat.le_of_eq List.length_cons)]
      exact ⟨_, follows.place?_last (Bool.eq_false_of_not_eq_true creates)⟩

/-- A chain of calls that comes to where a key is supplied goes on. -/
theorem reached_arrival (follows : origin.FollowsChain plan first rest)
    (found : (first :: rest)[count]? = some key) (reached : origin.Reached (.after count)) :
    origin.Reached (plan.arrivalAlong ((first :: rest).take count ++ [key])
      ((first :: rest).drop (count + 1)) count).result.node := by
  obtain ⟨method, member, returns⟩ := ConstructorPlan.exists_methodAlong
    (follows.supplied key (List.mem_of_getElem? found))
  refine origin.reached_next reached (List.mem_map.2 ⟨method, ?_, congrArg Result.node returns⟩)
  exact (mem_methodsAt origin.walk.stop?_table).2 ⟨_, follows.place?_walk found, member⟩

/-- A chain of calls comes to where a key is supplied. -/
theorem reached_after (follows : origin.FollowsChain plan first rest) (count : Nat) :
    count < (first :: rest).length → origin.Reached (.after count) := by
  induction count with
  | zero => exact fun _ => .refl
  | succ count inductionHypothesis =>
    intro within
    have before := Nat.lt_of_succ_lt within
    have reached := follows.reached_arrival (List.getElem?_eq_getElem before)
      (inductionHypothesis before)
    rwa [ConstructorPlan.arrivalAlong, List.drop_eq_getElem_cons within] at reached

/-- A chain of calls comes to what is behind the last key. -/
theorem reached_last (follows : origin.FollowsChain plan first rest) :
    origin.Reached (plan.arrivalAlong (first :: rest) [] rest.length).result.node := by
  have within : rest.length < (first :: rest).length := Nat.lt_succ_self _
  have reached := follows.reached_arrival (List.getElem?_eq_getElem within)
    (follows.reached_after _ within)
  rwa [List.take_append_getElem, List.take_of_length_le (Nat.le_of_eq List.length_cons),
    List.drop_of_length_le (Nat.le_of_eq List.length_cons)] at reached

/-- Chains of calls come to all steps. -/
theorem reached_step (follows : origin.FollowsChain plan first rest) :
    ∀ index < origin.walk.steps.length, origin.Reached (.step index) := by
  intro index less
  rw [follows.length_walk] at less
  by_cases within : index < rest.length
  · exact follows.reached_after (index + 1) (Nat.succ_lt_succ within)
  · split at less
    · exact absurd less within
    · next creates =>
      obtain rfl : index = rest.length := by omega
      have reached := follows.reached_last
      rwa [ConstructorPlan.arrivalAlong, if_neg (by simp [creates])] at reached

theorem length_steps (follows : origin.FollowsChain plan first rest) :
    builder.steps.length =
      if plan.declaration.options.noCreateMethod then rest.length else rest.length + 1 := by
  have same : builder.steps = (plan.stepsAlong naming [first] rest 0).mapIdx
      fun index step => step.number naming.stepPrefix root.name index := by
    refine List.ext_getElem? fun index => ?_
    rw [origin.getElem?_steps_eq follows.reached_step, follows.step?_walk, List.getElem?_mapIdx]
  rw [same, List.length_mapIdx, plan.length_stepsAlong naming]

/-- The steps of the builder are synthesized, and each knows one value more. -/
theorem exists_synthesized (follows : origin.FollowsChain plan first rest) {index : Nat}
    {step : Step} (found : builder.step? index = some step) :
    ∃ synthesized, step = .synthesized synthesized ∧
      synthesized.known = (Path.along ((first :: rest).take (index + 1))).known := by
  obtain ⟨within, -⟩ := List.getElem?_eq_some_iff.1 found
  rw [follows.length_steps, ← follows.length_walk] at within
  obtain ⟨methods, atStep⟩ := follows.exists_place within
  have isPlace : (builder.step? index).map Step.place = _ :=
    (origin.place?_eq follows.reached_step (.after (index + 1))).trans atStep
  rw [found, Option.map_some, Option.some.injEq] at isPlace
  cases step with
  | existing step => exact nomatch congrArg Place.isTarget isPlace
  | synthesized step => exact ⟨step, rfl, congrArg Place.known isPlace⟩

/-- A step from which a key is supplied was made along the keys before. -/
theorem exists_step (follows : origin.FollowsChain plan first rest)
    (found : (first :: rest)[count + 1]? = some key) :
    ∃ methods, builder.step? count =
      some ((plan.stepAlong ((first :: rest).take (count + 1)) count methods).number
        naming.stepPrefix root.name count) := by
  have behind : rest[count]? = some key := found
  rw [Builder.step?, origin.getElem?_steps_eq follows.reached_step, follows.step?_walk,
    plan.getElem?_stepsAlong naming behind, Nat.zero_add]
  exact ⟨_, rfl⟩

/-- A chain of calls ends at the constructor. -/
theorem reached_target (follows : origin.FollowsChain plan first rest) :
    origin.Reached (.target plan.id) := by
  have last := follows.reached_last
  cases creates : plan.declaration.options.noCreateMethod with
  | true =>
    rwa [ConstructorPlan.arrivalAlong, if_pos (by simp [creates])] at last
  | false =>
    rw [ConstructorPlan.arrivalAlong, if_neg (by simp [creates])] at last
    have isMethod := (mem_methodsAt origin.walk.stop?_table).2
      ⟨_, follows.place?_last creates, List.mem_singleton_self _⟩
    exact origin.reached_next last (List.mem_map.2 ⟨_, isMethod, rfl⟩)

end Builder.Origin.FollowsChain

end StagedBuilder
