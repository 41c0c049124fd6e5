/-
This file compares the candidates of a synthesized step with the constructors that chains
of calls from the step end at. A chain of calls only ever goes on along the way to the
step, so whatever it ends at passes a node along this way. If that node is a synthesized
step to a caller, the constructor is a candidate. If it is an existing step, it need not
be: such a node makes a step of its own, but the methods below it lead to steps that are
shared by all who have supplied the same, whichever step they come from, and there
constructors can be reached that no synthesized node on the way has below it.
-/

import StagedBuilder.Proofs.Candidates
import StagedBuilder.Proofs.Sharing
import StagedBuilder.Proofs.Survey

namespace StagedBuilder

open CallGraph (Calls methodsAt)
open PrefixTree (Under)
open Relation (ReflTransGen)

/-! ### Nodes on the way -/

section

variable {kind : NodeRole → Bool} {tree node : PlanTree} {key : StepKey} {id : Nat}

theorem exists_mem_values_of_passes (passes : node.Passes kind key id) :
    ∃ plan ∈ node.values, plan.id = id := by
  induction key generalizing node with
  | nil => exact passes.2
  | cons edge rest inductionHypothesis =>
    obtain ⟨child, member, -, -, -, passesChild⟩ := passes
    obtain ⟨plan, below, isId⟩ := inductionHypothesis passesChild
    exact ⟨plan, PrefixTree.mem_values_of_child member below, isId⟩

/-- What passes a node seen from further down passes it seen from the top. -/
theorem passes_of_under {above : List ParameterPlan} (under : Under tree above node)
    (passes : node.Passes kind key id) : tree.Passes kind (keyOf above ++ key) id := by
  induction under generalizing key with
  | top => exact passes
  | @down above node child representative under member made inductionHypothesis =>
    have fromParent : PlanTree.Passes kind node
        ((representative.key.type, representative.key.name) :: key) id :=
      ⟨child, member, representative, made, rfl, passes⟩
    rw [keyOf, List.map_append, ← keyOf, List.append_assoc]
    exact inductionHypothesis fromParent

/-- Along the way there is a node of the kind. -/
theorem exists_under_of_passes {above : List ParameterPlan} (under : Under tree above node)
    (passes : PlanTree.Passes kind node key id) :
    ∃ above met, Under tree above met ∧ kind (PlanTree.role met) = true := by
  induction key generalizing above node with
  | nil => exact ⟨above, node, under, passes.1⟩
  | cons edge rest inductionHypothesis =>
    obtain ⟨child, member, representative, made, -, passesChild⟩ := passes
    exact inductionHypothesis (under.down member made) passesChild

/-- Where something goes on a caller can call something. -/
theorem passes_isStep_of_append {edge : TypeTerm × String} {rest : StepKey}
    (passes : node.Passes kind (key ++ edge :: rest) id) : node.Passes NodeRole.isStep key id := by
  induction key generalizing node with
  | nil =>
    refine ⟨?_, exists_mem_values_of_passes passes⟩
    obtain ⟨child, member, -⟩ := passes
    rw [PlanTree.role]
    cases role : nodeRole node.endings node.children.isEmpty with
    | finish plan =>
      rw [List.isEmpty_iff.1 (nodeRole_finish role).2.2] at member
      exact absurd member List.not_mem_nil
    | existing plan => rfl
    | synthesized => rfl
  | cons first others inductionHypothesis =>
    obtain ⟨child, member, representative, made, sameEdge, passesChild⟩ := passes
    exact ⟨child, member, representative, made, sameEdge, inductionHypothesis passesChild⟩

theorem passes_isSynthesized_or_isExisting (passes : node.Passes NodeRole.isStep key id) :
    node.Passes NodeRole.isSynthesized key id ∨ node.Passes NodeRole.isExisting key id := by
  induction key generalizing node with
  | nil =>
    obtain ⟨isStep, below⟩ := passes
    cases role : node.role with
    | finish plan =>
      rw [role] at isStep
      exact absurd isStep Bool.false_ne_true
    | existing plan => exact .inr ⟨congrArg NodeRole.isExisting role, below⟩
    | synthesized => exact .inl ⟨congrArg NodeRole.isSynthesized role, below⟩
  | cons first others inductionHypothesis =>
    obtain ⟨child, member, representative, made, sameEdge, passesChild⟩ := passes
    rcases inductionHypothesis passesChild with passesSynthesized | passesExisting
    · exact .inl ⟨child, member, representative, made, sameEdge, passesSynthesized⟩
    · exact .inr ⟨child, member, representative, made, sameEdge, passesExisting⟩

/-- Where a constructor with a create method ends, a caller has a step. -/
theorem isStep_role_of_creatable {plan : ConstructorPlan} (ends : plan ∈ node.endings)
    (creatable : plan.declaration.options.noCreateMethod = false) :
    node.role.isStep = true := by
  have inCreatable : plan ∈ node.endings.filter
      fun plan => !plan.declaration.options.noCreateMethod :=
    List.mem_filter.2 ⟨ends, by rw [creatable]; rfl⟩
  rw [PlanTree.role, nodeRole]
  cases isCreatable : node.endings.filter
      fun plan => !plan.declaration.options.noCreateMethod with
  | nil =>
    rw [isCreatable] at inCreatable
    exact absurd inCreatable List.not_mem_nil
  | cons first rest => rfl

end

/-! ### Where callers are -/

/-- A caller who has supplied what the key says can be at the node. -/
inductive Located (naming : Naming) (tree : PlanTree) (walk : Walk) (key : StepKey) :
    CallNode → Prop
  | synthesized {shared : SharedStep} (found : walk.shared? key = some shared) :
      Located naming tree walk key (.step shared.index)
  | existing {index : Nat} {step : ExistingStep} {path : Path} {plan : ConstructorPlan}
      (found : walk.step? index = some (.existing step))
      (sound : step.Sound naming tree walk path plan) (leads : path.key = key) :
      Located naming tree walk key (.step index)
  | target {above : List ParameterPlan} {node : PlanTree} {plan : ConstructorPlan}
      (under : Under tree above node) (leads : keyOf above = key) (ends : plan ∈ node.endings) :
      Located naming tree walk key (.target plan.id)

section

variable {naming : Naming} {tree : PlanTree} {walk : Walk} {rootMethods : List Method}
  {key : StepKey}

theorem methodsAt_of_step? {index : Nat} {step : Step} (found : walk.step? index = some step) :
    methodsAt rootMethods walk.table (.step index) = step.methods := by
  rw [methodsAt, walk.stop?_table, found]
  rfl

/-- What can be called there is offered to someone who has supplied it. -/
theorem Located.exists_offered (sound : walk.Sound naming tree) {source : CallNode}
    (located : Located naming tree walk key source) {method : Method}
    (member : method ∈ methodsAt rootMethods walk.table source) :
    ∃ path, path.key = key ∧ Offered naming tree walk path method := by
  cases located with
  | @synthesized shared found =>
    have ofShared := sound.shared key shared found
    obtain ⟨step, isFilled, -, methods⟩ := ofShared.filled
    rw [methodsAt_of_step? isFilled] at member
    exact ⟨_, rfl, ofShared.furnished.offered method (methods ▸ member)⟩
  | existing found ofStep leads =>
    rw [methodsAt_of_step? found] at member
    exact ⟨_, leads, ofStep.furnished.offered method member⟩
  | target => exact absurd member List.not_mem_nil

/-- Further along the way a target is only below a step. -/
theorem Located.passes_isStep {edge : TypeTerm × String} {rest : StepKey} {id : Nat}
    (located : Located naming tree walk (key ++ edge :: rest) (.target id)) :
    tree.Passes NodeRole.isStep key id := by
  cases located with
  | @target above node plan under leads ends =>
    have here : PlanTree.Passes (fun _ => true) node [] plan.id :=
      ⟨rfl, plan, PrefixTree.mem_values.2 (.inl ends), rfl⟩
    have passes := passes_of_under under here
    rw [List.append_nil, leads] at passes
    exact passes_isStep_of_append passes

theorem eq_of_chain_target {id : Nat} {node : CallNode}
    (chain : ReflTransGen (Calls rootMethods walk.table) (.target id) node) :
    node = .target id := by
  rcases ReflTransGen.cases_head chain with same | ⟨next, calls, -⟩
  · exact same.symm
  · generalize atTarget : CallNode.target id = source at calls
    cases calls with
    | call member =>
      rw [← atTarget] at member
      exact absurd member List.not_mem_nil
    | arrive => cases atTarget

end

namespace Builder.Survey

variable {naming : Naming} {root : Root} {declarations : List Declaration} {builder : Builder}
  (survey : builder.Survey naming root declarations)

/-- The node that a call into a node of the tree leads to is where the caller is then. -/
theorem located_of_arrives {path : Path} {node : PlanTree} {above : List ParameterPlan}
    (under : Under survey.tree above node) (leads : keyOf above = path.key) {result : Result}
    (arrives : Arrives survey.walk path node result) :
    Located naming survey.tree survey.walk path.key result.node := by
  cases arrives with
  | finish candidates ends => exact .target under leads ends
  | @existing plan index step ends found known constructs =>
    -- The constructor of the step ends at one node only, so the step was made for this way.
    obtain ⟨other, otherPlan, sound⟩ := survey.sound.existing index step found
    obtain ⟨otherAbove, otherNode, otherUnder, otherLeads, otherEnds⟩ := sound.ends
    obtain ⟨mark, met, rfl, rfl⟩ := survey.surveyed.exists_mark survey.keyed under
    obtain ⟨otherMark, otherMet, rfl, rfl⟩ := survey.surveyed.exists_mark survey.keyed otherUnder
    obtain rfl := survey.mark_eq_of_ends met otherMet ends otherEnds
      (constructs.symm.trans sound.constructor)
    exact .existing found sound (otherLeads.symm.trans leads)
  | synthesized found sameIndex =>
    rw [← sameIndex]
    exact .synthesized found

/-- Calls go on along the way. -/
theorem located_of_calls {key : StepKey} {source target : CallNode}
    (located : Located naming survey.tree survey.walk key source)
    (calls : Calls survey.rootMethods survey.walk.table source target) :
    ∃ rest, Located naming survey.tree survey.walk (key ++ rest) target := by
  cases calls with
  | call member =>
    obtain ⟨path, rfl, offered⟩ := located.exists_offered survey.sound member
    clear member
    cases offered with
    | @edge above node child representative plan supply call order under leads member made _ _ _
        arrives =>
      rw [EdgeCall.result_candidate]
      exact ⟨_, survey.located_of_arrives (under.down member made)
        (Walked.keyOf_append_singleton leads representative) arrives⟩
    | ending ambient under leads ends =>
      refine ⟨[], ?_⟩
      rw [List.append_nil]
      exact .target under leads ends
  | @arrive index stop constructor held arrives =>
    rw [survey.walk.stop?_table] at held
    obtain ⟨step, found, rfl⟩ := Option.map_eq_some_iff.1 held
    cases located with
    | @synthesized shared isShared =>
      obtain ⟨filled, isFilled, -⟩ := (survey.sound.shared key shared isShared).filled
      cases found.symm.trans isFilled
      cases arrives
    | existing isExisting sound leads =>
      cases found.symm.trans isExisting
      cases arrives
      obtain ⟨above, node, under, atNode, ends⟩ := sound.ends
      refine ⟨[], ?_⟩
      rw [List.append_nil, sound.constructor]
      exact .target under (atNode.trans leads) ends

/-- So do chains of calls. -/
theorem located_of_chain {key : StepKey} {source target : CallNode}
    (located : Located naming survey.tree survey.walk key source)
    (chain : ReflTransGen (Calls survey.rootMethods survey.walk.table) source target) :
    ∃ rest, Located naming survey.tree survey.walk (key ++ rest) target := by
  induction chain with
  | refl => exact ⟨[], by rwa [List.append_nil]⟩
  | tail _ calls inductionHypothesis =>
    obtain ⟨rest, atNode⟩ := inductionHypothesis
    obtain ⟨further, atTarget⟩ := survey.located_of_calls atNode calls
    exact ⟨rest ++ further, by rwa [← List.append_assoc]⟩

/-- What chains of calls from a shared step end at passes a step along its way. -/
theorem passes_of_chain {key : StepKey} {shared : SharedStep}
    (found : survey.walk.shared? key = some shared) {id : Nat}
    (chain : ReflTransGen (Calls survey.rootMethods survey.walk.table) (.step shared.index)
      (.target id)) : survey.tree.Passes NodeRole.isStep key id := by
  rcases ReflTransGen.cases_head chain with same | ⟨next, calls, rest⟩
  · cases same
  generalize atStep : CallNode.step shared.index = source at calls
  cases calls with
  | call member =>
    rw [← atStep] at member
    obtain ⟨path, rfl, offered⟩ :=
      (Located.synthesized found).exists_offered survey.sound member
    clear member
    cases offered with
    | @edge above node child representative plan supply call order under leads member made _ _ _
        arrives =>
      rw [EdgeCall.result_candidate] at rest
      obtain ⟨others, located⟩ := survey.located_of_chain (survey.located_of_arrives
        (under.down member made) (Walked.keyOf_append_singleton leads representative) arrives) rest
      rw [Path.key_extend, List.append_assoc, List.singleton_append] at located
      exact located.passes_isStep
    | @ending above node plan ambient under leads ends creatable =>
      cases eq_of_chain_target rest
      have here : PlanTree.Passes NodeRole.isStep node [] plan.id :=
        ⟨isStep_role_of_creatable ends creatable, plan, PrefixTree.mem_values.2 (.inl ends), rfl⟩
      have passes := passes_of_under under here
      rwa [List.append_nil, leads] at passes
  | @arrive index stop constructor held arrives =>
    cases atStep
    obtain ⟨filled, isFilled, -⟩ := (survey.sound.shared key shared found).filled
    rw [survey.walk.stop?_table, isFilled] at held
    cases held
    cases arrives

end Builder.Survey

/-! ### In a builder -/

/-- By what the step is recognized: the positional form of the types that it knows, with the names
of the values. -/
def SynthesizedStep.key (step : SynthesizedStep) : StepKey :=
  (positionalTypes (step.known.map (·.type))).zip (step.known.map (·.name))

/-- Every synthesized step names its candidates by increasing number, and whatever chains of calls
from the step end at is a candidate. -/
def Builder.CoversReach (builder : Builder) : Prop :=
  ∀ index step, builder.step? index = some (.synthesized step) →
    step.candidates.Pairwise (· < ·) ∧
      ∀ id ∈ (CallGraph.ofBuilder builder).constructorsFrom (.step index), id ∈ step.candidates

/-- Every synthesized step names the constructors that pass a synthesized node along its way, by
increasing number. Whatever else chains of calls from the step end at passes an existing step along
its way. -/
structure Builder.ListsCandidates (tree : PlanTree) (builder : Builder) : Prop where
  increasing : ∀ index step, builder.step? index = some (.synthesized step) →
    step.candidates.Pairwise (· < ·)
  mem_iff : ∀ index step, builder.step? index = some (.synthesized step) → ∀ id,
    id ∈ step.candidates ↔ tree.Passes NodeRole.isSynthesized step.key id
  reached : ∀ index step, builder.step? index = some (.synthesized step) →
    ∀ id ∈ (CallGraph.ofBuilder builder).constructorsFrom (.step index),
      id ∈ step.candidates ∨ tree.Passes NodeRole.isExisting step.key id

/-- Where no way leads through an existing step, everything that can be reached is a candidate. -/
theorem Builder.ListsCandidates.coversReach {tree : PlanTree} {builder : Builder}
    (lists : builder.ListsCandidates tree)
    (noExisting : ∀ key id, ¬ tree.Passes NodeRole.isExisting key id) : builder.CoversReach :=
  fun index step found => ⟨lists.increasing index step found, fun id isReached =>
    (lists.reached index step found id isReached).resolve_right (noExisting step.key id)⟩

section

variable {naming : Naming} {root : Root} {declarations : List Declaration} {builder : Builder}

/-- The way for which a shared step was made is what the step is recognized by. -/
theorem SharedStep.Sound.key_eq {plans : List ConstructorPlan} {tree : PlanTree} {walk : Walk}
    {key : StepKey} {shared : SharedStep} (sound : shared.Sound naming tree walk key)
    (grown : PlanTree.Grown plans tree) (allDeclared : ∀ plan ∈ plans, plan.Declared declarations)
    {step : SynthesizedStep} (known : step.known = shared.known) : step.key = key := by
  have types := sound.walked.positionalTypes_known grown allDeclared
  have names := sound.walked.map_name_known
  rw [SynthesizedStep.key, known, types, names]
  exact (List.zip_of_prod rfl rfl).symm

/-- Every synthesized step of the builder is one that the walk shares. -/
theorem Builder.Origin.exists_shared (origin : builder.Origin naming root declarations)
    {number : Nat} {final : SynthesizedStep}
    (found : builder.step? number = some (.synthesized final)) :
    ∃ shared, origin.walk.shared? final.key = some shared ∧
      origin.Reached (.step shared.index) ∧ origin.number shared.index = number ∧
      origin.walk.candidatesAt final.key = final.candidates := by
  obtain ⟨index, step, reached, isNumber, isStep, isFinal⟩ := origin.exists_kept found
  cases step with
  | existing step => cases isFinal
  | synthesized step =>
    cases isFinal
    obtain ⟨key, shared, isShared, rfl⟩ := origin.sound.registered index step isStep
    have ofShared := origin.sound.shared key shared isShared
    obtain ⟨filled, isFilled, known, -⟩ := ofShared.filled
    cases isStep.symm.trans isFilled
    have sameKey : step.key = key := ofShared.key_eq origin.grown origin.allDeclared known
    have sameCandidates : origin.walk.candidatesAt step.key = step.candidates :=
      Walk.candidatesAt_of_filled (sameKey.symm ▸ isShared) isFilled
    exact ⟨shared, sameKey.symm ▸ isShared, reached, isNumber, sameCandidates⟩

/-- What chains of calls from a synthesized step of the builder end at passes a step along its
way. -/
theorem Builder.Survey.passes_of_mem_constructorsFrom
    (survey : builder.Survey naming root declarations) {number : Nat} {final : SynthesizedStep}
    (found : builder.step? number = some (.synthesized final)) {id : Nat}
    (isReached : id ∈ (CallGraph.ofBuilder builder).constructorsFrom (.step number)) :
    survey.tree.Passes NodeRole.isStep final.key id := by
  obtain ⟨shared, isShared, reached, rfl, -⟩ := survey.exists_shared found
  have reachedFinal : CallGraph.Reached builder.methods builder.table
      (.step (survey.number shared.index)) := survey.reached_iff.2 ⟨_, reached, rfl⟩
  have chain := (CallGraph.mem_constructorsFrom_build reachedFinal).1 isReached
  rw [survey.methods, survey.table_eq] at chain
  obtain ⟨before, chainBefore, isTarget⟩ :=
    exists_chain_of_finalNode survey.complete reached chain
  cases before <;> cases isTarget
  exact survey.passes_of_chain isShared chainBefore

end

theorem listsCandidates_assembleValid (system : TypeSystem) (naming : Naming) (root : Root)
    (declarations : List Declaration) :
    (assembleValid system naming root declarations).ListsCandidates
      (planTree (planAll system naming declarations)) := by
  obtain ⟨survey, isOrigin⟩ := exists_surveyOfValid system naming root declarations
  have isTree : survey.tree = planTree (planAll system naming declarations) :=
    congrArg Builder.Origin.tree isOrigin
  have isWalk :
      survey.walk = (walkTree naming root (planTree (planAll system naming declarations))).2 :=
    congrArg Builder.Origin.walk isOrigin
  have lists : ∀ index step,
      (assembleValid system naming root declarations).step? index = some (.synthesized step) →
        step.candidates.Pairwise (· < ·) ∧ ∀ id, id ∈ step.candidates ↔
          (planTree (planAll system naming declarations)).Passes NodeRole.isSynthesized
            step.key id := by
    intro index step found
    obtain ⟨shared, isShared, -, -, candidates⟩ := survey.exists_shared found
    rw [isWalk] at isShared candidates
    have further : step.key ≠ [] := by
      intro nothing
      rw [nothing, shared?_walkTree_nil] at isShared
      cases isShared
    rw [← candidates]
    exact ⟨increasing_candidatesAt_walkTree naming root _ step.key,
      fun id => mem_candidatesAt_walkTree naming root _ further⟩
  refine ⟨fun index step found => (lists index step found).1,
    fun index step found => (lists index step found).2, fun index step found id isReached => ?_⟩
  have passes := survey.passes_of_mem_constructorsFrom found isReached
  rw [isTree] at passes
  rw [(lists index step found).2]
  exact passes_isSynthesized_or_isExisting passes

/-- If no target takes further members, no node is an existing step to a caller. -/
theorem not_passes_isExisting {system : TypeSystem} {naming : Naming}
    {declarations : List Declaration}
    (noMembers : ∀ declaration ∈ declarations, declaration.target.acceptsMembers = false)
    (key : StepKey) (id : Nat) :
    ¬ (planTree (planAll system naming declarations)).Passes NodeRole.isExisting key id := by
  intro passes
  obtain ⟨above, node, under, isExisting⟩ := exists_under_of_passes .top passes
  unfold PlanTree.role at isExisting
  cases role : nodeRole node.endings node.children.isEmpty with
  | existing plan =>
    obtain ⟨ends, -, acceptsMembers, -⟩ := nodeRole_existing role
    have isPlan := ((PlanTree.grown_planTree _).ended under ends).1
    obtain ⟨number, declaration, declared, rfl⟩ := mem_planAll.1 (List.mem_filter.1 isPlan).1
    exact absurd acceptsMembers
      (Bool.eq_false_iff.1 (noMembers declaration (List.mem_of_getElem? declared)))
  | finish plan =>
    rw [role] at isExisting
    exact Bool.false_ne_true isExisting
  | synthesized =>
    rw [role] at isExisting
    exact Bool.false_ne_true isExisting

/-- Every builder lists candidates in this way, whatever it is made from. -/
theorem listsCandidates_assemble (system : TypeSystem) (naming : Naming) (root : Root)
    (declarations : List Declaration) :
    (assemble system naming root declarations).ListsCandidates
      (planTree (planAll system naming declarations)) := by
  by_cases refused : (Validation.findings root declarations).any Diagnostic.isError = true
  · rw [assemble_of_refused refused]
    exact ⟨fun _ _ found => absurd found (Option.some_ne_none _).symm,
      fun _ _ found => absurd found (Option.some_ne_none _).symm,
      fun _ _ found => absurd found (Option.some_ne_none _).symm⟩
  · rw [assemble_of_accepted refused]
    have lists := listsCandidates_assembleValid system naming root declarations
    exact ⟨lists.increasing, lists.mem_iff, lists.reached⟩

/-- If no target takes further members, every step names all that can be reached from it. -/
theorem coversReach_assemble (system : TypeSystem) (naming : Naming) (root : Root)
    {declarations : List Declaration}
    (noMembers : ∀ declaration ∈ declarations, declaration.target.acceptsMembers = false) :
    (assemble system naming root declarations).CoversReach := by
  by_cases refused : (Validation.findings root declarations).any Diagnostic.isError = true
  · rw [assemble_of_refused refused]
    exact fun _ _ found => absurd found (Option.some_ne_none _).symm
  · rw [assemble_of_accepted refused]
    have lists := listsCandidates_assembleValid system naming root declarations
    exact lists.coversReach (not_passes_isExisting noMembers)

/-- The candidates of a step, if it is a synthesized one. -/
def Step.candidates? : Step → Option (List Nat)
  | .synthesized step => some step.candidates
  | .existing _ => none

/-- A constructor that takes an `id` by a method of the given name. If it takes nothing further, its
target can be used to go on and it has no create method. -/
def Declaration.identified (target method : String) (further : List Parameter) : Declaration where
  constructor := {
    target := { name := target, isPartial := further.isEmpty }
    parameters := { name := "id", type := .simple "Int", methodName := some method } :: further }
  root := "Shop"
  options := { noCreateMethod := further.isEmpty }

/-- The first and the third constructor take the same values by methods of different names, and the
second one makes an existing step on the way of the third. The ways meet again where the note is
known, so the third constructor can be reached from the step where the first one has its `id`, and
this step does not name it. -/
theorem not_coversReach_assemble_identified :
    let note : Parameter := { name := "note", type := .simple "String" }
    let declarations := [Declaration.identified "Order" "ById" [note],
      .identified "Gift" "ByCode" [], .identified "Parcel" "ByCode" [note]]
    Validation.findings (.marked none "Shop") declarations = [] ∧
      ¬ (assemble {} {} (.marked none "Shop") declarations).CoversReach := by
  intro note declarations
  refine ⟨rfl, fun covers => ?_⟩
  have evaluated :
      (CallGraph.ofBuilder (assemble {} {} (.marked none "Shop") declarations)).constructorsFrom
          (.step 0) = [0, 2] ∧
        ((assemble {} {} (.marked none "Shop") declarations).step? 0).map Step.candidates? =
          some (some [0]) := by
    -- Only at the root there are methods with one signature.
    delta assemble assembleValid keptSteps walkTree Walk.select Collision.resolve
    rw [Collision.among?_eq, CallGraph.liveSteps_eq, CallGraph.constructorsFrom_eq]
    decide +kernel
  obtain ⟨reached, listed⟩ := evaluated
  obtain ⟨step, found, isListed⟩ := Option.map_eq_some_iff.1 listed
  cases step with
  | existing step => cases isListed
  | synthesized step =>
    have candidate : 2 ∈ step.candidates :=
      (covers 0 step found).2 2 (reached ▸ by decide)
    rw [Option.some.inj isListed] at candidate
    exact absurd candidate (by decide)

end StagedBuilder
