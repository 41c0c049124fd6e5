/-
This file proves that the builder of a single constructor is a chain. The root's methods supply
the first parameter, the methods of each step the next one, and with the last parameter the
target is finished or, if the constructor has a create method, a last step is reached that has
this method and no other. Nothing is dropped and nothing reported as unreachable, whatever
collisions there are among the ways to supply one parameter, since all of these lead the same
way.

With one constructor alone no name has to give way to another, so the steps show its type
parameters, and with them all types, as the constructor declares them.
-/

import StagedBuilder.Proofs.CanonicalForm
import StagedBuilder.Proofs.ChainWalk

namespace StagedBuilder

/-! ### Sources -/

/-- The signatures of the methods that can supply a parameter: one that takes its value, or one for
each converter of its group that fits. -/
def Parameter.signatures (system : TypeSystem) (naming : Naming) (parameter : Parameter) :
    List Signature :=
  match parameter.group with
  | none =>
    [⟨parameter.methodName.getD (naming.supplyName parameter.name), [parameter.type.erased]⟩]
  | some group => (group.fitting system parameter.type).map fun (converter, bound) =>
    ⟨converter.name, converter.parameters.map fun taken => (taken.type.substitute bound).erased⟩

/-- Nothing but numbers is put in the place of type parameters. -/
theorem Numbering.erased_positional (numbering : Numbering) (type : TypeTerm) :
    (numbering.positional type).erased = type.erased := by
  refine TypeTerm.erased_substitute (fun entry member => ?_) type
  obtain ⟨pair, -, rfl⟩ := List.mem_map.1 member
  rfl

namespace Declaration

variable {system : TypeSystem} {naming : Naming} {id : Nat} {declaration : Declaration}

/-- The plan of a parameter at its place. -/
theorem exists_form (system : TypeSystem) (naming : Naming) (id : Nat) {place : Nat}
    {parameter : Parameter}
    (isParameter : declaration.constructor.parameters[place]? = some parameter) :
    ∃ form, form.type = (numberingOf declaration.types).positional parameter.type ∧
      (declaration.plan system naming id).parameters[place]? =
        some (parameterPlan system naming id declaration (numberingOf declaration.types) place
          parameter form) := by
  obtain ⟨key, isKey, -⟩ := exists_parameterPlan system naming id isParameter
  obtain ⟨declared, form, isDeclared, isForm, rfl⟩ := getElem?_parameters_plan isKey
  obtain rfl := Option.some.inj (isDeclared.symm.trans isParameter)
  refine ⟨form, ?_, isKey⟩
  have types := congrArg (·[place]?) (map_type_positionalForm declaration.types)
  simp only [List.getElem?_map, isForm, isParameter, Option.map_some, Option.some.injEq] at types
  exact types

/-- A parameter is supplied by its sources. -/
theorem map_supplySignature {place : Nat} {parameter : Parameter} {form : Positioned}
    (positional : form.type = (numberingOf declaration.types).positional parameter.type) :
    let key := parameterPlan system naming id declaration (numberingOf declaration.types) place
      parameter form
    key.supplies.map key.supplySignature = parameter.signatures system naming := by
  intro key
  show (Declaration.supplies system naming _ parameter).map key.supplySignature = _
  unfold Declaration.supplies Parameter.signatures
  cases parameter.group with
  | none =>
    show [Signature.mk _ [form.type.erased]] = _
    rw [positional, Numbering.erased_positional]
  | some group =>
    -- What is planned for a converter depends on its place only for its siblings.
    dsimp only
    conv_rhs => rw [← List.zipIdx_map_fst 0 (group.fitting system parameter.type)]
    rw [ConverterGroup.plans, List.map_map, List.map_map, List.map_map]
    refine List.map_congr_left ?_
    rintro ⟨⟨converter, bound⟩, -⟩ -
    refine congrArg (Signature.mk converter.name) (List.map_map.trans ?_)
    exact List.map_congr_left fun taken _ => TypeTerm.erased_substitute_map
      (numberingOf declaration.types).erased_positional bound taken.type

/-! ### Names along a chain -/

/-- Read along the first keys, the type parameters are introduced with their numbers. -/
theorem introduced_take_plan (count : Nat) :
    (((declaration.plan system naming id).parameters.take count).flatMap (·.introduced)).map
        (fun entry => (entry.1, entry.2.1)) =
      (numberingOf (declaration.types.take count)).names.zipIdx.map Prod.swap := by
  have forms : (declaration.plan system naming id).parameters.map
      (fun key => key.introduced.map fun entry => (entry.1, entry.2.1)) =
        (positionalForm declaration.types).2.map (·.introduced) :=
    map_parameters_plan_of_form fun _ _ _ => List.map_map.trans (List.map_id _)
  rw [List.map_flatMap, ← introduced_positionalForm, List.flatMap_def, List.flatMap_def,
    List.map_take, forms, take_positionalForm, List.map_take]

/-- The scope calls the type parameters as the constructor does. -/
theorem names_along (system : TypeSystem) (naming : Naming) (id : Nat) (declaration : Declaration)
    (count : Nat) :
    (Path.along ((declaration.plan system naming id).parameters.take count)).scope.names =
      (numberingOf (declaration.types.take count)).names := by
  have both := @introduced_take_plan system naming id declaration count
  rw [Path.scope_along]
  generalize ((declaration.plan system naming id).parameters.take count).flatMap
    (·.introduced) = introduced at both ⊢
  have length := congrArg List.length both
  have numbers := congrArg (List.map Prod.fst) both
  have names := congrArg (List.map Prod.snd) both
  rw [List.length_map, List.length_map, List.length_zipIdx] at length
  rw [List.map_map, List.map_map] at numbers names
  have consecutive : introduced.map (·.1) = List.range' 0 introduced.length := by
    rw [length]
    exact numbers.trans (List.zipIdx_map_snd ..)
  have isNames : introduced.map (·.2.1) = (numberingOf (declaration.types.take count)).names :=
    names.trans (List.zipIdx_map_fst ..)
  rw [Scope.names_bindAll {} introduced consecutive (by rw [isNames]; exact nodup_numberingOf _),
    isNames]
  rfl

/-- So it shows the types of the parameters as they are. -/
theorem display_along {place count : Nat} (within : place < count) {parameter : Parameter}
    (isParameter : declaration.constructor.parameters[place]? = some parameter) :
    (Path.along ((declaration.plan system naming id).parameters.take count)).scope.display
      ((numberingOf declaration.types).positional parameter.type) = parameter.type := by
  refine Scope.display_positional_of_isPrefix ?_ fun name occurs => ?_
  · rw [names_along]
    exact Numbering.names_take_isPrefix _ _
  · rw [names_along]
    refine mem_numberingOf_take ?_ within occurs
    rw [List.getElem?_map, isParameter, Option.map_some]

/-- What is known along the first keys are the first parameters. -/
theorem map_known_along (system : TypeSystem) (naming : Naming) (id : Nat)
    (declaration : Declaration) (count : Nat) :
    (Path.along ((declaration.plan system naming id).parameters.take count)).known.map
        (fun value => (value.name, value.type)) =
      (declaration.constructor.parameters.take count).map
        fun parameter => (parameter.name, parameter.type) := by
  induction count with
  | zero => rfl
  | succ count inductionHypothesis =>
    rw [List.take_add_one, List.take_add_one]
    cases isParameter : declaration.constructor.parameters[count]? with
    | none =>
      have isKey : (declaration.plan system naming id).parameters[count]? = none := by
        rw [List.getElem?_eq_none_iff] at isParameter ⊢
        rwa [length_parameters_plan]
      rw [isKey, Option.toList_none, Option.toList_none, List.append_nil, List.append_nil,
        inductionHypothesis]
    | some parameter =>
      obtain ⟨form, positional, isKey⟩ := exists_form system naming id isParameter
      have shown := @display_along system naming id declaration _ _ (Nat.lt_succ_self count) _
        isParameter
      rw [List.take_add_one, isKey, ← positional] at shown
      rw [isKey, Option.toList_some, Option.toList_some, Path.along_append_singleton] at *
      rw [Path.known_extend, List.map_append, inductionHypothesis, List.map_append,
        List.map_singleton, List.map_singleton]
      exact congrArg (fun type => _ ++ [(parameter.name, type)]) shown

/-- The target is shown as it is. -/
theorem targetIn_along (system : TypeSystem) (naming : Naming) (id : Nat)
    (declaration : Declaration) :
    (declaration.plan system naming id).targetIn
      (Path.along (declaration.plan system naming id).parameters).scope =
        declaration.target.asType := by
  let scope := (Path.along (declaration.plan system naming id).parameters).scope
  have names : scope.names = (declaration.plan system naming id).numbering.names := by
    have along := names_along system naming id declaration
      (declaration.plan system naming id).parameters.length
    rwa [List.take_length, length_parameters_plan,
      List.take_of_length_le (Nat.le_of_eq (List.length_map _))] at along
  have same : ∀ declared : TypeParameter,
      ((declaration.plan system naming id).argumentName scope declared).1 = declared.name := by
    intro declared
    by_cases numbered : declared.name ∈ (declaration.plan system naming id).numbering.names
    · have bound : (declaration.plan system naming id).numbering.names.length ≤ scope.size := by
        rw [← names, Scope.length_names]
      rw [ConstructorPlan.argumentName_of_mem bound numbered, Scope.rename_of_names_eq names]
    · rw [ConstructorPlan.argumentName_of_notMem numbered]
      exact freshName_of_notMem (by rwa [names])
  refine congrArg (TypeTerm.qualified _ _) (List.map_congr_left fun declared _ => ?_)
  rw [same]
  rfl

end Declaration

/-! ### The chain -/

/-- The target that the only constructor of a builder makes. -/
def Declaration.product (declaration : Declaration) : Product :=
  ⟨declaration.target.asType, 0, [0]⟩

/-- What calls return that supply the parameter at a place: the next step, unless it is the last
parameter and there is no create method. -/
def Declaration.resultAt (declaration : Declaration) (place : Nat) : Result :=
  if place + 1 = declaration.constructor.parameters.length ∧
      declaration.options.noCreateMethod = true then .product declaration.product
  else .step place

/-- The builder of a single constructor is a chain along its parameters. -/
structure Builder.IsChain (system : TypeSystem) (naming : Naming) (declaration : Declaration)
    (builder : Builder) : Prop where
  /-- There is a step for each parameter, and none for the last one without create method. -/
  length : builder.steps.length =
    if declaration.options.noCreateMethod then declaration.constructor.parameters.length - 1
    else declaration.constructor.parameters.length
  /-- The steps are synthesized, and each knows one parameter more. -/
  known : ∀ index step, builder.step? index = some step → ∃ synthesized,
    step = .synthesized synthesized ∧
      synthesized.known.map (fun value => (value.name, value.type)) =
        (declaration.constructor.parameters.take (index + 1)).map
          fun parameter => (parameter.name, parameter.type)
  /-- The methods that come after so many parameters supply the next one. There is one of them for
  each signature, and all lead the same way. -/
  supplied : ∀ count parameter, declaration.constructor.parameters[count]? = some parameter →
    ∃ place, builder.place? (.after count) = some place ∧
      place.methods.map Method.signature = (parameter.signatures system naming).eraseDups ∧
      ∀ method ∈ place.methods,
        method.source? = some ⟨0, count, parameter.name, parameter.type⟩ ∧
          method.result = declaration.resultAt count
  /-- After all parameters only the create method is left. -/
  created : declaration.options.noCreateMethod = false → ∃ place creation,
    builder.place? (.after declaration.constructor.parameters.length) = some place ∧
      place.methods = [.creation creation] ∧
      creation.name =
        declaration.createMethodName.getD (naming.creationName declaration.target.name) ∧
      creation.product = declaration.product
  /-- The constructor is not reported as unreachable. -/
  reported : ∀ finding ∈ builder.diagnostics, finding.code ≠ .unreachableConstructor

section

variable {system : TypeSystem} {naming : Naming} {root : Root} {declaration : Declaration}

/-- The builder of a single usable constructor comes from the walk of a chain. -/
theorem exists_followsChain (system : TypeSystem) (naming : Naming) (root : Root)
    (takes : declaration.constructor.parameters ≠ [])
    (usable : declaration.isExcluded system = false) :
    ∃ first rest, (declaration.plan system naming 0).parameters = first :: rest ∧
      (originOfValid system naming root [declaration]).FollowsChain
        (declaration.plan system naming 0) first rest := by
  have isUsable : (declaration.plan system naming 0).isUsable = true := by
    rw [isUsable_plan, usable]
    rfl
  obtain ⟨first, rest, keys⟩ : ∃ first rest,
      (declaration.plan system naming 0).parameters = first :: rest := by
    refine List.exists_cons_of_ne_nil (List.ne_nil_of_length_pos ?_)
    rw [Declaration.length_parameters_plan]
    exact List.length_pos_of_ne_nil takes
  obtain ⟨rootMethods, steps⟩ :=
    walkTree_chain naming root (declaration.plan system naming 0) first rest
  rw [← planTree_single isUsable keys] at rootMethods steps
  refine ⟨first, rest, keys, rootMethods, steps, fun key member none => ?_⟩
  rw [← keys] at member
  have some := List.all_eq_true.1 isUsable key member
  rw [none] at some
  cases some

/-- What supplies a parameter returns what the declaration says. -/
theorem result_arrivalAlong (system : TypeSystem) (naming : Naming) {count : Nat}
    (within : count < declaration.constructor.parameters.length) :
    ((declaration.plan system naming 0).arrivalAlong
        ((declaration.plan system naming 0).parameters.take (count + 1))
        ((declaration.plan system naming 0).parameters.drop (count + 1)) count).result =
      declaration.resultAt count := by
  have isLast : ((declaration.plan system naming 0).parameters.drop (count + 1)).isEmpty = true ↔
      count + 1 = declaration.constructor.parameters.length := by
    rw [List.isEmpty_iff, List.drop_eq_nil_iff, Declaration.length_parameters_plan]
    omega
  unfold ConstructorPlan.arrivalAlong Declaration.resultAt
  by_cases finishes : count + 1 = declaration.constructor.parameters.length ∧
      declaration.options.noCreateMethod = true
  · rw [if_pos finishes, if_pos]
    swap
    · exact Bool.and_eq_true_iff.2 ⟨isLast.2 finishes.1, finishes.2⟩
    have all : (declaration.plan system naming 0).parameters.take (count + 1) =
        (declaration.plan system naming 0).parameters := by
      rw [finishes.1, ← Declaration.length_parameters_plan system naming 0, List.take_length]
    show Result.product ⟨_, 0, [0]⟩ = _
    rw [all, Declaration.targetIn_along]
    rfl
  · rw [if_neg finishes, if_neg]
    intro both
    obtain ⟨isEmpty, noCreate⟩ := Bool.and_eq_true_iff.1 both
    exact finishes ⟨isLast.1 isEmpty, noCreate⟩

/-- A constructor that a chain of calls ends at is not reported. -/
theorem code_ne_of_reached
    (reached : (originOfValid system naming root [declaration]).Reached (.target 0)) :
    ∀ finding ∈ (assembleValid system naming root [declaration]).diagnostics,
      finding.code ≠ .unreachableConstructor := by
  intro finding member isCode
  have listed : finding ∈ (assembleValid system naming root [declaration]).diagnostics.filter
      (·.code = .unreachableConstructor) :=
    List.mem_filter.2 ⟨member, decide_eq_true isCode⟩
  have isReached := (originOfValid system naming root [declaration]).mem_reachableConstructors.2
    (CallGraph.mem_reachableConstructors_build.2 reached)
  rw [(accounts_assembleValid system naming root [declaration]).reported] at listed
  obtain ⟨⟨other, id⟩, unreached, -⟩ := List.mem_map.1 listed
  obtain ⟨isOther, isMissing⟩ := List.mem_filter.1 unreached
  obtain ⟨-, rfl⟩ := Prod.mk.inj (List.mem_singleton.1 isOther)
  have missing := (Bool.and_eq_true_iff.1 isMissing).2
  rw [List.contains_iff_mem.2 isReached] at missing
  cases missing

theorem isChain_assembleValid (system : TypeSystem) (naming : Naming) (root : Root)
    (takes : declaration.constructor.parameters ≠ [])
    (usable : declaration.isExcluded system = false) :
    (assembleValid system naming root [declaration]).IsChain system naming declaration := by
  obtain ⟨first, rest, keys, follows⟩ := exists_followsChain system naming root takes usable
  have length := Declaration.length_parameters_plan system naming 0 declaration
  have atPlace := (originOfValid system naming root [declaration]).place?_eq follows.reached_step
  refine ⟨?_, fun index step found => ?_, fun count parameter isParameter => ?_, fun creates => ?_,
    code_ne_of_reached follows.reached_target⟩
  · rw [keys, List.length_cons] at length
    rw [follows.length_steps, ← length]
    rfl
  · obtain ⟨synthesized, isSynthesized, known⟩ := follows.exists_synthesized found
    refine ⟨synthesized, isSynthesized, ?_⟩
    rw [known, ← keys]
    exact Declaration.map_known_along system naming 0 declaration (index + 1)
  · obtain ⟨form, positional, isKey⟩ := Declaration.exists_form system naming 0 isParameter
    rw [keys] at isKey
    refine ⟨_, (atPlace _).trans (follows.place?_walk isKey), ?_, fun method member => ?_⟩
    · exact ConstructorPlan.map_signature_methodsAlong.trans
        (congrArg List.eraseDups (Declaration.map_supplySignature positional))
    · obtain ⟨source, result⟩ := ConstructorPlan.of_mem_methodsAlong member
      have way := @List.take_add_one _ (first :: rest) count
      rw [isKey, Option.toList_some] at way
      rw [source, result, ← way, ← keys]
      refine ⟨congrArg (fun type => some (Source.mk 0 count parameter.name type)) ?_, ?_⟩
      · show Scope.display _ form.type = _
        rw [positional]
        exact Declaration.display_along (Nat.lt_succ_self count) isParameter
      · exact result_arrivalAlong system naming (List.getElem?_eq_some_iff.1 isParameter).1
  · have last := (atPlace _).trans (follows.place?_last creates)
    rw [keys, List.length_cons] at length
    rw [length] at last
    refine ⟨_, _, last, rfl, rfl, ?_⟩
    rw [← keys]
    exact congrArg (Product.mk · 0 [0]) (Declaration.targetIn_along system naming 0 declaration)

end

/-! ### Other ends of a chain -/

/-- The declaration with another end of its chain asked for. -/
def Declaration.ending (declaration : Declaration) (options : Options)
    (createMethodName : Option String) : Declaration :=
  { declaration with options, createMethodName }

/-- The plan of a parameter, with the declaration that it is said to come from. -/
def ParameterPlan.withDeclaration (declaration : Declaration) (key : ParameterPlan) :
    ParameterPlan :=
  { key with declaration }

theorem Path.along_withDeclaration (declaration : Declaration) (way : List ParameterPlan) :
    Path.along (way.map (·.withDeclaration declaration)) = Path.along way := List.foldl_map

theorem Root.ambientAlong_withDeclaration (root : Root) (declaration : Declaration)
    (way : List ParameterPlan) :
    root.ambientAlong (way.map (·.withDeclaration declaration)) = root.ambientAlong way := by
  cases way with
  | nil => rfl
  | cons first rest =>
    exact congrArg (fun path : Path => path.scope.declarations)
      (Path.along_withDeclaration declaration (first :: rest))

theorem EdgeCall.propose_withDeclaration (call : EdgeCall) (proposed : List Candidate)
    {key : ParameterPlan} {declaration : Declaration}
    (sameTarget : declaration.target = key.declaration.target) :
    call.propose proposed (key.withDeclaration declaration) = call.propose proposed key := by
  have same : call.candidate (key.withDeclaration declaration) = call.candidate key := by
    funext order supply
    cases supply with
    | direct name =>
      show Candidate.mk _ (declaration.target.qualifiedName ++ _ ++ _) _ = _
      rw [sameTarget]
      rfl
    | converted converted => rfl
  unfold propose
  rw [same]
  rfl

/-- While keys are still to come, what is asked for at the end makes no difference. -/
theorem ConstructorPlan.methodsAlong_withDeclaration (plan other : ConstructorPlan)
    (ambient : List TypeParameter) (way : List ParameterPlan) {key : ParameterPlan}
    (next : ParameterPlan) (rest : List ParameterPlan) (index : Nat) {declaration : Declaration}
    (sameTarget : declaration.target = key.declaration.target) :
    other.methodsAlong ambient (way.map (·.withDeclaration declaration))
        (key.withDeclaration declaration) ((next :: rest).map (·.withDeclaration declaration))
        index =
      plan.methodsAlong ambient way key (next :: rest) index := by
  have below : Path.along (way.map (·.withDeclaration declaration) ++
      [key.withDeclaration declaration]) = Path.along (way ++ [key]) := by
    rw [← Path.along_withDeclaration declaration (way ++ [key]), List.map_append]
    rfl
  have arrival : other.arrivalAlong (way.map (·.withDeclaration declaration) ++
      [key.withDeclaration declaration]) ((next :: rest).map (·.withDeclaration declaration))
        index = plan.arrivalAlong (way ++ [key]) (next :: rest) index := rfl
  simp only [methodsAlong]
  rw [arrival, below, Path.along_withDeclaration, EdgeCall.propose_withDeclaration _ _ sameTarget]

/-- The step apart from its methods. -/
def Step.bare : Step → Step
  | .synthesized step => .synthesized { step with methods := [] }
  | .existing step => .existing { step with methods := [] }

/-- While more than one of so many values is missing the builders offer the same, and while one is
missing their steps are the same apart from the methods. -/
structure Builder.SameBefore (count : Nat) (first second : Builder) : Prop where
  place : ∀ number, number + 1 < count →
    first.place? (.after number) = second.place? (.after number)
  step : ∀ number, number + 1 < count →
    (first.step? number).map Step.bare = (second.step? number).map Step.bare

section

variable {declaration : Declaration}

theorem parameters_plan_ending (system : TypeSystem) (naming : Naming) (id : Nat)
    (options : Options) (createMethodName : Option String) :
    ((declaration.ending options createMethodName).plan system naming id).parameters =
      (declaration.plan system naming id).parameters.map
        (·.withDeclaration (declaration.ending options createMethodName)) := by
  rw [Declaration.plan, Declaration.plan, List.map_map]
  rfl

theorem sameBefore_ending (system : TypeSystem) (naming : Naming) (root : Root)
    (takes : declaration.constructor.parameters ≠ [])
    (usable : declaration.isExcluded system = false) (options : Options)
    (createMethodName : Option String) :
    (assembleValid system naming root [declaration]).SameBefore
      declaration.constructor.parameters.length
      (assembleValid system naming root [declaration.ending options createMethodName]) := by
  obtain ⟨first, rest, keys, follows⟩ := exists_followsChain system naming root takes usable
  obtain ⟨otherFirst, otherRest, otherKeys, otherFollows⟩ :=
    @exists_followsChain (declaration.ending options createMethodName) system naming root takes
      usable
  have length := Declaration.length_parameters_plan system naming 0 declaration
  rw [keys] at length
  rw [parameters_plan_ending, keys] at otherKeys
  rw [← length]
  have exists_key : ∀ {place : Nat}, place < (first :: rest).length → ∃ key,
      (first :: rest)[place]? = some key ∧ key.declaration = declaration ∧
        (otherFirst :: otherRest)[place]? =
          some (key.withDeclaration (declaration.ending options createMethodName)) := by
    intro place within
    obtain ⟨key, found⟩ : ∃ key, (first :: rest)[place]? = some key :=
      ⟨_, List.getElem?_eq_getElem within⟩
    refine ⟨key, found, ?_, ?_⟩
    · rw [← keys] at found
      obtain ⟨declared, form, -, -, rfl⟩ := Declaration.getElem?_parameters_plan found
      rfl
    · rw [← otherKeys, List.getElem?_map, found, Option.map_some]
  refine ⟨fun number within => ?_, fun number within => ?_⟩
  · obtain ⟨key, found, isDeclared, otherFound⟩ := exists_key (Nat.lt_of_succ_lt within)
    rw [Builder.Origin.place?_eq _ follows.reached_step,
      Builder.Origin.place?_eq _ otherFollows.reached_step, follows.place?_walk found,
      otherFollows.place?_walk otherFound, ← otherKeys, ← List.map_take, ← List.map_drop,
      List.drop_eq_getElem_cons within, Path.along_withDeclaration,
      Root.ambientAlong_withDeclaration,
      (declaration.plan system naming 0).methodsAlong_withDeclaration]
    rw [isDeclared]
    rfl
  · obtain ⟨key, found, -, otherFound⟩ := exists_key within
    obtain ⟨methods, isStep⟩ := follows.exists_step found
    obtain ⟨otherMethods, isOtherStep⟩ := otherFollows.exists_step otherFound
    rw [isStep, isOtherStep, ← otherKeys, ← List.map_take]
    simp only [ConstructorPlan.stepAlong, Path.along_withDeclaration]
    rfl

/-- The builder of a single constructor that takes parameters and whose parameters can all be
supplied is a chain; what is asked for at the end of the chain changes nothing but its end. -/
theorem isChain_assemble (system : TypeSystem) (naming : Naming) (root : Root)
    (valid : Validation.findings root [declaration] = [])
    (takes : declaration.constructor.parameters ≠ [])
    (usable : declaration.isExcluded system = false) :
    (assemble system naming root [declaration]).IsChain system naming declaration ∧
      ∀ options createMethodName,
        Validation.findings root [declaration.ending options createMethodName] = [] →
        (assemble system naming root [declaration]).SameBefore
          declaration.constructor.parameters.length
          (assemble system naming root [declaration.ending options createMethodName]) := by
  rw [assemble_of_valid valid]
  refine ⟨isChain_assembleValid system naming root takes usable, ?_⟩
  intro options createMethodName otherValid
  rw [assemble_of_valid otherValid]
  exact sameBefore_ending system naming root takes usable options createMethodName

/-- A pair whose second part is supplied by either of two converters with one signature. -/
theorem isChain_assemble_pair :
    let copy : Converter := {
      name := "copy"
      typeParameters := [{ name := "S" }]
      parameters := [⟨"value", .parameter "S"⟩]
      returnType := .parameter "S" }
    let declaration : Declaration := {
      constructor := {
        target := { name := "Pair", typeParameters := [{ name := "T" }] }
        parameters := [{ name := "left", type := .parameter "T" },
          { name := "right", type := .parameter "T",
            group := some ⟨.simple "Copies", [copy, { copy with priority := 1 }], {}⟩ }] }
      root := "Shop" }
    let finished := declaration.ending { noCreateMethod := true } none
    Validation.findings (.marked none "Shop") [declaration] = [] ∧
      Validation.findings (.marked none "Shop") [finished] = [] ∧
      declaration.isExcluded {} = false ∧
      (assemble {} {} (.marked none "Shop") [declaration]).IsChain {} {} declaration ∧
      (assemble {} {} (.marked none "Shop") [declaration]).SameBefore 2
        (assemble {} {} (.marked none "Shop") [finished]) := by
  intro copy declaration finished
  have usable : declaration.isExcluded {} = false := rfl
  obtain ⟨isChain, same⟩ :=
    @isChain_assemble declaration {} {} (.marked none "Shop") rfl (List.cons_ne_nil _ _) usable
  exact ⟨rfl, rfl, usable, isChain, same { noCreateMethod := true } none rfl⟩

end

end StagedBuilder
