/-
This file says when the type arguments of a target that a method returns are different. The
type parameters of the target that occur in parameter types of the constructor become
different names of the scope. The others become fresh names, which the scope does not use,
so none of these is one of those.

But every fresh name is chosen by itself, with no regard to the other ones. If the values
supplied use `T`, a type parameter `T` that occurs in no parameter type becomes `T1`, and so
does one that is called `T1`. Two arguments are the same exactly if they belong to such type
parameters; hence all are different as long as there is one such type parameter at most, or
no value uses the name of one.
-/

import StagedBuilder.Proofs.Scoping

namespace StagedBuilder

open TypeTerm (occurrencesOfAll mem_occurrencesOfAll)

/-! ### Names in a scope -/

/-- The names of a scope are those that occur in what is known. -/
theorem Path.WellScoped.mem_names_iff {path : Path} (wellScoped : path.WellScoped) {name : String} :
    name ∈ path.scope.names ↔ name ∈ occurrencesOfAll (path.known.map (·.type)) := by
  rw [wellScoped.types, mem_occurrencesOfAll]
  constructor
  · intro bound
    obtain ⟨index, found⟩ := List.getElem?_of_mem bound
    obtain ⟨less, -⟩ := List.getElem?_eq_some_iff.1 found
    rw [Scope.length_names] at less
    obtain ⟨type, member, occurs⟩ :=
      mem_occurrencesOfAll.1 ((wellScoped.mentions _).2 ⟨index, less, rfl⟩)
    refine ⟨_, List.mem_map_of_mem member, ?_⟩
    rw [Scope.display, TypeTerm.occurrences_substitute, List.mem_flatMap]
    have shown : (placeholder index).substitute path.scope.substitution = .parameter name :=
      Scope.display_placeholder found
    exact ⟨_, occurs, shown ▸ List.mem_singleton_self name⟩
  · rintro ⟨_, member, occurs⟩
    obtain ⟨type, isKey, rfl⟩ := List.mem_map.1 member
    exact wellScoped.mem_names_of_display isKey occurs

namespace ConstructorPlan

variable {plan : ConstructorPlan} {scope : Scope}

theorem arguments_targetIn (plan : ConstructorPlan) (scope : Scope) :
    (plan.targetIn scope).arguments = (plan.declaration.target.typeParameters.map (·.name)).map
      fun name => .parameter (plan.argumentName scope { name }).1 := by
  rw [List.map_map]
  rfl

/-- Different type parameters become one name only if they have no numbers and get the same fresh
name. -/
theorem argumentName_eq_iff (bound : plan.numbering.names.length ≤ scope.size)
    (distinct : scope.names.Nodup) {left right : String} (differ : left ≠ right) :
    (plan.argumentName scope { name := left }).1 = (plan.argumentName scope { name := right }).1 ↔
      left ∉ plan.numbering.names ∧ right ∉ plan.numbering.names ∧
        scope.fresh left = scope.fresh right := by
  have ofNumber {name : String} (numbered : name ∈ plan.numbering.names) :
      (plan.argumentName scope { name }).1 = scope.rename plan.numbering name ∧
        scope.rename plan.numbering name ∈ scope.names :=
    ⟨by rw [argumentName_of_mem bound numbered], Scope.rename_mem_names bound numbered⟩
  have ofNone {name : String} (unnumbered : name ∉ plan.numbering.names) :
      (plan.argumentName scope { name }).1 = scope.fresh name ∧ scope.fresh name ∉ scope.names :=
    ⟨by rw [argumentName_of_notMem unnumbered], freshName_notMem _ _⟩
  by_cases leftNumbered : left ∈ plan.numbering.names <;>
    by_cases rightNumbered : right ∈ plan.numbering.names
  · refine iff_of_false (fun same => differ ?_) fun ⟨unnumbered, _⟩ => unnumbered leftNumbered
    rw [(ofNumber leftNumbered).1, (ofNumber rightNumbered).1] at same
    exact Scope.rename_injOn bound distinct leftNumbered rightNumbered same
  · refine iff_of_false (fun same => ?_) fun ⟨unnumbered, _⟩ => unnumbered leftNumbered
    rw [(ofNumber leftNumbered).1, (ofNone rightNumbered).1] at same
    exact (ofNone rightNumbered).2 (same ▸ (ofNumber leftNumbered).2)
  · refine iff_of_false (fun same => ?_) fun ⟨_, unnumbered, _⟩ => unnumbered rightNumbered
    rw [(ofNone leftNumbered).1, (ofNumber rightNumbered).1] at same
    exact (ofNone leftNumbered).2 (same ▸ (ofNumber rightNumbered).2)
  · rw [(ofNone leftNumbered).1, (ofNone rightNumbered).1]
    exact ⟨fun same => ⟨leftNumbered, rightNumbered, same⟩, fun ⟨_, _, same⟩ => same⟩

end ConstructorPlan

/-! ### Arguments of targets -/

namespace Declaration

/-- The type parameters of the target that occur in no parameter type of the constructor. -/
def unmentioned (declaration : Declaration) : List String :=
  (declaration.target.typeParameters.map (·.name)).filter fun name =>
    name ∉ occurrencesOfAll declaration.types

/-- When the arguments of the target are different, where some names are used already. -/
structure TellsApart (declaration : Declaration) (used : List String)
    (arguments : List TypeTerm) : Prop where
  length : arguments.length = declaration.target.typeParameters.length
  /-- Two type parameters become one exactly if no parameter type mentions either and they get the
  same fresh name. -/
  same : ∀ (left right : Nat) (leftDeclared rightDeclared : TypeParameter), left ≠ right →
    declaration.target.typeParameters[left]? = some leftDeclared →
      declaration.target.typeParameters[right]? = some rightDeclared →
        (arguments[left]? = arguments[right]? ↔
          leftDeclared.name ∈ declaration.unmentioned ∧
            rightDeclared.name ∈ declaration.unmentioned ∧
              freshName used leftDeclared.name = freshName used rightDeclared.name)
  nodup : arguments.Nodup ↔ (declaration.unmentioned.map (freshName used)).Nodup
  nodup_of_single : declaration.unmentioned.length ≤ 1 → arguments.Nodup
  nodup_of_unused : (∀ name ∈ declaration.unmentioned, name ∉ used) → arguments.Nodup

variable {declaration : Declaration} {used : List String}

theorem mem_unmentioned {name : String} : name ∈ declaration.unmentioned ↔
    name ∈ declaration.target.typeParameters.map (·.name) ∧
      name ∉ occurrencesOfAll declaration.types := by
  rw [unmentioned, List.mem_filter, decide_eq_true_iff]

theorem nodup_unmentioned (distinct : (declaration.target.typeParameters.map (·.name)).Nodup) :
    declaration.unmentioned.Nodup := distinct.filter _

/-- Two different type parameters of the target get the same argument only if they are unmentioned
and get the same fresh name. -/
def Separates (declaration : Declaration) (used : List String) (image : String → TypeTerm) : Prop :=
  ∀ left ∈ declaration.target.typeParameters.map (·.name),
    ∀ right ∈ declaration.target.typeParameters.map (·.name), left ≠ right →
      (image left = image right ↔ left ∈ declaration.unmentioned ∧
        right ∈ declaration.unmentioned ∧ freshName used left = freshName used right)

/-- The arguments are as different as the fresh names. -/
theorem Separates.nodup_iff {image : String → TypeTerm}
    (separates : declaration.Separates used image)
    (distinct : (declaration.target.typeParameters.map (·.name)).Nodup) :
    ((declaration.target.typeParameters.map (·.name)).map image).Nodup ↔
      (declaration.unmentioned.map (freshName used)).Nodup := by
  rw [List.nodup_map_iff_inj_on distinct, List.nodup_map_iff_inj_on (nodup_unmentioned distinct)]
  constructor
  · intro injective left leftMember right rightMember sameFresh
    by_contra differ
    have leftListed := (mem_unmentioned.1 leftMember).1
    have rightListed := (mem_unmentioned.1 rightMember).1
    exact differ (injective left leftListed right rightListed
      ((separates left leftListed right rightListed differ).2
        ⟨leftMember, rightMember, sameFresh⟩))
  · intro injective left leftMember right rightMember sameImage
    by_contra differ
    obtain ⟨leftUnmentioned, rightUnmentioned, sameFresh⟩ :=
      (separates left leftMember right rightMember differ).1 sameImage
    exact differ (injective left leftUnmentioned right rightUnmentioned sameFresh)

/-- Names that are free stay different. -/
theorem nodup_map_freshName_of_unused
    (distinct : (declaration.target.typeParameters.map (·.name)).Nodup)
    (unused : ∀ name ∈ declaration.unmentioned, name ∉ used) :
    (declaration.unmentioned.map (freshName used)).Nodup := by
  rw [List.map_congr_left fun name member => freshName_of_notMem (unused name member),
    List.map_id']
  exact nodup_unmentioned distinct

/-- A target with separate arguments tells its type parameters apart. -/
theorem Separates.tellsApart {image : String → TypeTerm}
    (separates : declaration.Separates used image)
    (distinct : (declaration.target.typeParameters.map (·.name)).Nodup) :
    declaration.TellsApart used
      ((declaration.target.typeParameters.map (·.name)).map image) where
  length := by rw [List.length_map, List.length_map]
  same left right leftDeclared rightDeclared differ atLeft atRight := by
    have leftName : (declaration.target.typeParameters.map (·.name))[left]? =
        some leftDeclared.name := by rw [List.getElem?_map, atLeft, Option.map_some]
    have rightName : (declaration.target.typeParameters.map (·.name))[right]? =
        some rightDeclared.name := by rw [List.getElem?_map, atRight, Option.map_some]
    have namesDiffer : leftDeclared.name ≠ rightDeclared.name := by
      intro sameName
      obtain ⟨less, -⟩ := List.getElem?_eq_some_iff.1 leftName
      rw [sameName, ← rightName] at leftName
      exact differ ((List.getElem?_inj less distinct).1 leftName)
    rw [List.getElem?_map, leftName, List.getElem?_map, rightName, Option.map_some,
      Option.map_some, Option.some.injEq]
    exact separates _ (List.mem_of_getElem? leftName) _ (List.mem_of_getElem? rightName) namesDiffer
  nodup := separates.nodup_iff distinct
  nodup_of_single single := by
    refine (separates.nodup_iff distinct).2 ?_
    match declaration.unmentioned, single with
    | [], _ => exact List.nodup_nil
    | [name], _ => exact List.nodup_singleton _
  nodup_of_unused unused :=
    (separates.nodup_iff distinct).2 (nodup_map_freshName_of_unused distinct unused)

end Declaration

/-- Where a target is formed, its arguments are told apart but for the fresh names. -/
theorem Product.Formed.tellsApart {declarations : List Declaration} {supplied : List TypeTerm}
    {value : Product} {path : Path} {plan : ConstructorPlan}
    (formed : value.Formed declarations supplied path plan)
    (distinct : (plan.declaration.target.typeParameters.map (·.name)).Nodup) :
    plan.declaration.TellsApart (occurrencesOfAll supplied) value.target.arguments := by
  have bound := Nat.le_of_eq (formed.wellScoped.size_eq formed.declared formed.arrives)
  have sameFresh (name : String) :
      path.scope.fresh name = freshName (occurrencesOfAll supplied) name := by
    rw [formed.supplied]
    exact freshName_congr (fun _ => formed.wellScoped.mem_names_iff) name
  rw [formed.target, ConstructorPlan.arguments_targetIn]
  refine Declaration.Separates.tellsApart (fun left leftListed right rightListed differ => ?_)
    distinct
  rw [TypeTerm.parameter.injEq,
    ConstructorPlan.argumentName_eq_iff bound formed.wellScoped.distinct differ,
    formed.declared.numbering, mem_numberingOf, mem_numberingOf, Declaration.mem_unmentioned,
    Declaration.mem_unmentioned, sameFresh, sameFresh, and_iff_right leftListed,
    and_iff_right rightListed]

/-! ### In a builder -/

/-- The type parameters of the targets that methods return are told apart but for fresh names that
are the same. The names that are used are those in the types of what is known at the method's place
and of what the method supplies. -/
structure Builder.TellsApart (declarations : List Declaration) (builder : Builder) : Prop where
  returned : ∀ node owner, builder.place? node = some owner → ∀ method ∈ owner.methods,
    ∀ value, method.result = .product value →
      ∃ declaration, declarations[value.constructor]? = some declaration ∧
        declaration.TellsApart (occurrencesOfAll
          (owner.known.map (·.type) ++ (method.source?.map (·.type)).toList))
          value.target.arguments

/-- If every target declares its type parameters under different names, two of them become one in a
target that a method returns exactly if no parameter type mentions either and they get the same
fresh name. -/
theorem tellsApart_assemble (system : TypeSystem) (naming : Naming) (root : Root)
    (declarations : List Declaration) (distinct : ∀ declaration ∈ declarations,
      (declaration.target.typeParameters.map (·.name)).Nodup) :
    (assemble system naming root declarations).TellsApart declarations := by
  obtain ⟨origin⟩ := nonempty_origin system naming root declarations
  refine ⟨fun node owner found method member value returns => ?_⟩
  obtain ⟨path, plan, formed⟩ := origin.exists_formed found member returns
  have isDeclared := formed.declared.declared
  refine ⟨plan.declaration, by rw [formed.constructor, isDeclared], formed.tellsApart ?_⟩
  exact distinct plan.declaration (List.mem_of_getElem? isDeclared)

/-- The constructor's parameter type mentions the first of three type parameters of the target. -/
def Declaration.pair : Declaration where
  constructor := {
    target := {
      name := "Pair"
      typeParameters := [{ name := "U" }, { name := "T" }, { name := "T1" }] }
    parameters := [{ name := "value", type := .parameter "U" }] }
  root := "Shop"

/-- The constructor has the same parameter, up to the name of the type parameter. -/
def Declaration.item : Declaration where
  constructor := {
    target := { name := "Item", typeParameters := [{ name := "T" }] }
    parameters := [{ name := "value", type := .parameter "T" }] }
  root := "Shop"

/-- Both constructors take the value, whose type is called as the first one calls it. The name is
that of a type parameter that the second one does not mention. -/
theorem tellsApart_assemble_pair :
    let declarations := [Declaration.item, .pair]
    Validation.findings (.marked none "Shop") declarations = [] ∧
      (∀ declaration ∈ declarations,
        (declaration.target.typeParameters.map (·.name)).Nodup) ∧
      (assemble {} {} (.marked none "Shop") declarations).TellsApart declarations := by
  intro declarations
  have distinct : ∀ declaration ∈ declarations,
      (declaration.target.typeParameters.map (·.name)).Nodup := by decide
  exact ⟨rfl, distinct, tellsApart_assemble {} {} (.marked none "Shop") declarations distinct⟩

/-- The value is of the type that the first constructor calls `T`. Therefore `T` of the second one's
target becomes `T1`, and its `T1`, which nothing uses, stays `T1`. -/
theorem not_nodup_arguments_assemble_pair :
    let declarations := [Declaration.item, .pair]
    Validation.findings (.marked none "Shop") declarations = [] ∧
      (∀ declaration ∈ declarations,
        (declaration.target.typeParameters.map (·.name)).Nodup) ∧
      ∃ step ∈ (assemble {} {} (.marked none "Shop") declarations).steps,
        ∃ method ∈ step.methods, ∃ value, method.result = .product value ∧
          ¬ value.target.arguments.Nodup := by
  intro declarations
  have valid : Validation.findings (.marked none "Shop") declarations = [] := rfl
  refine ⟨valid, by decide, ?_⟩
  rw [assemble_of_valid valid]
  let tree := planTree (planAll {} {} declarations)
  let value : Product := {
    target := .named none "Pair" [.parameter "T", .parameter "T1", .parameter "T1"]
    constructor := 1
    candidates := [1] }
  have leads : (rootCandidates {} (.marked none "Shop") tree).map (·.method.result.node) =
      List.replicate (1 + 1) (.step 0) := by
    decide +kernel
  have made : ((walkTree {} (.marked none "Shop") tree).2.step? 0).map
      (fun step => step.methods.map (·.result)) =
        some [.product ⟨.named none "Item" [.parameter "T"], 0, [0]⟩, .product value] := by
    decide +kernel
  obtain ⟨step, found, results⟩ := Option.map_eq_some_iff.1 made
  obtain ⟨renumber, final, member, -, -, sameMethods⟩ :=
    mem_steps_of_rootCandidates {} {} (.marked none "Shop") declarations leads found
  obtain ⟨method, isMethod, isResult⟩ :
      ∃ method ∈ step.methods, method.result = .product value := by
    refine List.mem_map.1 ?_
    rw [results]
    exact List.mem_cons_of_mem _ List.mem_cons_self
  refine ⟨final, member, method.mapStep renumber, ?_, value, ?_, by decide⟩
  · rw [sameMethods]
    exact List.mem_map_of_mem isMethod
  · rw [Method.result_mapStep, isResult]
    rfl

end StagedBuilder
