/-
This file proves that constructors that are excluded do not disturb the others. Without
them the constructors that are kept have smaller numbers, in the same order. Apart from the
numbers, their plans are what they were, so the builder made from them alone looks like the
builder made from all declarations if its constructors are seen by the numbers that they
have among all.
-/

import StagedBuilder.Proofs.Account
import StagedBuilder.Proofs.Correspondence
import StagedBuilder.Proofs.Validity

namespace StagedBuilder

/-! ### Kept constructors -/

/-- The declarations whose constructors are not excluded. -/
def keptDeclarations (system : TypeSystem) (declarations : List Declaration) :
    List Declaration :=
  declarations.filter fun declaration => !declaration.isExcluded system

/-- The number that a constructor has among all, by its number among the kept ones. -/
def keptNumber (system : TypeSystem) : List Declaration → Nat → Nat
  | [], id => id
  | declaration :: rest, id =>
    if declaration.isExcluded system then keptNumber system rest id + 1
    else if id = 0 then 0
    else keptNumber system rest (id - 1) + 1

variable {system : TypeSystem}

section

variable {declaration : Declaration} (rest : List Declaration)

theorem keptDeclarations_cons_excluded (excluded : declaration.isExcluded system = true) :
    keptDeclarations system (declaration :: rest) = keptDeclarations system rest := by
  rw [keptDeclarations, List.filter_cons_of_neg (by rw [excluded]; exact Bool.false_ne_true),
    keptDeclarations]

theorem keptDeclarations_cons_kept (kept : declaration.isExcluded system = false) :
    keptDeclarations system (declaration :: rest) =
      declaration :: keptDeclarations system rest := by
  rw [keptDeclarations, List.filter_cons_of_pos (by rw [kept]; rfl), keptDeclarations]

theorem keptNumber_cons_excluded (excluded : declaration.isExcluded system = true) (id : Nat) :
    keptNumber system (declaration :: rest) id = keptNumber system rest id + 1 := by
  rw [keptNumber, if_pos excluded]

theorem keptNumber_cons_zero (kept : declaration.isExcluded system = false) :
    keptNumber system (declaration :: rest) 0 = 0 := by
  rw [keptNumber, if_neg (by rw [kept]; exact Bool.false_ne_true), if_pos rfl]

theorem keptNumber_cons_succ (kept : declaration.isExcluded system = false) (id : Nat) :
    keptNumber system (declaration :: rest) (id + 1) = keptNumber system rest id + 1 := by
  rw [keptNumber, if_neg (by rw [kept]; exact Bool.false_ne_true), if_neg (Nat.succ_ne_zero id),
    Nat.add_sub_cancel]

end

/-- The kept constructors keep their order. -/
theorem strictMono_keptNumber (system : TypeSystem) (declarations : List Declaration) :
    StrictMono (keptNumber system declarations) := by
  induction declarations with
  | nil => exact strictMono_id
  | cons declaration rest inductionHypothesis =>
    refine strictMono_nat_of_lt_succ fun id => ?_
    have next := inductionHypothesis (Nat.lt_succ_self id)
    cases excluded : declaration.isExcluded system with
    | true =>
      rw [keptNumber_cons_excluded rest excluded, keptNumber_cons_excluded rest excluded]
      exact Nat.succ_lt_succ next
    | false =>
      rw [keptNumber_cons_succ rest excluded]
      cases id with
      | zero =>
        rw [keptNumber_cons_zero rest excluded]
        exact Nat.succ_pos _
      | succ id =>
        rw [keptNumber_cons_succ rest excluded]
        exact Nat.succ_lt_succ (inductionHypothesis (Nat.lt_succ_self id))

/-- The kept constructors are found among all by the numbers that they have there. -/
theorem getElem?_keptNumber (declarations : List Declaration) {id : Nat}
    {declaration : Declaration}
    (found : (keptDeclarations system declarations)[id]? = some declaration) :
    declarations[keptNumber system declarations id]? = some declaration := by
  induction declarations generalizing id with
  | nil => cases found
  | cons first rest inductionHypothesis =>
    cases excluded : first.isExcluded system with
    | true =>
      rw [keptDeclarations_cons_excluded rest excluded] at found
      rw [keptNumber_cons_excluded rest excluded, List.getElem?_cons_succ]
      exact inductionHypothesis found
    | false =>
      rw [keptDeclarations_cons_kept rest excluded] at found
      cases id with
      | zero =>
        rw [keptNumber_cons_zero rest excluded]
        exact found
      | succ id =>
        rw [keptNumber_cons_succ rest excluded, List.getElem?_cons_succ]
        exact inductionHypothesis found

/-- Kept constructors as they are seen among all. -/
def keptView (system : TypeSystem) (declarations : List Declaration) : View :=
  .renumbering (keptNumber system declarations) (strictMono_keptNumber system declarations)

/-! ### Validation -/

/-- Where nothing is found, nothing is if declarations are left out. -/
theorem findings_sublist {root : Root} {kept declarations : List Declaration}
    (sublist : kept.Sublist declarations) (valid : Validation.findings root declarations = []) :
    Validation.findings root kept = [] := by
  obtain ⟨marked, wellNamed, distinct⟩ := Validation.findings_eq_nil_iff.1 valid
  refine Validation.findings_eq_nil_iff.2 ⟨marked.imp_right fun nothing => ?_,
    fun declaration member => wellNamed declaration (sublist.subset member),
    distinct.sublist (sublist.filterMap _)⟩
  rw [nothing] at sublist
  exact List.sublist_nil.1 sublist

/-! ### Plans -/

variable {first second : View}

/-- Plans of one declaration are alike if their numbers look the same. -/
theorem alike_plan (agree : first.named = second.named) (naming : Naming)
    (declaration : Declaration) {id other : Nat} (same : first.number id = second.number other) :
    (declaration.plan system naming id).Alike first second
      (declaration.plan system naming other) where
  id := same
  declaration := by
    unfold View.declaration
    rw [agree]
    rfl
  numbering := fun _ => rfl
  parameters := by
    refine List.forall₂_map_left_iff.2 (List.forall₂_map_right_iff.2 (List.forall₂_same.2 ?_))
    rintro ⟨⟨parameter, form⟩, index⟩ -
    exact ⟨same, rfl, rfl, rfl, rfl, rfl, rfl, rfl, fun _ => rfl, rfl, rfl⟩

/-- The usable constructors among all are the kept ones. -/
theorem forall₂_usable_plans (agree : first.named = second.named) (naming : Naming)
    (declarations : List Declaration) {start other : Nat}
    (numbers : ∀ id, first.number (start + id) =
      second.number (other + keptNumber system declarations id)) :
    List.Forall₂ (ConstructorPlan.Alike first second)
      ((((keptDeclarations system declarations).zipIdx start).map
        fun (declaration, id) => declaration.plan system naming id).filter
          ConstructorPlan.isUsable)
      (((declarations.zipIdx other).map
        fun (declaration, id) => declaration.plan system naming id).filter
          ConstructorPlan.isUsable) := by
  induction declarations generalizing start other with
  | nil => exact .nil
  | cons declaration rest inductionHypothesis =>
    rw [List.zipIdx_cons, List.map_cons]
    have usable := isUsable_plan system naming other declaration
    cases excluded : declaration.isExcluded system with
    | true =>
      rw [excluded] at usable
      rw [keptDeclarations_cons_excluded rest excluded,
        List.filter_cons_of_neg (by rw [usable]; exact Bool.false_ne_true)]
      refine inductionHypothesis fun id => ?_
      rw [numbers, keptNumber_cons_excluded rest excluded, Nat.add_assoc, Nat.add_comm 1]
    | false =>
      rw [excluded] at usable
      have usableAlone := isUsable_plan system naming start declaration
      rw [excluded] at usableAlone
      rw [keptDeclarations_cons_kept rest excluded, List.zipIdx_cons, List.map_cons,
        List.filter_cons_of_pos usable, List.filter_cons_of_pos usableAlone]
      refine .cons (alike_plan agree naming declaration ?_) (inductionHypothesis fun id => ?_)
      · have here := numbers 0
        rwa [keptNumber_cons_zero rest excluded] at here
      · have next := numbers (id + 1)
        rwa [keptNumber_cons_succ rest excluded, ← Nat.add_assoc, ← Nat.add_assoc,
          Nat.add_right_comm start, Nat.add_right_comm other] at next

/-! ### Builders -/

/-- The builder made from the kept constructors alone has the methods and the steps of the builder
made from all, constructors by their numbers among all. -/
structure Builder.Undisturbed (system : TypeSystem) (declarations : List Declaration)
    (builder alone : Builder) : Prop where
  increasing : StrictMono (keptNumber system declarations)
  constructors : ∀ id declaration,
    (keptDeclarations system declarations)[id]? = some declaration →
      declarations[keptNumber system declarations id]? = some declaration
  methods : alone.methods.map (keptView system declarations).method = builder.methods
  steps : alone.steps.map (keptView system declarations).step = builder.steps

/-- Excluded constructors leave the methods and steps of a builder as they are without them. -/
theorem undisturbed_assemble (system : TypeSystem) (naming : Naming) (root : Root)
    (declarations : List Declaration) (valid : Validation.findings root declarations = []) :
    (assemble system naming root declarations).Undisturbed system declarations
      (assemble system naming root (keptDeclarations system declarations)) := by
  have validAlone : Validation.findings root (keptDeclarations system declarations) = [] :=
    findings_sublist List.filter_sublist valid
  have alike : (assembleValid system naming root (keptDeclarations system declarations)).Alike
      (keptView system declarations) .plain (assembleValid system naming root declarations) := by
    have agree : (keptView system declarations).named = View.plain.named := rfl
    refine alike_assembleValid agree
      (forall₂_usable_plans agree naming declarations fun id => ?_)
    rw [Nat.zero_add, Nat.zero_add]
    rfl
  rw [assemble_of_valid valid, assemble_of_valid validAlone]
  refine ⟨strictMono_keptNumber system declarations,
    fun id declaration found => getElem?_keptNumber declarations found, ?_, ?_⟩
  · rw [alike.methods, View.map_method_plain]
  · rw [alike.steps, View.map_step_plain]

/-- Without the constructor in the middle, whose converter makes the wrong type, the last one has a
smaller number. -/
theorem undisturbed_assemble_middle :
    let made (name : String) (group : Option ConverterGroup) : Declaration := {
      constructor := {
        target := .bare none name
        parameters := [{ name := "id", type := .simple "Int", group }] }
      root := "Shop" }
    let misfit : ConverterGroup := {
      declaringType := .simple "Texts"
      converters := [{ name := "Text", returnType := .simple "String" }] }
    let declarations := [made "Order" none, made "Cart" (some misfit), made "Gift" none]
    Validation.findings (.marked none "Shop") declarations = [] ∧
      keptDeclarations {} declarations = [made "Order" none, made "Gift" none] ∧
        keptNumber {} declarations 1 = 2 ∧
          (assemble {} {} (.marked none "Shop") declarations).Undisturbed {} declarations
            (assemble {} {} (.marked none "Shop") (keptDeclarations {} declarations)) := by
  intro made misfit declarations
  exact ⟨rfl, by decide +kernel, by decide +kernel, undisturbed_assemble {} {} _ declarations rfl⟩

end StagedBuilder
