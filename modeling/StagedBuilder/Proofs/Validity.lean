/-
This file says what it takes for declarations to be accepted. Each of them is looked at by
itself, and each name together with the names before it, so what is asked of the whole list
is that every declaration is named well and that no two names for one qualified name are the
same. A name that is repeated is reported each time but the first, whatever else is wrong
with it, so the reports count the names that are too many.

All findings are errors. A builder therefore holds findings and nothing else as soon as
there is one, and is made as if nothing had been checked if there is none.
-/

import Mathlib.Data.Finset.Card
import Mathlib.Data.Finset.SDiff
import StagedBuilder.Proofs.Account

namespace StagedBuilder

/-! ### Names -/

namespace Identifier

/-- The name is a letter or an underscore, followed by letters, digits and underscores, and not
an underscore alone. -/
structure IsName (name : String) : Prop where
  spelled : ∃ first rest, name.toList = first :: rest ∧
    (isLetter first = true ∨ first = '_') ∧
      ∀ character ∈ rest, isLetter character = true ∨ isDigit character = true ∨ character = '_'
  notLone : name ≠ "_"

theorem isValid_iff {name : String} : isValid name = true ↔ IsName name := by
  have lone : name = "_" ↔ name.toList = ['_'] := String.toList_inj.symm
  unfold isValid
  split
  · next nothing =>
    refine iff_of_false Bool.false_ne_true fun isName => ?_
    obtain ⟨first, rest, spelled, -⟩ := isName.spelled
    rw [nothing] at spelled
    cases spelled
  · next isLone =>
    exact iff_of_false Bool.false_ne_true fun isName => isName.notLone (lone.2 isLone)
  · next first rest further spelled =>
    simp only [Bool.and_eq_true, Bool.or_eq_true, decide_eq_true_eq, List.all_eq_true, or_assoc]
    constructor
    · rintro ⟨begins, goesOn⟩
      refine ⟨⟨first, rest, spelled, begins, goesOn⟩, fun isLone => ?_⟩
      obtain ⟨sameFirst, noRest⟩ := List.cons.inj (spelled.symm.trans (lone.1 isLone))
      exact further sameFirst noRest
    · rintro ⟨⟨other, others, same, begins, goesOn⟩, -⟩
      cases spelled.symm.trans same
      exact ⟨begins, goesOn⟩

end Identifier

/-! ### Declarations that are named well -/

namespace Declaration

/-- The declaration has the name that it says it has, and a name that it has may be given to a
method that is made. -/
structure WellNamed (declaration : Declaration) : Prop where
  given : declaration.options.customCreateMethodName = true →
    declaration.createMethodName.isSome = true
  named : ∀ name, declaration.createMethodName = some name →
    Identifier.IsName name ∧ declaration.options.noCreateMethod = false

variable {declaration : Declaration}

theorem wellNamed_iff_of_none (nameless : declaration.createMethodName = none) :
    declaration.WellNamed ↔ declaration.options.customCreateMethodName = false := by
  refine ⟨fun wellNamed => ?_, fun asksNothing => ⟨?_, ?_⟩⟩
  · have given := wellNamed.given
    simpa [nameless] using given
  · simp [asksNothing]
  · simp [nameless]

theorem wellNamed_iff_of_some {name : String} (named : declaration.createMethodName = some name) :
    declaration.WellNamed ↔
      Identifier.IsName name ∧ declaration.options.noCreateMethod = false := by
  refine ⟨fun wellNamed => wellNamed.named name named, fun isName => ⟨?_, ?_⟩⟩
  · simp [named]
  · simpa [named] using isName

/-- The name with the qualified name of the target, if the declaration has a name. -/
def pair? (declaration : Declaration) : Option (String × String) :=
  declaration.createMethodName.map (declaration.target.qualifiedName, ·)

end Declaration

namespace Validation

variable {first declaration : Declaration} {rest declarations : List Declaration}
  {seen : List (String × String)} {name : String}

/-! ### One declaration after another -/

/-- The finding about a declaration that says that it has a name and has none. -/
def namelessFindings (declaration : Declaration) : List Diagnostic :=
  if declaration.options.customCreateMethodName then
    [{ code := .invalidCreateName
       location := declaration.attributeLocation
       arguments := ["", declaration.constructor.display] }]
  else []

/-- The finding about a name that has been seen before. -/
def repeatedFindings (seen : List (String × String)) (declaration : Declaration) (name : String) :
    List Diagnostic :=
  if seen.contains (declaration.target.qualifiedName, name) then
    [{ code := .duplicateCreateName
       location := declaration.attributeLocation
       arguments := [name, declaration.target.qualifiedName] }]
  else []

theorem createNameFindings_of_none (nameless : first.createMethodName = none) :
    createNameFindings seen (first :: rest) =
      namelessFindings first ++ createNameFindings seen rest := by
  rw [createNameFindings, nameless]
  rfl

theorem createNameFindings_of_some (named : first.createMethodName = some name) :
    createNameFindings seen (first :: rest) =
      nameFindings first name ++ repeatedFindings seen first name ++
        createNameFindings ((first.target.qualifiedName, name) :: seen) rest := by
  rw [createNameFindings, named]
  rfl

/-! ### Declarations without findings -/

theorem namelessFindings_eq_nil_iff : namelessFindings declaration = [] ↔
    declaration.options.customCreateMethodName = false := by
  simp [namelessFindings]

theorem nameFindings_eq_nil_iff : nameFindings declaration name = [] ↔
    Identifier.IsName name ∧ declaration.options.noCreateMethod = false := by
  simp [nameFindings, Identifier.isValid_iff]

theorem repeatedFindings_eq_nil_iff : repeatedFindings seen declaration name = [] ↔
    (declaration.target.qualifiedName, name) ∉ seen := by
  simp [repeatedFindings]

/-- Nothing is found if every declaration is named well and no name is given twice or has been seen
before. -/
theorem createNameFindings_eq_nil_iff :
    createNameFindings seen declarations = [] ↔
      (∀ declaration ∈ declarations, declaration.WellNamed) ∧
        (declarations.filterMap Declaration.pair?).Nodup ∧
          (declarations.filterMap Declaration.pair?).Disjoint seen := by
  induction declarations generalizing seen with
  | nil => simp [createNameFindings]
  | cons first rest inductionHypothesis =>
    rw [List.forall_mem_cons, List.filterMap_cons, Declaration.pair?]
    cases named : first.createMethodName with
    | none =>
      rw [createNameFindings_of_none named, List.append_eq_nil_iff, namelessFindings_eq_nil_iff,
        inductionHypothesis, first.wellNamed_iff_of_none named, and_assoc]
      rfl
    | some name =>
      rw [createNameFindings_of_some named, first.wellNamed_iff_of_some named]
      simp only [List.append_eq_nil_iff, nameFindings_eq_nil_iff, repeatedFindings_eq_nil_iff,
        inductionHypothesis, Option.map_some, List.nodup_cons, List.disjoint_cons_left,
        List.disjoint_cons_right]
      tauto

theorem findings_eq_nil_iff {root : Root} : findings root declarations = [] ↔
    (root.hasMarker = true ∨ declarations = []) ∧
      (∀ declaration ∈ declarations, declaration.WellNamed) ∧
        (declarations.filterMap Declaration.pair?).Nodup := by
  rw [findings, List.append_eq_nil_iff, createNameFindings_eq_nil_iff]
  by_cases marked : root.hasMarker = true <;> simp [marked]

/-! ### Repeated names -/

theorem filter_nameFindings (declaration : Declaration) (name : String) :
    (nameFindings declaration name).filter (·.code = .duplicateCreateName) = [] := by
  unfold nameFindings
  split <;> split <;> rfl

theorem filter_namelessFindings (declaration : Declaration) :
    (namelessFindings declaration).filter (·.code = .duplicateCreateName) = [] := by
  unfold namelessFindings
  split <;> rfl

theorem length_filter_repeatedFindings (seen : List (String × String)) (declaration : Declaration)
    (name : String) :
    ((repeatedFindings seen declaration name).filter (·.code = .duplicateCreateName)).length =
      if (declaration.target.qualifiedName, name) ∈ seen then 1 else 0 := by
  by_cases repeated : (declaration.target.qualifiedName, name) ∈ seen <;>
    simp [repeatedFindings, repeated]

/-- An entry that is added counts unless it is known. -/
theorem card_insert_sdiff {Entry : Type} [DecidableEq Entry] (entry : Entry)
    (entries known : Finset Entry) :
    (insert entry entries \ known).card =
      (entries \ insert entry known).card + if entry ∈ known then 0 else 1 := by
  by_cases isKnown : entry ∈ known
  · rw [Finset.insert_sdiff_of_mem _ isKnown, Finset.insert_eq_of_mem isKnown, if_pos isKnown,
      Nat.add_zero]
  · have added : insert entry entries \ known = insert entry (entries \ insert entry known) := by
      ext other
      by_cases same : other = entry <;> simp [same, isKnown]
    rw [added, Finset.card_insert_of_notMem (by simp), if_neg isKnown]

/-- The names seen so far apart, a name is reported each time but the first. -/
theorem length_duplicates_add_card (seen : List (String × String))
    (declarations : List Declaration) :
    ((createNameFindings seen declarations).filter (·.code = .duplicateCreateName)).length +
        ((declarations.filterMap Declaration.pair?).toFinset \ seen.toFinset).card =
      (declarations.filterMap Declaration.pair?).length := by
  induction declarations generalizing seen with
  | nil => simp [createNameFindings]
  | cons first rest inductionHypothesis =>
    rw [List.filterMap_cons, Declaration.pair?]
    cases named : first.createMethodName with
    | none =>
      rw [createNameFindings_of_none named, List.filter_append, filter_namelessFindings]
      exact inductionHypothesis seen
    | some name =>
      have further := inductionHypothesis ((first.target.qualifiedName, name) :: seen)
      rw [List.toFinset_cons] at further
      rw [createNameFindings_of_some named, List.filter_append, List.filter_append,
        filter_nameFindings, List.nil_append, List.length_append, length_filter_repeatedFindings]
      simp only [Option.map_some, List.toFinset_cons, List.length_cons, card_insert_sdiff,
        List.mem_toFinset]
      split <;> omega

/-! ### Errors -/

/-- A finding with which declarations are refused. -/
def Refuses (finding : Diagnostic) : Prop :=
  finding.isError = true ∧ finding.code ∈ [DiagnosticCode.missingMarker, .invalidCreateName,
    .duplicateCreateName, .suppressedCreateName]

theorem refuses_nameFindings (declaration : Declaration) (name : String) :
    ∀ finding ∈ nameFindings declaration name, Refuses finding := by
  unfold nameFindings
  split <;> split <;> simp [Refuses, Diagnostic.isError, DiagnosticCode.severity]

theorem refuses_namelessFindings (declaration : Declaration) :
    ∀ finding ∈ namelessFindings declaration, Refuses finding := by
  unfold namelessFindings
  split <;> simp [Refuses, Diagnostic.isError, DiagnosticCode.severity]

theorem refuses_repeatedFindings (seen : List (String × String)) (declaration : Declaration)
    (name : String) : ∀ finding ∈ repeatedFindings seen declaration name, Refuses finding := by
  unfold repeatedFindings
  split <;> simp [Refuses, Diagnostic.isError, DiagnosticCode.severity]

theorem refuses_createNameFindings (seen : List (String × String))
    (declarations : List Declaration) :
    ∀ finding ∈ createNameFindings seen declarations, Refuses finding := by
  induction declarations generalizing seen with
  | nil => exact fun finding member => absurd member List.not_mem_nil
  | cons first rest inductionHypothesis =>
    cases named : first.createMethodName with
    | none =>
      rw [createNameFindings_of_none named, List.forall_mem_append]
      exact ⟨refuses_namelessFindings first, inductionHypothesis seen⟩
    | some name =>
      rw [createNameFindings_of_some named, List.forall_mem_append, List.forall_mem_append]
      exact ⟨⟨refuses_nameFindings first name, refuses_repeatedFindings seen first name⟩,
        inductionHypothesis _⟩

/-- Whatever is found is an error. -/
theorem refuses_findings (root : Root) (declarations : List Declaration) :
    ∀ finding ∈ findings root declarations, Refuses finding := by
  refine List.forall_mem_append.2 ⟨?_, refuses_createNameFindings [] declarations⟩
  split <;> simp [Refuses, Diagnostic.isError, DiagnosticCode.severity, markerFinding]

/-! ### Accepted declarations -/

/-- A builder of the root can be made from the declarations. -/
structure Accepts (root : Root) (declarations : List Declaration) : Prop where
  marked : root.hasMarker = true ∨ declarations = []
  wellNamed : ∀ declaration ∈ declarations, declaration.WellNamed
  /-- No two declarations with one name are about targets of one qualified name. -/
  apart : declarations.Pairwise fun first second => ∀ name,
    first.createMethodName = some name → second.createMethodName = some name →
      first.target.qualifiedName ≠ second.target.qualifiedName

theorem nodup_pairs_iff {declarations : List Declaration} :
    (declarations.filterMap Declaration.pair?).Nodup ↔
      declarations.Pairwise fun first second => ∀ name,
        first.createMethodName = some name → second.createMethodName = some name →
          first.target.qualifiedName ≠ second.target.qualifiedName := by
  rw [List.Nodup, List.pairwise_filterMap]
  simp only [Declaration.pair?, Option.map_eq_some_iff]
  refine ⟨fun apart => apart.imp fun differ name first second same => ?_,
    fun apart => apart.imp fun differ => ?_⟩
  · exact differ _ ⟨name, first, rfl⟩ _ ⟨name, second, rfl⟩ (by rw [same])
  · rintro _ ⟨name, first, rfl⟩ _ ⟨other, second, rfl⟩ same
    cases (Prod.mk.inj same).2
    exact differ name first second (Prod.mk.inj same).1

/-- The findings about declarations decide what a builder is. -/
structure Governs (system : TypeSystem) (naming : Naming) (root : Root)
    (declarations : List Declaration) : Prop where
  accepts : findings root declarations = [] ↔ Accepts root declarations
  /-- Each name is reported as often as it is given too many times. -/
  repeated :
    ((findings root declarations).filter (·.code = .duplicateCreateName)).length +
        (declarations.filterMap Declaration.pair?).toFinset.card =
      (declarations.filter (·.createMethodName.isSome)).length
  refused : findings root declarations ≠ [] →
    (assemble system naming root declarations).diagnostics = findings root declarations ∧
      (assemble system naming root declarations).methods = [] ∧
        (assemble system naming root declarations).steps = [] ∧
          (assemble system naming root declarations).constructors = [] ∧
            (assemble system naming root declarations).usings = []
  accepted : findings root declarations = [] →
    assemble system naming root declarations = assembleValid system naming root declarations

theorem governs_findings (system : TypeSystem) (naming : Naming) (root : Root)
    (declarations : List Declaration) : Governs system naming root declarations where
  accepts := by
    rw [findings_eq_nil_iff, nodup_pairs_iff]
    exact ⟨fun ⟨marked, wellNamed, apart⟩ => ⟨marked, wellNamed, apart⟩,
      fun ⟨marked, wellNamed, apart⟩ => ⟨marked, wellNamed, apart⟩⟩
  repeated := by
    have names := length_duplicates_add_card [] declarations
    rw [List.toFinset_nil, Finset.sdiff_empty] at names
    have unmarked : (if root.hasMarker then [] else declarations.map (markerFinding root)).filter
        (·.code = .duplicateCreateName) = [] := by
      split <;> simp [markerFinding]
    rw [findings, List.filter_append, unmarked, List.nil_append, names,
      List.length_filterMap_eq_countP, List.countP_eq_length_filter]
    simp only [Declaration.pair?, Option.isSome_map]
  refused nonempty := by
    obtain ⟨finding, member⟩ := List.exists_mem_of_ne_nil _ nonempty
    have isError := (refuses_findings root declarations finding member).1
    rw [assemble_of_refused (List.any_eq_true.2 ⟨finding, member, isError⟩)]
    exact ⟨rfl, rfl, rfl, rfl, rfl⟩
  accepted := assemble_of_valid

/-- A name that is no identifier is refused each time and, when it is given again, for that as
well. -/
example :
    let lone : Declaration := {
      constructor := { target := .bare none "Order", parameters := [] }
      root := "Shop"
      createMethodName := some "_" }
    (findings (.marked none "Shop") [lone, lone]).map (·.code) =
      [.invalidCreateName, .invalidCreateName, .duplicateCreateName] := by
  decide

end Validation

end StagedBuilder
