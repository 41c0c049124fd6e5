/-
This file says what type expressions denote in terms of their parts. An argument counts if it
is a type, and lifetimes between the types make no difference; so what arguments denote is what
the types among them denote, one by one.

It follows that no type parameter comes from anywhere but the scope: a name becomes a type
parameter only where the scope knows it, however deep in the expression it stands.
-/

import StagedBuilder.Proofs.Substitution
import StagedBuilder.TypeExpression.Grammar

namespace StagedBuilder

/-! ### Steps that can fail -/

theorem exists_of_bind_eq_ok {Failure First Last : Type} {attempt : Except Failure First}
    {next : First → Except Failure Last} {result : Last}
    (succeeds : attempt >>= next = .ok result) :
    ∃ first, attempt = .ok first ∧ next first = .ok result := by
  cases attempt with
  | error failure => cases succeeds
  | ok first => exact ⟨first, rfl, succeeds⟩

/-- An attempt and those after it succeed if the attempt does and the others do. -/
theorem cons_eq_ok_iff {Failure Result : Type} {attempt : Except Failure Result}
    {attempts : Except Failure (List Result)} {results : List Result} :
    (do return (← attempt) :: (← attempts)) = Except.ok results ↔
      ∃ first others, attempt = .ok first ∧ attempts = .ok others ∧ results = first :: others := by
  constructor
  · intro succeeds
    obtain ⟨first, isFirst, further⟩ := exists_of_bind_eq_ok succeeds
    obtain ⟨others, areOthers, same⟩ := exists_of_bind_eq_ok further
    exact ⟨first, others, isFirst, areOthers, (Except.ok.inj same).symm⟩
  · rintro ⟨first, others, rfl, rfl, rfl⟩
    rfl

/-- The attempts at all entries of a list succeed, with the given results, exactly if each of them
does. -/
theorem mapM_eq_ok_iff {Failure Entry Result : Type} {attempt : Entry → Except Failure Result}
    {entries : List Entry} {results : List Result} :
    entries.mapM attempt = .ok results ↔ entries.map attempt = results.map Except.ok := by
  induction entries generalizing results with
  | nil => cases results <;> simp [pure, Except.pure]
  | cons first rest inductionHypothesis =>
    rw [List.mapM_cons, cons_eq_ok_iff, List.map_cons, eq_comm, List.map_eq_cons_iff]
    simp only [inductionHypothesis]
    constructor
    · rintro ⟨result, others, isFirst, areRest, rfl⟩
      exact ⟨result, others, rfl, isFirst.symm, areRest.symm⟩
    · rintro ⟨result, others, rfl, isFirst, areRest⟩
      exact ⟨result, others, isFirst.symm, areRest.symm, rfl⟩

theorem exists_of_mapM_eq_ok {Failure Entry Result : Type}
    {attempt : Entry → Except Failure Result} {entries : List Entry} {results : List Result}
    (succeeds : entries.mapM attempt = .ok results) {result : Result} (member : result ∈ results) :
    ∃ entry ∈ entries, attempt entry = .ok result := by
  have isResult : Except.ok result ∈ entries.map attempt := by
    rw [mapM_eq_ok_iff.1 succeeds]
    exact List.mem_map_of_mem member
  exact List.mem_map.1 isResult

namespace TypeExpression

/-! ### Parts of expressions -/

def Argument.type? : Argument → Option TypeExpression
  | .type expression => some expression
  | _ => none

/-- The types among arguments, in order. -/
def typesAmong (arguments : List Argument) : List TypeExpression :=
  arguments.filterMap Argument.type?

/-- A property of expressions holds of every expression if it passes from the parts that have a
meaning to the whole. -/
theorem inductionOn {property : TypeExpression → Prop} (expression : TypeExpression)
    (path : ∀ absolute space name arguments,
      (∀ argument ∈ typesAmong arguments, property argument) →
        property (.path absolute space name arguments))
    (projection : property .projection)
    (transparent : ∀ inner, property inner → property (.transparent inner))
    (slice : ∀ element, property element → property (.slice element))
    (array : ∀ element, property element → property (.array element))
    (tuple : ∀ elements, (∀ element ∈ elements, property element) → property (.tuple elements))
    (bound : property .bound) (other : property .other) : property expression :=
  @TypeExpression.rec property
    (fun argument => ∀ type, argument.type? = some type → property type)
    (fun _ => True)
    (fun arguments => ∀ type ∈ typesAmong arguments, property type)
    (fun elements => ∀ element ∈ elements, property element)
    (fun _ => True)
    (fun absolute space name arguments _ => path absolute space name arguments)
    projection transparent slice array tuple bound other
    (fun _ ofType _ same => Option.some.inj same ▸ ofType)
    (fun _ same => nomatch same) (fun _ same => nomatch same)
    trivial (fun _ _ _ _ => trivial)
    (fun _ member => absurd member List.not_mem_nil)
    (fun first rest ofFirst ofRest type member => by
      obtain ⟨argument, isArgument, isType⟩ := List.mem_filterMap.1 member
      rcases List.mem_cons.1 isArgument with rfl | inRest
      · exact ofFirst type isType
      · exact ofRest type (List.mem_filterMap.2 ⟨argument, inRest, isType⟩))
    (fun _ member => absurd member List.not_mem_nil)
    (fun _ _ ofFirst ofRest => List.forall_mem_cons.2 ⟨ofFirst, ofRest⟩)
    (fun _ _ _ => trivial) expression

variable {scope : List String}

/-! ### What lists denote -/

theorem denotedEach_eq_mapM (elements : List TypeExpression) :
    denotedEach scope elements = elements.mapM (denoted scope) := by
  induction elements with
  | nil => rfl
  | cons first rest inductionHypothesis =>
    rw [denotedEach, inductionHypothesis, List.mapM_cons]

/-- Arguments denote types if they are types and lifetimes, and then they denote what the types
among them do. -/
theorem denotedByArguments_eq_ok_iff {arguments : List Argument} {types : List TypeTerm} :
    denotedByArguments scope arguments = .ok types ↔
      .other ∉ arguments ∧ (typesAmong arguments).mapM (denoted scope) = .ok types := by
  induction arguments generalizing types with
  | nil => simp [denotedByArguments, typesAmong, pure, Except.pure]
  | cons first rest inductionHypothesis =>
    cases first with
    | type expression =>
      rw [denotedByArguments, cons_eq_ok_iff]
      show _ ↔ _ ∧ (expression :: typesAmong rest).mapM (denoted scope) = .ok types
      rw [List.mapM_cons, cons_eq_ok_iff]
      simp only [inductionHypothesis, List.mem_cons, reduceCtorEq, false_or]
      constructor
      · rintro ⟨type, others, isType, ⟨allTypes, areOthers⟩, rfl⟩
        exact ⟨allTypes, type, others, isType, areOthers, rfl⟩
      · rintro ⟨allTypes, type, others, isType, areOthers, rfl⟩
        exact ⟨type, others, isType, ⟨allTypes, areOthers⟩, rfl⟩
    | lifetime =>
      rw [denotedByArguments, inductionHypothesis]
      simp only [List.mem_cons, reduceCtorEq, false_or]
      rfl
    | other => simp [denotedByArguments]

/-- What a path denotes, once its arguments denote types. -/
theorem denoted_path_eq_ok_iff {absolute : Bool} {space : List (String × List Argument)}
    {name : String} {arguments : List Argument} {type : TypeTerm} :
    denoted scope (.path absolute space name arguments) = .ok type ↔
      ∃ types, denotedByArguments scope arguments = .ok types ∧
        type = if space.isEmpty && types.isEmpty && scope.contains name then .parameter name
          else .qualified (some ("::".intercalate (space.map (·.1)))) name types := by
  rw [denoted]
  cases denotedByArguments scope arguments with
  | error problem => simp
  | ok types =>
    simp only [Except.ok.injEq, exists_eq_left']
    split <;> simp [eq_comm]

/-! ### Where type parameters come from -/

theorem occurrencesOfAll_subset_of_mapM {elements : List TypeExpression} {types : List TypeTerm}
    (each : ∀ element ∈ elements, ∀ {type}, element.denoted scope = .ok type →
      type.occurrences ⊆ scope)
    (denote : elements.mapM (denoted scope) = .ok types) :
    TypeTerm.occurrencesOfAll types ⊆ scope := by
  intro name occurs
  obtain ⟨type, isType, inType⟩ := TypeTerm.mem_occurrencesOfAll.1 occurs
  obtain ⟨element, isElement, denotes⟩ := exists_of_mapM_eq_ok denote isType
  exact each element isElement denotes inType

/-- A type parameter in what an expression denotes is one of the scope. -/
theorem occurrences_subset_of_denoted {expression : TypeExpression} {type : TypeTerm}
    (denotes : expression.denoted scope = .ok type) : type.occurrences ⊆ scope := by
  induction expression using inductionOn generalizing type with
  | path absolute space name arguments inductionHypothesis =>
    obtain ⟨types, areTypes, rfl⟩ := denoted_path_eq_ok_iff.1 denotes
    split
    · next isParameter =>
      simp only [Bool.and_eq_true, List.contains_iff_mem] at isParameter
      exact List.cons_subset.2 ⟨isParameter.2, List.nil_subset _⟩
    · exact occurrencesOfAll_subset_of_mapM inductionHypothesis
        (denotedByArguments_eq_ok_iff.1 areTypes).2
  | projection => cases denotes
  | transparent inner inductionHypothesis => exact inductionHypothesis denotes
  | slice element inductionHypothesis | array element inductionHypothesis =>
    obtain ⟨inner, isInner, isType⟩ := exists_of_bind_eq_ok denotes
    cases isType
    show inner.occurrences ++ [] ⊆ scope
    rw [List.append_nil]
    exact inductionHypothesis isInner
  | tuple elements inductionHypothesis =>
    rw [denoted, denotedEach_eq_mapM] at denotes
    cases areTypes : elements.mapM (denoted scope) with
    | error problem =>
      rw [areTypes] at denotes
      cases denotes
    | ok types =>
      rw [areTypes] at denotes
      cases denotes
      exact occurrencesOfAll_subset_of_mapM inductionHypothesis areTypes
  | bound => cases denotes
  | other => cases denotes

theorem typeOf_of_parse? {text : String} {expression : TypeExpression}
    (isText : parse? text = some expression) : typeOf scope text = expression.denoted scope := by
  unfold typeOf
  rw [isText]

theorem occurrences_subset_of_typeOf {text : String} {type : TypeTerm}
    (denotes : typeOf scope text = .ok type) : type.occurrences ⊆ scope := by
  unfold typeOf at denotes
  split at denotes
  · exact occurrences_subset_of_denoted denotes
  · cases denotes

end TypeExpression

end StagedBuilder
