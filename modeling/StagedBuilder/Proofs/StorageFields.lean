/-
This file says when a step holds its values in fields of their own. A field bears the name of
its value, with the place of the value added if the name is known already at that place. The
known names come from whichever constructor made an edge, so one way may repeat a name that
no constructor repeats.

A field with a number added is different from every plain field of the same name, but not
from the field of a value whose name is spelled that way. This is the only way for two values
to meet. Where the names are all different no number is added, and where no name ends in a
digit a field tells what is name in it and what is number.
-/

import StagedBuilder.Proofs.CompactText
import StagedBuilder.Proofs.Trail

namespace StagedBuilder

/-! ### The spelling of fields -/

/-- What is added to the name of a value, at its place among values of the given names. -/
def fieldMark (names : List String) (place : Nat) (name : String) : String :=
  if name ∈ names.take place then toString place else ""

/-- The field of a value, at its place among values of the given names. -/
def fieldAt (names : List String) (place : Nat) (name : String) : Storage :=
  .field ("_" ++ (name ++ fieldMark names place name))

/-- Later values do not change the field of an earlier one. -/
theorem fieldAt_append {names : List String} {place : Nat} (within : place ≤ names.length)
    (later : List String) (name : String) :
    fieldAt (names ++ later) place name = fieldAt names place name := by
  unfold fieldAt fieldMark
  rw [List.take_append_of_le_length within]

theorem Path.field_fieldName (path : Path) (name : String) :
    Storage.field (path.fieldName name) =
      fieldAt (path.known.map (·.name)) path.known.length name := by
  have known : path.known.any (·.name == name) = true ↔ name ∈ path.known.map (·.name) := by
    simp [List.any_eq_true]
  have whole : (path.known.map (·.name)).take path.known.length = path.known.map (·.name) :=
    List.take_of_length_le (Nat.le_of_eq (List.length_map _))
  unfold Path.fieldName fieldAt fieldMark
  rw [whole]
  by_cases repeated : name ∈ path.known.map (·.name)
  · rw [if_pos (known.2 repeated), if_pos repeated, String.append_assoc]
  · rw [if_neg (mt known.1 repeated), if_neg repeated, String.append_empty]

/-- On a walked path every value is held in the field of its place. -/
theorem Walked.storage_known {tree : PlanTree} {path : Path} (walked : Walked tree path)
    {place : Nat} {value : Known} (found : path.known[place]? = some value) :
    value.storage = fieldAt (path.known.map (·.name)) place value.name := by
  induction walked with
  | start => cases found
  | @extend path _ _ _ representative _ _ _ _ _ inductionHypothesis =>
    have within := (List.getElem?_eq_some_iff.1 found).1
    rw [Path.known_extend, List.length_append, List.length_singleton] at within
    rw [Path.known_extend] at found ⊢
    rw [List.map_append]
    by_cases old : place < path.known.length
    · rw [List.getElem?_append_left old] at found
      rw [fieldAt_append (by rw [List.length_map]; exact Nat.le_of_lt old)]
      exact inductionHypothesis found
    · obtain rfl : place = path.known.length := by omega
      rw [List.getElem?_append_right (Nat.le_refl _), Nat.sub_self, List.getElem?_cons_zero,
        Option.some.injEq] at found
      subst found
      rw [fieldAt_append (Nat.le_of_eq (List.length_map _).symm)]
      exact path.field_fieldName representative.key.name

/-! ### Values that meet -/

/-- Among values of the given names, one whose name is known before it is held in the field of
another one: with its place added, its name is that of the other, which may have its own place
added. -/
def FieldsMeet (names : List String) : Prop :=
  ∃ place name other otherName, names[place]? = some name ∧ names[other]? = some otherName ∧
    name ∈ names.take place ∧ name ≠ otherName ∧
      name ++ toString place = otherName ++ fieldMark names other otherName

theorem fieldMark_of_mem {names : List String} {place : Nat} {name : String}
    (repeated : name ∈ names.take place) : fieldMark names place name = toString place :=
  if_pos repeated

/-- A number that is added is that of the place. -/
theorem eq_of_fieldMark_eq {names : List String} {place other : Nat} {name : String}
    (same : fieldMark names place name = toString other) : place = other := by
  unfold fieldMark at same
  split at same
  · exact Nat.repr_injective same
  · exact absurd (congrArg String.length same).symm (Nat.ne_of_gt Nat.length_repr_pos)

/-- Two values with one field meet. -/
theorem fieldsMeet_of_fieldAt_eq {names : List String} {place other : Nat}
    {name otherName : String} (found : names[place]? = some name)
    (otherFound : names[other]? = some otherName) (before : place < other)
    (same : fieldAt names place name = fieldAt names other otherName) : FieldsMeet names := by
  have sameField : name ++ fieldMark names place name =
      otherName ++ fieldMark names other otherName :=
    (String.append_right_inj "_").1 (Storage.field.inj same)
  -- With one name the later value has a number added, which would be that of both places.
  have differ : name ≠ otherName := by
    rintro rfl
    have repeated : name ∈ names.take other := by
      refine @List.mem_of_getElem? _ _ place _ ?_
      rw [List.getElem?_take_of_lt before, found]
    have sameMark := (String.append_right_inj name).1 sameField
    rw [fieldMark_of_mem repeated] at sameMark
    exact absurd (eq_of_fieldMark_eq sameMark) (Nat.ne_of_lt before)
  by_cases repeated : otherName ∈ names.take other
  · rw [fieldMark_of_mem repeated] at sameField
    exact ⟨other, otherName, place, name, otherFound, found, repeated, differ.symm,
      sameField.symm⟩
  · by_cases earlier : name ∈ names.take place
    · rw [fieldMark_of_mem earlier] at sameField
      exact ⟨place, name, other, otherName, found, otherFound, earlier, differ, sameField⟩
    · rw [fieldMark, fieldMark, if_neg earlier, if_neg repeated, String.append_empty,
        String.append_empty] at sameField
      exact absurd sameField differ

/-- Values that meet are held in one field. -/
theorem FieldsMeet.exists_same {names : List String} (meet : FieldsMeet names) :
    ∃ place name other otherName, names[place]? = some name ∧ names[other]? = some otherName ∧
      place ≠ other ∧ fieldAt names place name = fieldAt names other otherName := by
  obtain ⟨place, name, other, otherName, found, otherFound, repeated, differ, same⟩ := meet
  refine ⟨place, name, other, otherName, found, otherFound, ?_, ?_⟩
  · rintro rfl
    exact differ (Option.some.inj (found.symm.trans otherFound))
  · unfold fieldAt
    rw [fieldMark_of_mem repeated, same]

/-- Values with different names do not meet. -/
theorem not_fieldsMeet_of_nodup {names : List String} (distinct : names.Nodup) :
    ¬FieldsMeet names := by
  rintro ⟨place, name, other, otherName, found, -, repeated, -⟩
  obtain ⟨earlier, less, isName⟩ := List.mem_take_iff_getElem.1 repeated
  obtain ⟨bound, atPlace⟩ := List.getElem?_eq_some_iff.1 found
  have samePlace := (distinct.getElem_inj_iff).1 (isName.trans atPlace.symm)
  omega

/-! ### Names without numbers -/

/-- The last character of the text is not a digit. -/
def Numberless (text : String) : Prop :=
  ∀ character ∈ text.toList.getLast?, character.isDigit = false

instance (text : String) : Decidable (Numberless text) :=
  inferInstanceAs (Decidable (∀ character ∈ text.toList.getLast?, character.isDigit = false))

theorem isDigit_of_mem_fieldMark {names : List String} {place : Nat} {name : String}
    {character : Char} (member : character ∈ (fieldMark names place name).toList) :
    character.isDigit = true := by
  unfold fieldMark at member
  split at member
  · exact Nat.isDigit_of_mem_toDigits (by decide) (by decide)
      ((String.toList_ofList (l := Nat.toDigits 10 place)) ▸ member)
  · exact absurd member List.not_mem_nil

/-- Of two texts that are the same with digits added, neither goes on with digits after the end of
the other. -/
theorem not_digits_after {text longer digits : List Char}
    (ends : ∀ character ∈ longer.getLast?, character.isDigit = false)
    (goesOn : longer = text ++ digits)
    (areDigits : ∀ character ∈ digits, character.isDigit = true) : longer = text := by
  rcases List.eq_nil_or_concat' digits with rfl | ⟨before, last, rfl⟩
  · rw [goesOn, List.append_nil]
  · have isLast : longer.getLast? = some last := by
      rw [goesOn, ← List.append_assoc, List.getLast?_concat]
    have notDigit := ends last isLast
    rw [areDigits last (List.mem_append_right _ (List.mem_singleton_self _))] at notDigit
    cases notDigit

/-- What is put before digits is determined if it does not end in a digit itself. -/
theorem eq_of_append_digits {text other digits others : List Char}
    (ends : ∀ character ∈ text.getLast?, character.isDigit = false)
    (otherEnds : ∀ character ∈ other.getLast?, character.isDigit = false)
    (areDigits : ∀ character ∈ digits, character.isDigit = true)
    (othersAreDigits : ∀ character ∈ others, character.isDigit = true)
    (same : text ++ digits = other ++ others) : text = other := by
  rcases List.append_eq_append_iff.1 same with ⟨more, longer, parts⟩ | ⟨more, longer, parts⟩
  · refine (not_digits_after otherEnds longer fun character member => areDigits character ?_).symm
    rw [parts]
    exact List.mem_append_left _ member
  · refine not_digits_after ends longer fun character member => othersAreDigits character ?_
    rw [parts]
    exact List.mem_append_left _ member

/-- Values whose names do not end in digits do not meet. -/
theorem not_fieldsMeet_of_numberless {names : List String}
    (numberless : ∀ name ∈ names, Numberless name) : ¬FieldsMeet names := by
  rintro ⟨place, name, other, otherName, found, otherFound, repeated, differ, same⟩
  rw [← fieldMark_of_mem repeated] at same
  have sameLetters := congrArg String.toList same
  rw [String.toList_append, String.toList_append] at sameLetters
  exact differ (String.toList_inj.1 (eq_of_append_digits
    (numberless name (List.mem_of_getElem? found))
    (numberless otherName (List.mem_of_getElem? otherFound))
    (fun _ => isDigit_of_mem_fieldMark) (fun _ => isDigit_of_mem_fieldMark) sameLetters))

/-! ### Steps -/

/-- The names of the values that a step knows. -/
abbrev SynthesizedStep.knownNames (step : SynthesizedStep) : List String :=
  step.known.map (·.name)

/-- Where the synthesized steps of a builder hold their values. -/
structure Builder.FieldsPlaced (declarations : List Declaration) (builder : Builder) : Prop where
  /-- A field bears the name of its value, with its place added if the name is known before. -/
  spelled : ∀ step, Step.synthesized step ∈ builder.steps → ∀ (place : Nat) (value : Known),
    step.known[place]? = some value → value.storage = fieldAt step.knownNames place value.name
  /-- Two values are held in one field exactly if one that is repeated has the name of another
  one once its place is added. -/
  apart : ∀ step, Step.synthesized step ∈ builder.steps →
    ((step.known.map (·.storage)).Nodup ↔ ¬FieldsMeet step.knownNames)
  /-- Values with different names are held apart. -/
  distinct : ∀ step, Step.synthesized step ∈ builder.steps → step.knownNames.Nodup →
    (step.known.map (·.storage)).Nodup
  /-- If no parameter has a name that ends in a digit, all values are held apart. -/
  numberless : (∀ declaration ∈ declarations, ∀ parameter ∈ declaration.constructor.parameters,
      Numberless parameter.name) →
    ∀ step, Step.synthesized step ∈ builder.steps → (step.known.map (·.storage)).Nodup

/-- Fields that are spelled by the places of the values are different unless values meet. -/
theorem nodup_storage_iff {known : List Known}
    (spelled : ∀ (place : Nat) (value : Known), known[place]? = some value →
      value.storage = fieldAt (known.map (·.name)) place value.name) :
    (known.map (·.storage)).Nodup ↔ ¬FieldsMeet (known.map (·.name)) := by
  have atPlace : ∀ {place : Nat} {name : String}, (known.map (·.name))[place]? = some name →
      (known.map (·.storage))[place]? = some (fieldAt (known.map (·.name)) place name) := by
    intro place name found
    rw [List.getElem?_map] at found
    obtain ⟨value, isValue, rfl⟩ := Option.map_eq_some_iff.1 found
    rw [List.getElem?_map, isValue, Option.map_some, spelled place value isValue]
  constructor
  · rintro distinct meet
    obtain ⟨place, name, other, otherName, found, otherFound, differ, same⟩ := meet.exists_same
    obtain ⟨bound, -⟩ := List.getElem?_eq_some_iff.1 (atPlace found)
    refine differ ((List.getElem?_inj bound distinct).1 ?_)
    rw [atPlace found, atPlace otherFound, same]
  · intro apart
    rw [List.nodup_iff_getElem?_ne_getElem?]
    intro place other before within same
    rw [List.length_map] at within
    have otherFound : (known.map (·.name))[other]? = some known[other].name := by
      rw [List.getElem?_map, List.getElem?_eq_getElem within, Option.map_some]
    have found : (known.map (·.name))[place]? = some known[place].name := by
      rw [List.getElem?_map, List.getElem?_eq_getElem, Option.map_some]
    rw [atPlace found, atPlace otherFound, Option.some.injEq] at same
    exact apart (fieldsMeet_of_fieldAt_eq found otherFound before same)

/-- Steps hold their values in fields that are told apart by places, except where a name with a
number added is another name. -/
theorem fieldsPlaced_assemble (system : TypeSystem) (naming : Naming) (root : Root)
    (declarations : List Declaration) :
    (assemble system naming root declarations).FieldsPlaced declarations := by
  obtain ⟨setting⟩ := nonempty_setting system naming root declarations
  have spelled : ∀ step,
      Step.synthesized step ∈ (assemble system naming root declarations).steps →
        ∀ (place : Nat) (value : Known), step.known[place]? = some value →
          value.storage = fieldAt step.knownNames place value.name := by
    intro step member place value found
    obtain ⟨way, made⟩ := setting.exists_madeAlong member
    rw [SynthesizedStep.knownNames, made.known]
    rw [made.known] at found
    exact made.trail.walked.storage_known found
  refine ⟨spelled, fun step member => nodup_storage_iff (spelled step member),
    fun step member distinct => ?_, fun numberless step member => ?_⟩
  · exact (nodup_storage_iff (spelled step member)).2 (not_fieldsMeet_of_nodup distinct)
  · refine (nodup_storage_iff (spelled step member)).2
      (not_fieldsMeet_of_numberless fun name known => ?_)
    obtain ⟨way, made⟩ := setting.exists_madeAlong member
    rw [made.known, made.trail.map_name_known] at known
    obtain ⟨key, member, rfl⟩ := List.mem_map.1 known
    obtain ⟨place, onWay⟩ := List.getElem?_of_mem member
    obtain ⟨id, declaration, declared, isKey⟩ :=
      made.trail.exists_declaration setting.grown setting.planned onWay
    obtain ⟨parameter, form, isParameter, -, rfl⟩ := Declaration.getElem?_parameters_plan isKey
    exact numberless declaration (List.mem_of_getElem? declared) parameter
      (List.mem_of_getElem? isParameter)

/-- The first value is called `size` by the constructor that comes first, and the other constructor
goes on with values called `size2` and `size`. At its place, the latter is held as `size2` too. -/
theorem not_nodup_storage_assemble_sized :
    let order : Declaration := {
      constructor := {
        target := .bare none "Order"
        parameters := [{ name := "size", type := .simple "Int" }] }
      root := "Shop" }
    let parcel : Declaration := {
      constructor := {
        target := .bare none "Parcel"
        parameters := [
          { name := "count", type := .simple "Int", methodName := some "WithSize" },
          { name := "size2", type := .simple "Int" },
          { name := "size", type := .simple "Int" }] }
      root := "Shop" }
    Validation.findings (.marked none "Shop") [order, parcel] = [] ∧
      (∀ declaration ∈ [order, parcel],
        (declaration.constructor.parameters.map (·.name)).Nodup) ∧
      ∃ step, Step.synthesized step ∈
          (assemble {} {} (.marked none "Shop") [order, parcel]).steps ∧
        ¬(step.known.map (·.storage)).Nodup := by
  intro order parcel
  have valid : Validation.findings (.marked none "Shop") [order, parcel] = [] := rfl
  rw [assemble_of_valid valid]
  let origin := originOfValid {} {} (.marked none "Shop") [order, parcel]
  have leads : (rootCandidates {} (.marked none "Shop")
      (planTree (planAll {} {} [order, parcel]))).map (·.method.result.node) =
        List.replicate (1 + 1) (.step 0) := by
    decide +kernel
  have first : origin.Reached (.step 0) := reached_originOfValid leads
  have second : origin.Reached (.step 1) := origin.reached_next first (by decide +kernel)
  have third : origin.Reached (.step 2) := origin.reached_next second (by decide +kernel)
  have held : (origin.walk.step? 2).map (fun step => (step.target?, step.known.map (·.storage))) =
      some (none, [.field "_size", .field "_size2", .field "_size2"]) := by
    decide +kernel
  obtain ⟨step, found, isStep⟩ := Option.map_eq_some_iff.1 held
  obtain ⟨isNew, fields⟩ := Prod.mk.inj isStep
  refine ⟨valid, by decide +kernel, ?_⟩
  cases step with
  | existing step => cases isNew
  | synthesized step =>
    obtain ⟨final, member, sameKnown, -⟩ := origin.exists_synthesized third found
    have sameFields : step.known.map (·.storage) =
        [.field "_size", .field "_size2", .field "_size2"] := fields
    refine ⟨final, member, fun distinct => ?_⟩
    rw [sameKnown, sameFields] at distinct
    exact absurd distinct (by decide)

end StagedBuilder
