/-
This file shows that two builders with the same canonical text are the same. The
JSON form of every record determines the record: kinds are told apart by their
tags, words by their spelling, and a field that is left out by its absence. The
forms are made of readable pieces and integers only, so their compact texts
determine them in turn, and the bytes determine the text.

Records that can be read back need no argument of their own; for the others the
forms are compared field by field.
-/

import StagedBuilder.Builder.Fingerprint
import StagedBuilder.Proofs.CompactText
import StagedBuilder.Proofs.RoundTrip

namespace StagedBuilder

/-! ### Forms of scalars, lists and options -/

namespace Json

section

variable {Value : Type} {write : Value → Json}

/-- What can be read back has a form of its own. -/
theorem injective_of_gives {read : Json → Option Value}
    (gives : ∀ value, read (write value) = some value) : Function.Injective write :=
  fun left right same =>
    Option.some.inj ((gives left).symm.trans ((congrArg read same).trans (gives right)))

theorem ofList_inj (injective : Function.Injective write) {left right : List Value} :
    ofList write left = ofList write right ↔ left = right := by
  rw [ofList, ofList, array.injEq, injective.list_map.eq_iff]

@[simp]
theorem ofNat_inj {left right : Nat} : ofNat left = ofNat right ↔ left = right := by
  rw [ofNat, ofNat, integer.injEq, Int.ofNat_inj]

theorem ofNat_injective : Function.Injective ofNat := fun _ _ => ofNat_inj.1

theorem string_injective : Function.Injective string := fun _ _ => string.inj

@[simp]
theorem ofOption_string_inj {left right : Option String} :
    ofOption .string left = ofOption .string right ↔ left = right := by
  cases left <;> cases right <;> simp [ofOption]

@[simp]
theorem whole_bool (value : Bool) : (Json.bool value).Whole := .bool value

@[simp]
theorem whole_integer (value : Int) : (Json.integer value).Whole := .integer value

@[simp]
theorem whole_ofNat (value : Nat) : (ofNat value).Whole := .integer value

@[simp]
theorem whole_string (value : String) : (Json.string value).Whole := .string value

@[simp]
theorem whole_array {items : List Json} :
    (Json.array items).Whole ↔ ∀ item ∈ items, item.Whole :=
  ⟨fun | .array whole => whole, .array⟩

@[simp]
theorem whole_object {fields : List (String × Json)} :
    (Json.object fields).Whole ↔ ∀ field ∈ fields, field.2.Whole :=
  ⟨fun | .object whole => whole, .object⟩

theorem whole_ofList (whole : ∀ value, (write value).Whole) (values : List Value) :
    (ofList write values).Whole :=
  .array (List.forall_mem_map.2 fun value _ => whole value)

@[simp]
theorem whole_ofOption_string (text : Option String) : (ofOption .string text).Whole := by
  cases text with
  | none => exact .null
  | some text => exact .string text

end

end Json

open Json (injective_of_gives ofList_inj ofNat_injective string_injective whole_ofList)

/-! ### Types and declarations -/

@[simp]
theorem TypeTerm.toJson_inj {left right : TypeTerm} : left.toJson = right.toJson ↔ left = right :=
  (injective_of_gives ofJson?_toJson).eq_iff

@[simp]
theorem TypeTerm.whole_toJson (type : TypeTerm) : type.toJson.Whole := by
  induction type using inductionOn with
  | named space name arguments inductionHypothesis =>
    rw [toJson, allToJson_eq_map]
    -- Name space and arguments may each be left out.
    cases space <;> cases arguments <;> simp_all
  | parameter name => simp [toJson]

@[simp]
theorem TypeParameter.toJson_inj {left right : TypeParameter} :
    left.toJson = right.toJson ↔ left = right :=
  (injective_of_gives ofJson?_toJson).eq_iff

@[simp]
theorem Constraints.whole_toJson (constraints : Constraints) : constraints.toJson.Whole := by
  simp [toJson, whole_ofList]

@[simp]
theorem TypeParameter.whole_toJson (declared : TypeParameter) : declared.toJson.Whole := by
  by_cases isEmpty : declared.constraints.isEmpty = true <;> simp [toJson, isEmpty]

@[simp]
theorem Location.toJson_inj {left right : Location} : left.toJson = right.toJson ↔ left = right :=
  (injective_of_gives ofJson?_toJson).eq_iff

@[simp]
theorem Location.whole_toJson (location : Location) : location.toJson.Whole := by
  simp [toJson]

@[simp]
theorem DeclaredKind.word_inj {left right : DeclaredKind} : left.word = right.word ↔ left = right :=
  ⟨fun same => Option.some.inj (by rw [← ofWord?_word left, same, ofWord?_word]), congrArg word⟩

@[simp]
theorem Accessibility.word_inj {left right : Accessibility} :
    left.word = right.word ↔ left = right :=
  ⟨fun same => Option.some.inj (by rw [← ofWord?_word left, same, ofWord?_word]), congrArg word⟩

/-! ### Methods -/

@[simp]
theorem Product.fields_inj {left right : Product} : left.fields = right.fields ↔ left = right := by
  cases left
  cases right
  simp [fields, ofList_inj ofNat_injective]

theorem Product.whole_fields (product : Product) : ∀ field ∈ product.fields, field.2.Whole := by
  simp [fields, whole_ofList]

@[simp]
theorem Result.toJson_inj {left right : Result} : left.toJson = right.toJson ↔ left = right := by
  cases left <;> cases right <;> simp [toJson]

@[simp]
theorem Result.whole_toJson (result : Result) : result.toJson.Whole := by
  cases result with
  | product value => simpa [toJson] using value.whole_fields
  | step index => simp [toJson]

theorem Argument.toJson_injective : Function.Injective Argument.toJson := by
  rintro ⟨name, type, documentation⟩ ⟨otherName, otherType, otherDocumentation⟩
  -- The text may be left out of either form.
  cases documentation <;> cases otherDocumentation <;> simp [Argument.toJson]

theorem Argument.whole_toJson (argument : Argument) : argument.toJson.Whole := by
  obtain ⟨name, type, documentation⟩ := argument
  cases documentation <;> simp [toJson]

@[simp]
theorem Source.toJson_inj {left right : Source} : left.toJson = right.toJson ↔ left = right := by
  cases left
  cases right
  simp [toJson]

@[simp]
theorem Source.whole_toJson (source : Source) : source.toJson.Whole := by
  simp [toJson]

@[simp]
theorem ConverterCall.toJson_inj {left right : ConverterCall} :
    left.toJson = right.toJson ↔ left = right := by
  cases left
  cases right
  simp [toJson, ofList_inj string_injective]

@[simp]
theorem ConverterCall.whole_toJson (call : ConverterCall) : call.toJson.Whole := by
  simp [toJson, whole_ofList]

theorem Method.toJson_inj {left right : Method} : left.toJson = right.toJson ↔ left = right := by
  have typeParameters := @ofList_inj _ _ (injective_of_gives TypeParameter.ofJson?_toJson)
  have locations := @ofList_inj _ _ (injective_of_gives Location.ofJson?_toJson)
  have arguments := @ofList_inj _ _ Argument.toJson_injective
  have siblings := @ofList_inj _ _ string_injective
  rcases left with left | left | left <;> rcases right with right | right | right <;>
    cases left <;> cases right <;>
    simp [toJson, typeParameters, locations, arguments, siblings, Int32.toInt_inj]

theorem Method.toJson_injective : Function.Injective Method.toJson := fun _ _ => toJson_inj.1

theorem Method.whole_toJson (method : Method) : method.toJson.Whole := by
  cases method with
  | supply method => simp [toJson, whole_ofList, Argument.whole_toJson]
  | conversion method => simp [toJson, whole_ofList, Argument.whole_toJson]
  | creation method => simpa [toJson, whole_ofList] using method.product.whole_fields

/-! ### Steps -/

@[simp]
theorem Storage.toJson_inj {left right : Storage} : left.toJson = right.toJson ↔ left = right := by
  cases left <;> cases right <;> simp [toJson]

@[simp]
theorem Storage.whole_toJson (storage : Storage) : storage.toJson.Whole := by
  cases storage <;> simp [toJson]

theorem Known.toJson_injective : Function.Injective Known.toJson := by
  rintro ⟨name, type, storage⟩ ⟨otherName, otherType, otherStorage⟩
  simp [Known.toJson]

theorem Known.whole_toJson (known : Known) : known.toJson.Whole := by
  simp [toJson]

theorem Step.toJson_inj {left right : Step} : left.toJson = right.toJson ↔ left = right := by
  have typeParameters := @ofList_inj _ _ (injective_of_gives TypeParameter.ofJson?_toJson)
  have known := @ofList_inj _ _ Known.toJson_injective
  have methods := @ofList_inj _ _ Method.toJson_injective
  have candidates := @ofList_inj _ _ ofNat_injective
  rcases left with left | left <;> rcases right with right | right <;>
    cases left <;> cases right <;>
    simp [toJson, typeParameters, known, methods, candidates]

theorem Step.toJson_injective : Function.Injective Step.toJson := fun _ _ => toJson_inj.1

theorem Step.whole_toJson (step : Step) : step.toJson.Whole := by
  cases step <;> simp [toJson, whole_ofList, Known.whole_toJson, Method.whole_toJson]

/-! ### Builders -/

theorem ConstructorSummary.toJson_injective : Function.Injective ConstructorSummary.toJson := by
  rintro ⟨id, display, target, location⟩ ⟨otherId, otherDisplay, otherTarget, otherLocation⟩
  simp [ConstructorSummary.toJson]

theorem ConstructorSummary.whole_toJson (summary : ConstructorSummary) : summary.toJson.Whole := by
  simp [toJson]

/-- Codes are known by their names. -/
theorem DiagnosticCode.find?_name (code : DiagnosticCode) :
    all.find? (·.name == code.name) = some code := by
  cases code <;> rfl

@[simp]
theorem DiagnosticCode.name_inj {left right : DiagnosticCode} :
    left.name = right.name ↔ left = right :=
  ⟨fun same => Option.some.inj (by rw [← find?_name left, same, find?_name]), congrArg name⟩

@[simp]
theorem Severity.word_inj {left right : Severity} : left.word = right.word ↔ left = right := by
  cases left <;> cases right <;> decide

theorem Diagnostic.toJson_injective : Function.Injective Diagnostic.toJson := by
  have locations := @ofList_inj _ _ (injective_of_gives Location.ofJson?_toJson)
  have arguments := @ofList_inj _ _ string_injective
  rintro ⟨code, severity, location, additional, texts⟩
    ⟨otherCode, otherSeverity, otherLocation, otherAdditional, otherTexts⟩
  -- Further places may be left out of either form.
  cases additional <;> cases otherAdditional <;>
    simp [Diagnostic.toJson, locations, arguments]

theorem Diagnostic.whole_toJson (diagnostic : Diagnostic) : diagnostic.toJson.Whole := by
  by_cases isEmpty : diagnostic.additionalLocations.isEmpty = true <;>
    simp [toJson, isEmpty, whole_ofList]

theorem Builder.toJson_inj {left right : Builder} : left.toJson = right.toJson ↔ left = right := by
  have typeParameters := @ofList_inj _ _ (injective_of_gives TypeParameter.ofJson?_toJson)
  have usings := @ofList_inj _ _ string_injective
  have methods := @ofList_inj _ _ Method.toJson_injective
  have steps := @ofList_inj _ _ Step.toJson_injective
  have constructors := @ofList_inj _ _ ConstructorSummary.toJson_injective
  have diagnostics := @ofList_inj _ _ Diagnostic.toJson_injective
  cases left
  cases right
  simp [toJson, typeParameters, usings, methods, steps, constructors, diagnostics]

theorem Builder.whole_toJson (builder : Builder) : builder.toJson.Whole := by
  simp [toJson, whole_ofList, Method.whole_toJson, Step.whole_toJson,
    ConstructorSummary.whole_toJson, Diagnostic.whole_toJson]

/-! ### Bytes -/

theorem toList_loop (bytes : ByteArray) (place : Nat) (before : List UInt8) :
    ByteArray.toList.loop bytes place before =
      before.reverse ++ bytes.data.toList.drop place := by
  fun_induction ByteArray.toList.loop bytes place before with
  | case1 place before within inductionHypothesis =>
    have bound : place < bytes.data.toList.length := within
    have read : bytes.get! place = bytes.data.toList[place] := by
      show bytes.data[place]! = _
      rw [getElem!_pos bytes.data place within, Array.getElem_toList]
    rw [inductionHypothesis, List.reverse_cons, List.append_assoc, List.singleton_append,
      List.drop_eq_getElem_cons bound, read]
  | case2 place before beyond =>
    have bound : bytes.data.toList.length ≤ place := Nat.le_of_not_lt beyond
    rw [List.drop_eq_nil_of_le bound, List.append_nil]

theorem toList_injective : Function.Injective ByteArray.toList := by
  intro left right same
  rw [ByteArray.toList, ByteArray.toList, toList_loop, toList_loop, List.drop_zero,
    List.drop_zero] at same
  exact ByteArray.ext (Array.toList_inj.1 (List.append_cancel_left same))

/-- The bytes that a fingerprint is taken of determine the builder. -/
theorem Builder.canonicalBytes_inj {left right : Builder} :
    left.canonicalText.toUTF8.toList = right.canonicalText.toUTF8.toList ↔ left = right := by
  rw [toList_injective.eq_iff, String.toUTF8_eq_toByteArray, String.toUTF8_eq_toByteArray,
    String.toByteArray_inj, canonicalText, canonicalText,
    Json.compact_inj left.whole_toJson right.whole_toJson, toJson_inj]

end StagedBuilder
