/-
This file says what the positional form of a list of types is like. The numbering
lists exactly the type parameters that occur, each once; the form of every type is
the type with numbers written for all of them; and the form of a list begins with
the forms of its beginnings.

The types of a positional form mention the placeholders from zero up to some number
and no others. This number can be read off the form alone, so two lists of types with
the same positional form have as many type parameters, whatever these are called.
-/

import Mathlib.Data.List.Nodup
import Std.Data.String.ToNat
import StagedBuilder.Generic.Placeholder
import StagedBuilder.Proofs.Lists
import StagedBuilder.Proofs.Substitution

namespace StagedBuilder

open TypeTerm (occurrencesOfAll mem_occurrencesOfAll)

theorem placeholderName_injective : Function.Injective placeholderName := by
  intro left right same
  exact Nat.repr_injective ((String.append_right_inj "$").1 same)

namespace Numbering

/-! ### Numbers -/

theorem index?_eq_some {numbering : Numbering} {name : String} {index : Nat}
    (found : numbering.index? name = some index) : numbering.names[index]? = some name := by
  obtain ⟨bound, isName, -⟩ := List.findIdx?_eq_some_iff_getElem.1 found
  rw [List.getElem?_eq_getElem bound, eq_of_beq isName]

theorem exists_index? {numbering : Numbering} {name : String} (member : name ∈ numbering.names) :
    ∃ index, numbering.index? name = some index ∧ index < numbering.names.length := by
  cases found : numbering.index? name with
  | none =>
    have absent := List.findIdx?_eq_none_iff.1 found name member
    simp at absent
  | some index =>
    exact ⟨index, rfl, (List.getElem?_eq_some_iff.1 (index?_eq_some found)).1⟩

/-- A later numbering keeps the numbers of an earlier one. -/
theorem index?_of_isPrefix {first second : Numbering} (begins : first.names <+: second.names)
    {name : String} {index : Nat} (found : first.index? name = some index) :
    second.index? name = some index := by
  obtain ⟨rest, appended⟩ := begins
  unfold index? at found ⊢
  rw [← appended, List.findIdx?_append, found, Option.some_or]

theorem lookup_zipIdx (names : List String) (start : Nat) (name : String) :
    ((names.zipIdx start).map fun (name, index) => (name, placeholder index)).lookup name =
      (names.findIdx? (· == name)).map fun index => placeholder (start + index) := by
  induction names generalizing start with
  | nil => rfl
  | cons first rest inductionHypothesis =>
    rw [List.zipIdx_cons, List.map_cons, List.lookup_cons, List.findIdx?_cons,
      inductionHypothesis, Bool.beq_comm]
    cases first == name with
    | true => rfl
    | false =>
      simp only [Bool.false_eq_true, ↓reduceIte, Option.map_map]
      refine congrArg (Option.map · (rest.findIdx? (· == name))) (funext fun index => ?_)
      exact congrArg placeholder (Nat.add_right_comm start 1 index)

/-- In positional form a numbered type parameter is its placeholder. -/
theorem positional_parameter {numbering : Numbering} {name : String} {index : Nat}
    (found : numbering.index? name = some index) :
    numbering.positional (.parameter name) = placeholder index := by
  refine TypeTerm.substitute_parameter_of_lookup ?_
  unfold index? at found
  rw [substitution, lookup_zipIdx, found, Option.map_some, Nat.zero_add]

/-- Further numbers do not change the form of a type whose type parameters are numbered. -/
theorem positional_of_isPrefix {first second : Numbering} (begins : first.names <+: second.names)
    {type : TypeTerm} (numbered : ∀ name ∈ type.occurrences, name ∈ first.names) :
    second.positional type = first.positional type := by
  refine TypeTerm.substitute_congr fun name occurs => ?_
  obtain ⟨index, found, -⟩ := exists_index? (numbered name occurs)
  exact (positional_parameter (index?_of_isPrefix begins found)).trans
    (positional_parameter found).symm

/-- What occurs in the form of a type are the placeholders of its type parameters. -/
theorem mem_occurrences_positional {numbering : Numbering} {type : TypeTerm}
    (numbered : ∀ name ∈ type.occurrences, name ∈ numbering.names) {occurring : String} :
    occurring ∈ (numbering.positional type).occurrences ↔
      ∃ name ∈ type.occurrences, ∃ index, numbering.index? name = some index ∧
        occurring = placeholderName index := by
  rw [positional, TypeTerm.occurrences_substitute, List.mem_flatMap]
  refine exists_congr fun name => and_congr_right fun occurs => ?_
  obtain ⟨index, found, -⟩ := exists_index? (numbered name occurs)
  have form : (TypeTerm.parameter name).substitute numbering.substitution = placeholder index :=
    positional_parameter found
  rw [form, placeholder, TypeTerm.occurrences, List.mem_singleton]
  constructor
  · exact fun same => ⟨index, found, same⟩
  · rintro ⟨other, otherFound, same⟩
    rw [found, Option.some.injEq] at otherFound
    rw [same, otherFound]

/-! ### Going on from a numbering -/

theorem mem_extend {numbering : Numbering} {type : TypeTerm} {name : String} :
    name ∈ (numbering.extend type).names ↔ name ∈ numbering.names ∨ name ∈ type.occurrences := by
  simp only [extend, unseen, TypeTerm.parameters, List.mem_append, List.mem_filter,
    List.mem_eraseDups, Bool.not_eq_eq_eq_not, Bool.not_true, List.contains_eq_mem,
    decide_eq_false_iff_not]
  by_cases numbered : name ∈ numbering.names <;> simp [numbered]

theorem nodup_extend {numbering : Numbering} (distinct : numbering.names.Nodup) (type : TypeTerm) :
    (numbering.extend type).names.Nodup := by
  rw [extend, List.nodup_append]
  refine ⟨distinct, (Lists.nodup_eraseDups _).filter _, ?_⟩
  rintro name numbered other isUnseen rfl
  have notNumbered := (List.mem_filter.1 isUnseen).2
  simp [numbered] at notNumbered

theorem extend_begins (numbering : Numbering) (type : TypeTerm) :
    numbering.names <+: (numbering.extend type).names := ⟨_, rfl⟩

theorem length_extend (numbering : Numbering) (type : TypeTerm) :
    (numbering.extend type).names.length =
      numbering.names.length + (numbering.introduces type).length := by
  rw [extend, List.length_append, introduces, List.length_map, List.length_zipIdx]

theorem map_fst_introduces (numbering : Numbering) (type : TypeTerm) :
    (numbering.introduces type).map (·.1) =
      List.range' numbering.names.length (numbering.introduces type).length := by
  rw [introduces, List.map_map, List.length_map, List.length_zipIdx, List.range'_eq_map_range,
    List.range_eq_range', ← List.zipIdx_map_snd, List.map_map]
  rfl

theorem positionalFrom_cons (numbering : Numbering) (type : TypeTerm) (rest : List TypeTerm) :
    numbering.positionalFrom (type :: rest) =
      (((numbering.extend type).positionalFrom rest).1,
        ⟨(numbering.extend type).positional type, numbering.introduces type⟩ ::
          ((numbering.extend type).positionalFrom rest).2) := rfl

theorem positionalFrom_append (numbering : Numbering) (first second : List TypeTerm) :
    numbering.positionalFrom (first ++ second) =
      (((numbering.positionalFrom first).1.positionalFrom second).1,
        (numbering.positionalFrom first).2 ++
          ((numbering.positionalFrom first).1.positionalFrom second).2) := by
  induction first generalizing numbering with
  | nil => rfl
  | cons type rest inductionHypothesis =>
    rw [List.cons_append, positionalFrom_cons, inductionHypothesis, positionalFrom_cons,
      List.cons_append]

theorem length_positionalFrom (numbering : Numbering) (types : List TypeTerm) :
    (numbering.positionalFrom types).2.length = types.length := by
  induction types generalizing numbering with
  | nil => rfl
  | cons type rest inductionHypothesis =>
    rw [positionalFrom_cons, List.length_cons, List.length_cons, inductionHypothesis]

theorem positionalFrom_begins (numbering : Numbering) (types : List TypeTerm) :
    numbering.names <+: (numbering.positionalFrom types).1.names := by
  induction types generalizing numbering with
  | nil => exact List.prefix_rfl
  | cons type rest inductionHypothesis =>
    exact (extend_begins numbering type).trans (inductionHypothesis _)

theorem nodup_positionalFrom {numbering : Numbering} (distinct : numbering.names.Nodup)
    (types : List TypeTerm) : (numbering.positionalFrom types).1.names.Nodup := by
  induction types generalizing numbering with
  | nil => exact distinct
  | cons type rest inductionHypothesis => exact inductionHypothesis (nodup_extend distinct type)

theorem mem_positionalFrom {numbering : Numbering} {types : List TypeTerm} {name : String} :
    name ∈ (numbering.positionalFrom types).1.names ↔
      name ∈ numbering.names ∨ name ∈ occurrencesOfAll types := by
  induction types generalizing numbering with
  | nil => simp [positionalFrom, occurrencesOfAll]
  | cons type rest inductionHypothesis =>
    rw [positionalFrom_cons, inductionHypothesis, mem_extend, occurrencesOfAll, List.mem_append,
      or_assoc]

/-- Every type of a positional form is written with the final numbering. -/
theorem map_type_positionalFrom (numbering : Numbering) (types : List TypeTerm) :
    (numbering.positionalFrom types).2.map (·.type) =
      types.map (numbering.positionalFrom types).1.positional := by
  induction types generalizing numbering with
  | nil => rfl
  | cons type rest inductionHypothesis =>
    rw [positionalFrom_cons, List.map_cons, List.map_cons, inductionHypothesis]
    refine congrArg (· :: _) (positional_of_isPrefix (positionalFrom_begins _ rest) ?_).symm
    exact fun name occurs => mem_extend.2 (Or.inr occurs)

end Numbering

/-! ### Positional forms -/

/-- The numbering of all type parameters of a list of types. -/
abbrev numberingOf (types : List TypeTerm) : Numbering := (positionalForm types).1

/-- The types in positional form. -/
abbrev positionalTypes (types : List TypeTerm) : List TypeTerm :=
  types.map (numberingOf types).positional

theorem nodup_numberingOf (types : List TypeTerm) : (numberingOf types).names.Nodup :=
  Numbering.nodup_positionalFrom List.nodup_nil types

theorem mem_numberingOf {types : List TypeTerm} {name : String} :
    name ∈ (numberingOf types).names ↔ name ∈ occurrencesOfAll types := by
  rw [numberingOf, positionalForm, Numbering.mem_positionalFrom]
  simp

theorem map_type_positionalForm (types : List TypeTerm) :
    (positionalForm types).2.map (·.type) = positionalTypes types :=
  Numbering.map_type_positionalFrom {} types

theorem length_positionalForm (types : List TypeTerm) :
    (positionalForm types).2.length = types.length := Numbering.length_positionalFrom {} types

/-- The form of a list begins with the form of its beginning, and the next type introduces what
the beginning leaves without number. -/
theorem positionalForm_append_cons (before after : List TypeTerm) (type : TypeTerm) :
    (positionalForm (before ++ type :: after)).2 =
      (positionalForm before).2 ++
        ⟨((numberingOf before).extend type).positional type,
          (numberingOf before).introduces type⟩ ::
          (((numberingOf before).extend type).positionalFrom after).2 := by
  rw [positionalForm, Numbering.positionalFrom_append, Numbering.positionalFrom_cons]
  rfl

theorem numberingOf_append_singleton (before : List TypeTerm) (type : TypeTerm) :
    numberingOf (before ++ [type]) = (numberingOf before).extend type := by
  rw [numberingOf, positionalForm, Numbering.positionalFrom_append]
  rfl

/-- The form of a beginning is the beginning of the form. -/
theorem take_positionalForm (types : List TypeTerm) (count : Nat) :
    (positionalForm (types.take count)).2 = (positionalForm types).2.take count := by
  rcases Nat.le_total count types.length with short | long
  · have split : positionalForm types =
        positionalForm (types.take count ++ types.drop count) := by
      rw [List.take_append_drop]
    have length := length_positionalForm (types.take count)
    rw [List.length_take, Nat.min_eq_left short] at length
    rw [split, positionalForm, positionalForm, Numbering.positionalFrom_append]
    exact (List.take_left' length).symm
  · rw [List.take_of_length_le long, List.take_of_length_le]
    rwa [length_positionalForm]

theorem take_positionalTypes (types : List TypeTerm) (count : Nat) :
    (positionalTypes types).take count = positionalTypes (types.take count) := by
  rw [← map_type_positionalForm, ← map_type_positionalForm, ← List.map_take, take_positionalForm]

/-- The numbering of the first types begins the numbering of all. -/
theorem Numbering.names_take_isPrefix (types : List TypeTerm) (count : Nat) :
    (numberingOf (types.take count)).names <+: (numberingOf types).names := by
  have split : numberingOf types = ((numberingOf (types.take count)).positionalFrom
      (types.drop count)).1 := by
    conv_lhs => rw [← List.take_append_drop count types]
    rw [numberingOf, positionalForm, positionalFrom_append]
    rfl
  rw [split]
  exact positionalFrom_begins _ _

/-- A type parameter has its number once a type in which it occurs has come up. -/
theorem mem_numberingOf_take {types : List TypeTerm} {place count : Nat} {type : TypeTerm}
    (found : types[place]? = some type) (within : place < count) {name : String}
    (occurs : name ∈ type.occurrences) : name ∈ (numberingOf (types.take count)).names := by
  refine mem_numberingOf.2 (mem_occurrencesOfAll.2 ⟨type, ?_, occurs⟩)
  refine @List.mem_of_getElem? _ _ place _ ?_
  rw [List.getElem?_take_of_lt within, found]

/-! ### The placeholders of a positional form -/

/-- The types mention the placeholders below the given number and no other type parameter. -/
def MentionsBelow (width : Nat) (types : List TypeTerm) : Prop :=
  ∀ name, name ∈ occurrencesOfAll types ↔ ∃ index < width, name = placeholderName index

theorem mentionsBelow_positionalTypes (types : List TypeTerm) :
    MentionsBelow (numberingOf types).names.length (positionalTypes types) := by
  intro occurring
  have numbered : ∀ type ∈ types, ∀ name ∈ type.occurrences, name ∈ (numberingOf types).names :=
    fun type member name occurs =>
      mem_numberingOf.2 (mem_occurrencesOfAll.2 ⟨type, member, occurs⟩)
  rw [mem_occurrencesOfAll]
  constructor
  · rintro ⟨form, member, occurs⟩
    obtain ⟨type, isType, rfl⟩ := List.mem_map.1 member
    obtain ⟨name, inType, index, found, rfl⟩ :=
      (Numbering.mem_occurrences_positional (numbered type isType)).1 occurs
    exact ⟨index, (List.getElem?_eq_some_iff.1 (Numbering.index?_eq_some found)).1, rfl⟩
  · rintro ⟨index, bound, rfl⟩
    obtain ⟨type, isType, occurs⟩ := mem_occurrencesOfAll.1
      (mem_numberingOf.1 (List.getElem_mem bound))
    obtain ⟨other, found, otherBound⟩ := Numbering.exists_index? (List.getElem_mem bound)
    -- No name has two numbers, so the number of the name at a place is the place.
    have same : other = index := by
      have atOther := (List.getElem?_eq_some_iff.1 (Numbering.index?_eq_some found)).2
      exact (nodup_numberingOf types).getElem_inj_iff.1 atOther
    exact ⟨_, List.mem_map_of_mem isType,
      (Numbering.mem_occurrences_positional (numbered type isType)).2
        ⟨_, occurs, index, same ▸ found, rfl⟩⟩

/-- How many placeholders there are can be read off the types. -/
theorem MentionsBelow.unique {first second : Nat} {types : List TypeTerm}
    (ofFirst : MentionsBelow first types) (ofSecond : MentionsBelow second types) :
    first = second := by
  have below : ∀ {small large : Nat}, MentionsBelow small types → MentionsBelow large types →
      ¬ small < large := by
    intro small large ofSmall ofLarge less
    obtain ⟨index, bound, same⟩ := (ofSmall _).1 ((ofLarge _).2 ⟨small, less, rfl⟩)
    rw [← placeholderName_injective same] at bound
    exact Nat.lt_irrefl _ bound
  exact Nat.le_antisymm (Nat.not_lt.1 (below ofSecond ofFirst))
    (Nat.not_lt.1 (below ofFirst ofSecond))

end StagedBuilder
