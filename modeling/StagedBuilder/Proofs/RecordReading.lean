/-
This file holds the laws of reading and writing that do not depend on what is
written. A record that is written as an object with different keys is read by
looking its fields up; a value that one reader gives back is given back inside
lists and options as well; and a dictionary is what its own entries, recorded
one after another, make.

The laws about scalars and fields are tagged for simplification, so that the
round trip of a record is found by simplifying its reader.
-/

import Mathlib.Data.List.Nodup
import StagedBuilder.Declaration.Json

namespace StagedBuilder.Json

/-- What is read can be given a name of its own. This keeps a proof from computing how a number
that is not known compares with its bounds. -/
theorem exists_read {Value : Type} {read : Json → Option Value} {json : Json} {value : Value}
    (gives : read json = some value) : ∃ written, json = written ∧ read written = some value :=
  ⟨json, rfl, gives⟩

/-! ### Records -/

/-- Among fields of different names, the field of a name is found by looking it up. -/
theorem soleField?_of_nodup {fields : List (String × Json)}
    (distinct : (fields.map Prod.fst).Nodup) (name : String) :
    soleField? fields name = some (fields.lookup name) := by
  induction fields with
  | nil => rfl
  | cons field rest inductionHypothesis =>
    obtain ⟨key, value⟩ := field
    rw [List.map_cons, List.nodup_cons] at distinct
    obtain ⟨notRepeated, distinctRest⟩ := distinct
    unfold soleField? at inductionHypothesis ⊢
    by_cases same : key = name
    · have noOther : rest.filter (·.1 == name) = [] := by
        refine List.filter_eq_nil_iff.2 fun other member isName => notRepeated ?_
        exact List.mem_map.2 ⟨other, member, (beq_iff_eq.1 isName).trans same.symm⟩
      have passes : (key == name) = true := beq_iff_eq.2 same
      rw [List.filter_cons, if_pos passes, noOther, List.lookup_cons, beq_iff_eq.2 same.symm]
    · have fails : (key == name) = false := beq_eq_false_iff_ne.2 same
      rw [List.filter_cons, if_neg (Bool.eq_false_iff.1 fails), List.lookup_cons,
        beq_eq_false_iff_ne.2 (Ne.symm same)]
      exact inductionHypothesis distinctRest

/-- Looking up the names of fields one after another gives their values, if no name is repeated. -/
theorem map_lookup_fst {fields : List (String × Json)} (distinct : (fields.map Prod.fst).Nodup) :
    (fields.map Prod.fst).map (fun name => fields.lookup name) =
      fields.map fun field => some field.2 := by
  rw [List.map_map]
  refine List.map_congr_left fun field member => ?_
  obtain ⟨before, after, parts⟩ := List.append_of_mem member
  refine List.lookup_eq_some_iff.2 ⟨before, after, parts, fun earlier inBefore => ?_⟩
  rw [parts, List.map_append, List.nodup_append] at distinct
  exact bne_iff_ne.2 (Ne.symm (distinct.2.2 _ (List.mem_map_of_mem inBefore) _ List.mem_cons_self))

/-- A record that is written field by field is read field by field. -/
theorem record?_object {names : List String} {fields : List (String × Json)}
    (named : fields.map Prod.fst = names) (distinct : names.Nodup) :
    record? names (.object fields) = some (fields.map fun field => some field.2) := by
  subst named
  show (fields.map Prod.fst).mapM (soleField? fields) = _
  rw [funext (soleField?_of_nodup distinct), ← map_lookup_fst distinct]
  exact List.mapM_pure

section

variable {Value : Type} {read : Json → Option Value} {write : Value → Json}

@[simp]
theorem required?_some (json : Json) : required? read (some json) = read json := rfl

@[simp]
theorem withDefault?_some (default : Value) (json : Json) :
    withDefault? default read (some json) = read json := rfl

@[simp]
theorem withDefault?_none (default : Value) : withDefault? default read none = some default := rfl

/-- An option is given back if what it may hold is, and is never mistaken for nothing. -/
theorem optional?_ofOption (gives : ∀ value, read (write value) = some value)
    (refuses : read .null = none) (value : Option Value) :
    optional? read (some (ofOption write value)) = some value := by
  cases value with
  | none => rfl
  | some value =>
    show (write value).orNull? read = some (some value)
    have given := gives value
    unfold orNull?
    split
    · next isNull =>
      rw [isNull, refuses] at given
      exact absurd given (Option.some_ne_none value).symm
    · rw [given, Option.map_some]

/-- A list is given back if every item is. -/
theorem listOf?_ofList (gives : ∀ value, read (write value) = some value) (values : List Value) :
    listOf? read (ofList write values) = some values := by
  show (values.map write).mapM read = some values
  rw [List.mapM_map]
  show values.mapM (fun value => read (write value)) = some values
  rw [funext gives]
  exact List.mapM_pure.trans (congrArg some (List.map_id values))

end

/-! ### Scalars -/

@[simp]
theorem string?_string (text : String) : (Json.string text).string? = some text := rfl

@[simp]
theorem bool?_bool (value : Bool) : (Json.bool value).bool? = some value := rfl

theorem word32?_ofNat (value : UInt32) : (ofNat value.toNat).word32? = some value := by
  have bounds : (0 : Int) ≤ value.toNat ∧ (value.toNat : Int) < 0x100000000 := by
    have bound := value.toNat_lt
    omega
  rw [word32?, ofNat, integerWithin?, if_pos bounds, Option.map_some, Int.toNat_natCast,
    UInt32.ofNat_toNat]

theorem signed32?_integer (value : Int32) :
    (Json.integer value.toInt).signed32? = some value := by
  have bounds : (-0x80000000 : Int) ≤ value.toInt ∧ value.toInt < 0x80000000 :=
    ⟨value.le_toInt, value.toInt_lt⟩
  rw [signed32?, integerWithin?, if_pos bounds, Option.map_some, Int32.ofInt_toInt]

@[simp]
theorem word?_string {Value : Type} (meaning : String → Option Value) (text : String) :
    word? meaning (.string text) = meaning text := rfl

/-- An optional text is given back. -/
@[simp]
theorem optional?_ofOption_string (text : Option String) :
    optional? string? (some (ofOption .string text)) = some text :=
  optional?_ofOption string?_string rfl text

end StagedBuilder.Json

namespace StagedBuilder

/-! ### Words -/

@[simp]
theorem DeclaredKind.ofWord?_word (kind : DeclaredKind) : ofWord? kind.word = some kind := by
  cases kind <;> rfl

@[simp]
theorem Accessibility.ofWord?_word (accessibility : Accessibility) :
    ofWord? accessibility.word = some accessibility := by
  cases accessibility <;> rfl

/-! ### Dictionaries -/

namespace Dictionary

variable {Value : Type}

/-- An entry whose key is beyond all others is recorded at the end. -/
theorem putEntry_of_forall_lt {key : String} {value : Value} {entries : List (String × Value)}
    (below : ∀ entry ∈ entries, entry.1 < key) :
    putEntry key value entries = entries ++ [(key, value)] := by
  induction entries with
  | nil => rfl
  | cons first rest inductionHypothesis =>
    have firstBelow : first.1 < key := below first List.mem_cons_self
    rw [putEntry, if_neg (String.lt_asymm firstBelow), if_pos firstBelow,
      inductionHypothesis fun entry member => below entry (List.mem_cons_of_mem _ member),
      List.cons_append]

/-- Increasing entries are recorded as they are, after smaller ones. -/
theorem entries_foldl_insert {entries : List (String × Value)} {dictionary : Dictionary Value}
    (increasing : (dictionary.entries ++ entries).Pairwise fun left right => left.1 < right.1) :
    (entries.foldl (fun dictionary entry => dictionary.insert entry.1 entry.2)
      dictionary).entries = dictionary.entries ++ entries := by
  induction entries generalizing dictionary with
  | nil => exact (List.append_nil _).symm
  | cons entry rest inductionHypothesis =>
    have below : ∀ earlier ∈ dictionary.entries, earlier.1 < entry.1 := fun earlier member =>
      (List.pairwise_append.1 increasing).2.2 earlier member entry List.mem_cons_self
    have recorded : (dictionary.insert entry.1 entry.2).entries =
        dictionary.entries ++ [entry] := putEntry_of_forall_lt below
    rw [List.foldl_cons, inductionHypothesis, recorded, List.append_assoc, List.singleton_append]
    rwa [recorded, List.append_assoc, List.singleton_append]

/-- The entries of a dictionary, recorded one after another, make the dictionary. -/
theorem ofList_entries (dictionary : Dictionary Value) :
    ofList dictionary.entries = dictionary := by
  have recorded := @entries_foldl_insert _ _ empty dictionary.increasing
  cases dictionary
  cases made : ofList _
  rw [Dictionary.mk.injEq]
  exact (congrArg entries made).symm.trans recorded

@[simp]
theorem textsOfJson?_textsToJson (texts : Dictionary String) :
    textsOfJson? texts.textsToJson = some texts := by
  rw [textsToJson, textsOfJson?, List.mapM_map]
  -- Each entry is written and read back as it is.
  have entries : List.mapM (fun entry => pure (id entry)) texts.entries =
      some (texts.entries.map id) := List.mapM_pure
  rw [List.map_id] at entries
  exact (congrArg (· >>= fun read => some (ofList read)) entries).trans
    (congrArg some texts.ofList_entries)

end Dictionary

end StagedBuilder
