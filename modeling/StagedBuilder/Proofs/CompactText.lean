/-
This file shows that the compact text of a value determines the value. No white
space is needed to tell values apart: the first character of a text tells what
kind of value it is, a text in quotes ends at the first quote that is not
escaped, and a number ends where no digit follows. So a text can be taken apart
from whatever comes after it, and arrays and objects entry by entry.

Escapes are undone by the reader of texts, which is shown here to give back
whatever is written in quotes.
-/

import Mathlib.Data.List.TakeWhile
import StagedBuilder.Json.Parser
import StagedBuilder.Json.Printer

namespace StagedBuilder.Json

/-! ### Texts in quotes -/

theorem hexNumber?_hexDigit : ∀ value < 32,
    hexNumber? '0' '0' (hexDigit (value / 16)) (hexDigit (value % 16)) = some value := by
  decide

/-- A unit below the surrogates spells the character of its number. -/
theorem spelled?_escaped {value : Nat} (small : value < 32) (units : List TextUnit) :
    spelled? (.escaped value :: units) = (spelled? units).map (Char.ofNat value :: ·) := by
  rw [spelled?.eq_def]
  split
  · next equal => exact absurd equal (List.cons_ne_nil _ _)
  · next equal => exact absurd (List.cons.inj equal).1 TextUnit.noConfusion
  · next high low rest equal =>
    obtain ⟨sameUnit, rfl⟩ := List.cons.inj equal
    cases sameUnit
    rw [if_neg (by omega), if_neg (by omega)]
  · next unit rest _ equal =>
    obtain ⟨sameUnit, rfl⟩ := List.cons.inj equal
    cases sameUnit
    rw [if_neg (by omega)]

/-- A short escape is read as one unit. -/
theorem exists_unit_of_shortEscape? {escape character : Char} (notNumber : escape ≠ 'u')
    (means : shortEscape? escape = some character) :
    ∃ unit, (∀ rest, textUnits? (['\\', escape] ++ rest) =
        (textUnits? rest).bind fun (units, after) => some (unit :: units, after)) ∧
      ∀ units, spelled? (unit :: units) = (spelled? units).map (character :: ·) := by
  refine ⟨.character character, fun rest => ?_, fun _ => rfl⟩
  show textUnits? ('\\' :: escape :: rest) = _
  rw [textUnits?, means]
  · rfl
  · exact fun _ _ _ _ _ isNumber _ => notNumber isNumber

/-- The written form of a character is read as one unit, which spells the character. -/
theorem exists_unit (character : Char) :
    ∃ unit, (∀ rest, textUnits? (escaped character ++ rest) =
        (textUnits? rest).bind fun (units, after) => some (unit :: units, after)) ∧
      ∀ units, spelled? (unit :: units) = (spelled? units).map (character :: ·) := by
  unfold escaped
  split
  · next isQuote => exact exists_unit_of_shortEscape? (by decide) (isQuote.symm ▸ rfl)
  split
  · next isBackslash => exact exists_unit_of_shortEscape? (by decide) (isBackslash.symm ▸ rfl)
  split
  · next isLineFeed => exact exists_unit_of_shortEscape? (by decide) (isLineFeed.symm ▸ rfl)
  split
  · next isReturn => exact exists_unit_of_shortEscape? (by decide) (isReturn.symm ▸ rfl)
  split
  · next isTab => exact exists_unit_of_shortEscape? (by decide) (isTab.symm ▸ rfl)
  split
  · next isBackspace => exact exists_unit_of_shortEscape? (by decide) (isBackspace.symm ▸ rfl)
  split
  · next isFormFeed => exact exists_unit_of_shortEscape? (by decide) (isFormFeed.symm ▸ rfl)
  split
  · next isControl =>
    refine ⟨.escaped character.toNat, fun rest => ?_, fun units => ?_⟩
    · show textUnits? ('\\' :: 'u' :: '0' :: '0' :: _ :: _ :: rest) = _
      rw [textUnits?, hexNumber?_hexDigit _ isControl]
      rfl
    · rw [spelled?_escaped isControl, Char.ofNat_toNat]
  · next notQuote notBackslash _ _ _ _ _ notControl =>
    refine ⟨.character character, fun rest => ?_, fun _ => rfl⟩
    show textUnits? (character :: rest) = _
    rw [textUnits?, if_neg (not_or.2 ⟨notBackslash, notControl⟩)]
    · rfl
    · exact notQuote
    · exact fun _ _ _ _ _ isBackslash _ => notBackslash isBackslash
    · exact fun _ _ isBackslash _ => notBackslash isBackslash

theorem textUnits?_flatMap_escaped (text rest : List Char) :
    ∃ units, textUnits? (text.flatMap escaped ++ '"' :: rest) = some (units, rest) ∧
      spelled? units = some text := by
  induction text with
  | nil => exact ⟨[], rfl, rfl⟩
  | cons character text inductionHypothesis =>
    obtain ⟨units, read, spells⟩ := inductionHypothesis
    obtain ⟨unit, readFirst, spellsFirst⟩ := exists_unit character
    refine ⟨unit :: units, ?_, ?_⟩
    · rw [List.flatMap_cons, List.append_assoc, readFirst, read, Option.bind_some]
    · rw [spellsFirst, spells, Option.map_some]

/-- What is written in quotes is read back, whatever comes after it. -/
theorem quotedText?_quoted (text : String) (rest : List Char) :
    quotedText? ((quoted text ++ rest).tail) = some (some text, rest) := by
  obtain ⟨units, read, spells⟩ := textUnits?_flatMap_escaped text.toList rest
  have tail : (quoted text ++ rest).tail = text.toList.flatMap escaped ++ '"' :: rest :=
    List.append_assoc _ ['"'] rest
  rw [tail, quotedText?, read]
  show some ((spelled? units).map String.ofList, rest) = _
  rw [spells, Option.map_some, String.ofList_toList]

theorem quoted_append_inj {text other : String} {rest others : List Char}
    (same : quoted text ++ rest = quoted other ++ others) : text = other ∧ rest = others := by
  have read := congrArg (fun characters => quotedText? characters.tail) same
  simpa only [quotedText?_quoted, Option.some.injEq, Prod.mk.injEq] using read

/-! ### Numbers -/

/-- Whether a number ends before the given characters. -/
def EndsNumber (characters : List Char) : Prop :=
  ∀ character ∈ characters.head?, character.isDigit = false

theorem toDigits_append_inj {number other : Nat} {rest others : List Char}
    (ends : EndsNumber rest) (otherEnds : EndsNumber others)
    (same : Nat.toDigits 10 number ++ rest = Nat.toDigits 10 other ++ others) :
    number = other ∧ rest = others := by
  have digits : ∀ (number : Nat) {rest : List Char}, EndsNumber rest →
      (Nat.toDigits 10 number ++ rest).takeWhile Char.isDigit = Nat.toDigits 10 number := by
    intro number rest ends
    rw [List.takeWhile_append_of_pos fun _ => Nat.isDigit_of_mem_toDigits (by decide) (by decide),
      List.takeWhile_eq_nil_iff.2 ?_, List.append_nil]
    intro nonempty
    rw [ends _ (List.head?_eq_getElem? ▸ List.getElem?_eq_getElem nonempty)]
    exact Bool.false_ne_true
  have sameDigits : Nat.toDigits 10 number = Nat.toDigits 10 other := by
    rw [← digits number ends, same, digits other otherEnds]
  refine ⟨?_, List.append_cancel_left (sameDigits ▸ same)⟩
  rw [← @Nat.ofDigitChars_ten_toDigits number, sameDigits, Nat.ofDigitChars_ten_toDigits]

theorem exists_toDigits (number : Nat) :
    ∃ digit rest, Nat.toDigits 10 number = digit :: rest ∧ digit.isDigit = true := by
  obtain ⟨digit, rest, parts⟩ := List.exists_cons_of_ne_nil (@Nat.toDigits_ne_nil number 10)
  exact ⟨digit, rest, parts,
    Nat.isDigit_of_mem_toDigits (by decide) (by decide) (parts ▸ List.mem_cons_self)⟩

theorem toDigits_append_ne_minus (number : Nat) (rest others : List Char) :
    Nat.toDigits 10 number ++ rest ≠ '-' :: others := by
  intro same
  obtain ⟨digit, digits, parts, isDigit⟩ := exists_toDigits number
  rw [parts] at same
  rw [(List.cons.inj same).1] at isDigit
  exact absurd isDigit (by decide)

theorem decimal_append_inj {number other : Int} {rest others : List Char}
    (ends : EndsNumber rest) (otherEnds : EndsNumber others)
    (same : decimal number ++ rest = decimal other ++ others) : number = other ∧ rest = others := by
  cases number with
  | ofNat magnitude =>
    cases other with
    | ofNat otherMagnitude =>
      obtain ⟨rfl, sameRest⟩ := toDigits_append_inj ends otherEnds same
      exact ⟨rfl, sameRest⟩
    | negSucc otherMagnitude => exact absurd same (toDigits_append_ne_minus _ _ _)
  | negSucc magnitude =>
    cases other with
    | ofNat otherMagnitude => exact absurd same.symm (toDigits_append_ne_minus _ _ _)
    | negSucc otherMagnitude =>
      obtain ⟨sameMagnitude, sameRest⟩ := toDigits_append_inj ends otherEnds (List.cons.inj same).2
      rw [Nat.succ.inj sameMagnitude]
      exact ⟨rfl, sameRest⟩

/-! ### Entries with commas between them -/

section

variable {Entry : Type} {write : Entry → List Char}

/-- The texts of entries, a comma between two of them. -/
def listed (write : Entry → List Char) : List Entry → List Char
  | [] => []
  | first :: rest => write first ++ rest.flatMap fun entry => ',' :: write entry

/-- Whether the text of an entry can be told from that of every other admitted entry, whatever
comes after it. -/
def Separates (admitted : Entry → Prop) (write : Entry → List Char) (entry : Entry) : Prop :=
  ∀ other rest others, admitted other → EndsNumber rest → EndsNumber others →
    write entry ++ rest = write other ++ others → entry = other ∧ rest = others

/-- A number ends before a comma and before a closing bracket. -/
theorem endsNumber_followers {close : Char} (notDigit : close.isDigit = false)
    (entries : List Entry) (rest : List Char) :
    EndsNumber ((entries.flatMap fun entry => ',' :: write entry) ++ close :: rest) := by
  cases entries with
  | nil => exact fun character isFirst => Option.some.inj isFirst ▸ notDigit
  | cons entry entries =>
    rw [List.flatMap_cons]
    intro character isFirst
    rw [← Option.some.inj isFirst]
    decide

variable {admitted : Entry → Prop} {close : Char}

theorem followers_append_inj (notDigit : close.isDigit = false) (notComma : close ≠ ',')
    {entries others : List Entry} {rest otherRest : List Char}
    (separates : ∀ entry ∈ entries, Separates admitted write entry)
    (othersAdmitted : ∀ other ∈ others, admitted other)
    (same : (entries.flatMap fun entry => ',' :: write entry) ++ close :: rest =
      (others.flatMap fun other => ',' :: write other) ++ close :: otherRest) :
    entries = others ∧ rest = otherRest := by
  induction entries generalizing others with
  | nil =>
    cases others with
    | nil => exact ⟨rfl, (List.cons.inj same).2⟩
    | cons other others => exact absurd (List.cons.inj same).1 notComma
  | cons entry entries inductionHypothesis =>
    cases others with
    | nil => exact absurd (List.cons.inj same).1.symm notComma
    | cons other others =>
      rw [List.flatMap_cons, List.flatMap_cons, List.append_assoc, List.append_assoc] at same
      obtain ⟨sameEntry, sameOthers⟩ := separates entry List.mem_cons_self other _ _
        (othersAdmitted other List.mem_cons_self) (endsNumber_followers notDigit entries rest)
        (endsNumber_followers notDigit others otherRest) (List.cons.inj same).2
      obtain ⟨sameEntries, sameRest⟩ := inductionHypothesis
        (fun entry member => separates entry (List.mem_cons_of_mem _ member))
        (fun other member => othersAdmitted other (List.mem_cons_of_mem _ member)) sameOthers
      exact ⟨by rw [sameEntry, sameEntries], sameRest⟩

/-- Entries with commas between them can be told apart up to the closing bracket. -/
theorem listed_append_inj (notDigit : close.isDigit = false) (notComma : close ≠ ',')
    (opens : ∀ entry, admitted entry → ∃ first text, write entry = first :: text ∧ first ≠ close)
    {entries others : List Entry} {rest otherRest : List Char}
    (entriesAdmitted : ∀ entry ∈ entries, admitted entry)
    (separates : ∀ entry ∈ entries, Separates admitted write entry)
    (othersAdmitted : ∀ other ∈ others, admitted other)
    (same : listed write entries ++ close :: rest = listed write others ++ close :: otherRest) :
    entries = others ∧ rest = otherRest := by
  cases entries with
  | nil =>
    cases others with
    | nil => exact ⟨rfl, (List.cons.inj same).2⟩
    | cons other others =>
      obtain ⟨first, text, parts, notClose⟩ := opens other (othersAdmitted other List.mem_cons_self)
      rw [listed, listed, parts] at same
      exact absurd (List.cons.inj same).1.symm notClose
  | cons entry entries =>
    cases others with
    | nil =>
      obtain ⟨first, text, parts, notClose⟩ :=
        opens entry (entriesAdmitted entry List.mem_cons_self)
      rw [listed, listed, parts] at same
      exact absurd (List.cons.inj same).1 notClose
    | cons other others =>
      -- A comma in front makes the first entries like the others.
      exact followers_append_inj notDigit notComma separates othersAdmitted
        (congrArg (',' :: ·) same)

end

theorem compactItems_eq_listed (items : List Json) :
    compactItems items = listed compactText items := by
  induction items with
  | nil => rfl
  | cons first rest inductionHypothesis =>
    cases rest with
    | nil => exact (List.append_nil _).symm
    | cons second rest =>
      rw [compactItems, inductionHypothesis]
      rfl

/-- The text of a field. -/
def fieldText (field : String × Json) : List Char := quoted field.1 ++ ':' :: field.2.compactText

theorem compactFields_eq_listed (fields : List (String × Json)) :
    compactFields fields = listed fieldText fields := by
  induction fields with
  | nil => rfl
  | cons first rest inductionHypothesis =>
    cases rest with
    | nil => exact (List.append_nil _).symm
    | cons second rest =>
      rw [compactFields, inductionHypothesis]
      exact (List.append_assoc (quoted first.1) (':' :: first.2.compactText) _).symm

/-! ### Values -/

/-- A value made of nothing but what is read back as it is: every piece of it is readable and
every number in it is an integer. -/
inductive Whole : Json → Prop
  | null : Whole .null
  | bool (value : Bool) : Whole (.bool value)
  | integer (value : Int) : Whole (.integer value)
  | string (value : String) : Whole (.string value)
  | array {items : List Json} (whole : ∀ item ∈ items, Whole item) : Whole (.array items)
  | object {fields : List (String × Json)} (whole : ∀ field ∈ fields, Whole field.2) :
    Whole (.object fields)

/-- The kinds of values. -/
inductive Kind where
  | null
  | bool
  | number
  | string
  | array
  | object
deriving DecidableEq

def kind : Json → Kind
  | .null => .null
  | .bool _ => .bool
  | .integer _ => .number
  | .real _ => .number
  | .string _ => .string
  | .array _ => .array
  | .object _ => .object
  | .unreadable => .null

/-- The kind of the values whose text starts with the given character. -/
def Kind.ofFirst? : Char → Option Kind
  | 'n' => some .null
  | 't' => some .bool
  | 'f' => some .bool
  | '"' => some .string
  | '[' => some .array
  | '{' => some .object
  | character => if character = '-' ∨ character.isDigit then some .number else none

theorem Kind.ofFirst?_of_isDigit {character : Char} (isDigit : character.isDigit = true) :
    ofFirst? character = some .number := by
  unfold ofFirst?
  split
  case h_7 => rw [if_pos (Or.inr isDigit)]
  all_goals exact absurd isDigit (by decide)

/-- The first character of a text tells the kind of the value. -/
theorem exists_compactText {value : Json} (whole : value.Whole) :
    ∃ first rest, value.compactText = first :: rest ∧ Kind.ofFirst? first = some value.kind := by
  cases whole with
  | null => exact ⟨_, _, rfl, rfl⟩
  | bool value => cases value <;> exact ⟨_, _, rfl, rfl⟩
  | integer value =>
    cases value with
    | ofNat magnitude =>
      obtain ⟨digit, rest, parts, isDigit⟩ := exists_toDigits magnitude
      exact ⟨digit, rest, parts, Kind.ofFirst?_of_isDigit isDigit⟩
    | negSucc magnitude => exact ⟨_, _, rfl, rfl⟩
  | string value => exact ⟨_, _, rfl, rfl⟩
  | array whole => exact ⟨_, _, rfl, rfl⟩
  | object whole => exact ⟨_, _, rfl, rfl⟩

theorem kind_eq_of_compactText {value other : Json} (whole : value.Whole) (otherWhole : other.Whole)
    {rest others : List Char} (same : value.compactText ++ rest = other.compactText ++ others) :
    value.kind = other.kind := by
  obtain ⟨first, text, parts, isKind⟩ := exists_compactText whole
  obtain ⟨otherFirst, otherText, otherParts, isOtherKind⟩ := exists_compactText otherWhole
  rw [parts, otherParts] at same
  rw [(List.cons.inj same).1] at isKind
  exact Option.some.inj (isKind.symm.trans isOtherKind)

/-- No text of a value starts with a closing bracket. -/
theorem exists_compactText_ne {value : Json} (whole : value.Whole) :
    ∃ first rest, value.compactText = first :: rest ∧ first ≠ ']' := by
  obtain ⟨first, rest, parts, isKind⟩ := exists_compactText whole
  refine ⟨first, rest, parts, fun isBracket => ?_⟩
  rw [isBracket] at isKind
  exact absurd isKind (Option.some_ne_none _).symm

/-- The text of a field can be told apart if that of its value can. -/
theorem separates_fieldText {field : String × Json}
    (separates : Separates Whole compactText field.2) :
    Separates (fun field => field.2.Whole) fieldText field := by
  intro other rest others otherWhole ends otherEnds same
  rw [fieldText, fieldText, List.append_assoc, List.append_assoc] at same
  obtain ⟨sameKey, sameValues⟩ := quoted_append_inj same
  obtain ⟨sameValue, sameRest⟩ :=
    separates other.2 rest others otherWhole ends otherEnds (List.cons.inj sameValues).2
  exact ⟨Prod.ext sameKey sameValue, sameRest⟩

/-- The compact text of a value can be told from that of every other value. -/
theorem separates_compactText {value : Json} (whole : value.Whole) :
    Separates Whole compactText value := by
  induction whole with
  | null =>
    intro other rest others otherWhole ends otherEnds same
    have sameKind := kind_eq_of_compactText .null otherWhole same
    cases otherWhole with
    | null => exact ⟨rfl, List.append_cancel_left same⟩
    | _ => exact Kind.noConfusion sameKind
  | bool value =>
    intro other rest others otherWhole ends otherEnds same
    have sameKind := kind_eq_of_compactText (.bool value) otherWhole same
    cases otherWhole with
    | bool other =>
      cases value <;> cases other
      · exact ⟨rfl, List.append_cancel_left same⟩
      · exact absurd (List.cons.inj same).1 (by decide)
      · exact absurd (List.cons.inj same).1 (by decide)
      · exact ⟨rfl, List.append_cancel_left same⟩
    | _ => exact Kind.noConfusion sameKind
  | integer value =>
    intro other rest others otherWhole ends otherEnds same
    have sameKind := kind_eq_of_compactText (.integer value) otherWhole same
    cases otherWhole with
    | integer other =>
      obtain ⟨rfl, sameRest⟩ := decimal_append_inj ends otherEnds same
      exact ⟨rfl, sameRest⟩
    | _ => exact Kind.noConfusion sameKind
  | string value =>
    intro other rest others otherWhole ends otherEnds same
    have sameKind := kind_eq_of_compactText (.string value) otherWhole same
    cases otherWhole with
    | string other =>
      obtain ⟨rfl, sameRest⟩ := quoted_append_inj same
      exact ⟨rfl, sameRest⟩
    | _ => exact Kind.noConfusion sameKind
  | @array items whole inductionHypothesis =>
    intro other rest others otherWhole ends otherEnds same
    have sameKind := kind_eq_of_compactText (.array whole) otherWhole same
    cases otherWhole with
    | @array otherItems otherWhole =>
      rw [compactText, compactText, List.cons_append, List.cons_append, List.append_assoc,
        List.append_assoc, compactItems_eq_listed, compactItems_eq_listed] at same
      obtain ⟨rfl, sameRest⟩ := listed_append_inj (by decide) (by decide)
        (fun _ => exists_compactText_ne) whole inductionHypothesis otherWhole
        (List.cons.inj same).2
      exact ⟨rfl, sameRest⟩
    | _ => exact Kind.noConfusion sameKind
  | @object fields whole inductionHypothesis =>
    intro other rest others otherWhole ends otherEnds same
    have sameKind := kind_eq_of_compactText (.object whole) otherWhole same
    cases otherWhole with
    | @object otherFields otherWhole =>
      rw [compactText, compactText, List.cons_append, List.cons_append, List.append_assoc,
        List.append_assoc, compactFields_eq_listed, compactFields_eq_listed] at same
      obtain ⟨rfl, sameRest⟩ := listed_append_inj (by decide) (by decide)
        (fun field _ => ⟨_, _, rfl, by decide⟩) whole
        (fun field member => separates_fieldText (inductionHypothesis field member)) otherWhole
        (List.cons.inj same).2
      exact ⟨rfl, sameRest⟩
    | _ => exact Kind.noConfusion sameKind

/-- The compact text determines the value. -/
theorem compact_inj {value other : Json} (whole : value.Whole) (otherWhole : other.Whole) :
    value.compact = other.compact ↔ value = other := by
  refine ⟨fun same => ?_, congrArg compact⟩
  have nothingEnds : EndsNumber [] := fun _ isFirst => absurd isFirst (Option.not_mem_none _)
  refine (separates_compactText whole other [] [] otherWhole nothingEnds nothingEnds ?_).1
  rw [List.append_nil, List.append_nil]
  exact String.ofList_injective same

end StagedBuilder.Json
