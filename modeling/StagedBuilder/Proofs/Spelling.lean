/-
This file says how names and marks are taken from the front of a text. A name is read up to
the first character that cannot go on with it, and what comes after a name in a type is one of
the marks `:`, `<`, `,` and `>` or nothing at all. So no name is taken for the beginning of a
literal, although literals may have the letters `r`, `b` and `c` in front: they go on with a
quote or a hash, and neither is part of a name or one of the marks.

Raw names count as names. They begin with the letter and the hash of raw texts, but go on with
a character that may begin a name.
-/

import Mathlib.Data.List.TakeWhile
import StagedBuilder.TypeExpression.Lexer

namespace StagedBuilder.TypeExpression

/-! ### Characters -/

theorem isStart_eq_false_of_codes {codes : List Nat} {character : Char}
    (none : ∀ code ∈ codes, Identifier.isStart (Char.ofNat code) = false)
    (isCode : character.toNat ∈ codes) : Identifier.isStart character = false := by
  have begins := none _ isCode
  rwa [Char.ofNat_toNat] at begins

/-- The codes of white space. -/
def blankCodes : List Nat :=
  List.range' 0x09 5 ++ [0x20, 0x85, 0xA0, 0x1680] ++ List.range' 0x2000 11
    ++ [0x200E, 0x200F, 0x2028, 0x2029, 0x202F, 0x205F, 0x3000]

/-- White space begins no name. -/
theorem isStart_of_isBlank {character : Char} (blank : isBlank character = true) :
    Identifier.isStart character = false := by
  have isCode : character.toNat ∈ blankCodes := by
    simp only [isBlank, Bool.or_eq_true, Bool.and_eq_true, decide_eq_true_eq] at blank
    simp only [blankCodes, List.mem_append, List.mem_range'_1, List.mem_cons, List.not_mem_nil,
      or_false]
    omega
  exact isStart_eq_false_of_codes (by decide +kernel) isCode

/-- Digits begin no name. -/
theorem isStart_of_isDigit {character : Char} (digit : Identifier.isDigit character = true) :
    Identifier.isStart character = false := by
  have isCode : character.toNat ∈ List.range' 0x30 10 := by
    simp only [Identifier.isDigit, Bool.and_eq_true, decide_eq_true_eq] at digit
    exact List.mem_range'_1.2 ⟨digit.1, Nat.lt_succ_of_le digit.2⟩
  exact isStart_eq_false_of_codes (by decide +kernel) isCode

/-- A character that begins a name is none that does not. -/
theorem ne_of_isStart {character other : Char} (isStart : Identifier.isStart character = true)
    (begins : Identifier.isStart other = false) : character ≠ other := by
  rintro rfl
  exact Bool.false_ne_true (begins.symm.trans isStart)

/-- What begins a name may go on with it. -/
theorem isContinuation_of_isStart {character : Char}
    (isStart : Identifier.isStart character = true) :
    Identifier.isContinuation character = true := by
  unfold Identifier.isStart at isStart
  unfold Identifier.isContinuation
  split at isStart
  · next narrow =>
    rw [if_pos narrow]
    simp only [Bool.or_eq_true] at isStart ⊢
    exact isStart.imp_left .inl
  · next wide =>
    rw [if_neg wide, isStart, Bool.true_or]

/-! ### Names -/

/-- The text is a character that may begin a name and others that may go on with it. -/
def IsSpelled : List Char → Prop
  | [] => False
  | first :: rest => Identifier.isStart first = true ∧ rest.all Identifier.isContinuation = true

instance : DecidablePred IsSpelled
  | [] => inferInstanceAs (Decidable False)
  | _ :: _ => inferInstanceAs (Decidable (_ ∧ _))

/-- The text is a name: no keyword and no underscore alone, or else in raw form. -/
inductive IsName (text : String) : Prop where
  | plain (spelled : IsSpelled text.toList) (free : text ∉ reservedWords)
  | raw (name : List Char) (marked : text.toList = 'r' :: '#' :: name) (spelled : IsSpelled name)
      (free : String.ofList name ∉ neverRaw)

instance : DecidablePred IsName := fun text =>
  decidable_of_iff ((IsSpelled text.toList ∧ text ∉ reservedWords) ∨
      (['r', '#'] <+: text.toList ∧ IsSpelled (text.toList.drop 2) ∧
        String.ofList (text.toList.drop 2) ∉ neverRaw)) <| by
    constructor
    · rintro (⟨spelled, free⟩ | ⟨⟨name, marked⟩, spelled, free⟩)
      · exact .plain spelled free
      · rw [← marked] at spelled free
        exact .raw name marked.symm spelled free
    · rintro (⟨spelled, free⟩ | ⟨name, marked, spelled, free⟩)
      · exact .inl ⟨spelled, free⟩
      · rw [marked]
        exact .inr ⟨⟨name, rfl⟩, spelled, free⟩

/-- The marks that types are written with. -/
def typeMarks : List Char := [':', '<', ',', '>']

/-- What comes after a name in a type: a mark or nothing. -/
def Ends (rest : List Char) : Prop := ∀ character ∈ rest.head?, character ∈ typeMarks

section

variable {text rest : List Char}

theorem IsSpelled.goesOn (spelled : IsSpelled text) :
    ∀ character ∈ text, Identifier.isContinuation character = true := by
  cases text with
  | nil => exact spelled.elim
  | cons first others =>
    exact List.forall_mem_cons.2
      ⟨isContinuation_of_isStart spelled.1, List.all_eq_true.1 spelled.2⟩

theorem IsName.toList_ne_nil {name : String} (isName : IsName name) : name.toList ≠ [] := by
  cases isName with
  | plain spelled =>
    intro empty
    rw [empty] at spelled
    exact spelled
  | raw text marked => exact marked ▸ List.cons_ne_nil _ _

theorem ends_nil : Ends [] := fun _ isHead => nomatch isHead

theorem ends_cons {mark : Char} (isMark : mark ∈ typeMarks) : Ends (mark :: rest) := by
  rintro _ ⟨⟩
  exact isMark

theorem Ends.isOver (ends : Ends rest) {character : Char} (isHead : character ∈ rest.head?) :
    Identifier.isContinuation character = false := by
  have isMark := ends character isHead
  simp only [typeMarks, List.mem_cons, List.not_mem_nil, or_false] at isMark
  rcases isMark with rfl | rfl | rfl | rfl <;> decide

/-- A name is read to its end and no further. -/
theorem takeWhile_append_of_ends (ends : Ends rest)
    (goesOn : ∀ character ∈ text, Identifier.isContinuation character = true) :
    (text ++ rest).takeWhile Identifier.isContinuation = text ∧
      (text ++ rest).dropWhile Identifier.isContinuation = rest := by
  rw [List.takeWhile_append_of_pos goesOn, List.dropWhile_append_of_pos goesOn]
  cases rest with
  | nil => exact ⟨List.append_nil text, rfl⟩
  | cons mark others =>
    have isOver : ¬Identifier.isContinuation mark = true := by
      rw [ends.isOver rfl]
      exact Bool.false_ne_true
    rw [List.takeWhile_cons_of_neg isOver, List.dropWhile_cons_of_neg isOver]
    exact ⟨List.append_nil text, rfl⟩

end

/-! ### No literals -/

/-- The text begins like a name and not like a literal. -/
structure BeginsName (text : List Char) : Prop where
  isStart : ∀ first ∈ text.head?, Identifier.isStart first = true
  noLiteral : ∀ start ∈ literalStarts, ¬start.toList <+: text

/-- Every beginning of a literal has, after its letters, a character that is neither part of a name
nor what comes after one. -/
theorem exists_of_literalStarts {start : String} (isStart : start ∈ literalStarts) :
    ∃ quote ∈ (start.toList.dropWhile Identifier.isContinuation).head?,
      quote ∉ typeMarks := by
  have quotes : ∀ start ∈ literalStarts,
      (start.toList.dropWhile Identifier.isContinuation).head?.any (· ∉ typeMarks) = true := by
    decide +kernel
  simpa [Option.any_eq_true] using quotes start isStart

theorem beginsName_of_isName {name : String} {rest : List Char} (isName : IsName name)
    (ends : Ends rest) : BeginsName (name.toList ++ rest) := by
  cases isName with
  | plain spelled _ =>
    refine ⟨?_, ?_⟩
    · cases parts : name.toList with
      | nil => exact absurd spelled (by rw [parts]; exact id)
      | cons first others =>
        rw [parts] at spelled
        rintro _ ⟨⟩
        exact spelled.1
    · rintro start isStart ⟨further, same⟩
      obtain ⟨quote, isHead, noMark⟩ := exists_of_literalStarts isStart
      have isRest := (takeWhile_append_of_ends ends spelled.goesOn).2
      rw [← same, List.dropWhile_append] at isRest
      obtain ⟨others, parts⟩ := List.head?_eq_some_iff.1 isHead
      rw [parts] at isRest
      exact noMark (ends quote (by rw [← isRest]; rfl))
  | raw text marked spelled _ =>
    rw [marked]
    refine ⟨?_, ?_⟩
    · rintro _ ⟨⟩
      decide
    · cases text with
      | nil => exact spelled.elim
      | cons first others =>
        have noQuote : '"' ≠ first := (ne_of_isStart spelled.1 (by decide)).symm
        have noMark : '#' ≠ first := (ne_of_isStart spelled.1 (by decide)).symm
        simp [literalStarts, noQuote, noMark]

namespace Literal

variable {text : List Char}

/-- How raw texts go on after their letters. -/
def rawFronts : List (List Char) := [['"'], ['#', '"'], ['#', '#']]

theorem afterRaw?_eq_none (sort : TextSort) (noFront : ∀ front ∈ rawFronts, ¬front <+: text) :
    afterRaw? sort text = none := by
  unfold afterRaw?
  dsimp only
  split
  · next rest quoted =>
    obtain ⟨others, parts⟩ := @List.takeWhile_prefix _ text (· = '#')
    obtain ⟨marks, areMarks⟩ : ∃ marks, text.takeWhile (· = '#') = List.replicate marks '#' :=
      ⟨_, List.eq_replicate_iff.2
        ⟨rfl, fun _ member => by simpa using List.mem_takeWhile_imp member⟩⟩
    rw [areMarks] at quoted parts
    rw [← parts, List.drop_left] at quoted
    rw [quoted] at parts
    match marks with
    | 0 => exact absurd ⟨rest, parts⟩ (noFront ['"'] (by decide))
    | 1 => exact absurd ⟨rest, parts⟩ (noFront ['#', '"'] (by decide))
    | more + 2 => exact absurd ⟨_, parts⟩ (noFront ['#', '#'] (by decide))
  · rfl

theorem afterRaw?_of_beginsName {letters : List Char} (sort : TextSort)
    (begins : BeginsName (letters ++ text))
    (known : ∀ front ∈ rawFronts, ∃ start ∈ literalStarts, start.toList <+: letters ++ front) :
    afterRaw? sort text = none := by
  refine afterRaw?_eq_none sort fun front isFront isHead => ?_
  obtain ⟨start, isStart, starts⟩ := known front isFront
  exact begins.noLiteral start isStart
    (starts.trans ((List.prefix_append_right_inj letters).2 isHead))

theorem afterText?_of_beginsName (begins : BeginsName text) : afterText? text = none := by
  unfold afterText?
  split
  · exact absurd (begins.isStart '"' rfl) (by decide)
  · exact Option.map_eq_none_iff.2
      (@afterRaw?_of_beginsName _ ['r'] .plain begins (by decide +kernel))
  · rfl

theorem afterQuoted?_of_beginsName (begins : BeginsName text) : afterQuoted? text = none := by
  unfold afterQuoted?
  refine Option.map_eq_none_iff.2 ?_
  split
  · next rest => exact absurd ⟨rest, rfl⟩ (begins.noLiteral "b\"" (by decide))
  · exact @afterRaw?_of_beginsName _ ['b', 'r'] .bytes begins (by decide +kernel)
  · next rest => exact absurd ⟨rest, rfl⟩ (begins.noLiteral "b'" (by decide))
  · next rest => exact absurd ⟨rest, rfl⟩ (begins.noLiteral "c\"" (by decide))
  · exact @afterRaw?_of_beginsName _ ['c', 'r'] .zeroEnded begins (by decide +kernel)
  · exact absurd (begins.isStart '\'' rfl) (by decide)
  · rfl

theorem read?_of_beginsName (begins : BeginsName text) : read? text = none := by
  have noNumber : afterNumber? text = none := by
    refine if_neg fun digit => ?_
    cases text with
    | nil => cases digit
    | cons first rest =>
      have begins := begins.isStart first rfl
      rw [isStart_of_isDigit digit] at begins
      cases begins
  rw [read?, afterText?_of_beginsName begins, afterQuoted?_of_beginsName begins, noNumber]
  rfl

end Literal

/-! ### Words -/

section

variable {text rest : List Char} {name : String}

theorem identifier?_append (spelled : IsSpelled text) (ends : Ends rest) :
    identifier? (text ++ rest) = some (text, rest) := by
  cases text with
  | nil => exact spelled.elim
  | cons first others =>
    obtain ⟨isStart, goesOn⟩ := spelled
    obtain ⟨taken, left⟩ := takeWhile_append_of_ends ends (List.all_eq_true.1 goesOn)
    rw [List.cons_append]
    show (if Identifier.isStart first then _ else _) = _
    rw [if_pos isStart, taken, left]

theorem anyIdentifier?_append (isName : IsName name) (ends : Ends rest) :
    anyIdentifier? (name.toList ++ rest) = some (name, rest) := by
  cases isName with
  | plain spelled =>
    have whole := identifier?_append spelled ends
    unfold anyIdentifier?
    split
    · next others same =>
      -- The name is `r` alone, and no hash comes after a name.
      rw [same] at whole
      have isRest : '#' :: others = rest := (Prod.mk.inj (Option.some.inj whole)).2
      exact absurd (ends '#' (by rw [← isRest]; rfl)) (by decide)
    · rw [whole]
      show some (String.ofList name.toList, rest) = _
      rw [String.ofList_toList]
  | raw text marked spelled free =>
    have isNew : neverRaw.contains (String.ofList text) = false := by simpa using free
    rw [marked]
    show (identifier? (text ++ rest)).bind _ = _
    rw [identifier?_append spelled ends]
    simp only [Option.bind_some, isNew, Bool.false_eq_true, if_false]
    rw [← marked, String.ofList_toList]

end

/-! ### Tokens at the front -/

section

variable {first : Char} {rest : List Char}

theorem startsWith_eq_false {start : String} {other : Char}
    (isHead : start.toList.head? = some other) (differs : first ≠ other) :
    startsWith (first :: rest) start = false := by
  unfold startsWith
  cases parts : start.toList with
  | nil =>
    rw [parts] at isHead
    cases isHead
  | cons head others =>
    rw [parts] at isHead
    cases isHead
    rw [List.isPrefixOf_cons_cons, beq_false_of_ne differs.symm, Bool.false_and]

theorem documentation?_eq_none (differs : first ≠ '/') : documentation? (first :: rest) = none := by
  have slashes : ∀ start ∈ ["//!", "///", "/*!", "/**"], start.toList.head? = some '/' := by decide
  have noStart : ∀ start ∈ ["//!", "///", "/*!", "/**"], startsWith (first :: rest) start = false :=
    fun start isStart => startsWith_eq_false (slashes start isStart) differs
  simp only [List.forall_mem_cons] at noStart
  simp [documentation?, noStart]

theorem startsMark_of_isStart (isStart : Identifier.isStart first = true) :
    startsMark (first :: rest) = false := by
  have marks : markCharacters.all (!Identifier.isStart ·) = true := by decide
  have noMark : markCharacters.contains first = false := by
    refine Bool.eq_false_iff.2 fun isMark => ?_
    have begins := List.all_eq_true.1 marks first (List.contains_iff_mem.1 isMark)
    rw [isStart] at begins
    cases begins
  rw [startsMark, noMark, Bool.false_and, Bool.false_and]

theorem startsMark_of_beginsName (begins : BeginsName rest) : startsMark rest = false := by
  cases rest with
  | nil => rfl
  | cons first others => exact startsMark_of_isStart (begins.isStart first rfl)

theorem delimiter?_of_isStart (isStart : Identifier.isStart first = true) :
    delimiter? (first :: rest) = none := by
  unfold delimiter?
  split
  case h_7 => rfl
  all_goals
    next same =>
      obtain ⟨rfl, -⟩ := List.cons.inj same
      exact absurd isStart (by decide)

theorem token?_of_isName {name : String} (isName : IsName name) (ends : Ends rest) :
    token? (name.toList ++ rest) = some ([.word name], rest) := by
  have begins := beginsName_of_isName isName ends
  have isWord : word? (name.toList ++ rest) = some (.word name, rest) := by
    have noLiteral : literalStarts.any (startsWith (name.toList ++ rest)) = false := by
      simpa [startsWith] using begins.noLiteral
    rw [word?, noLiteral, anyIdentifier?_append isName ends]
    rfl
  have noLiteral := Literal.read?_of_beginsName begins
  cases text : name.toList ++ rest with
  | nil =>
    rw [text] at isWord
    cases isWord
  | cons first others =>
    rw [text] at begins isWord noLiteral
    have isStart := begins.isStart first rfl
    have noDocumentation := @documentation?_eq_none _ others (ne_of_isStart isStart (by decide))
    have isLegible : startsWith (first :: others) illegibleMark = false :=
      startsWith_eq_false rfl (ne_of_isStart isStart (by decide : Identifier.isStart '(' = false))
    simp [token?, literal?, mark?, noDocumentation, isLegible, noLiteral,
      delimiter?_of_isStart isStart, startsMark_of_isStart isStart, isWord]

end

end StagedBuilder.TypeExpression
