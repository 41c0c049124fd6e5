/-
This file reads drawings in the DOT language, as far as drawings of call graphs go: names and
values that are words or texts in quotes, settings, nodes with attributes, and arrows.

A text in quotes ends at the first quote that is not escaped. A backslash escapes the quote
after it, but of two backslashes neither escapes anything, and both stay. One more backslash
in front of every quote is therefore not enough to write any text in quotes: a text whose
last backslash goes with no other takes the quote at the end with it, and a quote in the text
that stands behind such a backslash is no longer escaped. A backslash that goes with no other
and stands at the end of a line joins the line to the next, and neither is part of the text.

The reader goes from character to character, so that what it reads in a text is put together
from what it reads in the parts, as long as it stands between two tokens where they meet.
-/

import StagedBuilder.Builder.Report

namespace StagedBuilder.Dot

/-! ### Tokens -/

inductive Token where
  | word (text : String)
  | quoted (text : String)
  | mark (character : Char)
  | arrow
deriving DecidableEq, Inhabited

/-- Where a reader stands: between tokens or within one. What has been read of a token is kept with
the last character first. -/
inductive Position where
  | between
  | word (read : List Char)
  | dash
  | quotes (read : List Char)
  | backslash (read : List Char)
deriving DecidableEq, Inhabited

/-- What has been read of a text, with the last token first. -/
structure Reading where
  position : Position := .between
  tokens : List Token := []
deriving DecidableEq, Inhabited

def isBlank (character : Char) : Bool := [' ', '\n', '\t', '\r'].contains character

def isWordCharacter (character : Char) : Bool := character.isAlphanum || character = '_'

def isMark (character : Char) : Bool :=
  ['\x7b', '\x7d', '[', ']', '=', ';', ','].contains character

/-- Goes on from between two tokens. -/
def begin? (tokens : List Token) (character : Char) : Option Reading :=
  if isBlank character then some ⟨.between, tokens⟩
  else if isWordCharacter character then some ⟨.word [character], tokens⟩
  else if isMark character then some ⟨.between, .mark character :: tokens⟩
  else if character = '"' then some ⟨.quotes [], tokens⟩
  else if character = '-' then some ⟨.dash, tokens⟩
  else none

/-- Reads one more character. -/
def advance? (reading : Reading) (character : Char) : Option Reading :=
  match reading with
  | ⟨.between, tokens⟩ => begin? tokens character
  | ⟨.word read, tokens⟩ =>
    if isWordCharacter character then some ⟨.word (character :: read), tokens⟩
    else begin? (.word (String.ofList read.reverse) :: tokens) character
  | ⟨.dash, tokens⟩ => if character = '>' then some ⟨.between, .arrow :: tokens⟩ else none
  | ⟨.quotes read, tokens⟩ =>
    if character = '"' then some ⟨.between, .quoted (String.ofList read.reverse) :: tokens⟩
    else if character = '\\' then some ⟨.backslash read, tokens⟩
    else some ⟨.quotes (character :: read), tokens⟩
  | ⟨.backslash read, tokens⟩ =>
    if character = '"' then some ⟨.quotes ('"' :: read), tokens⟩
    else if character = '\n' then some ⟨.quotes read, tokens⟩
    else if character = '\\' then some ⟨.quotes ('\\' :: '\\' :: read), tokens⟩
    else some ⟨.quotes (character :: '\\' :: read), tokens⟩

/-- Reads on through a text. -/
def readOn? (reading : Reading) (text : List Char) : Option Reading := text.foldlM advance? reading

/-- The tokens of a text that does not end within one. -/
def tokens? (text : List Char) : Option (List Token) :=
  (readOn? {} text).bind fun reading =>
    if reading.position = .between then some reading.tokens.reverse else none

/-- The text consists of the tokens, wherever it stands. -/
def Consists (text : List Char) (tokens : List Token) : Prop :=
  ∀ before, readOn? ⟨.between, before⟩ text = some ⟨.between, tokens.reverse ++ before⟩

theorem readOn?_append (reading : Reading) (front back : List Char) :
    readOn? reading (front ++ back) = (readOn? reading front).bind (readOn? · back) :=
  List.foldlM_append

namespace Consists

variable {front back : List Char} {tokens others : List Token}

theorem nil : Consists [] [] := fun _ => rfl

theorem append (first : Consists front tokens) (second : Consists back others) :
    Consists (front ++ back) (tokens ++ others) := by
  intro before
  rw [readOn?_append, first before, Option.bind_some, second, List.reverse_append,
    List.append_assoc]

theorem tokens? (consists : Consists front tokens) : Dot.tokens? front = some tokens := by
  rw [Dot.tokens?, consists [], Option.bind_some, if_pos rfl, List.append_nil,
    List.reverse_reverse]

end Consists

/-! ### Names in quotes -/

/-- A character of a name, with a backslash in front of it if it is a quote. -/
def escape (character : Char) : List Char := if character = '"' then ['\\', '"'] else [character]

/-- A name in quotes as it is drawn. -/
def quotation (name : List Char) : List Char := '"' :: name.flatMap escape ++ ['"']

/-- Within quotes, behind a backslash that goes with no other or not. -/
def within (afterBackslash : Bool) (read : List Char) : Position :=
  if afterBackslash then .backslash read else .quotes read

/-- Whether a character is a backslash that goes with none before it. -/
def goesAlone (afterBackslash : Bool) (character : Char) : Bool :=
  character = '\\' && !afterBackslash

/-- What a character of a name adds to what is read. A backslash that goes with no other is added
together with the character behind it. -/
def gained (afterBackslash : Bool) (character : Char) : List Char :=
  if afterBackslash then if character = '\n' then [] else ['\\', character]
  else if character = '\\' then [] else [character]

/-- What is read of a name in quotes: all of it, apart from backslashes that join lines. -/
def shown (afterBackslash : Bool) : List Char → List Char
  | [] => []
  | character :: rest =>
    gained afterBackslash character ++ shown (goesAlone afterBackslash character) rest

/-- Neither a quote in the name nor its end stands behind a backslash that goes with no other. -/
def closes (afterBackslash : Bool) : List Char → Bool
  | [] => !afterBackslash
  | character :: rest =>
    (character ≠ '"' || !afterBackslash) && closes (goesAlone afterBackslash character) rest

theorem readOn?_escape {afterBackslash : Bool} {character : Char}
    (closes : (character ≠ '"' || !afterBackslash) = true) (read : List Char)
    (tokens : List Token) :
    readOn? ⟨within afterBackslash read, tokens⟩ (escape character) =
      some ⟨within (goesAlone afterBackslash character)
        ((gained afterBackslash character).reverse ++ read), tokens⟩ := by
  by_cases isQuote : character = '"'
  · subst isQuote
    cases afterBackslash with
    | true => cases closes
    | false => rfl
  · rw [escape, if_neg isQuote]
    show (advance? _ character).bind _ = _
    cases afterBackslash with
    | true =>
      by_cases isEnd : character = '\n'
      · subst isEnd
        rfl
      · by_cases isBackslash : character = '\\'
        · subst isBackslash
          rfl
        · simp [advance?, within, goesAlone, gained, isQuote, isEnd, isBackslash]
    | false =>
      by_cases isBackslash : character = '\\'
      · subst isBackslash
        rfl
      · simp [advance?, within, goesAlone, gained, isQuote, isBackslash]

/-- A name that closes is read to the quote behind it. -/
theorem readOn?_of_closes {afterBackslash : Bool} {name : List Char}
    (ends : closes afterBackslash name = true) (read : List Char) (tokens : List Token) :
    readOn? ⟨within afterBackslash read, tokens⟩ (name.flatMap escape ++ ['"']) =
      some ⟨.between, .quoted (String.ofList (read.reverse ++ shown afterBackslash name)) ::
        tokens⟩ := by
  induction name generalizing afterBackslash read with
  | nil =>
    cases afterBackslash with
    | true => cases ends
    | false => rw [shown, List.append_nil]; rfl
  | cons character rest inductionHypothesis =>
    obtain ⟨here, further⟩ := Bool.and_eq_true_iff.1 ends
    rw [List.flatMap_cons, List.append_assoc, readOn?_append, readOn?_escape here,
      Option.bind_some, inductionHypothesis further, shown, List.reverse_append,
      List.reverse_reverse, List.append_assoc]

theorem Consists.quotation {name : List Char} (ends : closes false name = true) :
    Consists (quotation name) [.quoted (String.ofList (shown false name))] :=
  readOn?_of_closes ends []

/-! ### Names that do not close -/

theorem length_tokens_of_begin? {tokens : List Token} {character : Char} {reading : Reading}
    (begun : begin? tokens character = some reading) : tokens.length ≤ reading.tokens.length := by
  unfold begin? at begun
  grind

theorem length_tokens_of_advance? {before after : Reading} {character : Char}
    (advanced : advance? before character = some after) :
    before.tokens.length ≤ after.tokens.length := by
  obtain ⟨position, tokens⟩ := before
  cases position with
  | between => exact length_tokens_of_begin? advanced
  | word read =>
    simp only [advance?] at advanced
    split at advanced
    · cases advanced
      exact Nat.le_refl _
    · exact Nat.le_of_succ_le (length_tokens_of_begin? advanced)
  | dash => grind [advance?]
  | quotes read => grind [advance?]
  | backslash read => grind [advance?]

/-- Nothing that has been read is lost on the way. -/
theorem length_tokens_of_readOn? {before after : Reading} {text : List Char}
    (reads : readOn? before text = some after) : before.tokens.length ≤ after.tokens.length := by
  induction text generalizing before with
  | nil =>
    cases reads
    exact Nat.le_refl _
  | cons character rest inductionHypothesis =>
    obtain ⟨next, advanced, further⟩ := Option.bind_eq_some_iff.1 reads
    exact Nat.le_trans (length_tokens_of_advance? advanced) (inductionHypothesis further)

/-- The only way to arrive between two tokens with a quote is to end a text in quotes. -/
theorem length_tokens_lt_of_readOn?_quote {before : Reading} {text : List Char}
    {tokens : List Token} (reads : readOn? before (text ++ ['"']) = some ⟨.between, tokens⟩) :
    before.tokens.length < tokens.length := by
  rw [readOn?_append] at reads
  obtain ⟨⟨position, read⟩, atQuote, last⟩ := Option.bind_eq_some_iff.1 reads
  have kept := length_tokens_of_readOn? atQuote
  cases position with
  | quotes text =>
    cases last
    exact Nat.lt_succ_of_le kept
  | between => cases last
  | word text => cases last
  | dash => cases last
  | backslash text => cases last

/-- If a name does not close, its quotes are read as the ends of at least two texts, or one of them
is left open. -/
theorem length_tokens_of_not_closes {afterBackslash : Bool} {name read : List Char}
    {before tokens : List Token} (opens : closes afterBackslash name = false)
    (reads : readOn? ⟨within afterBackslash read, before⟩ (name.flatMap escape ++ ['"']) =
      some ⟨.between, tokens⟩) : before.length + 2 ≤ tokens.length := by
  induction name generalizing afterBackslash read with
  | nil =>
    cases afterBackslash with
    | true => cases reads
    | false => cases opens
  | cons character rest inductionHypothesis =>
    rw [List.flatMap_cons, List.append_assoc, readOn?_append] at reads
    by_cases here : (character ≠ '"' || !afterBackslash) = true
    · rw [readOn?_escape here, Option.bind_some] at reads
      refine inductionHypothesis ?_ reads
      rwa [closes, here, Bool.true_and] at opens
    · obtain ⟨rfl, rfl⟩ : character = '"' ∧ afterBackslash = true := by simpa using here
      -- The backslash in front of the quote goes with the one before it, and the text ends here.
      have onward : readOn?
          ⟨.between, .quoted (String.ofList ('\\' :: '\\' :: read).reverse) :: before⟩
          (rest.flatMap escape ++ ['"']) = some ⟨.between, tokens⟩ := reads
      exact length_tokens_lt_of_readOn?_quote onward

/-- In quotes a name is one text exactly if it closes. -/
theorem tokens?_quotation {name : List Char} {identifier : String} :
    tokens? (quotation name) = some [.quoted identifier] ↔
      closes false name = true ∧ identifier = String.ofList (shown false name) := by
  constructor
  · intro read
    by_cases ends : closes false name = true
    · rw [(Consists.quotation ends).tokens?, Option.some.injEq, List.cons.injEq,
        Token.quoted.injEq] at read
      exact ⟨ends, read.1.symm⟩
    · obtain ⟨⟨position, tokens⟩, reads, isEnd⟩ := Option.bind_eq_some_iff.1 read
      split at isEnd
      next isBetween =>
        obtain rfl : position = .between := isBetween
        have opened : readOn? ⟨within false [], []⟩ (name.flatMap escape ++ ['"']) =
          some ⟨.between, tokens⟩ := reads
        have longer := length_tokens_of_not_closes (Bool.eq_false_iff.2 ends) opened
        have single := congrArg List.length (Option.some.inj isEnd)
        simp only [List.length_reverse, List.length_singleton, List.length_nil] at single longer
        omega
      next => cases isEnd
  · rintro ⟨ends, rfl⟩
    exact (Consists.quotation ends).tokens?

/-- One backslash at the end of a name takes the quote behind it with it; two leave it alone. -/
example : tokens? (quotation "Shop\\".toList) = none ∧
    tokens? (quotation "Shop\\\\".toList) = some [.quoted "Shop\\\\"] :=
  ⟨rfl, rfl⟩

/-! ### Names without backslashes -/

theorem closes_of_notMem {name : List Char} (free : '\\' ∉ name) : closes false name = true := by
  induction name with
  | nil => rfl
  | cons character rest inductionHypothesis =>
    rw [List.mem_cons, not_or] at free
    simpa [closes, goesAlone, Ne.symm free.1] using inductionHypothesis free.2

theorem shown_append_of_notMem {front : List Char} (free : '\\' ∉ front) (back : List Char) :
    shown false (front ++ back) = front ++ shown false back := by
  induction front with
  | nil => rfl
  | cons character rest inductionHypothesis =>
    rw [List.mem_cons, not_or] at free
    simpa [shown, gained, goesAlone, Ne.symm free.1] using inductionHypothesis free.2

theorem shown_of_notMem {name : List Char} (free : '\\' ∉ name) : shown false name = name := by
  have whole := shown_append_of_notMem free []
  rwa [shown, List.append_nil] at whole

/-- Behind any other character than a backslash a name is read as if it began there. -/
theorem exists_shown_append {character : Char} (noBackslash : character ≠ '\\')
    (afterBackslash : Bool) (front : List Char) :
    ∃ before, ∀ back, shown afterBackslash (front ++ character :: back) =
      before ++ shown false back := by
  induction front generalizing afterBackslash with
  | nil =>
    refine ⟨gained afterBackslash character, fun back => ?_⟩
    simp [shown, goesAlone, noBackslash]
  | cons first rest inductionHypothesis =>
    obtain ⟨before, reads⟩ := inductionHypothesis (goesAlone afterBackslash first)
    refine ⟨gained afterBackslash first ++ before, fun back => ?_⟩
    rw [List.cons_append, shown, reads, List.append_assoc]

/-! ### Statements -/

inductive Statement where
  | setting (name value : String)
  | defaults (attributes : List (String × String))
  | node (identifier : String) (attributes : List (String × String))
  | arrow (source target : String)
deriving DecidableEq, Inhabited

/-- The text of a name or value. -/
def Token.text? : Token → Option String
  | .word text => some text
  | .quoted text => some text
  | _ => none

/-- Reads attributes to the bracket that ends them. -/
def attributes? : List Token → Option (List (String × String))
  | [.mark ']'] => some []
  | .mark ',' :: rest => attributes? rest
  | name :: .mark '=' :: value :: rest => do
    return (← name.text?, ← value.text?) :: (← attributes? rest)
  | _ => none

/-- Reads a statement without the mark at its end. The bare word for a node stands for all nodes;
the name of a node is read in quotes only. -/
def statement? : List Token → Option Statement
  | [name, .mark '=', value] => do return .setting (← name.text?) (← value.text?)
  | [.quoted source, .arrow, .quoted target] => some (.arrow source target)
  | .word "node" :: .mark '[' :: rest => (attributes? rest).map .defaults
  | .quoted identifier :: .mark '[' :: rest => (attributes? rest).map (.node identifier)
  | _ => none

/-- Reads the statements up to the brace at the end. What has been read of one is kept with the
last token first. -/
def statements? (read : List Token) : List Token → Option (List Statement)
  | [] => none
  | .mark '\x7d' :: rest => if read = [] ∧ rest = [] then some [] else none
  | .mark ';' :: rest => do return (← statement? read.reverse) :: (← statements? [] rest)
  | token :: rest => statements? (token :: read) rest

/-- What a drawing shows: the nodes that are named, each with the colour it is filled with, and the
arrows. -/
structure Picture where
  nodes : List (String × Option String)
  arrows : List (String × String)
deriving DecidableEq, Inhabited

def pictureOf (statements : List Statement) : Picture where
  nodes := statements.filterMap fun
    | .node identifier attributes => some (identifier, attributes.lookup "fillcolor")
    | _ => none
  arrows := statements.filterMap fun
    | .arrow source target => some (source, target)
    | _ => none

/-- Reads a drawing. -/
def picture? (text : List Char) : Option Picture :=
  (tokens? text).bind fun
    | .word "digraph" :: .word _ :: .mark '\x7b' :: rest => (statements? [] rest).map pictureOf
    | _ => none

/-! ### Drawing statements -/

/-- The text consists of the statements, wherever statements are expected. -/
def Draws (text : List Char) (statements : List Statement) : Prop :=
  ∃ tokens, Consists text tokens ∧ ∀ rest following, statements? [] rest = some following →
    statements? [] (tokens ++ rest) = some (statements ++ following)

namespace Draws

theorem nil : Draws [] [] := ⟨[], .nil, fun _ _ reads => reads⟩

theorem append {front back : List Char} {statements others : List Statement}
    (first : Draws front statements) (second : Draws back others) :
    Draws (front ++ back) (statements ++ others) := by
  obtain ⟨tokens, consists, reads⟩ := first
  obtain ⟨onward, consistsOnward, readsOnward⟩ := second
  refine ⟨tokens ++ onward, consists.append consistsOnward, fun rest following further => ?_⟩
  rw [List.append_assoc, List.append_assoc]
  exact reads _ _ (readsOnward _ _ further)

theorem flatMap {Part : Type} {parts : List Part} {text : Part → List Char}
    {statement : Part → Statement} (each : ∀ part ∈ parts, Draws (text part) [statement part]) :
    Draws (parts.flatMap text) (parts.map statement) := by
  induction parts with
  | nil => exact nil
  | cons part parts inductionHypothesis =>
    rw [List.flatMap_cons, List.map_cons]
    exact (each part List.mem_cons_self).append
      (inductionHypothesis fun other member => each other (List.mem_cons_of_mem _ member))

/-- One statement with the mark at its end. -/
theorem single {text : List Char} {tokens : List Token} {statement : Statement}
    (consists : Consists text tokens)
    (reads : ∀ rest, statements? [] (tokens ++ rest) =
      (statements? [] rest).bind fun following => some (statement :: following)) :
    Draws text [statement] := by
  refine ⟨tokens, consists, fun rest following further => ?_⟩
  rw [reads, further, Option.bind_some, List.singleton_append]

/-- A text that draws statements is a picture of them between the first and the last line of a
drawing. -/
theorem picture? {text : List Char} {statements : List Statement} (draws : Draws text statements) :
    Dot.picture? ("digraph fluentgen \x7b\n".toList ++ (text ++ "\x7d\n".toList)) =
      some (pictureOf statements) := by
  obtain ⟨tokens, consists, reads⟩ := draws
  have opening : Consists "digraph fluentgen \x7b\n".toList
    [.word "digraph", .word "fluentgen", .mark '\x7b'] := fun _ => rfl
  have ending : Consists "\x7d\n".toList [.mark '\x7d'] := fun _ => rfl
  rw [Dot.picture?, (opening.append (consists.append ending)).tokens?, Option.bind_some]
  show (statements? [] (tokens ++ [.mark '\x7d'])).map pictureOf = _
  rw [reads [.mark '\x7d'] [] rfl, List.append_nil, Option.map_some]

end Draws

end StagedBuilder.Dot
