/-
This file says which tokens a type is written with. A text is taken apart from the front, and
what is found there depends on what comes right after it: a name goes on as long as it can, and
a mark knows whether another mark follows. So the tokens of a type are said together with
whether a mark comes after the type, and everything about a piece of text is said with the rest
of the text behind it.

A type is written with names, the marks `::` between names and `<`, `,` and `>` around and
between arguments, and one blank after every comma. No delimiter occurs among its tokens, so none
is left open.
-/

import StagedBuilder.Proofs.Spelling
import StagedBuilder.Proofs.Substitution

namespace StagedBuilder

/-! ### Name spaces -/

/-- What stands between the marks `::` of a text. -/
def segmentsOf : List Char → List (List Char)
  | [] => [[]]
  | ':' :: ':' :: rest => [] :: segmentsOf rest
  | first :: rest => (segmentsOf rest).modifyHead (first :: ·)

theorem segmentsOf_ne_nil (text : List Char) : segmentsOf text ≠ [] := by
  fun_induction segmentsOf text with
  | case1 | case2 => exact List.cons_ne_nil _ _
  | case3 first rest _ inductionHypothesis =>
    exact mt List.modifyHead_eq_nil_iff.1 inductionHypothesis

theorem intercalate_segmentsOf (text : List Char) :
    [':', ':'].intercalate (segmentsOf text) = text := by
  fun_induction segmentsOf text with
  | case1 => rfl
  | case2 rest inductionHypothesis =>
    rw [List.intercalate_cons_of_ne_nil (segmentsOf_ne_nil rest), inductionHypothesis]
    rfl
  | case3 first rest _ inductionHypothesis =>
    cases segments : segmentsOf rest with
    | nil => exact absurd segments (segmentsOf_ne_nil rest)
    | cons segment others =>
      rw [List.modifyHead_cons, List.intercalate_cons_cons_left, ← segments, inductionHypothesis]

/-- The names between the marks `::` of a name space. -/
def segments (space : String) : List String := (segmentsOf space.toList).map String.ofList

theorem segments_ne_nil (space : String) : segments space ≠ [] :=
  mt List.map_eq_nil_iff.1 (segmentsOf_ne_nil _)

theorem intercalate_segments (space : String) : "::".intercalate (segments space) = space := by
  rw [← String.toList_inj, String.toList_intercalate, segments, List.map_map]
  have unchanged : String.toList ∘ String.ofList = id := funext fun _ => String.toList_ofList
  rw [unchanged, List.map_id]
  exact intercalate_segmentsOf space.toList

namespace TypeTerm

/-! ### What a type is written with -/

mutual

/-- A type and all types inside it. -/
def parts : TypeTerm → List TypeTerm
  | .named space name arguments => .named space name arguments :: partsOfAll arguments
  | .parameter name => [.parameter name]

def partsOfAll : List TypeTerm → List TypeTerm
  | [] => []
  | first :: rest => first.parts ++ partsOfAll rest

end

theorem mem_parts_self (type : TypeTerm) : type ∈ type.parts := by
  cases type <;> exact List.mem_cons_self

/-- What is inside an argument is inside the type. -/
theorem parts_subset {space : Option String} {name : String} {arguments : List TypeTerm}
    {argument : TypeTerm} (member : argument ∈ arguments) :
    argument.parts ⊆ (TypeTerm.named space name arguments).parts := by
  refine List.subset_cons_of_subset _ ?_
  induction arguments with
  | nil => cases member
  | cons first rest inductionHypothesis =>
    rcases List.mem_cons.1 member with rfl | inRest
    · exact List.subset_append_left _ _
    · exact fun part inside => List.mem_append_right _ (inductionHypothesis inRest inside)

/-- The names that stand in front of the name of a type. -/
def spaceNames : Option String → List String
  | none => []
  | some space => segments space

/-- The names that a type is written with, without those of its arguments. -/
def names : TypeTerm → List String
  | .named space name _ => spaceNames space ++ [name]
  | .parameter name => [name]

/-- All that a type is written with are names, as far inside as it goes. -/
def IsWellNamed (type : TypeTerm) : Prop :=
  ∀ part ∈ type.parts, ∀ name ∈ part.names, TypeExpression.IsName name

instance (type : TypeTerm) : Decidable type.IsWellNamed :=
  inferInstanceAs (Decidable (∀ part ∈ type.parts, ∀ name ∈ part.names, _))

theorem IsWellNamed.areNames {type : TypeTerm} (wellNamed : type.IsWellNamed) :
    ∀ name ∈ type.names, TypeExpression.IsName name :=
  wellNamed type type.mem_parts_self

theorem IsWellNamed.argument {space : Option String} {name : String} {arguments : List TypeTerm}
    (wellNamed : (TypeTerm.named space name arguments).IsWellNamed) {argument : TypeTerm}
    (member : argument ∈ arguments) : argument.IsWellNamed :=
  fun part inside => wellNamed part (parts_subset member inside)

end TypeTerm

namespace TypeExpression

/-- The tokens of names with `::` after each. -/
def spaceTokens (names : List String) : List Token :=
  names.flatMap fun name => [.word name, .mark ':' true, .mark ':' false]

mutual

/-- The tokens of a type; `joint` says whether a mark comes right after it. -/
def tokensOf (joint : Bool) : TypeTerm → List Token
  | .named space name [] => spaceTokens (TypeTerm.spaceNames space) ++ [.word name]
  | .named space name (first :: rest) =>
    spaceTokens (TypeTerm.spaceNames space) ++ .word name :: .mark '<' false ::
      (tokensOf true first ++ tokensOfMore rest ++ [.mark '>' joint])
  | .parameter name => [.word name]

/-- The tokens of arguments after the first one. -/
def tokensOfMore : List TypeTerm → List Token
  | [] => []
  | first :: rest => .mark ',' false :: (tokensOf true first ++ tokensOfMore rest)

end

/-! ### Scanning -/

/-- A text is taken apart into tokens, and no delimiter among them is left open. -/
structure Scans (text : List Char) (tokens : List Token) : Prop where
  reads : ∀ fuel, text.length < fuel → tokensFrom? fuel text = some tokens
  balanced : isBalanced [] tokens = true

section

variable {text rest : List Char} {tokens : List Token}

theorem skipBlanks_cons {first : Char} (fuel : Nat) (differs : first ≠ '/') :
    skipBlanks (fuel + 1) (first :: rest) =
      if isBlank first then skipBlanks fuel rest else first :: rest := by
  have noLine : startsLine (first :: rest) = false := by
    rw [startsLine, startsWith_eq_false (by decide : "//".toList.head? = some '/') differs,
      Bool.false_and, Bool.false_and]
  have noBlock : startsBlock (first :: rest) = false := by
    rw [startsBlock, startsWith_eq_false (by decide : "/*".toList.head? = some '/') differs,
      Bool.false_and, Bool.false_and]
  simp [skipBlanks, noLine, noBlock]

theorem scans_nil : Scans [] [] :=
  ⟨fun fuel enough => by
    cases fuel with
    | zero => cases enough
    | succ fuel => rfl, rfl⟩

/-- A token at the front, which is no delimiter. -/
theorem Scans.token {token : Token} (found : token? text = some ([token], rest))
    (solid : ∀ first ∈ text.head?, isBlank first = false ∧ first ≠ '/')
    (shorter : rest.length < text.length)
    (plain : isBalanced [] (token :: tokens) = isBalanced [] tokens) (scans : Scans rest tokens) :
    Scans text (token :: tokens) := by
  refine ⟨fun fuel enough => ?_, plain.trans scans.balanced⟩
  cases text with
  | nil => cases shorter
  | cons first others =>
    cases fuel with
    | zero => cases enough
    | succ fuel =>
      obtain ⟨notBlank, differs⟩ := solid first rfl
      have reads := scans.reads fuel (by simp only [List.length_cons] at enough shorter; omega)
      rw [tokensFrom?, skipBlanks_cons _ differs, notBlank]
      simp [found, reads]

theorem scans_blank (scans : Scans rest tokens) : Scans (' ' :: rest) tokens := by
  refine ⟨fun fuel enough => ?_, scans.balanced⟩
  cases fuel with
  | zero => cases enough
  | succ fuel =>
    have reads := scans.reads (fuel + 1) (by simp only [List.length_cons] at enough; omega)
    rw [← reads, tokensFrom?, tokensFrom?, skipBlanks_cons _ (by decide : ' ' ≠ '/'),
      if_pos (by decide : isBlank ' ' = true), List.length_cons]

theorem scans_word {name : String} (isName : IsName name) (ends : Ends rest)
    (scans : Scans rest tokens) : Scans (name.toList ++ rest) (.word name :: tokens) := by
  refine .token (token?_of_isName isName ends) (fun first isHead => ?_) ?_ rfl scans
  · have isStart := (beginsName_of_isName isName ends).isStart first isHead
    refine ⟨Bool.eq_false_iff.2 fun blank => ?_, ne_of_isStart isStart (by decide)⟩
    rw [isStart_of_isBlank blank] at isStart
    cases isStart
  · rw [List.length_append]
    exact Nat.lt_add_of_pos_left (List.length_pos_iff.2 isName.toList_ne_nil)

theorem scans_mark {mark : Char} (joint : Bool) (isMark : mark ∈ typeMarks)
    (isJoint : startsMark rest = joint) (scans : Scans rest tokens) :
    Scans (mark :: rest) (.mark mark joint :: tokens) := by
  subst isJoint
  simp only [typeMarks, List.mem_cons, List.not_mem_nil, or_false] at isMark
  refine @Scans.token _ rest _ _ ?_ ?_ (Nat.lt_succ_self _) rfl scans
  · rcases isMark with rfl | rfl | rfl | rfl <;> rfl
  · rintro _ ⟨⟩
    rcases isMark with rfl | rfl | rfl | rfl <;> decide

end

/-! ### The text of types -/

/-- Names with `::` after each. -/
def spaceText (names : List String) : List Char :=
  names.flatMap fun name => name.toList ++ [':', ':']

/-- What is written after the name of a type. -/
def argumentText (arguments : List TypeTerm) : List Char :=
  (TypeTerm.argumentList (TypeTerm.displayAll arguments)).toList

/-- What is written after the first argument. -/
def moreText (arguments : List TypeTerm) : List Char :=
  arguments.flatMap fun argument => ',' :: ' ' :: argument.display.toList

theorem spaceText_of_intercalate {names : List String} (nonempty : names ≠ []) :
    spaceText names = ("::".intercalate names).toList ++ [':', ':'] := by
  induction names with
  | nil => exact absurd rfl nonempty
  | cons first rest inductionHypothesis =>
    cases rest with
    | nil => rw [String.intercalate_singleton, spaceText, List.flatMap_singleton]
    | cons second others =>
      rw [spaceText, List.flatMap_cons, ← spaceText, inductionHypothesis (List.cons_ne_nil _ _),
        String.intercalate_cons_cons, String.toList_append, String.toList_append]
      simp only [List.append_assoc]
      rfl

theorem toList_intercalate_display (first : TypeTerm) (rest : List TypeTerm) :
    (", ".intercalate (TypeTerm.displayAll (first :: rest))).toList =
      first.display.toList ++ moreText rest := by
  induction rest generalizing first with
  | nil =>
    show (", ".intercalate [first.display]).toList = _
    rw [String.intercalate_singleton]
    exact (List.append_nil _).symm
  | cons second others inductionHypothesis =>
    have ofRest := inductionHypothesis second
    rw [TypeTerm.displayAll] at ofRest
    rw [TypeTerm.displayAll, TypeTerm.displayAll, String.intercalate_cons_cons,
      String.toList_append, String.toList_append, ofRest, List.append_assoc, moreText, moreText,
      List.flatMap_cons]
    rfl

theorem argumentText_cons (first : TypeTerm) (rest : List TypeTerm) :
    argumentText (first :: rest) = '<' :: (first.display.toList ++ moreText rest ++ ['>']) := by
  rw [← toList_intercalate_display]
  show ("<" ++ _ ++ ">").toList = _
  rw [String.toList_append, String.toList_append]
  rfl

theorem toList_display_named (space : Option String) (name : String) (arguments : List TypeTerm) :
    (TypeTerm.named space name arguments).display.toList =
      spaceText (TypeTerm.spaceNames space) ++ name.toList ++ argumentText arguments := by
  rw [TypeTerm.display, String.toList_append]
  congr 1
  cases space with
  | none => rfl
  | some space =>
    show (space ++ "::" ++ name).toList = spaceText (segments space) ++ name.toList
    rw [String.toList_append, String.toList_append,
      spaceText_of_intercalate (segments_ne_nil space), intercalate_segments]
    rfl

section

variable {rest : List Char}

theorem ends_argumentText (ends : Ends rest) (arguments : List TypeTerm) :
    Ends (argumentText arguments ++ rest) := by
  cases arguments with
  | nil => exact ends
  | cons first others =>
    rw [argumentText_cons]
    exact ends_cons (by decide)

theorem ends_moreText (ends : Ends rest) (arguments : List TypeTerm) :
    Ends (moreText arguments ++ rest) := by
  cases arguments with
  | nil => exact ends
  | cons first others => exact ends_cons (by decide)

theorem beginsName_space {names : List String} {name : String}
    (areNames : ∀ part ∈ names ++ [name], IsName part) (ends : Ends rest) :
    BeginsName (spaceText names ++ (name.toList ++ rest)) := by
  cases names with
  | nil => exact beginsName_of_isName (areNames name List.mem_cons_self) ends
  | cons first others =>
    rw [spaceText, List.flatMap_cons, List.append_assoc, List.append_assoc]
    exact beginsName_of_isName (areNames first List.mem_cons_self) (ends_cons (by decide))

end

theorem beginsName_display {type : TypeTerm} (areNames : ∀ name ∈ type.names, IsName name)
    {rest : List Char} (ends : Ends rest) : BeginsName (type.display.toList ++ rest) := by
  cases type with
  | named space name arguments =>
    rw [toList_display_named, List.append_assoc, List.append_assoc]
    exact beginsName_space areNames (ends_argumentText ends arguments)
  | parameter name => exact beginsName_of_isName (areNames name List.mem_cons_self) ends

/-! ### The tokens of types -/

theorem scans_space {names : List String} {name : String}
    (areNames : ∀ part ∈ names ++ [name], IsName part) {rest : List Char} {tokens : List Token}
    (ends : Ends rest) (scans : Scans rest tokens) :
    Scans (spaceText names ++ (name.toList ++ rest))
      (spaceTokens names ++ .word name :: tokens) := by
  induction names with
  | nil => exact scans_word (areNames name List.mem_cons_self) ends scans
  | cons first others inductionHypothesis =>
    have areOthers : ∀ part ∈ others ++ [name], IsName part :=
      fun part member => areNames part (List.mem_cons_of_mem _ member)
    have noMark := startsMark_of_beginsName (beginsName_space areOthers ends)
    have second := scans_mark false (by decide : ':' ∈ typeMarks) noMark
      (inductionHypothesis areOthers)
    have both := scans_mark true (by decide : ':' ∈ typeMarks) rfl second
    have whole := scans_word (areNames first List.mem_cons_self) (ends_cons (by decide)) both
    rw [spaceText, spaceTokens, List.flatMap_cons, List.flatMap_cons, ← spaceText, ← spaceTokens]
    simpa only [List.append_assoc, List.cons_append, List.nil_append] using whole

/-- A type is taken apart into its tokens, whatever may come after it. -/
def IsScanned (type : TypeTerm) : Prop :=
  ∀ {rest : List Char} {tokens : List Token}, Ends rest → Scans rest tokens →
    Scans (type.display.toList ++ rest) (tokensOf (startsMark rest) type ++ tokens)

theorem scans_moreText {arguments : List TypeTerm}
    (each : ∀ argument ∈ arguments, IsScanned argument) {rest : List Char}
    {tokens : List Token} (ends : Ends rest) (isMark : startsMark rest = true)
    (scans : Scans rest tokens) :
    startsMark (moreText arguments ++ rest) = true ∧
      Scans (moreText arguments ++ rest) (tokensOfMore arguments ++ tokens) := by
  induction arguments with
  | nil => exact ⟨isMark, scans⟩
  | cons first others inductionHypothesis =>
    obtain ⟨isFirst, areOthers⟩ := List.forall_mem_cons.1 each
    obtain ⟨further, scansOthers⟩ := inductionHypothesis areOthers
    have scansFirst := isFirst (ends_moreText ends others) scansOthers
    rw [further] at scansFirst
    have whole := scans_mark false (by decide : ',' ∈ typeMarks) rfl (scans_blank scansFirst)
    refine ⟨rfl, ?_⟩
    rw [moreText, List.flatMap_cons, ← moreText, tokensOfMore]
    simpa only [List.append_assoc, List.cons_append] using whole

theorem isScanned {type : TypeTerm} (wellNamed : type.IsWellNamed) : IsScanned type := by
  induction type using TypeTerm.inductionOn with
  | named space name arguments inductionHypothesis =>
    intro rest tokens ends scans
    rw [toList_display_named, List.append_assoc, List.append_assoc]
    cases arguments with
    | nil =>
      rw [tokensOf, List.append_assoc]
      exact scans_space wellNamed.areNames ends scans
    | cons first others =>
      have each : ∀ argument ∈ first :: others, IsScanned argument := fun argument member =>
        inductionHypothesis argument member (wellNamed.argument member)
      obtain ⟨isFirst, areOthers⟩ := List.forall_mem_cons.1 each
      have closing := scans_mark (startsMark rest) (by decide : '>' ∈ typeMarks) rfl scans
      have ends : Ends (moreText others ++ '>' :: rest) :=
        ends_moreText (ends_cons (by decide)) others
      obtain ⟨isMark, scansOthers⟩ := scans_moreText areOthers (ends_cons (by decide)) rfl closing
      have inside := isFirst ends scansOthers
      rw [isMark] at inside
      have begins := beginsName_display (wellNamed.argument List.mem_cons_self).areNames ends
      have opening := scans_mark false (by decide : '<' ∈ typeMarks)
        (startsMark_of_beginsName begins) inside
      have whole := scans_space wellNamed.areNames (ends_cons (by decide)) opening
      rw [argumentText_cons, tokensOf]
      simpa only [List.append_assoc, List.cons_append, List.nil_append] using whole
  | parameter name =>
    intro rest tokens ends scans
    exact scans_word (wellNamed.areNames name List.mem_cons_self) ends scans

/-- The tokens of a type are those of the text that it is written as. -/
theorem tokens?_display {type : TypeTerm} (wellNamed : type.IsWellNamed) :
    tokens? type.display = some (tokensOf false type) := by
  have scans := isScanned wellNamed ends_nil scans_nil
  have begins := beginsName_display wellNamed.areNames ends_nil
  rw [List.append_nil] at begins
  rw [List.append_nil, List.append_nil] at scans
  have reads := scans.reads _ (Nat.lt_succ_self _)
  simp only [tokens?]
  split
  · next marked =>
    rw [marked] at begins
    exact absurd (begins.isStart '\uFEFF' rfl) (by decide +kernel)
  · rw [reads]
    exact if_pos scans.balanced

end TypeExpression

end StagedBuilder
