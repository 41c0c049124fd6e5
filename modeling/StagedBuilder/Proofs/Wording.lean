/-
This file says what message comes from putting arguments into a wording one after another. Each
place of the wording is filled with its argument; but the text grows on the way, and an argument
that holds the place of a later one is filled in as well. So the message is what comes from
filling all places at once, not with the arguments as they are, but with what has become of each
by the later ones.

What makes this so is that every place of a wording stands between quotes. No place can then
arise from the end of an argument and what comes after it, and arguments may hold whatever they
like without disturbing the wording around them.
-/

import StagedBuilder.Diagnostic.Basic
import StagedBuilder.Proofs.CompactText

namespace StagedBuilder

/-! ### Replacing -/

theorem isPrefixOf_append_cons {pattern first rest : List Char} {character : Char}
    (foreign : character ∉ pattern) :
    pattern.isPrefixOf (first ++ character :: rest) = pattern.isPrefixOf first := by
  rw [Bool.eq_iff_iff, List.isPrefixOf_iff_prefix, List.isPrefixOf_iff_prefix]
  refine ⟨fun begins => ?_, fun begins => begins.trans (List.prefix_append _ _)⟩
  rcases Nat.lt_or_ge first.length pattern.length with longer | shorter
  · have reaches : first ++ [character] <+: pattern :=
      List.prefix_of_prefix_length_le ⟨rest, by rw [List.append_assoc]; rfl⟩ begins
        (by rw [List.length_append]; exact longer)
    exact absurd (reaches.subset (List.mem_append_right _ List.mem_cons_self)) foreign
  · exact List.prefix_of_prefix_length_le begins (List.prefix_append _ _) shorter

/-- What is replaced on one side of a character that the pattern does not have has nothing to do
with what is on the other side. -/
theorem replaceFrom_append_cons {pattern replacement first rest : List Char} {character : Char}
    (foreign : character ∉ pattern) {skip : Nat} (within : skip ≤ first.length) :
    replaceFrom pattern replacement skip (first ++ character :: rest) =
      replaceFrom pattern replacement skip first ++
        replaceFrom pattern replacement 0 (character :: rest) := by
  induction first generalizing skip with
  | nil =>
    rw [Nat.le_zero.1 within]
    rfl
  | cons head tail inductionHypothesis =>
    rw [List.cons_append]
    cases skip with
    | succ remaining =>
      exact inductionHypothesis (Nat.le_of_succ_le_succ within)
    | zero =>
      rw [replaceFrom, replaceFrom, ← List.cons_append, isPrefixOf_append_cons foreign]
      split
      · next begins =>
        have long := (List.isPrefixOf_iff_prefix.1 begins).length_le
        rw [inductionHypothesis (Nat.sub_le_of_le_add long), List.append_assoc]
      · rw [inductionHypothesis (Nat.zero_le _), List.cons_append]

/-- Once what is skipped is over, the rest is gone through as if nothing had been before. -/
theorem replaceFrom_skip {pattern replacement text : List Char} {skip : Nat} :
    replaceFrom pattern replacement skip text =
      replaceFrom pattern replacement 0 (text.drop skip) := by
  induction text generalizing skip with
  | nil => rw [List.drop_nil]; rfl
  | cons character rest inductionHypothesis =>
    cases skip with
    | zero => rfl
    | succ remaining => exact inductionHypothesis

/-! ### Places -/

theorem argumentPlace_eq (number : Nat) :
    argumentPlace number = '\x7b' :: (Nat.toDigits 10 number ++ ['\x7d']) :=
  congrArg (fun digits => '\x7b' :: (digits ++ ['\x7d'])) String.toList_ofList

/-- A place begins with its number, and the number ends where the place ends. -/
theorem eq_of_isPrefixOf {number other : Nat} {rest : List Char}
    (begins : (argumentPlace number).isPrefixOf (argumentPlace other ++ rest) = true) :
    number = other := by
  obtain ⟨after, same⟩ := List.isPrefixOf_iff_prefix.1 begins
  rw [argumentPlace_eq, argumentPlace_eq] at same
  simp only [List.cons_append, List.append_assoc, List.cons.injEq, true_and] at same
  exact (Json.toDigits_append_inj (by simp [Json.EndsNumber]) (by simp [Json.EndsNumber]) same).1

/-- Of what occurs in a place, only its first character and its last one are no digits. -/
theorem isDigit_of_mem_argumentPlace {number : Nat} {character : Char}
    (occurs : character ∈ argumentPlace number) (notFirst : character ≠ '\x7b')
    (notLast : character ≠ '\x7d') : character.isDigit = true := by
  rw [argumentPlace_eq, List.mem_cons, List.mem_append, List.mem_singleton] at occurs
  have inNumber := (occurs.resolve_left notFirst).resolve_right notLast
  exact Nat.isDigit_of_mem_toDigits (by decide) (by decide) inNumber

theorem quote_notMem_argumentPlace (number : Nat) : '\'' ∉ argumentPlace number :=
  fun occurs => absurd (isDigit_of_mem_argumentPlace occurs (by decide) (by decide)) (by decide)

/-- No place begins inside of another. -/
theorem brace_notMem_tail_argumentPlace (number : Nat) :
    '\x7b' ∉ Nat.toDigits 10 number ++ ['\x7d'] := by
  intro occurs
  rcases List.mem_append.1 occurs with inNumber | isLast
  · exact absurd (Nat.isDigit_of_mem_toDigits (by decide) (by decide) inNumber) (by decide)
  · exact absurd (List.mem_singleton.1 isLast) (by decide)

/-! ### One after another -/

variable {replacement text : List Char} {index : Nat}

theorem replaceFrom_cons_of_ne {character : Char} (plain : character ≠ '\x7b') :
    replaceFrom (argumentPlace index) replacement 0 (character :: text) =
      character :: replaceFrom (argumentPlace index) replacement 0 text := by
  rw [replaceFrom, argumentPlace_eq, if_neg]
  rw [List.isPrefixOf, Bool.and_eq_true, beq_iff_eq]
  exact fun begins => plain begins.1.symm

theorem replaceFrom_of_notMem (plain : '\x7b' ∉ text) :
    replaceFrom (argumentPlace index) replacement 0 text = text := by
  induction text with
  | nil => rfl
  | cons character rest inductionHypothesis =>
    obtain ⟨notFirst, notRest⟩ := not_or.1 (mt List.mem_cons.2 plain)
    rw [replaceFrom_cons_of_ne (Ne.symm notFirst), inductionHypothesis notRest]

theorem replaceFrom_argumentPlace (number : Nat) :
    replaceFrom (argumentPlace index) replacement 0 (argumentPlace number) =
      if number = index then replacement else argumentPlace number := by
  split
  · next same =>
    subst same
    have begins := List.isPrefixOf_iff_prefix.2 (List.prefix_refl (argumentPlace number))
    rw [argumentPlace_eq] at begins ⊢
    rw [replaceFrom, if_pos begins, replaceFrom_skip, List.length_cons, Nat.add_sub_cancel,
      List.drop_length, replaceFrom, List.append_nil]
  · next differs =>
    have other : ¬(argumentPlace index).isPrefixOf (argumentPlace number) = true := fun begins =>
      differs (eq_of_isPrefixOf (by rw [List.append_nil]; exact begins)).symm
    rw [argumentPlace_eq number] at other ⊢
    rw [replaceFrom, if_neg other, replaceFrom_of_notMem (brace_notMem_tail_argumentPlace number)]

theorem fillIn_nil (arguments : List String) : fillIn [] index arguments = [] := by
  induction arguments generalizing index with
  | nil => rfl
  | cons argument rest inductionHypothesis => exact inductionHypothesis

theorem fillIn_cons_of_ne {character : Char} (plain : character ≠ '\x7b')
    (arguments : List String) :
    fillIn (character :: text) index arguments = character :: fillIn text index arguments := by
  induction arguments generalizing index text with
  | nil => rfl
  | cons argument rest inductionHypothesis =>
    rw [fillIn, fillIn, replaceFrom_cons_of_ne plain, inductionHypothesis]

/-- What is before a quote is filled in apart from what comes after it. -/
theorem fillIn_append_quote (first : List Char) (arguments : List String) :
    fillIn (first ++ '\'' :: text) index arguments =
      fillIn first index arguments ++ '\'' :: fillIn text index arguments := by
  induction arguments generalizing index first text with
  | nil => rfl
  | cons argument rest inductionHypothesis =>
    rw [fillIn, replaceFrom_append_cons (quote_notMem_argumentPlace index) (Nat.zero_le _),
      replaceFrom_cons_of_ne (by decide), inductionHypothesis]
    rfl

/-- The arguments from a number on, with the later ones filled in in each. -/
def settled (index : Nat) : List String → List String
  | [] => []
  | argument :: rest =>
    String.ofList (fillIn argument.toList (index + 1) rest) :: settled (index + 1) rest

/-- A place is filled with its argument, and this with the later ones. -/
theorem fillIn_argumentPlace (offset : Nat) (arguments : List String) :
    fillIn (argumentPlace (index + offset)) index arguments =
      ((settled index arguments)[offset]?.map String.toList).getD
        (argumentPlace (index + offset)) := by
  induction arguments generalizing index offset with
  | nil => rfl
  | cons argument rest inductionHypothesis =>
    rw [fillIn, replaceFrom_argumentPlace, settled]
    cases offset with
    | zero =>
      rw [if_pos (Nat.add_zero index), List.getElem?_cons_zero, Option.map_some, Option.getD_some,
        String.toList_ofList]
    | succ offset =>
      rw [if_neg (by omega), List.getElem?_cons_succ, Nat.add_comm offset 1, ← Nat.add_assoc]
      exact inductionHypothesis offset

/-! ### All at once -/

/-- The argument, with its number, whose place a text begins with. -/
def argumentAt? (arguments : List String) (text : List Char) : Option (String × Nat) :=
  arguments.zipIdx.find? fun (_, index) => (argumentPlace index).isPrefixOf text

/-- Puts all arguments into a text at once: where a place of an argument is, the argument comes
as it is, and everything else stays. `skip` characters belong to a place that is filled already. -/
def fillAtOnce (arguments : List String) (skip : Nat) : List Char → List Char
  | [] => []
  | character :: rest =>
    match skip with
    | remaining + 1 => fillAtOnce arguments remaining rest
    | 0 =>
      match argumentAt? arguments (character :: rest) with
      | some (argument, index) =>
        argument.toList ++ fillAtOnce arguments ((argumentPlace index).length - 1) rest
      | none => character :: fillAtOnce arguments 0 rest

section

variable (arguments : List String)

theorem fillAtOnce_skip (skip : Nat) :
    fillAtOnce arguments skip text = fillAtOnce arguments 0 (text.drop skip) := by
  induction text generalizing skip with
  | nil => rw [List.drop_nil]; rfl
  | cons character rest inductionHypothesis =>
    cases skip with
    | zero => rfl
    | succ remaining => exact inductionHypothesis remaining

theorem argumentAt?_cons_of_ne {character : Char} (plain : character ≠ '\x7b') :
    argumentAt? arguments (character :: text) = none := by
  rw [argumentAt?, List.find?_eq_none]
  rintro ⟨argument, index⟩ _ begins
  change (argumentPlace index).isPrefixOf _ = true at begins
  rw [argumentPlace_eq, List.isPrefixOf, Bool.and_eq_true, beq_iff_eq] at begins
  exact plain begins.1.symm

theorem argumentAt?_argumentPlace (number : Nat) :
    argumentAt? arguments (argumentPlace number ++ text) =
      arguments[number]?.map fun argument => (argument, number) := by
  have begins : ∀ other, (argumentPlace other).isPrefixOf (argumentPlace number ++ text) = true ↔
      other = number :=
    fun other => ⟨eq_of_isPrefixOf, fun same =>
      same ▸ List.isPrefixOf_iff_prefix.2 (List.prefix_append _ _)⟩
  cases found : arguments[number]? with
  | none =>
    rw [argumentAt?, Option.map_none, List.find?_eq_none]
    rintro ⟨argument, index⟩ member isPlace
    have isArgument := List.mem_zipIdx_iff_getElem?.1 member
    rw [(begins index).1 isPlace, found] at isArgument
    cases isArgument
  | some argument =>
    obtain ⟨within, isArgument⟩ := List.getElem?_eq_some_iff.1 found
    rw [argumentAt?, Option.map_some, List.find?_eq_some_iff_getElem]
    refine ⟨(begins number).2 rfl, number, by rw [List.length_zipIdx]; exact within, ?_, ?_⟩
    · rw [List.getElem_zipIdx, isArgument, Nat.zero_add]
    · intro earlier less
      rw [List.getElem_zipIdx, Nat.zero_add, Bool.not_eq_true']
      exact Bool.eq_false_iff.2 fun isPlace => Nat.ne_of_lt less ((begins earlier).1 isPlace)

theorem fillAtOnce_cons_of_ne {character : Char} (plain : character ≠ '\x7b') :
    fillAtOnce arguments 0 (character :: text) = character :: fillAtOnce arguments 0 text := by
  rw [fillAtOnce, argumentAt?_cons_of_ne arguments plain]

theorem fillAtOnce_append_of_notMem {first : List Char} (plain : '\x7b' ∉ first) :
    fillAtOnce arguments 0 (first ++ text) = first ++ fillAtOnce arguments 0 text := by
  induction first with
  | nil => rfl
  | cons character rest inductionHypothesis =>
    obtain ⟨notFirst, notRest⟩ := not_or.1 (mt List.mem_cons.2 plain)
    rw [List.cons_append, fillAtOnce_cons_of_ne arguments (Ne.symm notFirst),
      inductionHypothesis notRest, List.cons_append]

theorem fillAtOnce_argumentPlace (number : Nat) :
    fillAtOnce arguments 0 (argumentPlace number ++ text) =
      (arguments[number]?.map String.toList).getD (argumentPlace number) ++
        fillAtOnce arguments 0 text := by
  have found : argumentAt? arguments (argumentPlace number ++ text) = _ :=
    argumentAt?_argumentPlace arguments number
  have parts := argumentPlace_eq number
  rw [parts, List.cons_append, fillAtOnce, ← List.cons_append, ← parts, found]
  cases arguments[number]? with
  | none =>
    show '\x7b' :: fillAtOnce arguments 0 _ = argumentPlace number ++ _
    rw [fillAtOnce_append_of_notMem arguments (brace_notMem_tail_argumentPlace number), parts,
      List.cons_append]
  | some argument =>
    show argument.toList ++ fillAtOnce arguments ((argumentPlace number).length - 1) _ =
      argument.toList ++ _
    rw [fillAtOnce_skip, parts, List.length_cons, Nat.add_sub_cancel, List.drop_left]

end

/-! ### Wordings -/

/-- Every place of a text stands before a quote. -/
inductive Worded : List Char → Prop
  | nil : Worded []
  | plain {character : Char} {text : List Char} (plain : character ≠ '\x7b')
      (worded : Worded text) : Worded (character :: text)
  | place (number : Nat) {text : List Char} (worded : Worded text) :
      Worded (argumentPlace number ++ '\'' :: text)

/-- Filling in arguments one after another comes to filling in all at once what becomes of
them. -/
theorem fillIn_of_worded (worded : Worded text) (arguments : List String) :
    fillIn text 0 arguments = fillAtOnce (settled 0 arguments) 0 text := by
  induction worded with
  | nil => exact fillIn_nil arguments
  | plain plain worded inductionHypothesis =>
    rw [fillIn_cons_of_ne plain, fillAtOnce_cons_of_ne _ plain, inductionHypothesis]
  | place number worded inductionHypothesis =>
    have filled := @fillIn_argumentPlace 0 number arguments
    rw [Nat.zero_add] at filled
    rw [fillIn_append_quote, filled, inductionHypothesis, fillAtOnce_argumentPlace,
      fillAtOnce_cons_of_ne _ (by decide)]

/-- Whether the places of a text have one digit each and stand before quotes. -/
def isWorded : List Char → Bool
  | [] => true
  | '\x7b' :: digit :: '\x7d' :: '\'' :: rest =>
    ['0', '1', '2', '3'].contains digit && isWorded rest
  | character :: rest => character ≠ '\x7b' && isWorded rest

theorem worded_of_isWorded (isWorded : isWorded text = true) : Worded text := by
  fun_induction StagedBuilder.isWorded text with
  | case1 => exact .nil
  | case2 digit rest inductionHypothesis =>
    rw [Bool.and_eq_true, List.contains_iff_mem] at isWorded
    have worded := inductionHypothesis isWorded.2
    have isDigit := isWorded.1
    simp only [List.mem_cons, List.not_mem_nil, or_false] at isDigit
    rcases isDigit with rfl | rfl | rfl | rfl
    · exact .place 0 worded
    · exact .place 1 worded
    · exact .place 2 worded
    · exact .place 3 worded
  | case3 character rest other inductionHypothesis =>
    rw [Bool.and_eq_true, decide_eq_true_eq] at isWorded
    exact .plain isWorded.1 (inductionHypothesis isWorded.2)

theorem worded_wording (code : DiagnosticCode) : Worded code.wording.toList :=
  worded_of_isWorded (by cases code <;> decide +kernel)

/-! ### Arguments that stay as they are -/

theorem replaceFrom_of_not_infix {pattern : List Char} (absent : ¬pattern <:+: text) :
    replaceFrom pattern replacement 0 text = text := by
  induction text with
  | nil => rfl
  | cons character rest inductionHypothesis =>
    obtain ⟨notFirst, notRest⟩ := not_or.1 (mt List.infix_cons_iff.2 absent)
    rw [replaceFrom, if_neg (mt List.isPrefixOf_iff_prefix.1 notFirst),
      inductionHypothesis notRest]

theorem fillIn_of_not_infix {arguments : List String}
    (absent : ∀ offset < arguments.length, ¬argumentPlace (index + offset) <:+: text) :
    fillIn text index arguments = text := by
  induction arguments generalizing index with
  | nil => rfl
  | cons argument rest inductionHypothesis =>
    have first : ¬argumentPlace index <:+: text := absent 0 (Nat.zero_lt_succ _)
    rw [fillIn, replaceFrom_of_not_infix first]
    refine inductionHypothesis fun offset less => ?_
    rw [Nat.add_right_comm]
    exact absent (offset + 1) (Nat.succ_lt_succ less)

/-- No argument holds the place of a later one; the first argument has the given number. -/
def KeepApart (index : Nat) (arguments : List String) : Prop :=
  ∀ earlier later argument, earlier < later → later < arguments.length →
    arguments[earlier]? = some argument → ¬argumentPlace (index + later) <:+: argument.toList

theorem settled_of_keepApart {arguments : List String} (apart : KeepApart index arguments) :
    settled index arguments = arguments := by
  induction arguments generalizing index with
  | nil => rfl
  | cons argument rest inductionHypothesis =>
    have first : fillIn argument.toList (index + 1) rest = argument.toList := by
      refine fillIn_of_not_infix fun offset less => ?_
      rw [Nat.add_assoc, Nat.add_comm 1]
      exact apart 0 (offset + 1) argument (Nat.zero_lt_succ _) (Nat.succ_lt_succ less) rfl
    have others : KeepApart (index + 1) rest := by
      intro earlier later other less within isOther
      rw [Nat.add_assoc, Nat.add_comm 1]
      exact apart (earlier + 1) (later + 1) other (Nat.succ_lt_succ less)
        (Nat.succ_lt_succ within) isOther
    rw [settled, first, String.ofList_toList, inductionHypothesis others]

/-! ### Messages -/

namespace Diagnostic

/-- The wording of the code with all places filled at once. -/
def messageWith (diagnostic : Diagnostic) (arguments : List String) : String :=
  String.ofList (fillAtOnce arguments 0 diagnostic.code.wording.toList)

/-- The places of the wording hold what has become of the arguments by those that come after
them. -/
structure FillsInTurn (diagnostic : Diagnostic) : Prop where
  message : diagnostic.message = diagnostic.messageWith (settled 0 diagnostic.arguments)
  /-- The arguments are there as they are if none of them holds the place of a later one. -/
  verbatim : KeepApart 0 diagnostic.arguments →
    diagnostic.message = diagnostic.messageWith diagnostic.arguments

theorem fillsInTurn_message (diagnostic : Diagnostic) : diagnostic.FillsInTurn := by
  have message : diagnostic.message =
      diagnostic.messageWith (settled 0 diagnostic.arguments) :=
    congrArg String.ofList (fillIn_of_worded (worded_wording diagnostic.code) _)
  refine ⟨message, fun apart => ?_⟩
  rw [message, settled_of_keepApart apart]

/-- The first method is called `Read` with the second place after it, and takes in the name of the
second method. -/
theorem message_ne_messageWith_superseded :
    let diagnostic : Diagnostic := {
      code := .supersededMethod
      location := {}
      arguments := ["Read\x7b1\x7d()", "Write()"] }
    diagnostic.message =
        "Alternate method 'ReadWrite()()' is superseded by 'Write()' and will not be generated" ∧
      diagnostic.messageWith diagnostic.arguments =
        "Alternate method 'Read\x7b1\x7d()' is superseded by 'Write()' and will not be generated" ∧
      diagnostic.message ≠ diagnostic.messageWith diagnostic.arguments := by
  decide +kernel

end Diagnostic

end StagedBuilder
