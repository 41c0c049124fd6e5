/-
This file shows that a type is read back from what it is written as.

The readers of the grammar nest: those of each level are made of the readers below. A type takes
one level for itself and another one for the list of its arguments, and these take three tokens
more than the arguments do. So as many levels as there are tokens are enough.
What comes after a type inside another one is a comma or a closing bracket, and neither goes on
with any form of the grammar that starts like a type.

What is read is a path, and the path denotes the type if the scope agrees with the type about
what is a type parameter: it has to know the type parameters, and it must not know a name that
stands alone and is none.
-/

import StagedBuilder.Proofs.Denotation
import StagedBuilder.Proofs.Scanning

namespace StagedBuilder.TypeExpression

/-! ### The expressions of types -/

mutual

/-- The expression that a type is written as. -/
def ofType : TypeTerm → TypeExpression
  | .named space name arguments =>
    .path false ((TypeTerm.spaceNames space).map (·, [])) name (ofArguments arguments)
  | .parameter name => .path false [] name []

def ofArguments : List TypeTerm → List Argument
  | [] => []
  | first :: rest => .type (ofType first) :: ofArguments rest

end

/-! ### Words at the front -/

theorem not_mem_reservedWords {name : String} (isName : IsName name) : name ∉ reservedWords := by
  cases isName with
  | plain _ free => exact free
  | raw text marked =>
    have unmarked : ∀ word ∈ reservedWords, ¬['r', '#'] <+: word.toList := by decide +kernel
    exact fun reserved => unmarked name reserved ⟨text, marked.symm⟩

section

variable {inner : Readers} {name : String} {rest : List Token}

theorem isName_of_free (free : name ∉ reservedWords) : isName name = true := by
  simpa [isName] using free

theorem startsWord_eq_false {words : List String} (free : name ∉ reservedWords)
    (reserved : words ⊆ reservedWords) : startsWord words (.word name :: rest) = false :=
  Bool.eq_false_iff.2 fun starts => free (reserved (List.contains_iff_mem.1 starts))

/-- Among the forms of types, only paths start with a name. -/
theorem type?_of_free (free : name ∉ reservedWords) (isOpen : Bool) :
    type? inner isOpen (.word name :: rest) =
      pathType? inner false isOpen (.word name :: rest) := by
  unfold type?
  split
  case h_11 =>
    rw [startsWord_eq_false free (by decide), startsPath, startsName, isName_of_free free]
    rfl
  all_goals
    next same =>
      cases same <;> exact absurd (by decide) free

theorem segment?_of_free (free : name ∉ reservedWords) :
    segment? inner false (.word name :: rest) =
      if startsArguments rest || startsMarkedArguments rest then
        (inner.arguments? (passSymbol "::" rest)).map fun (arguments, after) =>
          (⟨name, some arguments⟩, after)
      else some (⟨name, none⟩, rest) := by
  have notBare : bareSegments.contains name = false := by
    refine Bool.eq_false_iff.2 fun bare => free ?_
    exact (by decide : bareSegments ⊆ reservedWords) (List.contains_iff_mem.1 bare)
  have mayName : name = "Self" ∨ isName name = true := .inr (isName_of_free free)
  simp only [segment?, notBare, Bool.false_eq_true, if_false, if_pos mayName, Bool.not_false,
    Bool.true_and]
  split
  · cases inner.arguments? (passSymbol "::" rest) <;> rfl
  · rfl

end

/-! ### Paths -/

/-- What comes after a type in a list of arguments, or after the whole. -/
inductive Closes : List Token → Prop where
  | nothing : Closes []
  | comma (rest : List Token) : Closes (.mark ',' false :: rest)
  | bracket (joint : Bool) (rest : List Token) : Closes (.mark '>' joint :: rest)

section

variable {inner : Readers} {names : List String} {name : String} {after rest : List Token}
  {arguments : Option (List Argument)}

/-- What comes after a type goes on with no symbol but its own mark. -/
theorem symbol?_of_closes {symbol : String} {first : Char} (closes : Closes rest)
    (begins : symbol.toList.head? = some first) (isOther : first ∉ [',', '>']) :
    symbol? symbol rest = none := by
  simp only [List.mem_cons, List.not_mem_nil, or_false, not_or] at isOther
  obtain ⟨others, parts⟩ := List.head?_eq_some_iff.1 begins
  rw [symbol?, parts]
  cases closes with
  | nothing => cases others <;> rfl
  | comma => cases others <;> simp [afterSymbol?, Ne.symm isOther.1]
  | bracket joint => cases others <;> cases joint <;> simp [afterSymbol?, Ne.symm isOther.2]

theorem startsSymbol_of_closes {symbol : String} {first : Char} (closes : Closes rest)
    (begins : symbol.toList.head? = some first) (isOther : first ∉ [',', '>']) :
    startsSymbol symbol rest = false := by
  show (symbol? symbol rest).isSome = false
  rw [symbol?_of_closes closes begins isOther]
  rfl

theorem exists_front (names : List String) (name : String) (after : List Token) :
    ∃ word ∈ names ++ [name], ∃ others,
      spaceTokens names ++ .word name :: after = .word word :: others := by
  cases names with
  | nil => exact ⟨name, List.mem_cons_self, after, rfl⟩
  | cons first others => exact ⟨first, List.mem_cons_self, _, rfl⟩

/-- A name is read without arguments if none follow. -/
theorem segment?_of_closes (free : name ∉ reservedWords) (closes : Closes rest) :
    segment? inner false (.word name :: rest) = some (⟨name, none⟩, rest) := by
  have noArguments : startsSymbol "<" rest = false := startsSymbol_of_closes closes rfl (by decide)
  have noMarks : startsSymbol "::" rest = false := startsSymbol_of_closes closes rfl (by decide)
  rw [segment?_of_free free, startsArguments, startsMarkedArguments, noArguments, noMarks]
  rfl

/-- A path is read name by name; only the last name has arguments. -/
theorem segments?_of_space (areFree : ∀ part ∈ names, part ∉ reservedWords)
    (last : segment? inner false (.word name :: after) = some (⟨name, arguments⟩, rest))
    (closes : Closes rest) {fuel : Nat} (enough : names.length < fuel) :
    segments? inner false fuel (spaceTokens names ++ .word name :: after) =
      some (⟨false, names.map (·, []), name, arguments.getD [], arguments.isNone⟩, rest) := by
  induction names generalizing fuel with
  | nil =>
    cases fuel with
    | zero => cases enough
    | succ fuel =>
      have noMore : symbol? "::" rest = none := symbol?_of_closes closes rfl (by decide)
      show segments? inner false (fuel + 1) (.word name :: after) = _
      rw [segments?, last]
      simp [noMore, PathReading.ofSegment]
  | cons first others inductionHypothesis =>
    cases fuel with
    | zero => cases enough
    | succ fuel =>
      obtain ⟨isFree, areOthers⟩ := List.forall_mem_cons.1 areFree
      obtain ⟨word, -, more, front⟩ := exists_front others name after
      have ofOthers := inductionHypothesis areOthers (Nat.lt_of_succ_lt_succ enough)
      rw [front] at ofOthers
      have ofFirst : segment? inner false
          (.word first :: .mark ':' true :: .mark ':' false :: .word word :: more) =
            some (⟨first, none⟩, .mark ':' true :: .mark ':' false :: .word word :: more) := by
        rw [segment?_of_free isFree]
        rfl
      show segments? inner false (fuel + 1) (.word first :: .mark ':' true :: .mark ':' false ::
        (spaceTokens others ++ .word name :: after)) = _
      rw [front, segments?, ofFirst]
      show (segments? inner false fuel (.word word :: more)).bind _ = _
      rw [ofOthers]
      rfl

theorem length_spaceTokens (names : List String) :
    (spaceTokens names).length = 3 * names.length := by
  induction names with
  | nil => rfl
  | cons first others inductionHypothesis =>
    rw [spaceTokens, List.flatMap_cons, List.length_append, ← spaceTokens, inductionHypothesis]
    simp only [List.length_cons, List.length_nil]
    omega

theorem path?_of_space (areFree : ∀ part ∈ names, part ∉ reservedWords)
    (last : segment? inner false (.word name :: after) = some (⟨name, arguments⟩, rest))
    (closes : Closes rest) :
    path? inner false (spaceTokens names ++ .word name :: after) =
      some (⟨false, names.map (·, []), name, arguments.getD [], arguments.isNone⟩, rest) := by
  have enough : names.length < (spaceTokens names ++ .word name :: after).length + 1 := by
    rw [List.length_append, length_spaceTokens]
    omega
  have reads := segments?_of_space areFree last closes enough
  obtain ⟨word, -, others, front⟩ := exists_front names name after
  rw [front] at reads ⊢
  show (segments? inner false _ (.word word :: others)).bind _ = _
  rw [reads]
  rfl

theorem type?_of_space (areFree : ∀ part ∈ names ++ [name], part ∉ reservedWords)
    (last : segment? inner false (.word name :: after) = some (⟨name, arguments⟩, rest))
    (closes : Closes rest) :
    type? inner true (spaceTokens names ++ .word name :: after) =
      some (.path false (names.map (·, [])) name (arguments.getD []), rest) := by
  have isPath := path?_of_space (fun part member => areFree part (List.mem_append_left _ member))
    last closes
  obtain ⟨word, isWord, others, front⟩ := exists_front names name after
  rw [front] at isPath ⊢
  have noBracket : startsSymbol "<" (.word word :: others) = false := rfl
  have noMark : startsSymbol "!" rest = false := startsSymbol_of_closes closes rfl (by decide)
  have noSum : startsSymbol "+" rest = false := startsSymbol_of_closes closes rfl (by decide)
  rw [type?_of_free (areFree word isWord), pathType?, noBracket, isPath]
  simp [startsExpansion, noMark, noSum, PathReading.expression]

end

/-! ### Arguments -/

section

variable {inner : Readers} {type first : TypeTerm} {others : List TypeTerm} {rest : List Token}

/-- A type is read among arguments. -/
def IsRead (inner : Readers) (type : TypeTerm) : Prop :=
  ∀ (joint : Bool) (rest : List Token), Closes rest →
    inner.type? true (tokensOf joint type ++ rest) = some (ofType type, rest)

theorem exists_front_tokensOf (wellNamed : type.IsWellNamed) (joint : Bool) :
    ∃ word, word ∉ reservedWords ∧ ∃ others, tokensOf joint type = .word word :: others := by
  cases type with
  | parameter name =>
    exact ⟨name, not_mem_reservedWords (wellNamed.areNames name List.mem_cons_self), [], rfl⟩
  | named space name arguments =>
    have parts : ∃ after, tokensOf joint (.named space name arguments) =
        spaceTokens (TypeTerm.spaceNames space) ++ .word name :: after := by
      cases arguments <;> exact ⟨_, rfl⟩
    obtain ⟨after, same⟩ := parts
    obtain ⟨word, isWord, others, front⟩ := exists_front (TypeTerm.spaceNames space) name after
    exact ⟨word, not_mem_reservedWords (wellNamed.areNames word isWord), others,
      same.trans front⟩

theorem startsSymbol_tokensOf (wellNamed : type.IsWellNamed) (joint : Bool) (rest : List Token) :
    startsSymbol ">" (tokensOf joint type ++ rest) = false := by
  obtain ⟨word, -, others, front⟩ := exists_front_tokensOf wellNamed joint
  rw [front]
  rfl

theorem argument?_of_isRead (wellNamed : type.IsWellNamed) (isRead : IsRead inner type)
    (joint : Bool) (closes : Closes rest) :
    argument? inner (tokensOf joint type ++ rest) = some (.type (ofType type), rest) := by
  have reads := isRead joint rest closes
  obtain ⟨word, free, others, front⟩ := exists_front_tokensOf wellNamed joint
  rw [front] at reads ⊢
  have noConstant : startsConstant (.word word :: (others ++ rest)) = false := by
    show (startsWord ["true", "false"] (.word word :: (others ++ rest)) || false) = false
    rw [startsWord_eq_false free (by decide), Bool.false_or]
  have noValue : startsSymbol "=" rest = false := startsSymbol_of_closes closes rfl (by decide)
  have noBound : startsSymbol ":" rest = false := startsSymbol_of_closes closes rfl (by decide)
  rw [List.cons_append] at reads ⊢
  rw [argument?, noConstant, reads]
  simp [noValue, noBound, startsLifetime]

theorem listUntil?_of_areRead (wellNamed : ∀ argument ∈ first :: others, argument.IsWellNamed)
    (areRead : ∀ argument ∈ first :: others, IsRead inner argument) {fuel : Nat}
    (enough : others.length < fuel) (joint : Bool) (rest : List Token) :
    listUntil? (startsSymbol ">") (argument? inner) fuel
        (tokensOf true first ++ (tokensOfMore others ++ .mark '>' joint :: rest)) =
      some (ofArguments (first :: others), .mark '>' joint :: rest) := by
  induction others generalizing first fuel with
  | nil =>
    cases fuel with
    | zero => cases enough
    | succ fuel =>
      have reads := argument?_of_isRead (wellNamed first List.mem_cons_self)
        (areRead first List.mem_cons_self) true (.bracket joint rest)
      show listUntil? _ _ (fuel + 1) (tokensOf true first ++ .mark '>' joint :: rest) = _
      rw [listUntil?, startsSymbol_tokensOf (wellNamed first List.mem_cons_self), reads]
      rfl
  | cons second others inductionHypothesis =>
    cases fuel with
    | zero => cases enough
    | succ fuel =>
      have reads := argument?_of_isRead (wellNamed first List.mem_cons_self)
        (areRead first List.mem_cons_self) true
        (.comma (tokensOf true second ++ tokensOfMore others ++ .mark '>' joint :: rest))
      have ofOthers := inductionHypothesis (List.forall_mem_cons.1 wellNamed).2
        (List.forall_mem_cons.1 areRead).2 (Nat.lt_of_succ_lt_succ enough)
      show listUntil? _ _ (fuel + 1) (tokensOf true first ++ .mark ',' false ::
        (tokensOf true second ++ tokensOfMore others ++ .mark '>' joint :: rest)) = _
      rw [listUntil?, startsSymbol_tokensOf (wellNamed first List.mem_cons_self), reads,
        List.append_assoc]
      show (listUntil? _ _ fuel (_ ++ (_ ++ _))).bind _ = _
      rw [ofOthers]
      rfl

theorem length_le_tokensOfMore (arguments : List TypeTerm) :
    arguments.length ≤ (tokensOfMore arguments).length := by
  induction arguments with
  | nil => exact Nat.le_refl 0
  | cons first others inductionHypothesis =>
    rw [tokensOfMore]
    simp only [List.length_cons, List.length_append]
    omega

theorem arguments?_of_areRead (wellNamed : ∀ argument ∈ first :: others, argument.IsWellNamed)
    (areRead : ∀ argument ∈ first :: others, IsRead inner argument) (joint : Bool)
    (rest : List Token) :
    arguments? inner (.mark '<' false :: (tokensOf true first ++
        (tokensOfMore others ++ .mark '>' joint :: rest))) =
      some (ofArguments (first :: others), rest) := by
  have enough : others.length < (.mark '<' false :: (tokensOf true first ++
      (tokensOfMore others ++ .mark '>' joint :: rest))).length := by
    have atLeast := length_le_tokensOfMore others
    simp only [List.length_cons, List.length_append]
    omega
  have reads := listUntil?_of_areRead wellNamed areRead enough joint rest
  show (listUntil? _ _ _ (tokensOf true first ++ _)).bind _ = _
  rw [reads]
  rfl

end

/-! ### Types -/

theorem length_tokensOf_le {argument : TypeTerm} {arguments : List TypeTerm}
    (member : argument ∈ arguments) :
    (tokensOf true argument).length ≤ (tokensOfMore arguments).length := by
  induction arguments with
  | nil => cases member
  | cons first others inductionHypothesis =>
    rw [tokensOfMore, List.length_cons, List.length_append]
    rcases List.mem_cons.1 member with rfl | inOthers
    · omega
    · have atMost := inductionHypothesis inOthers
      omega

theorem length_tokensOf (joint : Bool) (type : TypeTerm) :
    (tokensOf joint type).length = (tokensOf true type).length := by
  cases type with
  | parameter name => rfl
  | named space name arguments => cases arguments <;> simp [tokensOf]

theorem isRead_of_no_arguments {space : Option String} {name : String} {level : Nat}
    (areFree : ∀ part ∈ TypeTerm.spaceNames space ++ [name], part ∉ reservedWords) :
    IsRead (readers (level + 1)) (.named space name []) := by
  intro joint rest closes
  rw [tokensOf, List.append_assoc]
  exact type?_of_space areFree
    (segment?_of_closes (areFree name (List.mem_append_right _ List.mem_cons_self)) closes) closes

/-- One level is for the type, another one for the list of its arguments. -/
theorem isRead_of_arguments {space : Option String} {name : String} {first : TypeTerm}
    {others : List TypeTerm} {level : Nat}
    (wellNamed : (TypeTerm.named space name (first :: others)).IsWellNamed)
    (areRead : ∀ argument ∈ first :: others, IsRead (readers level) argument) :
    IsRead (readers (level + 2)) (.named space name (first :: others)) := by
  intro joint rest closes
  have areFree : ∀ part ∈ TypeTerm.spaceNames space ++ [name], part ∉ reservedWords :=
    fun part member => not_mem_reservedWords (wellNamed.areNames part member)
  have reads := arguments?_of_areRead (fun _ => wellNamed.argument) areRead joint rest
  rw [tokensOf]
  simp only [List.append_assoc, List.cons_append, List.nil_append]
  refine @type?_of_space (readers (level + 1)) _ name _ rest
    (some (ofArguments (first :: others))) areFree ?_ closes
  rw [segment?_of_free (areFree name (List.mem_append_right _ List.mem_cons_self))]
  show (arguments? (readers level) (.mark '<' false :: _)).map _ = _
  rw [reads]
  rfl

/-- As many levels as a type has tokens are enough to read it. -/
theorem isRead {type : TypeTerm} (wellNamed : type.IsWellNamed) {level : Nat}
    (enough : (tokensOf true type).length ≤ level) : IsRead (readers level) type := by
  induction type using TypeTerm.inductionOn generalizing level with
  | parameter name =>
    obtain ⟨level, rfl⟩ := Nat.exists_eq_add_of_le' enough
    -- A type parameter is written like a named type without arguments.
    exact @isRead_of_no_arguments none name level fun part member =>
      not_mem_reservedWords (wellNamed.areNames part member)
  | named space name arguments inductionHypothesis =>
    cases arguments with
    | nil =>
      have oneLevel : 1 ≤ level := by
        rw [tokensOf, List.length_append] at enough
        exact (Nat.le_add_left 1 _).trans enough
      obtain ⟨level, rfl⟩ := Nat.exists_eq_add_of_le' oneLevel
      exact isRead_of_no_arguments fun part member =>
        not_mem_reservedWords (wellNamed.areNames part member)
    | cons first others =>
      have atMost : ∀ argument ∈ first :: others,
          (tokensOf true argument).length + 2 ≤ level := by
        intro argument member
        have ofList := length_tokensOf_le member
        simp only [tokensOf, tokensOfMore, List.length_append, List.length_cons] at enough ofList
        omega
      have twoLevels : 2 ≤ level :=
        (Nat.le_add_left 2 _).trans (atMost first List.mem_cons_self)
      obtain ⟨level, rfl⟩ := Nat.exists_eq_add_of_le' twoLevels
      exact isRead_of_arguments wellNamed fun argument member =>
        inductionHypothesis argument member (wellNamed.argument member)
          (Nat.le_of_add_le_add_right (atMost argument member))

theorem parse?_display {type : TypeTerm} (wellNamed : type.IsWellNamed) :
    parse? type.display = some (ofType type) := by
  have enough : (tokensOf true type).length ≤ levelsFor (tokensOf false type).length := by
    rw [← length_tokensOf false, levelsFor]
    omega
  have reads := isRead wellNamed enough false [] .nothing
  rw [List.append_nil] at reads
  rw [parse?, tokens?_display wellNamed]
  show ((readers _).type? true (tokensOf false type)).bind _ = _
  rw [reads]
  rfl

/-! ### What is denoted -/

theorem ofArguments_eq_map (arguments : List TypeTerm) :
    ofArguments arguments = arguments.map fun argument => .type (ofType argument) := by
  induction arguments with
  | nil => rfl
  | cons first others inductionHypothesis =>
    rw [ofArguments, inductionHypothesis, List.map_cons]

theorem denotedByArguments_ofArguments {scope : List String} {arguments : List TypeTerm}
    (each : ∀ argument ∈ arguments, (ofType argument).denoted scope = .ok argument) :
    denotedByArguments scope (ofArguments arguments) = .ok arguments := by
  rw [ofArguments_eq_map, denotedByArguments_eq_ok_iff]
  have areTypes : typesAmong (arguments.map fun argument => .type (ofType argument)) =
      arguments.map ofType := by
    rw [typesAmong, List.filterMap_map, ← List.filterMap_eq_map]
    rfl
  refine ⟨by simp, ?_⟩
  rw [areTypes, mapM_eq_ok_iff, List.map_map]
  exact List.map_congr_left each

theorem qualified_spaceNames {space : Option String} (name : String) (arguments : List TypeTerm)
    (areNames : ∀ part ∈ TypeTerm.spaceNames space, IsName part) :
    TypeTerm.qualified (some ("::".intercalate (TypeTerm.spaceNames space))) name arguments =
      .named space name arguments := by
  cases space with
  | none => rfl
  | some space =>
    have nonempty : space ≠ "" := by
      rintro rfl
      exact (areNames "" (by decide +kernel)).toList_ne_nil rfl
    rw [TypeTerm.spaceNames, intercalate_segments, TypeTerm.qualified, Option.filter_some]
    simp [nonempty]

/-- What a type is written as denotes the type, if the scope knows its type parameters and no name
that stands alone in it. -/
theorem denoted_ofType {scope : List String} {type : TypeTerm} (wellNamed : type.IsWellNamed)
    (isScoped : type.occurrences ⊆ scope) (isClear : ∀ name ∈ scope, .simple name ∉ type.parts) :
    (ofType type).denoted scope = .ok type := by
  induction type using TypeTerm.inductionOn with
  | parameter name =>
    refine denoted_path_eq_ok_iff.2 ⟨[], rfl, ?_⟩
    have known : name ∈ scope := isScoped List.mem_cons_self
    rw [if_pos (by simpa using known)]
  | named space name arguments inductionHypothesis =>
    have each : ∀ argument ∈ arguments, (ofType argument).denoted scope = .ok argument := by
      intro argument member
      have inside := @TypeTerm.parts_subset space name _ _ member
      refine inductionHypothesis argument member (wellNamed.argument member)
        (fun parameter occurs => isScoped ?_)
        fun other known alone => isClear other known (inside alone)
      exact TypeTerm.mem_occurrencesOfAll.2 ⟨argument, member, occurs⟩
    refine denoted_path_eq_ok_iff.2 ⟨arguments, denotedByArguments_ofArguments each, ?_⟩
    have unchanged : ((·.1) : String × List Argument → String) ∘ (·, []) = id := rfl
    rw [if_neg, List.map_map, unchanged, List.map_id, qualified_spaceNames]
    · exact fun part member => wellNamed.areNames part (List.mem_append_left _ member)
    · -- A name in the scope would have to stand alone.
      intro isParameter
      simp only [Bool.and_eq_true, List.isEmpty_iff, List.map_eq_nil_iff,
        List.contains_iff_mem] at isParameter
      obtain ⟨⟨noSpace, rfl⟩, known⟩ := isParameter
      cases space with
      | some space => exact segments_ne_nil space noSpace
      | none => exact isClear name known (TypeTerm.mem_parts_self _)

/-- A type is read back from what it is written as. -/
theorem typeOf_display {scope : List String} {type : TypeTerm} (wellNamed : type.IsWellNamed)
    (isScoped : type.occurrences ⊆ scope) (isClear : ∀ name ∈ scope, .simple name ∉ type.parts) :
    typeOf scope type.display = .ok type := by
  rw [typeOf_of_parse? (parse?_display wellNamed)]
  exact denoted_ofType wellNamed isScoped isClear

/-- An applied name and a qualified one may be in the scope. -/
theorem typeOf_display_nested :
    let scope := ["K", "Vec", "Item"]
    let type : TypeTerm := .named (some "std::maps") "Map"
      [.parameter "K", .named none "Vec" [.named (some "shop") "Item" []]]
    type.display = "std::maps::Map<K, Vec<shop::Item>>" ∧ type.IsWellNamed ∧
      type.occurrences ⊆ scope ∧ (∀ name ∈ scope, .simple name ∉ type.parts) ∧
        typeOf scope type.display = .ok type := by
  intro scope type
  have wellNamed : type.IsWellNamed := by decide +kernel
  have isScoped : type.occurrences ⊆ scope := by decide +kernel
  have isClear : ∀ name ∈ scope, .simple name ∉ type.parts := by decide +kernel
  exact ⟨by decide +kernel, wellNamed, isScoped, isClear,
    typeOf_display wellNamed isScoped isClear⟩

end StagedBuilder.TypeExpression
