/-
This file says which arguments in a type expression make a difference. Of a path only the
last name is applied to its arguments. An argument there can be told from what the path
denotes, and so on outwards, as long as every path around it has the next smaller one
at its last name. But what stands between the angle brackets after an earlier name is lost, with
everything in it: the two paths `Vec<A>::Item` and `Vec<B>::Item` denote one type.
-/

import StagedBuilder.Proofs.Denotation

namespace StagedBuilder.TypeExpression

variable {scope : List String}

/-! ### Arguments in their places -/

/-- A path that lacks one argument. -/
inductive Slot where
  /-- The argument belongs to the last name. -/
  | last (absolute : Bool) (space : List (String × List Argument)) (name : String)
      (before after : List Argument)
  /-- The argument belongs to an earlier name, `segment`. -/
  | earlier (absolute : Bool) (outside : List (String × List Argument)) (segment : String)
      (before after : List Argument) (inside : List (String × List Argument)) (name : String)
      (arguments : List Argument)

namespace Slot

/-- The path with the argument that it lacks. -/
def fill (argument : TypeExpression) : Slot → TypeExpression
  | last absolute space name before after =>
    .path absolute space name (before ++ .type argument :: after)
  | earlier absolute outside segment before after inside name arguments =>
    .path absolute (outside ++ (segment, before ++ .type argument :: after) :: inside) name
      arguments

/-- Whether the name that the argument belongs to is applied to it. -/
def counts : Slot → Bool
  | last _ _ _ _ _ => true
  | earlier _ _ _ _ _ _ _ _ => false

end Slot

/-- The expression with an argument deep inside, the outermost path first. -/
def fillAll (argument : TypeExpression) (slots : List Slot) : TypeExpression :=
  slots.foldr (fun slot inner => slot.fill inner) argument

/-! ### What arguments are for -/

theorem typesAmong_middle (before after : List Argument) (argument : TypeExpression) :
    typesAmong (before ++ .type argument :: after) =
      typesAmong before ++ argument :: typesAmong after := by
  rw [typesAmong, List.filterMap_append]
  rfl

theorem denotedByArguments_middle_eq_ok_iff {before after : List Argument}
    {argument : TypeExpression} {types : List TypeTerm} :
    denotedByArguments scope (before ++ .type argument :: after) = .ok types ↔
      ∃ first type rest, denotedByArguments scope before = .ok first ∧
        argument.denoted scope = .ok type ∧ denotedByArguments scope after = .ok rest ∧
          types = first ++ type :: rest := by
  simp only [denotedByArguments_eq_ok_iff, typesAmong_middle, mapM_eq_ok_iff, List.map_append,
    List.map_cons, List.mem_append, List.mem_cons, reduceCtorEq, false_or, not_or]
  constructor
  · rintro ⟨⟨notBefore, notAfter⟩, same⟩
    obtain ⟨first, others, rfl, isFirst, areOthers⟩ := List.map_eq_append_iff.1 same.symm
    obtain ⟨type, rest, rfl, isType, isRest⟩ := List.map_eq_cons_iff.1 areOthers
    exact ⟨first, type, rest, ⟨notBefore, isFirst.symm⟩, isType.symm, ⟨notAfter, isRest.symm⟩, rfl⟩
  · rintro ⟨first, type, rest, ⟨notBefore, isFirst⟩, isType, ⟨notAfter, isRest⟩, rfl⟩
    rw [isFirst, isType, isRest, List.map_append, List.map_cons]
    exact ⟨⟨notBefore, notAfter⟩, rfl⟩

/-- What is denoted does not depend on an argument of an earlier name. -/
theorem denoted_fill_of_not_counts {slot : Slot} (ignored : slot.counts = false)
    (argument changed : TypeExpression) :
    (slot.fill changed).denoted scope = (slot.fill argument).denoted scope := by
  cases slot with
  | last => cases ignored
  | earlier absolute outside segment before after inside name arguments =>
    have nonempty : ∀ between : List Argument,
        (outside ++ (segment, between) :: inside).isEmpty = false := by
      cases outside <;> exact fun _ => rfl
    simp only [Slot.fill, denoted, List.map_append, List.map_cons, nonempty]

/-- A path whose last name is applied to arguments denotes a named type. -/
theorem denoted_path_of_middle {absolute : Bool} {space : List (String × List Argument)}
    {name : String} {before after : List Argument} {argument : TypeExpression}
    {first rest : List TypeTerm} {type : TypeTerm}
    (isFirst : denotedByArguments scope before = .ok first)
    (isType : argument.denoted scope = .ok type)
    (isRest : denotedByArguments scope after = .ok rest) :
    denoted scope (.path absolute space name (before ++ .type argument :: after)) =
      .ok (.qualified (some ("::".intercalate (space.map (·.1)))) name
        (first ++ type :: rest)) := by
  refine denoted_path_eq_ok_iff.2 ⟨_, denotedByArguments_middle_eq_ok_iff.2
    ⟨first, type, rest, isFirst, isType, isRest, rfl⟩, ?_⟩
  have nonempty : (first ++ type :: rest).isEmpty = false := by cases first <;> rfl
  rw [nonempty, Bool.and_false, Bool.false_and, if_neg Bool.false_ne_true]

/-- An argument of the last name denotes a type if the path does, and what the path denotes changes
with it. -/
theorem denoted_fill_of_counts {slot : Slot} (counts : slot.counts = true)
    {argument : TypeExpression} {type : TypeTerm}
    (denotes : (slot.fill argument).denoted scope = .ok type) :
    ∃ own, argument.denoted scope = .ok own ∧
      ∀ changed result, changed.denoted scope = .ok result →
        ∃ image, (slot.fill changed).denoted scope = .ok image ∧ (image = type ↔ result = own) := by
  cases slot with
  | earlier => cases counts
  | last absolute space name before after =>
    obtain ⟨types, areTypes, -⟩ := denoted_path_eq_ok_iff.1 denotes
    obtain ⟨first, own, rest, isFirst, isOwn, isRest, -⟩ :=
      denotedByArguments_middle_eq_ok_iff.1 areTypes
    refine ⟨own, isOwn, fun changed result isResult =>
      ⟨_, denoted_path_of_middle isFirst isResult isRest, ?_⟩⟩
    cases denotes.symm.trans (denoted_path_of_middle isFirst isOwn isRest)
    refine ⟨fun same => ?_, fun same => same ▸ rfl⟩
    exact (List.cons.inj (List.append_cancel_left (TypeTerm.named.inj same).2.2)).1

/-- An argument deep inside makes a difference exactly if no path around it has it at an earlier
name. -/
theorem denoted_fillAll {slots : List Slot} {argument changed : TypeExpression}
    {type result : TypeTerm} (denotes : (fillAll argument slots).denoted scope = .ok type)
    (isResult : changed.denoted scope = .ok result) :
    ∃ image, (fillAll changed slots).denoted scope = .ok image ∧
      (image = type ↔ (∃ slot ∈ slots, slot.counts = false) ∨
        argument.denoted scope = .ok result) := by
  induction slots generalizing type with
  | nil =>
    refine ⟨result, isResult, ?_⟩
    rw [show argument.denoted scope = .ok type from denotes]
    simp only [List.not_mem_nil, false_and, exists_false, false_or, Except.ok.injEq]
    exact eq_comm
  | cons slot rest inductionHypothesis =>
    cases counts : slot.counts with
    | false =>
      refine ⟨type, ?_, iff_of_true rfl (.inl ⟨slot, List.mem_cons_self, counts⟩)⟩
      exact (denoted_fill_of_not_counts counts _ _).trans denotes
    | true =>
      obtain ⟨own, isOwn, changes⟩ := denoted_fill_of_counts counts denotes
      obtain ⟨inner, isInner, same⟩ := inductionHypothesis isOwn
      obtain ⟨image, isImage, sameImage⟩ := changes _ inner isInner
      refine ⟨image, isImage, ?_⟩
      rw [sameImage, same]
      simp [counts]

/-! ### Texts -/

/-- Two texts that differ in an argument only denote the same type exactly if the arguments do or
if the argument belongs, anywhere on the way to it, to a name that is not the last of its path. -/
theorem typeOf_eq_iff_of_fillAll {slots : List Slot} {argument changed : TypeExpression}
    {text changedText : String} {type result : TypeTerm}
    (isText : parse? text = some (fillAll argument slots))
    (isChanged : parse? changedText = some (fillAll changed slots))
    (denotes : typeOf scope text = .ok type) (isResult : changed.denoted scope = .ok result) :
    ∃ image, typeOf scope changedText = .ok image ∧
      (image = type ↔ (∃ slot ∈ slots, slot.counts = false) ∨
        argument.denoted scope = .ok result) := by
  rw [typeOf_of_parse? isText] at denotes
  rw [typeOf_of_parse? isChanged]
  exact denoted_fillAll denotes isResult

/-- A map from lists of `A` is not a map from lists of `B`. -/
theorem typeOf_eq_iff_of_fillAll_map :
    let slots : List Slot :=
      [.last false [] "Map" [] [.type (.path false [] "K" [])], .last false [] "Vec" [] []]
    let type : TypeTerm := .named none "Map" [.named none "Vec" [.simple "A"], .parameter "K"]
    parse? "Map<Vec<A>, K>" = some (fillAll (.path false [] "A" []) slots) ∧
      parse? "Map<Vec<B>, K>" = some (fillAll (.path false [] "B" []) slots) ∧
        typeOf ["K"] "Map<Vec<A>, K>" = .ok type ∧
          ∃ image, typeOf ["K"] "Map<Vec<B>, K>" = .ok image ∧ image ≠ type := by
  intro slots type
  have isText : parse? "Map<Vec<A>, K>" = some (fillAll (.path false [] "A" []) slots) := rfl
  have isChanged : parse? "Map<Vec<B>, K>" = some (fillAll (.path false [] "B" []) slots) := rfl
  have denotes : typeOf ["K"] "Map<Vec<A>, K>" = .ok type := by decide +kernel
  obtain ⟨image, isImage, same⟩ := @typeOf_eq_iff_of_fillAll ["K"] slots _ _ _ _ type (.simple "B")
    isText isChanged denotes rfl
  refine ⟨isText, isChanged, denotes, image, isImage, mt same.1 ?_⟩
  decide +kernel

/-- The argument of `Vec` is ignored, so that different types are one. -/
theorem typeOf_item_eq :
    typeOf [] "Vec<A>::Item" = .ok (.named (some "Vec") "Item" []) ∧
      typeOf [] "Vec<B>::Item" = typeOf [] "Vec<A>::Item" ∧ typeOf [] "A" ≠ typeOf [] "B" := by
  decide +kernel

end StagedBuilder.TypeExpression
