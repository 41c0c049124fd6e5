/-
This file says when two prefix trees are alike: they have the same shape, and what stands
on corresponding edges and ends at corresponding nodes is related. Insertion asks nothing
of keys but whether they test equal, so related values inserted under related keys keep
trees alike as long as tests of related keys have the same outcome. Labels play no part.
-/

import Mathlib.Data.List.Forall2
import StagedBuilder.Prefix.Tree

namespace StagedBuilder.PrefixTree

variable {Key Other Value Item : Type}

/-! ### Alike trees -/

mutual

/-- Two trees of one shape with related keys and values. -/
inductive Alike (ofKeys : Key → Other → Prop) (ofValues : Value → Item → Prop) :
    PrefixTree Key Value → PrefixTree Other Item → Prop
  | node {leftLabel rightLabel : Nat} {leftKeys : List Key} {rightKeys : List Other}
      {leftEndings : List Value} {rightEndings : List Item}
      {leftChildren : List (PrefixTree Key Value)} {rightChildren : List (PrefixTree Other Item)}
      (keys : List.Forall₂ ofKeys leftKeys rightKeys)
      (endings : List.Forall₂ ofValues leftEndings rightEndings)
      (children : AlikeAll ofKeys ofValues leftChildren rightChildren) :
      Alike ofKeys ofValues (.node leftLabel leftKeys leftEndings leftChildren)
        (.node rightLabel rightKeys rightEndings rightChildren)

/-- Lists of alike trees. -/
inductive AlikeAll (ofKeys : Key → Other → Prop) (ofValues : Value → Item → Prop) :
    List (PrefixTree Key Value) → List (PrefixTree Other Item) → Prop
  | nil : AlikeAll ofKeys ofValues [] []
  | cons {left : PrefixTree Key Value} {right : PrefixTree Other Item}
      {lefts : List (PrefixTree Key Value)} {rights : List (PrefixTree Other Item)}
      (first : Alike ofKeys ofValues left right) (rest : AlikeAll ofKeys ofValues lefts rights) :
      AlikeAll ofKeys ofValues (left :: lefts) (right :: rights)

end

variable {ofKeys : Key → Other → Prop} {ofValues : Value → Item → Prop}

theorem Alike.keys {left : PrefixTree Key Value} {right : PrefixTree Other Item}
    (alike : Alike ofKeys ofValues left right) : List.Forall₂ ofKeys left.keys right.keys := by
  cases alike with
  | node keys endings children => exact keys

/-- The edges that lead to alike trees were made by related keys. -/
theorem Alike.exists_representative? {left : PrefixTree Key Value} {right : PrefixTree Other Item}
    (alike : Alike ofKeys ofValues left right) {key : Key}
    (made : left.representative? = some key) :
    ∃ other, right.representative? = some other ∧ ofKeys key other := by
  cases alike with
  | node keys endings children =>
    cases keys with
    | nil => cases made
    | @cons _ other _ _ related _ =>
      cases made
      exact ⟨other, rfl, related⟩

theorem Alike.endings {left : PrefixTree Key Value} {right : PrefixTree Other Item}
    (alike : Alike ofKeys ofValues left right) :
    List.Forall₂ ofValues left.endings right.endings := by
  cases alike with
  | node keys endings children => exact endings

theorem Alike.children {left : PrefixTree Key Value} {right : PrefixTree Other Item}
    (alike : Alike ofKeys ofValues left right) :
    AlikeAll ofKeys ofValues left.children right.children := by
  cases alike with
  | node keys endings children => exact children

theorem AlikeAll.isEmpty_eq {lefts : List (PrefixTree Key Value)}
    {rights : List (PrefixTree Other Item)} (alike : AlikeAll ofKeys ofValues lefts rights) :
    lefts.isEmpty = rights.isEmpty := by
  cases alike <;> rfl

mutual

/-- Alike trees hold related values. -/
theorem Alike.values {right : PrefixTree Other Item} : {left : PrefixTree Key Value} →
    Alike ofKeys ofValues left right → List.Forall₂ ofValues left.values right.values
  | .node _ _ _ _, .node _ endings children => List.rel_append endings children.values

theorem AlikeAll.values {rights : List (PrefixTree Other Item)} :
    {lefts : List (PrefixTree Key Value)} → AlikeAll ofKeys ofValues lefts rights →
      List.Forall₂ ofValues (valuesOfAll lefts) (valuesOfAll rights)
  | [], .nil => .nil
  | _ :: _, .cons first rest => List.rel_append first.values rest.values

end

/-! ### Insertion -/

theorem Alike.addKey {left : PrefixTree Key Value} {right : PrefixTree Other Item}
    (alike : Alike ofKeys ofValues left right) {key : Key} {other : Other}
    (related : ofKeys key other) :
    Alike ofKeys ofValues (left.addKey key) (right.addKey other) := by
  cases alike with
  | node keys endings children =>
    exact .node (List.rel_append keys (.cons related .nil)) endings children

theorem alike_chain {leftLabel rightLabel : Nat} {value : Value} {item : Item}
    (relatedValue : ofValues value item) {key : Key} {other : Other} (related : ofKeys key other)
    {rest : List Key} {others : List Other} (relatedRest : List.Forall₂ ofKeys rest others) :
    Alike ofKeys ofValues (chain leftLabel value key rest)
      (chain rightLabel item other others) := by
  induction relatedRest generalizing leftLabel rightLabel key other with
  | nil => exact .node (.cons related .nil) (.cons relatedValue .nil) .nil
  | cons relatedNext relatedRest inductionHypothesis =>
    exact .node (.cons related .nil) .nil (.cons (inductionHypothesis relatedNext) .nil)

variable [BEq Key] [BEq Other]

/-- Tests of related keys have the same outcome. -/
def TestsAlike (ofKeys : Key → Other → Prop) : Prop :=
  ∀ {first second : Key} {other another : Other}, ofKeys first other → ofKeys second another →
    (first == second) = (other == another)

theorem Alike.admits_eq (tests : TestsAlike ofKeys) {left : PrefixTree Key Value}
    {right : PrefixTree Other Item} (alike : Alike ofKeys ofValues left right) {key : Key}
    {other : Other} (related : ofKeys key other) : left.admits key = right.admits other := by
  have sameTest : ∀ {keys : List Key} {others : List Other}, List.Forall₂ ofKeys keys others →
      keys.head?.any (· == key) = others.head?.any (· == other) := by
    intro keys others relatedKeys
    cases relatedKeys with
    | nil => rfl
    | cons relatedFirst _ => exact tests relatedFirst related
  exact sameTest alike.keys

theorem AlikeAll.descend (tests : TestsAlike ofKeys) {lefts : List (PrefixTree Key Value)}
    {rights : List (PrefixTree Other Item)} (alike : AlikeAll ofKeys ofValues lefts rights)
    {key : Key} {other : Other} (related : ofKeys key other)
    {change : PrefixTree Key Value → PrefixTree Key Value}
    {changeOther : PrefixTree Other Item → PrefixTree Other Item}
    (changes : ∀ {left right}, Alike ofKeys ofValues left right →
      Alike ofKeys ofValues (change left) (changeOther right))
    {added : PrefixTree Key Value} {addedOther : PrefixTree Other Item}
    (alikeAdded : Alike ofKeys ofValues added addedOther) :
    AlikeAll ofKeys ofValues (PrefixTree.descend key change added lefts)
      (PrefixTree.descend other changeOther addedOther rights) := by
  induction lefts generalizing rights with
  | nil =>
    cases alike
    exact .cons alikeAdded .nil
  | cons left lefts inductionHypothesis =>
    cases alike with
    | @cons _ right _ rights first rest =>
      rw [PrefixTree.descend, PrefixTree.descend, first.admits_eq tests related]
      split
      · exact .cons (changes (first.addKey related)) rest
      · exact .cons first (inductionHypothesis rest)

theorem Alike.insertFrom (tests : TestsAlike ofKeys) {leftLabel rightLabel : Nat} {value : Value}
    {item : Item} (relatedValue : ofValues value item) {sequence : List Key}
    {others : List Other} (related : List.Forall₂ ofKeys sequence others)
    {left : PrefixTree Key Value} {right : PrefixTree Other Item}
    (alike : Alike ofKeys ofValues left right) :
    Alike ofKeys ofValues (PrefixTree.insertFrom leftLabel value sequence left)
      (PrefixTree.insertFrom rightLabel item others right) := by
  induction related generalizing left right with
  | nil =>
    cases alike with
    | node keys endings children =>
      exact .node keys (List.rel_append endings (.cons relatedValue .nil)) children
  | cons relatedFirst relatedRest inductionHypothesis =>
    cases alike with
    | node keys endings children =>
      exact .node keys endings (children.descend tests relatedFirst
        (fun alike => inductionHypothesis alike)
        (alike_chain relatedValue relatedFirst relatedRest))

/-- Related values inserted under related keys make alike trees. -/
theorem alike_foldl_insert (tests : TestsAlike ofKeys) {lefts : List Value} {rights : List Item}
    (related : List.Forall₂ ofValues lefts rights) {keysOf : Value → List Key}
    {othersOf : Item → List Other}
    (relatedKeys : ∀ {value item}, ofValues value item →
      List.Forall₂ ofKeys (keysOf value) (othersOf item)) :
    Alike ofKeys ofValues
      (lefts.foldl (fun tree value => tree.insert (keysOf value) value) empty)
      (rights.foldl (fun tree item => tree.insert (othersOf item) item) empty) := by
  have general : ∀ {left : PrefixTree Key Value} {right : PrefixTree Other Item},
      Alike ofKeys ofValues left right → Alike ofKeys ofValues
        (lefts.foldl (fun tree value => tree.insert (keysOf value) value) left)
        (rights.foldl (fun tree item => tree.insert (othersOf item) item) right) := by
    induction related with
    | nil => exact fun alike => alike
    | cons relatedFirst _ inductionHypothesis =>
      exact fun alike =>
        inductionHypothesis (alike.insertFrom tests relatedFirst (relatedKeys relatedFirst))
  exact general (.node .nil .nil .nil)

end StagedBuilder.PrefixTree
