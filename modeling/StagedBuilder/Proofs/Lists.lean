/-
This file holds facts about lists that the rest of the theory draws on and that
belong to no domain of their own.
-/

import Mathlib.Data.List.Forall2
import Mathlib.Data.List.Nodup
import Mathlib.Data.List.Sort

namespace StagedBuilder.Lists

/-- Removing repetitions leaves every entry once. -/
theorem nodup_eraseDups {Entry : Type} [BEq Entry] [LawfulBEq Entry] (entries : List Entry) :
    entries.eraseDups.Nodup := by
  -- The rest of a list is filtered before it is gone through, so the length has to decrease.
  induction length : entries.length using Nat.strongRecOn generalizing entries with
  | ind count inductionHypothesis =>
    cases entries with
    | nil => exact List.nodup_nil
    | cons first rest =>
      rw [List.eraseDups_cons, List.nodup_cons]
      refine ⟨fun member => ?_, inductionHypothesis _ ?_ _ rfl⟩
      · rw [List.mem_eraseDups, List.mem_filter] at member
        simp at member
      · have bound := List.length_filter_le (fun entry => !entry == first) rest
        rw [← length, List.length_cons]
        omega

/-- Repetitions are removed alike before and after entries are mapped to different images. -/
theorem eraseDups_map {Entry Image : Type} [BEq Entry] [LawfulBEq Entry] [BEq Image]
    [LawfulBEq Image] {image : Entry → Image} {entries : List Entry}
    (apart : ∀ left ∈ entries, ∀ right ∈ entries, image left = image right → left = right) :
    (entries.map image).eraseDups = entries.eraseDups.map image := by
  induction length : entries.length using Nat.strongRecOn generalizing entries with
  | ind count inductionHypothesis =>
    cases entries with
    | nil => rfl
    | cons first rest =>
      have sameRest : rest.filter ((fun other => !(other == image first)) ∘ image) =
          rest.filter fun entry => !(entry == first) := by
        refine List.filter_congr fun entry member => congrArg not (Bool.eq_iff_iff.2 ?_)
        rw [beq_iff_eq, beq_iff_eq]
        exact ⟨apart entry (List.mem_cons_of_mem _ member) first List.mem_cons_self,
          congrArg image⟩
      have others : ∀ entry ∈ rest.filter fun entry => !(entry == first),
          entry ∈ first :: rest :=
        fun entry member => List.mem_cons_of_mem _ (List.mem_filter.1 member).1
      have bound := List.length_filter_le (fun entry => !(entry == first)) rest
      rw [List.length_cons] at length
      rw [List.map_cons, List.eraseDups_cons, List.eraseDups_cons, List.map_cons, List.filter_map,
        sameRest]
      refine congrArg (image first :: ·) (inductionHypothesis _ (by omega) ?_ rfl)
      exact fun left leftMember right rightMember =>
        apart left (others left leftMember) right (others right rightMember)

theorem eraseDups_of_nodup {Entry : Type} [BEq Entry] [LawfulBEq Entry] {entries : List Entry}
    (distinct : entries.Nodup) : entries.eraseDups = entries := by
  induction entries with
  | nil => rfl
  | cons first rest inductionHypothesis =>
    obtain ⟨fresh, distinctRest⟩ := List.nodup_cons.1 distinct
    have noneEqual : ∀ entry ∈ rest, (!entry == first) = true := by
      intro entry member
      rw [Bool.not_eq_true', beq_eq_false_iff_ne]
      exact fun same => fresh (same ▸ member)
    rw [List.eraseDups_cons, List.filter_eq_self.2 noneEqual, inductionHypothesis distinctRest]

/-- Repetitions may be removed from the beginning of a list before they are from all of it. -/
theorem eraseDups_eraseDups_append {Entry : Type} [BEq Entry] [LawfulBEq Entry]
    (first second : List Entry) :
    (first.eraseDups ++ second).eraseDups = (first ++ second).eraseDups := by
  have sameRest : second.removeAll first.eraseDups = second.removeAll first := by
    refine List.filter_congr fun entry _ => congrArg not (Bool.eq_iff_iff.2 ?_)
    rw [List.elem_eq_contains, List.elem_eq_contains, List.contains_iff_mem, List.contains_iff_mem,
      List.mem_eraseDups]
  rw [List.eraseDups_append, List.eraseDups_append, sameRest,
    eraseDups_of_nodup (nodup_eraseDups first)]

/-- A list is parted by the keys of its entries, if each key is given once. -/
theorem flatMap_filter_perm {Entry Key : Type} [DecidableEq Key] (keyOf : Entry → Key)
    {keys : List Key} (distinct : keys.Nodup) {entries : List Entry}
    (covered : ∀ entry ∈ entries, keyOf entry ∈ keys) :
    (keys.flatMap fun key => entries.filter (keyOf · = key)).Perm entries := by
  induction keys generalizing entries with
  | nil =>
    cases entries with
    | nil => exact .nil
    | cons first rest => exact absurd (covered first List.mem_cons_self) List.not_mem_nil
  | cons key rest inductionHypothesis =>
    obtain ⟨fresh, distinctRest⟩ := List.nodup_cons.1 distinct
    let others := entries.filter fun entry => !decide (keyOf entry = key)
    have coveredRest : ∀ entry ∈ others, keyOf entry ∈ rest := by
      intro entry member
      obtain ⟨isEntry, isOther⟩ := List.mem_filter.1 member
      rw [Bool.not_eq_true', decide_eq_false_iff_not] at isOther
      exact (List.mem_cons.1 (covered entry isEntry)).resolve_left isOther
    have sameRest : (rest.flatMap fun other => entries.filter (keyOf · = other)) =
        rest.flatMap fun other => others.filter (keyOf · = other) := by
      refine List.flatMap_congr fun other member => ?_
      rw [List.filter_filter]
      refine List.filter_congr fun entry _ => ?_
      by_cases isOther : keyOf entry = other
      · have differs : other ≠ key := fun isKey => fresh (isKey ▸ member)
        simp [isOther, differs]
      · simp [isOther]
    rw [List.flatMap_cons, sameRest]
    exact ((inductionHypothesis distinctRest coveredRest).append_left _).trans
      (List.filter_append_perm _ entries)

/-- Of entries that are chosen by different keys, a key keeps its own. -/
theorem filter_filterMap_key {Entry Key : Type} [DecidableEq Key] {keyOf : Entry → Key}
    {choose : Key → Option Entry}
    (chosen : ∀ key entry, choose key = some entry → keyOf entry = key)
    {keys : List Key} (distinct : keys.Nodup) {key : Key}
    (uncovered : key ∉ keys → choose key = none) :
    (keys.filterMap choose).filter (keyOf · = key) = (choose key).toList := by
  induction keys with
  | nil => rw [uncovered List.not_mem_nil]; rfl
  | cons first rest inductionHypothesis =>
    obtain ⟨fresh, distinctRest⟩ := List.nodup_cons.1 distinct
    by_cases isFirst : first = key
    · subst isFirst
      have noneOfRest : (rest.filterMap choose).filter (keyOf · = first) = [] := by
        refine List.filter_eq_nil_iff.2 fun entry member isKey => ?_
        obtain ⟨other, inRest, isChosen⟩ := List.mem_filterMap.1 member
        rw [decide_eq_true_eq, chosen other entry isChosen] at isKey
        exact fresh (isKey ▸ inRest)
      cases isChosen : choose first with
      | none => rw [List.filterMap_cons_none isChosen, noneOfRest]; rfl
      | some entry =>
        have hasKey : decide (keyOf entry = first) = true :=
          decide_eq_true (chosen first entry isChosen)
        rw [List.filterMap_cons_some isChosen, List.filter_cons, if_pos hasKey, noneOfRest]
        rfl
    · have uncoveredRest : key ∉ rest → choose key = none := fun notInRest =>
        uncovered fun member => (List.mem_cons.1 member).elim (fun same => isFirst same.symm)
          notInRest
      cases isChosen : choose first with
      | none =>
        rw [List.filterMap_cons_none isChosen, inductionHypothesis distinctRest uncoveredRest]
      | some entry =>
        have otherKey : ¬ decide (keyOf entry = key) = true := by
          rw [decide_eq_true_eq, chosen first entry isChosen]
          exact isFirst
        rw [List.filterMap_cons_some isChosen, List.filter_cons, if_neg otherKey,
          inductionHypothesis distinctRest uncoveredRest]

theorem findIdx?_congr {Entry : Type} {first second : Entry → Bool} {entries : List Entry}
    (same : ∀ entry ∈ entries, first entry = second entry) :
    entries.findIdx? first = entries.findIdx? second := by
  induction entries with
  | nil => rfl
  | cons entry rest inductionHypothesis =>
    rw [List.findIdx?_cons, List.findIdx?_cons, same entry List.mem_cons_self,
      inductionHypothesis fun other member => same other (List.mem_cons_of_mem _ member)]

/-- Two tests find the same in a list if they agree on the first entry and, should it not pass, find
the same in the rest. -/
theorem find?_cons_eq_find?_cons {Entry : Type} {first second : Entry → Bool} {entry : Entry}
    {rest : List Entry} :
    (entry :: rest).find? first = (entry :: rest).find? second ↔
      first entry = second entry ∧ (first entry = true ∨ rest.find? first = rest.find? second) := by
  rw [List.find?_cons, List.find?_cons]
  cases passesFirst : first entry <;> cases passesSecond : second entry
  · simp
  · refine ⟨fun same => ?_, fun same => Bool.noConfusion same.1⟩
    rw [List.find?_some same] at passesFirst
    exact Bool.noConfusion passesFirst
  · refine ⟨fun same => ?_, fun same => Bool.noConfusion same.1⟩
    rw [List.find?_some same.symm] at passesSecond
    exact Bool.noConfusion passesSecond
  · simp

/-- All of one list pass a test if all of another do whose entries fare alike. -/
theorem all_eq_all {Left Right : Type} {related : Left → Right → Prop} {lefts : List Left}
    {rights : List Right} (alike : List.Forall₂ related lefts rights) {test : Left → Bool}
    {testOther : Right → Bool}
    (same : ∀ left right, related left right → test left = testOther right) :
    lefts.all test = rights.all testOther := by
  induction alike with
  | nil => rfl
  | cons first _ inductionHypothesis =>
    rw [List.all_cons, List.all_cons, same _ _ first, inductionHypothesis]

theorem getElem?_middle {Entry : Type} (before after : List Entry) (entry : Entry) :
    (before ++ entry :: after)[before.length]? = some entry := by
  rw [List.getElem?_append_right (Nat.le_refl _), Nat.sub_self, List.getElem?_cons_zero]

theorem length_take_of_getElem? {Entry : Type} {entries : List Entry} {place : Nat} {entry : Entry}
    (found : entries[place]? = some entry) : (entries.take place).length = place := by
  obtain ⟨bound, -⟩ := List.getElem?_eq_some_iff.1 found
  rw [List.length_take, Nat.min_eq_left (Nat.le_of_lt bound)]

/-- An entry stands between those before its place and those behind it. -/
theorem eq_take_append_cons_drop {Entry : Type} {entries : List Entry} {place : Nat}
    {entry : Entry} (found : entries[place]? = some entry) :
    entries = entries.take place ++ entry :: entries.drop (place + 1) := by
  obtain ⟨bound, rfl⟩ := List.getElem?_eq_some_iff.1 found
  rw [← List.drop_eq_getElem_cons bound, List.take_append_drop]

theorem mem_of_lookup {Key Value : Type} [BEq Key] [LawfulBEq Key]
    {entries : List (Key × Value)} {key : Key} {value : Value}
    (found : entries.lookup key = some value) : (key, value) ∈ entries := by
  obtain ⟨before, after, parts, -⟩ := List.lookup_eq_some_iff.1 found
  rw [parts]
  exact List.mem_append_right _ List.mem_cons_self

/-- The keys stay where they are when the values are mapped. -/
theorem lookup_map_snd {Key Value Image : Type} [BEq Key] (image : Value → Image)
    (entries : List (Key × Value)) (key : Key) :
    (entries.map fun (key, value) => (key, image value)).lookup key =
      (entries.lookup key).map image := by
  induction entries with
  | nil => rfl
  | cons first rest inductionHypothesis =>
    rw [List.map_cons, List.lookup_cons, List.lookup_cons, inductionHypothesis]
    cases key == first.1 <;> rfl

/-- What is in a list that grows by one entry for each item was there or comes from an item. -/
theorem mem_foldl_append {Entry Item : Type} (make : Nat → Item → Entry) {items : List Item}
    {start : List Entry} {entry : Entry}
    (member : entry ∈ items.foldl (fun made item => made ++ [make made.length item]) start) :
    entry ∈ start ∨ ∃ item ∈ items, ∃ place, entry = make place item := by
  induction items generalizing start with
  | nil => exact Or.inl member
  | cons first rest inductionHypothesis =>
    rcases inductionHypothesis member with atFirst | ⟨item, inRest, made⟩
    · rcases List.mem_append.1 atFirst with inStart | isFirst
      · exact Or.inl inStart
      · exact Or.inr ⟨first, List.mem_cons_self, start.length, List.mem_singleton.1 isFirst⟩
    · exact Or.inr ⟨item, List.mem_cons_of_mem _ inRest, made⟩

/-- Entries made one after another have the same images if those made of related items do. -/
theorem map_foldl_append {Entry OtherEntry Image Item Other : Type}
    (make : Nat → Item → Entry) (makeOther : Nat → Other → OtherEntry) {image : Entry → Image}
    {imageOther : OtherEntry → Image} {items : List Item} {others : List Other}
    (related : List.Forall₂
      (fun item other => ∀ place, image (make place item) = imageOther (makeOther place other))
      items others) {start : List Entry} {startOther : List OtherEntry}
    (same : start.map image = startOther.map imageOther) :
    (items.foldl (fun made item => made ++ [make made.length item]) start).map image =
      (others.foldl (fun made other => made ++ [makeOther made.length other]) startOther).map
        imageOther := by
  induction related generalizing start startOther with
  | nil => exact same
  | cons relatedFirst _ inductionHypothesis =>
    have length : start.length = startOther.length := by
      rw [← List.length_map image, same, List.length_map]
    refine inductionHypothesis ?_
    rw [List.map_append, List.map_append, same, List.map_singleton, List.map_singleton,
      relatedFirst, length]

/-- Entries whose images do not depend on the time at which they are made have the images of the
items. -/
theorem map_foldl_append_of_forall {Entry Item Image : Type} {make : Nat → Item → Entry}
    {image : Entry → Image} {imageOf : Item → Image}
    (same : ∀ place item, image (make place item) = imageOf item) (items : List Item)
    (start : List Entry) :
    (items.foldl (fun made item => made ++ [make made.length item]) start).map image =
      start.map image ++ items.map imageOf := by
  induction items generalizing start with
  | nil => exact (List.append_nil _).symm
  | cons first rest inductionHypothesis =>
    rw [List.foldl_cons, inductionHypothesis, List.map_append, List.map_singleton, same,
      List.append_assoc, List.map_cons, List.singleton_append]

theorem length_foldl_append {Entry Item : Type} (make : Nat → Item → Entry) (items : List Item)
    (start : List Entry) :
    (items.foldl (fun made item => made ++ [make made.length item]) start).length =
      start.length + items.length := by
  induction items generalizing start with
  | nil => rfl
  | cons first rest inductionHypothesis =>
    rw [List.foldl_cons, inductionHypothesis, List.length_append, List.length_singleton,
      List.length_cons, Nat.add_assoc, Nat.add_comm 1]

/-- If nothing is dropped, every entry stays at its place. -/
theorem getElem?_filterMap {Entry Outcome : Type} {choose : Entry → Option Outcome}
    {entries : List Entry} (kept : ∀ entry ∈ entries, (choose entry).isSome) (place : Nat) :
    (entries.filterMap choose)[place]? = entries[place]?.bind choose := by
  induction entries generalizing place with
  | nil => rfl
  | cons first rest inductionHypothesis =>
    obtain ⟨outcome, chosen⟩ := Option.isSome_iff_exists.1 (kept first List.mem_cons_self)
    rw [List.filterMap_cons_some chosen]
    cases place with
    | zero => rw [List.getElem?_cons_zero, List.getElem?_cons_zero, Option.bind_some, chosen]
    | succ place =>
      rw [List.getElem?_cons_succ, List.getElem?_cons_succ]
      exact inductionHypothesis (fun entry member => kept entry (List.mem_cons_of_mem _ member))
        place

/-- If no two entries pass a test, at most one does. -/
theorem length_filter_le_one {Entry : Type} {test : Entry → Bool} {entries : List Entry}
    (apart : entries.Pairwise fun first second => test first = true → test second = false) :
    (entries.filter test).length ≤ 1 := by
  have apartPassed := apart.filter test
  match passed : entries.filter test with
  | [] => exact Nat.zero_le _
  | [_] => exact Nat.le_refl _
  | first :: second :: rest =>
    rw [passed, List.pairwise_cons] at apartPassed
    have allPass : ∀ entry ∈ first :: second :: rest, test entry = true := by
      rw [← passed]
      exact fun entry member => (List.mem_filter.1 member).2
    have secondMember : second ∈ first :: second :: rest :=
      List.mem_cons_of_mem _ List.mem_cons_self
    have fails := apartPassed.1 second List.mem_cons_self (allPass first List.mem_cons_self)
    exact absurd (allPass second secondMember) (Bool.eq_false_iff.1 fails)

/-- The first entry of a part of a list, if nothing that stands before the entry is in the part. -/
theorem head?_of_sublist {Entry : Type} {part before after : List Entry} {entry : Entry}
    (sublist : part.Sublist (before ++ entry :: after)) (member : entry ∈ part)
    (distinct : (before ++ entry :: after).Nodup) (noEarlier : ∀ earlier ∈ before, earlier ∉ part) :
    part.head? = some entry := by
  obtain ⟨first, second, rfl, inBefore, later⟩ := List.sublist_append_iff.1 sublist
  cases first with
  | cons earlier others =>
    exact absurd List.mem_cons_self (noEarlier earlier (inBefore.subset List.mem_cons_self))
  | nil =>
    rcases List.sublist_cons_iff.1 later with inAfter | ⟨rest, rfl, -⟩
    · exact absurd (inAfter.subset member) (List.nodup_cons.1 (List.nodup_append.1 distinct).2.1).1
    · rfl

/-- The list holds the numbers with a property, each once, by increasing number. -/
structure Enumerates (numbers : List Nat) (property : Nat → Prop) : Prop where
  increasing : numbers.Pairwise (· < ·)
  mem_iff : ∀ number, number ∈ numbers ↔ property number

theorem Enumerates.congr {numbers : List Nat} {property other : Nat → Prop}
    (enumerates : Enumerates numbers property) (same : ∀ number, property number ↔ other number) :
    Enumerates numbers other where
  increasing := enumerates.increasing
  mem_iff number := (enumerates.mem_iff number).trans (same number)

/-- A property is enumerated in one way only. -/
theorem Enumerates.unique {numbers others : List Nat} {property : Nat → Prop}
    (enumerates : Enumerates numbers property) (otherwise : Enumerates others property) :
    numbers = others :=
  enumerates.increasing.eq_of_mem_iff otherwise.increasing fun number =>
    (enumerates.mem_iff number).trans (otherwise.mem_iff number).symm

theorem pairwise_lt_mergeSort {numbers : List Nat} (distinct : numbers.Nodup) :
    numbers.mergeSort.Pairwise (· < ·) := by
  have ordered : numbers.mergeSort.Pairwise (· ≤ ·) := List.pairwise_mergeSort' (· ≤ ·) numbers
  have apart : numbers.mergeSort.Nodup := (List.mergeSort_perm numbers _).nodup_iff.2 distinct
  exact (ordered.and apart).imp fun both => Nat.lt_of_le_of_ne both.1 both.2

/-- Numbers that are read off different entries and sorted. -/
theorem enumerates_mergeSort {Entry : Type} {entries : List Entry} (distinct : entries.Nodup)
    {read : Entry → Option Nat} {write : Nat → Entry}
    (reads : ∀ entry number, read entry = some number ↔ entry = write number) :
    Enumerates (entries.filterMap read).mergeSort fun number => write number ∈ entries where
  increasing := by
    refine pairwise_lt_mergeSort (distinct.filterMap fun first second number ofFirst ofSecond => ?_)
    rw [(reads first number).1 ofFirst, (reads second number).1 ofSecond]
  mem_iff number := by
    simp [List.mem_mergeSort, List.mem_filterMap, reads]

/-- Sorting by merging inserts one entry after another, because it does not exchange entries that
precede each other. -/
theorem mergeSort_eq_insertionSort {Entry : Type} {precedes : Entry → Entry → Bool}
    (trans : ∀ first second third, precedes first second = true → precedes second third = true →
      precedes first third = true)
    (total : ∀ left right, (precedes left right || precedes right left) = true)
    (entries : List Entry) :
    entries.mergeSort precedes = entries.insertionSort (precedes · ·) := by
  induction entries with
  | nil => exact List.mergeSort_nil
  | cons entry rest inductionHypothesis =>
    obtain ⟨before, after, sorted, sortedRest, others⟩ :=
      List.mergeSort_cons trans total entry rest
    have ordered : (before ++ entry :: after).Pairwise
        fun left right => precedes left right = true :=
      sorted ▸ List.pairwise_mergeSort trans total (entry :: rest)
    have passed : ∀ other ∈ before, decide (¬ precedes entry other = true) = true :=
      fun other member => by simpa using others other member
    rw [List.insertionSort_cons, ← inductionHypothesis, sorted, sortedRest,
      List.orderedInsert_eq_take_drop, List.takeWhile_append_of_pos passed,
      List.dropWhile_append_of_pos passed]
    cases after with
    | nil => simp
    | cons next others =>
      have stops : precedes entry next = true :=
        (List.pairwise_cons.1 (List.pairwise_append.1 ordered).2.1).1 next List.mem_cons_self
      simp [stops]

end StagedBuilder.Lists
