/-
This file says in which order the inputs of a folder come and what changes if files are
left out. The inputs come in the order of their names, directory by directory, and no two
names are alike in this order. So without some files the other inputs come as before.
-/

import Mathlib.Data.List.Basic
import StagedBuilder.Proofs.Folder
import StagedBuilder.Proofs.Lists

namespace StagedBuilder.Folder

/-! ### The order of names -/

theorem orderNames_eq (left right : List String) :
    orderNames left right = List.compareLex compare left right := by
  induction left generalizing right with
  | nil => cases right <;> rfl
  | cons first rest inductionHypothesis =>
    cases right with
    | nil => rfl
    | cons other others =>
      rw [orderNames, List.compareLex, inductionHypothesis]
      cases compare first other <;> rfl

instance : Std.TransCmp orderNames := by
  rw [funext₂ orderNames_eq]
  infer_instance

instance : Std.LawfulEqCmp orderNames := by
  rw [funext₂ orderNames_eq]
  infer_instance

/-- Whether names come before others or are the same. -/
def comesBefore (left right : List String) : Bool := (orderNames left right).isLE

theorem comesBefore_trans (first second third : List String)
    (one : comesBefore first second = true) (two : comesBefore second third = true) :
    comesBefore first third = true := Std.TransCmp.isLE_trans one two

theorem comesBefore_total (first second : List String) :
    (comesBefore first second || comesBefore second first) = true := by
  have swapped : orderNames second first = (orderNames first second).swap :=
    Std.OrientedCmp.eq_swap
  rw [comesBefore, comesBefore, swapped]
  cases orderNames first second <;> rfl

theorem eq_of_comesBefore {first second : List String} (one : comesBefore first second = true)
    (two : comesBefore second first = true) : first = second :=
  Std.LawfulEqCmp.eq_of_compare (Std.OrientedCmp.isLE_antisymm one two)

/-- Names that are left out leave the others in order. -/
theorem mergeSort_filter (keep : List String → Bool) (ways : List (List String)) :
    (ways.filter keep).mergeSort comesBefore = (ways.mergeSort comesBefore).filter keep := by
  have sorted : ∀ ways : List (List String),
      (ways.mergeSort comesBefore).Pairwise fun left right => comesBefore left right = true :=
    List.pairwise_mergeSort comesBefore_trans comesBefore_total
  refine List.Perm.eq_of_pairwise (fun left right _ _ => eq_of_comesBefore) (sorted _)
    ((sorted ways).filter keep) ?_
  exact (List.mergeSort_perm _ _).trans ((List.mergeSort_perm _ _).filter keep).symm

/-! ### Inputs -/

/-- The names that lead from a place to the inputs below it, in order. -/
def inputWays (folder : Folder) (place : List String) : List (List String) :=
  ((folder.namesBelow place).filter isInput).mergeSort comesBefore

theorem inputsBelow_eq (folder : Folder) (root : String) (place : List String) :
    folder.inputsBelow root place =
      if excludedNames.contains (lastName root) then []
      else (folder.inputWays place).map (·.foldl join root) := rfl

theorem mem_inputWays {folder : Folder} {place way : List String} :
    way ∈ folder.inputWays place ↔ way ∈ folder.namesBelow place ∧ isInput way = true := by
  rw [inputWays, List.mem_mergeSort, List.mem_filter]

/-- The paths of the inputs are in the order of the names that lead from the root to them. -/
theorem exists_ways_of_inputs? {folder : Folder} {root : String} {paths : List String}
    (found : folder.inputs? root = some paths) :
    ∃ ways : List (List String), ways.Pairwise (fun left right => comesBefore left right = true) ∧
      paths = ways.map (·.foldl join root) := by
  rw [inputs?] at found
  split at found
  · cases found
    exact ⟨[[]], List.pairwise_singleton _ _, rfl⟩
  split at found
  · obtain ⟨place, -, rfl⟩ := Option.map_eq_some_iff.1 found
    rw [inputsBelow_eq]
    split
    · exact ⟨[], .nil, rfl⟩
    · exact ⟨_, List.pairwise_mergeSort comesBefore_trans comesBefore_total _, rfl⟩
  · cases found

/-- The names to an input end with the name of an input document. -/
theorem exists_getLast?_of_isInput {way : List String} (input : isInput way = true)
    (place : List String) :
    ∃ name, (place ++ way).getLast? = some name ∧ isInputName name = true := by
  rw [isInput, Bool.and_eq_true] at input
  cases last : way.getLast? with
  | none =>
    rw [last] at input
    exact absurd input.1 Bool.false_ne_true
  | some name =>
    rw [last] at input
    refine ⟨name, ?_, input.1⟩
    rw [List.getLast?_append, last, Option.some_or]

/-! ### Files left out -/

/-- The smaller folder has the files of the folder that are not dropped, and all directories. -/
structure Without (folder : Folder) (dropped : List String → Bool) (smaller : Folder) : Prop where
  files : smaller.files = folder.files.filter fun file => !dropped file.1
  directories : ∀ names, smaller.hasDirectory names = folder.hasDirectory names

namespace Without

variable {folder smaller : Folder} {dropped : List String → Bool}

theorem lookup_filter (files : List (List String × Option String)) {names : List String}
    (kept : dropped names = false) :
    (files.filter fun file => !dropped file.1).lookup names = files.lookup names := by
  induction files with
  | nil => rfl
  | cons file rest inductionHypothesis =>
    obtain ⟨other, text⟩ := file
    by_cases same : names = other
    · subst same
      rw [List.filter_cons_of_pos (by rw [kept]; rfl), List.lookup_cons_self,
        List.lookup_cons_self]
    · have passed : (names == other) = false := beq_eq_false_iff_ne.2 same
      rw [List.lookup_cons, passed]
      cases isDropped : dropped other with
      | true => rw [List.filter_cons_of_neg (by rw [isDropped]; decide), inductionHypothesis]
      | false =>
        rw [List.filter_cons_of_pos (by rw [isDropped]; rfl), List.lookup_cons, passed,
          inductionHypothesis]

section

variable (without : folder.Without dropped smaller) {path : String}
  (kept : ∀ place, folder.place? path = some place → dropped place = false)

include without

theorem place?_eq (path : String) : smaller.place? path = folder.place? path :=
  place?_congr without.directories path

theorem isDirectory_eq (path : String) : smaller.isDirectory path = folder.isDirectory path :=
  isDirectory_congr without.directories path

include kept

/-- What is not dropped holds what it held. -/
theorem text?_eq : smaller.text? path = folder.text? path := by
  rw [text?, text?, without.place?_eq]
  cases leads : folder.place? path with
  | none => rfl
  | some place =>
    show (smaller.files.lookup place).join = (folder.files.lookup place).join
    rw [without.files, lookup_filter _ (kept place leads)]

theorem isFile_eq : smaller.isFile path = folder.isFile path := by
  rw [isFile, isFile, without.place?_eq]
  cases leads : folder.place? path with
  | none => rfl
  | some place =>
    show (smaller.files.lookup place).isSome = (folder.files.lookup place).isSome
    rw [without.files, lookup_filter _ (kept place leads)]

theorem holds_eq : smaller.holds path = folder.holds path := by
  rw [holds, holds, without.isFile_eq kept, without.isDirectory_eq]

end

/-- The inputs that are left come in the same order. -/
theorem inputWays_eq (without : folder.Without dropped smaller) (place : List String) :
    smaller.inputWays place =
      (folder.inputWays place).filter fun way => !dropped (place ++ way) := by
  have below : smaller.namesBelow place =
      (folder.namesBelow place).filter fun way => !dropped (place ++ way) := by
    rw [namesBelow, namesBelow, without.files, List.filterMap_filter, List.filter_filterMap]
    refine List.filterMap_congr fun file _ => ?_
    obtain ⟨names, text⟩ := file
    dsimp only
    split
    · next kept =>
      split
      · next below =>
        obtain ⟨rest, rfl⟩ := List.isPrefixOf_iff_prefix.1 (Bool.and_eq_true_iff.1 below).1
        rw [List.drop_left, Option.filter_some, if_pos kept]
      · rfl
    · next isDropped =>
      split
      · next below =>
        obtain ⟨rest, rfl⟩ := List.isPrefixOf_iff_prefix.1 (Bool.and_eq_true_iff.1 below).1
        rw [List.drop_left, Option.filter_some, if_neg isDropped]
      · rfl
  rw [inputWays, inputWays, ← mergeSort_filter, below, List.filter_filter, List.filter_filter]
  exact congrArg (List.mergeSort · comesBefore)
    (List.filter_congr fun way _ => Bool.and_comm _ _)

end Without

end StagedBuilder.Folder
