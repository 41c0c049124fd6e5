/-
This file says where a path leads that is put together name by name. If a path leads to a
directory, the path with a name after it leads to what this directory lists under the
name, whether or not the path ends with a slash. So the files below a directory are found
again at the paths that are made for them.

Where paths lead depends on the directories of a folder only, and not on its files.
-/

import Mathlib.Data.List.Basic
import StagedBuilder.Files.Inputs

namespace StagedBuilder

/-! ### Parts of a text -/

section

variable {separator : Char}

theorem partsAt_ne_nil (text : List Char) : partsAt separator text ≠ [] := by
  cases text with
  | nil => exact List.cons_ne_nil _ _
  | cons character rest =>
    rw [partsAt]
    split
    · exact List.cons_ne_nil _ _
    · split <;> exact List.cons_ne_nil _ _

/-- A separator ends one part and begins another. -/
theorem partsAt_append_cons (front back : List Char) :
    partsAt separator (front ++ separator :: back) =
      partsAt separator front ++ partsAt separator back := by
  induction front with
  | nil =>
    show (if separator = separator then _ else _) = _
    rw [if_pos rfl]
    rfl
  | cons character rest inductionHypothesis =>
    rw [List.cons_append, partsAt, partsAt, inductionHypothesis]
    split
    · rfl
    · cases parts : partsAt separator rest with
      | nil => exact absurd parts (partsAt_ne_nil rest)
      | cons first others => rfl

theorem partsAt_of_notMem {text : List Char} (without : separator ∉ text) :
    partsAt separator text = [text] := by
  induction text with
  | nil => rfl
  | cons character rest inductionHypothesis =>
    obtain ⟨differ, withoutRest⟩ := List.ne_and_not_mem_of_not_mem_cons without
    rw [partsAt, if_neg differ.symm, inductionHypothesis withoutRest]

end

namespace Folder

/-! ### Written names -/

/-- A name that a directory lists is a name and neither of the points. -/
theorem of_isListable {name : String} (listable : isListable name = true) :
    name ≠ "" ∧ name ≠ "." ∧ name ≠ ".." ∧ '/' ∉ name.toList := by
  simp only [isListable, Bool.and_eq_true, decide_eq_true_eq, Bool.not_eq_true',
    List.contains_eq_mem, decide_eq_false_iff_not] at listable
  obtain ⟨⟨⟨notEmpty, notPoint⟩, notPoints⟩, noSlash⟩ := listable
  exact ⟨notEmpty, notPoint, notPoints, noSlash⟩

theorem writtenNames_ne_nil (path : String) : writtenNames path ≠ [] :=
  fun nothing => partsAt_ne_nil path.toList (List.map_eq_nil_iff.1 nothing)

/-- The names of a path, without the empty one behind a slash at its end. -/
def pathNames (path : String) : List String :=
  if path.toList.getLast? = some '/' then (writtenNames path).dropLast else writtenNames path

theorem writtenNames_of_slash {path : String} {front : List Char}
    (isPath : path.toList = front ++ ['/']) :
    writtenNames path = (partsAt '/' front).map String.ofList ++ [""] := by
  rw [writtenNames, isPath, partsAt_append_cons, List.map_append]
  rfl

theorem pathNames_of_slash {path : String} {front : List Char}
    (isPath : path.toList = front ++ ['/']) :
    pathNames path = (partsAt '/' front).map String.ofList := by
  rw [pathNames, if_pos (by rw [isPath, List.getLast?_concat]), writtenNames_of_slash isPath,
    List.dropLast_concat]

/-- The empty name behind a slash at the end is all that is left out. -/
theorem writtenNames_cases (path : String) :
    writtenNames path = pathNames path ∨ writtenNames path = pathNames path ++ [""] := by
  by_cases ends : path.toList.getLast? = some '/'
  · obtain ⟨front, isPath⟩ := List.getLast?_eq_some_iff.1 ends
    exact .inr (by rw [writtenNames_of_slash isPath, pathNames_of_slash isPath])
  · exact .inl (if_neg ends).symm

theorem pathNames_ne_nil (path : String) : pathNames path ≠ [] := by
  by_cases ends : path.toList.getLast? = some '/'
  · obtain ⟨front, isPath⟩ := List.getLast?_eq_some_iff.1 ends
    rw [pathNames_of_slash isPath]
    exact fun nothing => partsAt_ne_nil front (List.map_eq_nil_iff.1 nothing)
  · rw [pathNames, if_neg ends]
    exact writtenNames_ne_nil path

/-- A path with a name after it is written as the path, without the empty name behind a slash at
its end, and the name. -/
theorem writtenNames_join {path name : String} (notEmpty : path ≠ "")
    (noSlash : '/' ∉ name.toList) :
    writtenNames (join path name) = pathNames path ++ [name] := by
  have ofName : (partsAt '/' name.toList).map String.ofList = [name] := by
    rw [partsAt_of_notMem noSlash, List.map_singleton, String.ofList_toList]
  by_cases ends : path.toList.getLast? = some '/'
  · obtain ⟨front, isPath⟩ := List.getLast?_eq_some_iff.1 ends
    rw [pathNames_of_slash isPath, writtenNames, join, if_pos (.inr ends), String.toList_append,
      isPath, List.append_assoc, List.singleton_append, partsAt_append_cons, List.map_append,
      ofName]
  · have whole : (path ++ "/" ++ name).toList = path.toList ++ '/' :: name.toList := by
      rw [String.toList_append, String.toList_append, List.append_assoc]
      rfl
    rw [pathNames, if_neg ends, writtenNames, join, if_neg (not_or.2 ⟨notEmpty, ends⟩), whole,
      partsAt_append_cons, List.map_append, ofName]
    rfl

/-- Every path with a name after it is written with the name at the end. -/
theorem exists_writtenNames_join (path : String) {name : String} (noSlash : '/' ∉ name.toList) :
    ∃ front, writtenNames (join path name) = front ++ [name] := by
  by_cases empty : path = ""
  · refine ⟨[], ?_⟩
    rw [join, if_pos (.inl empty), empty, String.empty_append, writtenNames,
      partsAt_of_notMem noSlash, List.map_singleton, String.ofList_toList]
    rfl
  · exact ⟨pathNames path, writtenNames_join empty noSlash⟩

/-! ### Following names -/

variable {folder : Folder}

/-- The place that written names lead to, from the top if the first one is empty. -/
def followAll? (folder : Folder) : List String → Option (List String)
  | "" :: rest => rest.foldlM folder.follow? [""]
  | written => written.foldlM folder.follow? []

theorem place?_eq (folder : Folder) (path : String) :
    folder.place? path =
      if writtenNames path = [""] then none else folder.followAll? (writtenNames path) := by
  unfold place? followAll?
  split <;> simp_all

theorem foldlM_follow?_singleton (names : List String) (name : String) :
    [name].foldlM folder.follow? names = folder.follow? names name := by
  rw [List.foldlM_cons]
  exact bind_pure _

theorem followAll?_append_singleton {front : List String} (inhabited : front ≠ [])
    (name : String) :
    folder.followAll? (front ++ [name]) =
      (folder.followAll? front).bind fun names => folder.follow? names name := by
  have folded : ∀ (rest : List String) (names : List String),
      (rest ++ [name]).foldlM folder.follow? names =
        (rest.foldlM folder.follow? names).bind fun names => folder.follow? names name := by
    intro rest names
    rw [List.foldlM_append]
    exact congrArg (Option.bind _) (funext fun last => foldlM_follow?_singleton last name)
  cases front with
  | nil => exact absurd rfl inhabited
  | cons first rest =>
    by_cases empty : first = ""
    · rw [empty]
      exact folded rest [""]
    · have plain : ∀ others, folder.followAll? (first :: others) =
          (first :: others).foldlM folder.follow? [] := by
        intro others
        unfold followAll?
        split
        · next same => exact absurd (List.cons.inj same).1 empty
        · rfl
      rw [List.cons_append, plain, plain]
      exact folded (first :: rest) []

theorem follow?_of_isListable {names : List String} {name : String}
    (listable : isListable name = true) :
    folder.follow? names name =
      if folder.hasDirectory names then some (names ++ [name]) else none := by
  obtain ⟨notEmpty, notPoint, notPoints, -⟩ := of_isListable listable
  rw [follow?, if_neg (not_or.2 ⟨notEmpty, notPoint⟩), if_neg notPoints]
  cases folder.hasDirectory names <;> rfl

/-- An empty name stays in a directory. -/
theorem eq_of_follow?_empty {names place : List String}
    (followed : folder.follow? names "" = some place) :
    folder.hasDirectory names = true ∧ place = names := by
  rw [follow?] at followed
  cases isDirectory : folder.hasDirectory names with
  | false =>
    rw [isDirectory] at followed
    cases followed
  | true =>
    rw [isDirectory] at followed
    exact ⟨rfl, (Option.some.inj followed).symm⟩

/-- From a directory a listed name leads to what is listed. -/
theorem place?_join {path name : String} {place : List String}
    (leads : folder.place? path = some place) (directory : folder.hasDirectory place = true)
    (listable : isListable name = true) :
    folder.place? (join path name) = some (place ++ [name]) := by
  obtain ⟨nameNotEmpty, -, -, noSlash⟩ := of_isListable listable
  have notEmpty : path ≠ "" := by
    rintro rfl
    cases leads
  have inhabited := pathNames_ne_nil path
  have written := writtenNames_join notEmpty noSlash
  have notAlone : writtenNames (join path name) ≠ [""] := by
    rw [written]
    intro alone
    cases front : pathNames path with
    | nil => exact inhabited front
    | cons first rest =>
      rw [front] at alone
      exact absurd (List.cons.inj alone).2 (by simp)
  have followed :
      (folder.followAll? (pathNames path)).bind (fun names => folder.follow? names name) =
        some (place ++ [name]) := by
    rw [place?_eq] at leads
    split at leads
    · cases leads
    rcases writtenNames_cases path with same | slash
    · rw [same] at leads
      rw [leads, Option.bind_some, follow?_of_isListable listable, if_pos directory]
    · rw [slash, followAll?_append_singleton inhabited] at leads
      obtain ⟨names, atNames, stays⟩ := Option.bind_eq_some_iff.1 leads
      obtain ⟨-, rfl⟩ := eq_of_follow?_empty stays
      rw [atNames, Option.bind_some, follow?_of_isListable listable, if_pos directory]
  rw [place?_eq, if_neg notAlone, written, followAll?_append_singleton inhabited, followed]

/-- From a directory listed names lead one after another to what is below it. -/
theorem place?_foldl_join {path : String} {place way : List String}
    (leads : folder.place? path = some place)
    (directories : ∀ front name rest, way = front ++ name :: rest →
      folder.hasDirectory (place ++ front) = true)
    (listable : ∀ name ∈ way, isListable name = true) :
    folder.place? (way.foldl join path) = some (place ++ way) := by
  induction way generalizing path place with
  | nil => rw [List.foldl_nil, leads, List.append_nil]
  | cons name rest inductionHypothesis =>
    obtain ⟨ofName, ofRest⟩ := List.forall_mem_cons.1 listable
    have here : folder.hasDirectory place = true := by
      have first := directories [] name rest rfl
      rwa [List.append_nil] at first
    have step := place?_join leads here ofName
    rw [List.foldl_cons, inductionHypothesis step ?_ ofRest, List.append_assoc,
      List.singleton_append]
    rintro front other further rfl
    rw [List.append_assoc]
    exact directories (name :: front) other further rfl

/-- A path that is written with a listed name at its end leads to a place with this name. -/
theorem getLast?_of_place? {path name : String} {place : List String}
    (listable : isListable name = true) (leads : folder.place? (join path name) = some place) :
    place.getLast? = some name := by
  obtain ⟨notEmpty, -, -, noSlash⟩ := of_isListable listable
  obtain ⟨front, written⟩ := exists_writtenNames_join path noSlash
  have ofFollowed : ∀ names, folder.follow? names name = some place →
      place.getLast? = some name := by
    intro names followed
    rw [follow?_of_isListable listable] at followed
    split at followed
    · cases followed
      exact List.getLast?_concat
    · cases followed
  rw [place?_eq] at leads
  split at leads
  · cases leads
  rw [written] at leads
  cases front with
  | nil =>
    have alone : folder.followAll? [name] = folder.follow? [] name := by
      unfold followAll?
      split
      · next same => exact absurd (List.cons.inj same).1 notEmpty
      · exact foldlM_follow?_singleton [] name
    rw [List.nil_append, alone] at leads
    exact ofFollowed [] leads
  | cons first rest =>
    rw [followAll?_append_singleton (List.cons_ne_nil _ _)] at leads
    obtain ⟨names, -, followed⟩ := Option.bind_eq_some_iff.1 leads
    exact ofFollowed names followed

/-! ### Files below a place -/

/-- On the way to a file there are directories. -/
theorem hasDirectory_of_file {front rest : List String} {name : String}
    (member : front ++ name :: rest ∈ folder.files.map Prod.fst) :
    folder.hasDirectory front = true := by
  have listed : front ++ name :: rest ∈ folder.listed := List.mem_append_left _ member
  have onTheWay : (front.isPrefixOf (front ++ name :: rest) &&
      front.length < (front ++ name :: rest).length) = true := by
    rw [Bool.and_eq_true, List.isPrefixOf_iff_prefix, decide_eq_true_eq, List.length_append,
      List.length_cons]
    exact ⟨List.prefix_append _ _, Nat.lt_add_of_pos_right (Nat.succ_pos _)⟩
  rw [hasDirectory, Bool.or_eq_true]
  exact .inr (List.any_eq_true.2 ⟨_, listed, onTheWay⟩)

/-- The ways to files below a place are listed names that lead to files. -/
theorem mem_namesBelow {place way : List String} :
    way ∈ folder.namesBelow place ↔
      place ++ way ∈ folder.files.map Prod.fst ∧ ∀ name ∈ way, isListable name = true := by
  rw [namesBelow, List.mem_filterMap]
  constructor
  · rintro ⟨⟨names, text⟩, member, found⟩
    dsimp only at found
    split at found
    · next below =>
      obtain ⟨begins, listable⟩ := Bool.and_eq_true_iff.1 below
      obtain ⟨rest, rfl⟩ := List.isPrefixOf_iff_prefix.1 begins
      rw [List.drop_left] at found listable
      cases found
      exact ⟨List.mem_map_of_mem member, List.all_eq_true.1 listable⟩
    · cases found
  · rintro ⟨member, listable⟩
    obtain ⟨⟨names, text⟩, isFile, rfl⟩ := List.mem_map.1 member
    refine ⟨_, isFile, ?_⟩
    dsimp only
    rw [List.drop_left, if_pos]
    rw [Bool.and_eq_true]
    exact ⟨List.isPrefixOf_iff_prefix.2 (List.prefix_append _ _), List.all_eq_true.2 listable⟩

/-- The path that is made for a file below a place leads to the file. -/
theorem place?_of_mem_namesBelow {path : String} {place way : List String}
    (leads : folder.place? path = some place) (below : way ∈ folder.namesBelow place) :
    folder.place? (way.foldl join path) = some (place ++ way) := by
  obtain ⟨member, listable⟩ := mem_namesBelow.1 below
  refine place?_foldl_join leads (fun front name rest isWay => ?_) listable
  rw [isWay, ← List.append_assoc] at member
  exact hasDirectory_of_file member

/-! ### Other files in the same directories -/

section

variable {other : Folder}
  (same : ∀ names, other.hasDirectory names = folder.hasDirectory names)

include same

/-- Where paths lead depends on the directories only. -/
theorem place?_congr (path : String) : other.place? path = folder.place? path := by
  have follows : other.follow? = folder.follow? := by
    funext names written
    rw [follow?, follow?, same]
  unfold place?
  rw [follows]

theorem isDirectory_congr (path : String) : other.isDirectory path = folder.isDirectory path := by
  have directories : other.hasDirectory = folder.hasDirectory := funext same
  rw [isDirectory, isDirectory, place?_congr same, directories]

end

end Folder

end StagedBuilder
