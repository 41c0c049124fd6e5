/-
This file proves that the inputs below a directory are what a walk of the directory
finds, in whatever order it comes to things.

A walk begins at the directory and goes on from every directory it comes to, to all that
is listed there. A directory that is never searched is left out with everything below it.
What counts of a walk is only what it comes to: the files with the names of inputs are
picked out and their paths are sorted, and no two of them are alike, so the order of the
walk is forgotten.

Below the first directory this is as it should be: a file is come to exactly if none of
the directories between the first one and the file is left out. But the first directory
itself is looked at in the same way as all the others. A walk of a directory that is
called like one that is never searched comes to nothing, though it was asked for.
-/

import Mathlib.Data.Set.Finite.Basic
import StagedBuilder.Proofs.Inputs

namespace StagedBuilder.Folder

/-! ### Trees -/

/-- The files of a folder have different places, and no file is a directory. -/
structure IsTree (folder : Folder) : Prop where
  distinct : (folder.files.map Prod.fst).Nodup
  apart : ∀ names ∈ folder.files.map Prod.fst, folder.hasDirectory names = false

variable {folder : Folder} {root : String} {place : List String}

theorem hasFile_iff {names : List String} :
    folder.hasFile names = true ↔ names ∈ folder.files.map Prod.fst := by
  rw [hasFile, List.lookup_isSome_iff, List.mem_map]
  refine exists_congr fun file => and_congr_right fun _ => ?_
  rw [beq_iff_eq, eq_comm]

/-- No way to a file below a place is listed twice. -/
theorem IsTree.nodup_namesBelow (tree : folder.IsTree) (place : List String) :
    (folder.namesBelow place).Nodup := by
  have whole : ∀ (names way : List String),
      (if place.isPrefixOf names && (names.drop place.length).all isListable then
        some (names.drop place.length) else none) = some way → names = place ++ way := by
    intro names way found
    split at found
    · next below =>
      obtain ⟨rest, rfl⟩ := List.isPrefixOf_iff_prefix.1 (Bool.and_eq_true_iff.1 below).1
      rw [List.drop_left, Option.some.injEq] at found
      rw [found]
    · cases found
  refine (List.pairwise_map.1 tree.distinct).filterMap _ ?_
  rintro ⟨left, _⟩ ⟨right, _⟩ differ way leftFound other rightFound rfl
  exact differ ((whole left way leftFound).trans (whole right way rightFound).symm)

/-! ### Walks -/

/-- What a walk comes to, as the names that lead there from the place where it begins. It goes
through directories and leaves out those that are never searched, itself included if the name
under which it begins is that of one. -/
inductive Visits (folder : Folder) (rootName : String) (place : List String) :
    List String → Prop
  | start (searched : rootName ∉ excludedNames) : Visits folder rootName place []
  | onward {way : List String} {name : String} (visits : Visits folder rootName place way)
      (inside : folder.hasDirectory (place ++ way) = true) (listable : isListable name = true)
      (there : folder.hasFile (place ++ (way ++ [name])) = true ∨
        folder.hasDirectory (place ++ (way ++ [name])) = true)
      (searched : folder.hasDirectory (place ++ (way ++ [name])) = true →
        name ∉ excludedNames) :
      Visits folder rootName place (way ++ [name])

/-- A walk from a root comes to everything once, in any order. -/
structure Walks (folder : Folder) (root : String) (place : List String)
    (walked : List (List String)) : Prop where
  once : walked.Nodup
  mem_iff : ∀ way, way ∈ walked ↔ folder.Visits (lastName root) place way

/-- Paths are compared name by name. -/
def pathComesBefore (left right : String) : Bool :=
  comesBefore (pathNames left) (pathNames right)

/-- The paths of the inputs that a walk from a root comes to, sorted. -/
def gather (folder : Folder) (root : String) (place : List String)
    (walked : List (List String)) : List String :=
  ((walked.filter fun way =>
      folder.hasFile (place ++ way) && way.getLast?.any isInputName).map
    (·.foldl join root)).mergeSort pathComesBefore

/-- The file at the end of the names is an input, and no directory on the way to it is one that is
never searched. -/
structure IsInputBelow (folder : Folder) (place way : List String) : Prop where
  listable : ∀ name ∈ way, isListable name = true
  file : folder.hasFile (place ++ way) = true
  ending : ∃ name, way.getLast? = some name ∧ isInputName name = true
  searched : ∀ name ∈ way.dropLast, name ∉ excludedNames

/-! ### What a walk comes to -/

/-- Everything that a walk comes to is listed, and no directory that it has gone through is left
out. -/
theorem Visits.searched {rootName : String} {way : List String}
    (visits : folder.Visits rootName place way) :
    rootName ∉ excludedNames ∧ (∀ name ∈ way, isListable name = true) ∧
      (∀ name ∈ way.dropLast, name ∉ excludedNames) ∧
        (folder.hasDirectory (place ++ way) = true → ∀ name ∈ way, name ∉ excludedNames) := by
  induction visits with
  | start searched =>
    exact ⟨searched, fun _ member => absurd member List.not_mem_nil,
      fun _ member => absurd member List.not_mem_nil,
      fun _ _ member => absurd member List.not_mem_nil⟩
  | @onward way last visits inside listable there searched inductionHypothesis =>
    obtain ⟨rootSearched, allListable, -, allSearched⟩ := inductionHypothesis
    refine ⟨rootSearched, fun name member => ?_, ?_, fun directory name member => ?_⟩
    · rcases List.mem_append.1 member with before | isLast
      · exact allListable name before
      · exact List.mem_singleton.1 isLast ▸ listable
    · rw [List.dropLast_concat]
      exact allSearched inside
    · rcases List.mem_append.1 member with before | isLast
      · exact allSearched inside name before
      · exact List.mem_singleton.1 isLast ▸ searched directory

/-- A walk comes to everything on the way to a file, if it does not leave out a directory there. -/
theorem visits_of_front (tree : folder.IsTree) {rootName : String}
    (searched : rootName ∉ excludedNames) {way : List String}
    (file : place ++ way ∈ folder.files.map Prod.fst)
    (listable : ∀ name ∈ way, isListable name = true)
    (allSearched : ∀ name ∈ way.dropLast, name ∉ excludedNames) :
    folder.Visits rootName place way := by
  have onTheWay : ∀ front, front <+: way → folder.Visits rootName place front := by
    intro front
    induction front using List.reverseRecOn with
    | nil => exact fun _ => .start searched
    | append_singleton front name inductionHypothesis =>
      rintro ⟨rest, rfl⟩
      have before := inductionHypothesis ((List.prefix_append _ _).trans (List.prefix_append _ _))
      have inside : folder.hasDirectory (place ++ front) = true := by
        have listed : (place ++ front) ++ name :: rest ∈ folder.files.map Prod.fst := by
          simpa using file
        exact hasDirectory_of_file listed
      refine .onward before inside (listable name (by simp)) ?_ ?_
      · cases rest with
        | nil => exact .inl (hasFile_iff.2 (by simpa using file))
        | cons next others =>
          have listed : (place ++ (front ++ [name])) ++ next :: others ∈
              folder.files.map Prod.fst := by
            simpa using file
          exact .inr (hasDirectory_of_file listed)
      · intro directory
        cases rest with
        | nil =>
          have notDirectory := tree.apart _ file
          rw [List.append_nil, directory] at notDirectory
          cases notDirectory
        | cons next others =>
          refine allSearched name ?_
          rw [List.dropLast_append_cons]
          exact List.mem_append_left _ (by simp)
  exact onTheWay way (List.prefix_refl way)

/-- The files with the names of inputs that a walk comes to are the inputs below the place. -/
theorem visits_and_input_iff (tree : folder.IsTree) {rootName : String} {way : List String} :
    folder.Visits rootName place way ∧ folder.hasFile (place ++ way) = true ∧
        way.getLast?.any isInputName = true ↔
      rootName ∉ excludedNames ∧ way ∈ folder.namesBelow place ∧ isInput way = true := by
  have searched_iff : (!way.dropLast.any excludedNames.contains) = true ↔
      ∀ name ∈ way.dropLast, name ∉ excludedNames := by
    simp
  rw [mem_namesBelow, isInput, Bool.and_eq_true, searched_iff, hasFile_iff]
  constructor
  · rintro ⟨visits, file, ending⟩
    obtain ⟨searched, listable, allSearched, -⟩ := visits.searched
    exact ⟨searched, ⟨file, listable⟩, ending, allSearched⟩
  · rintro ⟨searched, ⟨file, listable⟩, ending, allSearched⟩
    exact ⟨visits_of_front tree searched file listable allSearched, file, ending⟩

theorem isInputBelow_iff {way : List String} :
    folder.IsInputBelow place way ↔ way ∈ folder.inputWays place := by
  rw [mem_inputWays, mem_namesBelow, isInput, Bool.and_eq_true, ← hasFile_iff]
  constructor
  · rintro ⟨listable, file, ⟨name, last, ending⟩, searched⟩
    exact ⟨⟨file, listable⟩, by rw [last]; exact ending, by simpa using searched⟩
  · rintro ⟨⟨file, listable⟩, ending, searched⟩
    exact ⟨listable, file, by simpa [Option.any_eq_true] using ending, by simpa using searched⟩

theorem exists_listed_of_hasDirectory {names : List String} (notEmpty : names ≠ [])
    (directory : folder.hasDirectory names = true) : ∃ other ∈ folder.listed, names <+: other := by
  rw [hasDirectory, Bool.or_eq_true, Bool.or_eq_true, decide_eq_true_eq, List.contains_iff_mem]
    at directory
  rcases directory with (top | isListed) | onTheWay
  · exact absurd top notEmpty
  · exact ⟨names, List.mem_append_right _ isListed, List.prefix_rfl⟩
  · obtain ⟨other, member, before⟩ := List.any_eq_true.1 onTheWay
    exact ⟨other, member, List.isPrefixOf_iff_prefix.1 (Bool.and_eq_true_iff.1 before).1⟩

/-- There is a walk: what it comes to is on the way to something listed. -/
theorem exists_walks (folder : Folder) (root : String) (place : List String) :
    ∃ walked, folder.Walks root place walked := by
  have onTheWay : ∀ way, folder.Visits (lastName root) place way →
      way ∈ [] :: (folder.listed.map (·.drop place.length)).flatMap List.inits := by
    intro way visits
    cases visits with
    | start => exact List.mem_cons_self
    | @onward front name _ _ _ there _ =>
      obtain ⟨other, member, begins⟩ :
          ∃ other ∈ folder.listed, place ++ (front ++ [name]) <+: other := by
        rcases there with file | directory
        · exact ⟨_, List.mem_append_left _ (hasFile_iff.1 file), List.prefix_rfl⟩
        · exact exists_listed_of_hasDirectory (by simp) directory
      obtain ⟨rest, rfl⟩ := begins
      refine List.mem_cons_of_mem _ (List.mem_flatMap.2 ⟨_, List.mem_map_of_mem member, ?_⟩)
      rw [List.append_assoc, List.drop_left]
      exact (List.mem_inits _ _).2 (List.prefix_append _ _)
  have finite : {way | folder.Visits (lastName root) place way}.Finite :=
    (List.finite_toSet _).subset onTheWay
  obtain ⟨visited, same⟩ := finite.exists_finset
  exact ⟨visited.toList, visited.nodup_toList, fun way => Finset.mem_toList.trans (same way)⟩

/-! ### Paths -/

theorem pathNames_join {path name : String} (notEmpty : path ≠ "")
    (listable : isListable name = true) :
    join path name ≠ "" ∧ pathNames (join path name) = pathNames path ++ [name] := by
  obtain ⟨nameNotEmpty, -, -, noSlash⟩ := of_isListable listable
  have written := writtenNames_join notEmpty noSlash
  constructor
  · intro empty
    have alone : [] ++ [""] = pathNames path ++ [name] := by
      rw [← written, empty]
      rfl
    exact pathNames_ne_nil path (List.append_inj' alone rfl).1.symm
  · rcases writtenNames_cases (join path name) with same | slash
    · rw [← same, written]
    · have sameLast := (List.append_inj' (written.symm.trans slash) rfl).2
      exact absurd (List.cons.inj sameLast).1 nameNotEmpty

/-- The names of a path that is put together are those of its beginning and those that were put
behind. -/
theorem pathNames_foldl_join {path : String} (notEmpty : path ≠ "") {way : List String}
    (listable : ∀ name ∈ way, isListable name = true) :
    pathNames (way.foldl join path) = pathNames path ++ way := by
  induction way generalizing path with
  | nil => exact (List.append_nil _).symm
  | cons name rest inductionHypothesis =>
    obtain ⟨ofName, ofRest⟩ := List.forall_mem_cons.1 listable
    obtain ⟨joinedNotEmpty, joined⟩ := pathNames_join notEmpty ofName
    rw [List.foldl_cons, inductionHypothesis joinedNotEmpty ofRest, joined, List.append_assoc,
      List.singleton_append]

theorem orderNames_append (front left right : List String) :
    orderNames (front ++ left) (front ++ right) = orderNames left right := by
  induction front with
  | nil => rfl
  | cons first rest inductionHypothesis =>
    have same : compare first first = .eq := Std.ReflCmp.compare_self
    rw [List.cons_append, List.cons_append, orderNames, same, inductionHypothesis]
    rfl

theorem pathComesBefore_foldl_join {path : String} (notEmpty : path ≠ "") {left right : List String}
    (ofLeft : ∀ name ∈ left, isListable name = true)
    (ofRight : ∀ name ∈ right, isListable name = true) :
    pathComesBefore (left.foldl join path) (right.foldl join path) = comesBefore left right := by
  rw [pathComesBefore, pathNames_foldl_join notEmpty ofLeft, pathNames_foldl_join notEmpty ofRight,
    comesBefore, orderNames_append]
  rfl

/-! ### Inputs -/

theorem listable_of_mem_inputWays {way : List String} (member : way ∈ folder.inputWays place) :
    ∀ name ∈ way, isListable name = true :=
  (mem_namesBelow.1 (mem_inputWays.1 member).1).2

theorem sorted_inputWays (folder : Folder) (place : List String) :
    (folder.inputWays place).Pairwise fun left right => comesBefore left right = true :=
  List.pairwise_mergeSort comesBefore_trans comesBefore_total _

theorem sorted_gather (folder : Folder) (root : String) (place : List String)
    (walked : List (List String)) : (folder.gather root place walked).Pairwise fun left right =>
      pathComesBefore left right = true :=
  List.pairwise_mergeSort (fun first second third => comesBefore_trans (pathNames first)
    (pathNames second) (pathNames third)) (fun first second => comesBefore_total (pathNames first)
      (pathNames second)) _

/-- The ways to the inputs are in order, and no two of them are alike. -/
theorem IsTree.pairwise_inputWays (tree : folder.IsTree) (place : List String) :
    (folder.inputWays place).Pairwise fun left right => orderNames left right = .lt := by
  have distinct : (folder.inputWays place).Nodup :=
    (List.mergeSort_perm _ _).nodup_iff.2 ((tree.nodup_namesBelow place).filter _)
  refine ((sorted_inputWays folder place).and distinct).imp fun {left right} ⟨before, differ⟩ => ?_
  cases order : orderNames left right with
  | lt => rfl
  | eq => exact absurd (Std.LawfulEqCmp.eq_of_compare order) differ
  | gt =>
    rw [comesBefore, order] at before
    cases before

/-- What is gathered from a walk of a directory that is searched are the inputs in order. -/
theorem Walks.gather_eq {walked : List (List String)} (walks : folder.Walks root place walked)
    (tree : folder.IsTree) (notEmpty : root ≠ "") (searched : lastName root ∉ excludedNames) :
    folder.gather root place walked = (folder.inputWays place).map (·.foldl join root) := by
  have sameWays : (walked.filter fun way =>
      folder.hasFile (place ++ way) && way.getLast?.any isInputName).Perm
        (folder.inputWays place) := by
    refine List.Perm.trans ?_ (List.mergeSort_perm _ _).symm
    refine (List.perm_ext_iff_of_nodup (walks.once.filter _)
      ((tree.nodup_namesBelow place).filter _)).2 fun way => ?_
    rw [List.mem_filter, List.mem_filter, walks.mem_iff, Bool.and_eq_true,
      visits_and_input_iff tree, and_iff_right searched]
  have keepsOrder : ∀ left ∈ folder.inputWays place, ∀ right ∈ folder.inputWays place,
      pathComesBefore (left.foldl join root) (right.foldl join root) = comesBefore left right :=
    fun left isLeft right isRight => pathComesBefore_foldl_join notEmpty
      (listable_of_mem_inputWays isLeft) (listable_of_mem_inputWays isRight)
  refine List.Perm.eq_of_pairwise ?_ (sorted_gather folder root place walked) ?_ ?_
  · intro left right isLeft isRight before after
    rw [gather, List.mem_mergeSort] at isLeft
    obtain ⟨leftWay, leftMember, rfl⟩ := List.mem_map.1 isLeft
    obtain ⟨rightWay, rightMember, rfl⟩ := List.mem_map.1 isRight
    have leftMember := sameWays.mem_iff.1 leftMember
    rw [keepsOrder _ leftMember _ rightMember] at before
    rw [keepsOrder _ rightMember _ leftMember] at after
    rw [eq_of_comesBefore before after]
  · refine List.pairwise_map.2 ((sorted_inputWays folder place).imp_of_mem
      fun {left right} isLeft isRight before => ?_)
    rw [keepsOrder left isLeft right isRight, before]
  · exact (List.mergeSort_perm _ _).trans (sameWays.map _)

/-- A walk of a directory that is left out comes to nothing. -/
theorem Walks.gather_eq_nil {walked : List (List String)} (walks : folder.Walks root place walked)
    (excluded : lastName root ∈ excludedNames) : folder.gather root place walked = [] := by
  have nothing : walked = [] := List.eq_nil_iff_forall_not_mem.2 fun way member =>
    ((walks.mem_iff way).1 member).searched.1 excluded
  rw [gather, nothing, List.filter_nil, List.map_nil, List.mergeSort_nil]

/-! ### Scans -/

/-- What a scan of a directory comes to. -/
structure ScansDirectory (folder : Folder) (root : String) (place : List String) : Prop where
  walks : ∃ walked, folder.Walks root place walked
  /-- In whatever order a walk comes to things, the inputs are those that it comes to. -/
  gathers : ∀ walked, folder.Walks root place walked →
    folder.inputs? root = some (folder.gather root place walked)
  /-- If the directory is not called like one that is never searched, the inputs are the files that
  end like inputs and are reached without passing such a directory. They are sorted, and no two of
  them are alike. -/
  found : lastName root ∉ excludedNames → ∃ paths, folder.inputs? root = some paths ∧
    paths.Pairwise (fun left right => orderNames (pathNames left) (pathNames right) = .lt) ∧
    ∀ path, path ∈ paths ↔ ∃ way, folder.IsInputBelow place way ∧ path = way.foldl join root
  /-- Otherwise there are none. -/
  excluded : lastName root ∈ excludedNames → folder.inputs? root = some []

/-- A scan of a directory finds what any walk finds. -/
theorem scansDirectory_inputs? (tree : folder.IsTree) (leads : folder.place? root = some place)
    (directory : folder.hasDirectory place = true) : folder.ScansDirectory root place := by
  have notEmpty : root ≠ "" := by
    rintro rfl
    cases leads
  have noFile : folder.isFile root = false := by
    rw [isFile, leads, Option.any_some, ← Bool.not_eq_true, hasFile_iff]
    intro file
    rw [tree.apart place file] at directory
    cases directory
  have isDirectory : folder.isDirectory root = true := by
    rw [Folder.isDirectory, leads, Option.any_some, directory]
  have inputs : folder.inputs? root = some (folder.inputsBelow root place) := by
    rw [inputs?, noFile, if_neg Bool.false_ne_true, if_pos isDirectory, leads, Option.map_some]
  have ofSearched (searched : lastName root ∉ excludedNames) : folder.inputs? root =
      some ((folder.inputWays place).map (·.foldl join root)) := by
    rw [inputs, inputsBelow_eq, if_neg (mt List.contains_iff_mem.1 searched)]
  have ofExcluded (excluded : lastName root ∈ excludedNames) : folder.inputs? root = some [] := by
    rw [inputs, inputsBelow_eq, if_pos (List.contains_iff_mem.2 excluded)]
  refine ⟨exists_walks folder root place, fun walked walks => ?_, fun searched => ?_, ofExcluded⟩
  · by_cases searched : lastName root ∈ excludedNames
    · rw [ofExcluded searched, walks.gather_eq_nil searched]
    · rw [ofSearched searched, walks.gather_eq tree notEmpty searched]
  · refine ⟨_, ofSearched searched, ?_, fun path => ?_⟩
    · refine List.pairwise_map.2 ((tree.pairwise_inputWays place).imp_of_mem
        fun {left right} isLeft isRight before => ?_)
      rw [pathNames_foldl_join notEmpty (listable_of_mem_inputWays isLeft),
        pathNames_foldl_join notEmpty (listable_of_mem_inputWays isRight), orderNames_append,
        before]
    · rw [List.mem_map]
      exact exists_congr fun way => and_congr isInputBelow_iff.symm eq_comm

/-- Some of the files are inputs, and one of these lies in a directory that is never searched. -/
def shelf : Folder where
  files := [
    (["b.fluent.json"], some "\x7b\x7d"),
    (["a", "target.fluent.json"], some "\x7b\x7d"),
    (["a", "target", "c.fluent.json"], some "\x7b\x7d"),
    (["a", "notes.json"], none)]

theorem isTree_shelf : shelf.IsTree := ⟨by decide, by decide⟩

/-- The directory itself is not called like one that is never searched. -/
theorem scansDirectory_inputs?_shelf :
    shelf.IsTree ∧ shelf.place? "./a/" = some ["a"] ∧ shelf.hasDirectory ["a"] = true ∧
      shelf.ScansDirectory "./a/" ["a"] := by
  have leads : shelf.place? "./a/" = some ["a"] := by decide
  exact ⟨isTree_shelf, leads, by decide, scansDirectory_inputs? isTree_shelf leads (by decide)⟩

/-- A directory that is called like one that is never searched is asked for. It lists an input,
which is not found. -/
theorem inputs?_eq_nil_shelf :
    shelf.IsTree ∧ shelf.place? "a/target" = some ["a", "target"] ∧
      shelf.hasDirectory ["a", "target"] = true ∧
        shelf.IsInputBelow ["a", "target"] ["c.fluent.json"] ∧
          shelf.inputs? "a/target" = some [] := by
  refine ⟨isTree_shelf, by decide, by decide, ?_, by decide +kernel⟩
  exact ⟨by decide, by decide, ⟨"c.fluent.json", by decide, by decide⟩, by decide⟩

end StagedBuilder.Folder
