/-
This file says how scopes grow. Binding a placeholder leaves the names that are bound
already at their places and adds a name that none of them has, so the names of a scope
grown from nothing are all different.

A type whose placeholders are all bound is shown with one name for each of them, and
whatever is bound later does not change what is shown. Written first with the numbers of
a numbering and then with the names of a scope, a type has its type parameters renamed,
each number of the numbering standing for the name of the same number in the scope.
-/

import Mathlib.Data.List.Nodup
import Mathlib.Data.List.Perm.Subperm
import StagedBuilder.Generic.Scope
import StagedBuilder.Proofs.Positional

namespace StagedBuilder

/-! ### Fresh names -/

/-- Different numbers added to a name make different names. -/
theorem nodup_suffixed (preferred : String) (bound : Nat) :
    ((List.range bound).map fun count => preferred ++ toString (count + 1)).Nodup := by
  refine List.nodup_range.map fun left right same => ?_
  have sameNumeral := Nat.repr_injective ((String.append_right_inj preferred).1 same)
  exact Nat.succ.inj sameNumeral

/-- Of more different names than are taken at least one is free. -/
theorem exists_free_suffix (taken : List String) (preferred : String) :
    ∃ count < taken.length + 1, preferred ++ toString (count + 1) ∉ taken := by
  by_contra allTaken
  simp only [not_exists, not_and, Decidable.not_not] at allTaken
  have within : ((List.range (taken.length + 1)).map fun count =>
      preferred ++ toString (count + 1)) ⊆ taken := by
    intro candidate member
    obtain ⟨count, inRange, rfl⟩ := List.mem_map.1 member
    exact allTaken count (List.mem_range.1 inRange)
  have bound := ((nodup_suffixed preferred _).subperm within).length_le
  rw [List.length_map, List.length_range] at bound
  omega

/-- The number is the first one with which the name is free. -/
def FirstFree (taken : List String) (preferred : String) (count : Nat) : Prop :=
  preferred ++ toString (count + 1) ∉ taken ∧
    ∀ earlier < count, preferred ++ toString (earlier + 1) ∈ taken

/-- A fresh name is the preferred one if it is free, and else has the first number added with which
it is free. -/
theorem freshName_cases (taken : List String) (preferred : String) :
    preferred ∉ taken ∧ freshName taken preferred = preferred ∨
      preferred ∈ taken ∧ ∃ count, FirstFree taken preferred count ∧
        freshName taken preferred = preferred ++ toString (count + 1) := by
  unfold freshName
  split
  · next occupied =>
    refine Or.inr ⟨List.contains_iff_mem.1 occupied, ?_⟩
    simp only [List.find?_map]
    cases found : (List.range (taken.length + 1)).find?
        ((fun candidate => !taken.contains candidate) ∘ fun count =>
          preferred ++ toString (count + 1)) with
    | some count =>
      obtain ⟨free, -, earlierTaken⟩ := List.find?_range_eq_some.1 found
      exact ⟨count, ⟨by simpa using free, by simpa using earlierTaken⟩, rfl⟩
    | none =>
      obtain ⟨count, inRange, free⟩ := exists_free_suffix taken preferred
      have notFree := List.find?_range_eq_none.1 found count inRange
      exact absurd (by simpa using notFree) free
  · next free => exact Or.inl ⟨mt List.contains_iff_mem.2 free, rfl⟩

/-- A name that is free is kept. -/
theorem freshName_of_notMem {taken : List String} {preferred : String}
    (free : preferred ∉ taken) : freshName taken preferred = preferred :=
  if_neg (mt List.contains_iff_mem.1 free)

theorem freshName_notMem (taken : List String) (preferred : String) :
    freshName taken preferred ∉ taken := by
  rcases freshName_cases taken preferred with ⟨free, same⟩ | ⟨-, count, firstFree, same⟩
  · rwa [same]
  · rw [same]
    exact firstFree.1

/-- A fresh name depends only on which names are taken. -/
theorem freshName_congr {first second : List String}
    (same : ∀ name, name ∈ first ↔ name ∈ second) (preferred : String) :
    freshName first preferred = freshName second preferred := by
  rcases freshName_cases first preferred with ⟨free, kept⟩ | ⟨occupied, count, firstFree, added⟩
  · rcases freshName_cases second preferred with ⟨-, keptSecond⟩ | ⟨occupied, -⟩
    · rw [kept, keptSecond]
    · exact absurd ((same preferred).2 occupied) free
  · rcases freshName_cases second preferred with
      ⟨free, -⟩ | ⟨-, other, firstFreeSecond, addedSecond⟩
    · exact absurd ((same preferred).1 occupied) free
    · have sameCount : count = other := by
        rcases Nat.lt_trichotomy count other with less | isSame | greater
        · exact absurd ((same _).2 (firstFreeSecond.2 count less)) firstFree.1
        · exact isSame
        · exact absurd ((same _).1 (firstFree.2 other greater)) firstFreeSecond.1
      rw [added, addedSecond, sameCount]

namespace Scope

/-! ### Binding -/

theorem length_names (scope : Scope) : scope.names.length = scope.size := List.length_map _

theorem names_bind (scope : Scope) (index : Nat) (preferred : String) (constraints : Constraints) :
    (scope.bind index preferred constraints).names =
      if index < scope.size then scope.names else scope.names ++ [scope.fresh preferred] := by
  unfold bind
  split
  · rfl
  · exact List.map_append

theorem names_isPrefix_bind (scope : Scope) (index : Nat) (preferred : String)
    (constraints : Constraints) :
    scope.names <+: (scope.bind index preferred constraints).names := by
  rw [names_bind]
  split
  · exact List.prefix_rfl
  · exact List.prefix_append _ _

theorem nodup_names_bind {scope : Scope} (distinct : scope.names.Nodup) (index : Nat)
    (preferred : String) (constraints : Constraints) :
    (scope.bind index preferred constraints).names.Nodup := by
  rw [names_bind]
  split
  · exact distinct
  · refine distinct.append (List.nodup_singleton _) ?_
    rw [List.disjoint_singleton]
    exact freshName_notMem scope.names preferred

/-- Binds several placeholders one after another. -/
abbrev bindAll (scope : Scope) (introduced : List (Nat × String × Constraints)) : Scope :=
  introduced.foldl (fun scope (number, name, constraints) => scope.bind number name constraints)
    scope

theorem names_isPrefix_bindAll (scope : Scope) (introduced : List (Nat × String × Constraints)) :
    scope.names <+: (scope.bindAll introduced).names := by
  induction introduced generalizing scope with
  | nil => exact List.prefix_rfl
  | cons first rest inductionHypothesis =>
    exact (scope.names_isPrefix_bind _ _ _).trans (inductionHypothesis _)

theorem nodup_names_bindAll {scope : Scope} (distinct : scope.names.Nodup)
    (introduced : List (Nat × String × Constraints)) :
    (scope.bindAll introduced).names.Nodup := by
  induction introduced generalizing scope with
  | nil => exact distinct
  | cons first rest inductionHypothesis =>
    exact inductionHypothesis (nodup_names_bind distinct _ _ _)

/-- Binding the number that comes next adds a name. -/
theorem bind_size (scope : Scope) (name : String) (constraints : Constraints) :
    scope.bind scope.size name constraints =
      ⟨scope.bound ++ [(scope.fresh name, constraints)]⟩ := if_neg (Nat.lt_irrefl _)

theorem size_bind_size (scope : Scope) (name : String) (constraints : Constraints) :
    (scope.bind scope.size name constraints).size = scope.size + 1 := by
  rw [bind_size, size, List.length_append]
  rfl

/-- Placeholders numbered from the size on are bound with their constraints. -/
theorem constraints_bindAll (scope : Scope) (introduced : List (Nat × String × Constraints))
    (numbered : introduced.map (·.1) = List.range' scope.size introduced.length) :
    (scope.bindAll introduced).bound.map (·.2) =
      scope.bound.map (·.2) ++ introduced.map (·.2.2) := by
  induction introduced generalizing scope with
  | nil => exact (List.append_nil _).symm
  | cons first rest inductionHypothesis =>
    obtain ⟨number, name, constraints⟩ := first
    rw [List.map_cons, List.length_cons, List.range'_succ, List.cons.injEq] at numbered
    obtain ⟨rfl, numberedRest⟩ := numbered
    show ((scope.bind scope.size name constraints).bindAll rest).bound.map _ = _
    rw [inductionHypothesis _ (by rw [size_bind_size]; exact numberedRest), bind_size,
      List.map_append, List.append_assoc]
    rfl

/-- Placeholders numbered from the size on are all bound. -/
theorem size_bindAll (scope : Scope) (introduced : List (Nat × String × Constraints))
    (numbered : introduced.map (·.1) = List.range' scope.size introduced.length) :
    (scope.bindAll introduced).size = scope.size + introduced.length := by
  have lengths := congrArg List.length (scope.constraints_bindAll introduced numbered)
  rwa [List.length_append, List.length_map, List.length_map, List.length_map] at lengths

/-- Names that are all different are kept. -/
theorem names_bindAll (scope : Scope) (introduced : List (Nat × String × Constraints))
    (numbered : introduced.map (·.1) = List.range' scope.size introduced.length)
    (distinct : (scope.names ++ introduced.map (·.2.1)).Nodup) :
    (scope.bindAll introduced).names = scope.names ++ introduced.map (·.2.1) := by
  induction introduced generalizing scope with
  | nil => exact (List.append_nil _).symm
  | cons first rest inductionHypothesis =>
    obtain ⟨number, name, constraints⟩ := first
    rw [List.map_cons, List.length_cons, List.range'_succ, List.cons.injEq] at numbered
    obtain ⟨rfl, numberedRest⟩ := numbered
    have free : name ∉ scope.names := fun taken =>
      List.disjoint_of_nodup_append distinct taken List.mem_cons_self
    have grown : (scope.bind scope.size name constraints).names = scope.names ++ [name] := by
      rw [names_bind, if_neg (Nat.lt_irrefl _), fresh, freshName_of_notMem free]
    have split : scope.names ++ (name :: rest.map (·.2.1)) =
        (scope.names ++ [name]) ++ rest.map (·.2.1) := List.append_cons ..
    show ((scope.bind scope.size name constraints).bindAll rest).names = _
    rw [inductionHypothesis _ (by rw [size_bind_size]; exact numberedRest)
      (by rw [grown, ← split]; exact distinct), grown, ← split]
    rfl

/-! ### Display -/

theorem lookup_zipIdx (names : List String) (start offset : Nat) :
    ((names.zipIdx start).map fun (name, index) =>
        (placeholderName index, TypeTerm.parameter name)).lookup
          (placeholderName (start + offset)) =
      names[offset]?.map TypeTerm.parameter := by
  induction names generalizing start offset with
  | nil => rfl
  | cons first rest inductionHypothesis =>
    rw [List.zipIdx_cons, List.map_cons, List.lookup_cons]
    cases offset with
    | zero => rw [Nat.add_zero, beq_self_eq_true]; rfl
    | succ offset =>
      have differ : (placeholderName (start + (offset + 1)) == placeholderName start) = false := by
        rw [beq_eq_false_iff_ne]
        intro same
        have := placeholderName_injective same
        omega
      have shifted := inductionHypothesis (start + 1) offset
      rw [Nat.add_right_comm, Nat.add_assoc] at shifted
      rw [differ, List.getElem?_cons_succ, ← shifted]

/-- A bound placeholder is shown by its name. -/
theorem display_placeholder {scope : Scope} {index : Nat} {name : String}
    (bound : scope.names[index]? = some name) :
    scope.display (placeholder index) = .parameter name := by
  refine TypeTerm.substitute_parameter_of_lookup ?_
  have found := lookup_zipIdx scope.names 0 index
  rw [Nat.zero_add, bound] at found
  exact found

/-- What is bound later does not change how a type is shown. -/
theorem display_of_isPrefix {first second : Scope} (begins : first.names <+: second.names)
    {type : TypeTerm}
    (bound : ∀ name ∈ type.occurrences, ∃ index < first.size, name = placeholderName index) :
    second.display type = first.display type := by
  refine TypeTerm.substitute_congr fun name occurs => ?_
  obtain ⟨index, less, rfl⟩ := bound name occurs
  rw [← length_names] at less
  have inFirst := List.getElem?_eq_getElem less
  have inSecond : second.names[index]? = some first.names[index] := by
    obtain ⟨rest, appended⟩ := begins
    rw [← appended, List.getElem?_append_left less, inFirst]
  exact (display_placeholder inSecond).trans (display_placeholder inFirst).symm

end Scope

/-! ### From a numbering to a scope -/

/-- What a type parameter of a numbering is called in a scope. -/
def Scope.rename (scope : Scope) (numbering : Numbering) (name : String) : String :=
  ((numbering.index? name).bind (scope.names[·]?)).getD name

theorem Scope.getElem?_names_rename {scope : Scope} {numbering : Numbering} {name : String}
    {index : Nat} (found : numbering.index? name = some index) (less : index < scope.size) :
    scope.names[index]? = some (scope.rename numbering name) := by
  rw [← length_names] at less
  rw [rename, found, Option.bind_some, List.getElem?_eq_getElem less, Option.getD_some]

theorem Scope.bind_index?_eq_rename {scope : Scope} {numbering : Numbering}
    (bound : numbering.names.length ≤ scope.size) {name : String}
    (member : name ∈ numbering.names) :
    (numbering.index? name).bind (scope.names[·]?) = some (scope.rename numbering name) := by
  obtain ⟨index, found, less⟩ := Numbering.exists_index? member
  rw [found, Option.bind_some]
  exact getElem?_names_rename found (Nat.lt_of_lt_of_le less bound)

theorem Scope.rename_mem_names {scope : Scope} {numbering : Numbering}
    (bound : numbering.names.length ≤ scope.size) {name : String}
    (member : name ∈ numbering.names) : scope.rename numbering name ∈ scope.names := by
  obtain ⟨index, found, less⟩ := Numbering.exists_index? member
  exact List.mem_of_getElem? (getElem?_names_rename found (Nat.lt_of_lt_of_le less bound))

/-- A scope with the names of the numbering calls everything as it was. -/
theorem Scope.rename_of_names_eq {scope : Scope} {numbering : Numbering}
    (same : scope.names = numbering.names) (name : String) :
    scope.rename numbering name = name := by
  unfold rename
  cases found : numbering.index? name with
  | none => rfl
  | some index => rw [same, Option.bind_some, Numbering.index?_eq_some found, Option.getD_some]

/-- Type parameters with different names stay different. -/
theorem Scope.rename_injOn {scope : Scope} {numbering : Numbering}
    (bound : numbering.names.length ≤ scope.size) (distinct : scope.names.Nodup)
    {left right : String} (leftMember : left ∈ numbering.names)
    (rightMember : right ∈ numbering.names)
    (same : scope.rename numbering left = scope.rename numbering right) : left = right := by
  obtain ⟨leftIndex, leftFound, leftLess⟩ := Numbering.exists_index? leftMember
  obtain ⟨rightIndex, rightFound, rightLess⟩ := Numbering.exists_index? rightMember
  have atLeft := bind_index?_eq_rename bound leftMember
  have atRight := bind_index?_eq_rename bound rightMember
  rw [leftFound, Option.bind_some] at atLeft
  rw [rightFound, Option.bind_some, ← same, ← atLeft] at atRight
  rw [← length_names] at bound
  have sameIndex := (List.getElem?_inj (Nat.lt_of_lt_of_le rightLess bound) distinct).1 atRight
  have nameAtLeft := Numbering.index?_eq_some leftFound
  rw [← sameIndex, Numbering.index?_eq_some rightFound, Option.some.injEq] at nameAtLeft
  exact nameAtLeft.symm

/-- In positional form and then with the names of a scope, a type is renamed, if the scope has
bound the numbers of its type parameters. -/
theorem Scope.display_positional_of_bound {scope : Scope} {numbering : Numbering}
    {type : TypeTerm} {renames : Substitution}
    (bound : ∀ name ∈ type.occurrences, ∃ index < scope.size, numbering.index? name = some index)
    (renamed : ∀ name ∈ type.occurrences,
      renames.lookup name = some (.parameter (scope.rename numbering name))) :
    scope.display (numbering.positional type) = type.substitute renames := by
  refine TypeTerm.substitute_substitute fun name occurs => ?_
  obtain ⟨index, less, found⟩ := bound name occurs
  rw [TypeTerm.substitute_parameter_of_lookup (renamed name occurs)]
  refine Eq.trans ?_ (display_placeholder (getElem?_names_rename found less))
  exact congrArg scope.display (Numbering.positional_parameter found)

/-- A scope that calls type parameters as they are called before shows a type as it was. -/
theorem Scope.display_positional_of_isPrefix {scope : Scope} {numbering : Numbering}
    (begins : scope.names <+: numbering.names) {type : TypeTerm}
    (bound : ∀ name ∈ type.occurrences, name ∈ scope.names) :
    scope.display (numbering.positional type) = type := by
  have same : scope.display (numbering.positional type) = type.substitute [] := by
    refine TypeTerm.substitute_substitute fun name occurs => ?_
    obtain ⟨index, found, -⟩ := (Numbering.mk scope.names).exists_index? (bound name occurs)
    have positional := Numbering.positional_parameter (Numbering.index?_of_isPrefix begins found)
    exact (congrArg scope.display positional).trans
      (display_placeholder (Numbering.index?_eq_some found))
  rw [same]
  exact TypeTerm.substitute_eq_self fun _ _ => rfl

theorem Scope.display_positional {scope : Scope} {numbering : Numbering}
    (bound : numbering.names.length ≤ scope.size) {type : TypeTerm} {renames : Substitution}
    (numbered : ∀ name ∈ type.occurrences, name ∈ numbering.names)
    (renamed : ∀ name ∈ numbering.names,
      renames.lookup name = some (.parameter (scope.rename numbering name))) :
    scope.display (numbering.positional type) = type.substitute renames := by
  refine display_positional_of_bound (fun name occurs => ?_)
    fun name occurs => renamed name (numbered name occurs)
  obtain ⟨index, found, less⟩ := Numbering.exists_index? (numbered name occurs)
  exact ⟨index, Nat.lt_of_lt_of_le less bound, found⟩

end StagedBuilder
