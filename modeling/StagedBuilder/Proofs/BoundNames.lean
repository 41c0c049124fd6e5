/-
This file says what everything that shows a type relies on: however placeholders are bound,
in whatever order of numbers and under whatever names, a scope has one name for each of them
and never changes it.

The calls that bind something are those whose number is not below the number of placeholders
that are bound already. Each of them adds one name, which is not in the scope, and one set of
constraints. The name is searched for among the preferred one and this with `1`, `2` and so
on added, and there is no bound to that search in itself; but if the preferred name is taken,
so are the candidates that were passed over, and all of these are different. So fewer than
there are names in the scope have been passed over when a free one is found.

Different names for different placeholders mean that nothing is lost when a type is shown.
Writing for every name the number of its place brings back the type.
-/

import StagedBuilder.Proofs.Scope

namespace StagedBuilder

/-! ### The search for a name -/

/-- Fewer candidates are passed over than there are names that are taken. -/
theorem FirstFree.lt_length {taken : List String} {preferred : String} {count : Nat}
    (firstFree : FirstFree taken preferred count) (occupied : preferred ∈ taken) :
    count < taken.length := by
  -- The preferred name is passed over as well, and it is none of those with a number.
  have other : preferred ∉ (List.range count).map fun earlier =>
      preferred ++ toString (earlier + 1) := by
    intro member
    obtain ⟨earlier, -, same⟩ := List.mem_map.1 member
    have noNumeral := (String.append_right_inj preferred).1 (same.trans (String.append_empty).symm)
    exact Nat.repr_ne_empty noNumeral
  have passedOver : preferred :: ((List.range count).map fun earlier =>
      preferred ++ toString (earlier + 1)) ⊆ taken := by
    refine List.cons_subset.2 ⟨occupied, fun candidate member => ?_⟩
    obtain ⟨earlier, inRange, rfl⟩ := List.mem_map.1 member
    exact firstFree.2 earlier (List.mem_range.1 inRange)
  have distinct := List.nodup_cons.2 ⟨other, nodup_suffixed preferred count⟩
  have bound := (distinct.subperm passedOver).length_le
  rw [List.length_cons, List.length_map, List.length_range] at bound
  exact bound

namespace Scope

/-! ### The calls that bind -/

/-- The calls that bind something if so many placeholders are bound before: the others name one
that is bound already. -/
def binding (size : Nat) : List (Nat × String × Constraints) → List (Nat × String × Constraints)
  | [] => []
  | call :: rest =>
    if call.1 < size then binding size rest else call :: binding (size + 1) rest

/-- The constraints of a scope are those of the calls that bind. -/
theorem map_snd_bindAll (scope : Scope) (calls : List (Nat × String × Constraints)) :
    (scope.bindAll calls).bound.map (·.2) =
      scope.bound.map (·.2) ++ (binding scope.size calls).map (·.2.2) := by
  induction calls generalizing scope with
  | nil => exact (List.append_nil _).symm
  | cons call rest inductionHypothesis =>
    obtain ⟨index, preferred, constraints⟩ := call
    show ((scope.bind index preferred constraints).bindAll rest).bound.map _ = _
    rw [inductionHypothesis, bind, binding]
    split
    · rfl
    · rw [List.map_append, List.append_assoc, List.map_cons, size, List.length_append]
      rfl

/-! ### Showing types -/

/-- The type parameters of a type are placeholders that the scope has bound. -/
def Covers (scope : Scope) (type : TypeTerm) : Prop :=
  ∀ name ∈ type.occurrences, ∃ index < scope.size, name = placeholderName index

variable {scope : Scope}

/-- The number of a name is its place. -/
theorem index?_names (distinct : scope.names.Nodup) {index : Nat} {name : String}
    (bound : scope.names[index]? = some name) :
    (Numbering.mk scope.names).index? name = some index := by
  obtain ⟨other, found, less⟩ :=
    (Numbering.mk scope.names).exists_index? (List.mem_of_getElem? bound)
  have atOther := Numbering.index?_eq_some found
  rw [(List.getElem?_inj less distinct).1 (atOther.trans bound.symm)] at found
  exact found

/-- With the numbers of the names written for these, a type that is shown is as it was. -/
theorem positional_display (distinct : scope.names.Nodup) {type : TypeTerm}
    (covers : scope.Covers type) :
    (Numbering.mk scope.names).positional (scope.display type) = type := by
  have same : (Numbering.mk scope.names).positional (scope.display type) = type.substitute [] := by
    refine TypeTerm.substitute_substitute fun name occurs => ?_
    obtain ⟨index, less, rfl⟩ := covers name occurs
    rw [← length_names] at less
    have bound := List.getElem?_eq_getElem less
    exact (congrArg (Numbering.mk scope.names).positional (display_placeholder bound)).trans
      (Numbering.positional_parameter (index?_names distinct bound))
  rw [same]
  exact TypeTerm.substitute_eq_self fun _ _ => rfl

/-! ### Scopes grown from nothing -/

/-- What a scope is like in which placeholders have been bound one after another, beginning with
none. -/
structure KeepsNames (calls : List (Nat × String × Constraints)) (scope : Scope) : Prop where
  distinct : scope.names.Nodup
  /-- There is one name for each call that binds, and the constraints are those of these calls. -/
  counted : scope.names.length = (binding 0 calls).length
  constraints : scope.bound.map (·.2) = (binding 0 calls).map (·.2.2)
  /-- What is bound has its place and its spelling after any further calls. -/
  kept : ∀ (further : List (Nat × String × Constraints)) (place : Nat) (name : String),
    scope.names[place]? = some name → (scope.bindAll further).names[place]? = some name
  /-- The search for a name ends: the candidates before the one that is found are all taken, and if
  the preferred name is taken there are fewer of them than names. -/
  fresh : ∀ preferred, scope.fresh preferred ∉ scope.names ∧
    (scope.fresh preferred = preferred ∨ ∃ count < scope.size,
      FirstFree scope.names preferred count ∧
        scope.fresh preferred = preferred ++ toString (count + 1))
  /-- Types are told apart by how they are shown. -/
  injective : ∀ left right, scope.Covers left → scope.Covers right →
    scope.display left = scope.display right → left = right

/-- However placeholders are bound, names are all different, stay as they are and tell types
apart. -/
theorem keepsNames_bindAll (calls : List (Nat × String × Constraints)) :
    KeepsNames calls (bindAll {} calls) := by
  have unused : (names {}).Nodup := List.nodup_nil
  have distinct : (bindAll {} calls).names.Nodup := nodup_names_bindAll unused calls
  have constraints : (bindAll {} calls).bound.map (·.2) = (binding 0 calls).map (·.2.2) :=
    map_snd_bindAll {} calls
  have counted := congrArg List.length constraints
  rw [List.length_map, List.length_map] at counted
  exact {
    distinct
    counted := (length_names _).trans counted
    constraints
    kept := fun further place name found => by
      obtain ⟨rest, appended⟩ := names_isPrefix_bindAll (bindAll {} calls) further
      rw [← appended, List.getElem?_append_left (List.getElem?_eq_some_iff.1 found).1, found]
    fresh := fun preferred => by
      refine ⟨freshName_notMem _ preferred, ?_⟩
      rcases freshName_cases (bindAll {} calls).names preferred with
        ⟨-, kept⟩ | ⟨occupied, count, firstFree, added⟩
      · exact .inl kept
      · exact .inr ⟨count, length_names _ ▸ firstFree.lt_length occupied, firstFree, added⟩
    injective := fun left right ofLeft ofRight same => by
      rw [← positional_display distinct ofLeft, same, positional_display distinct ofRight] }

/-- The second name is taken and gets a number, and so does the third, for which that number is
taken too. A call for a placeholder that is bound changes nothing. -/
example :
    let scope := bindAll {} [(0, "T1", {}), (1, "T", {}), (0, "U", {}), (7, "T", {})]
    scope.names = ["T1", "T", "T2"] ∧
      scope.display (.named none "Map" [placeholder 2, placeholder 0]) =
        .named none "Map" [.parameter "T2", .parameter "T1"] := by
  decide +kernel

end Scope

end StagedBuilder
