/-
This file says what paths through the prefix tree know. A path is walked if it was made
by going down edges of the tree, each edge at a node that the path so far leads to. Two
nodes can stand below the same types and names, and a path does not tell them apart: it
may go on below any of them.

On a walked path the known values bear the names and, as the scope shows them, the types
along the way. The scope binds exactly the placeholders that these types mention, each by
a name of its own. What is bound further down changes none of this, which is why the types
at a step never depend on what is still to come.
-/

import StagedBuilder.Proofs.Plan
import StagedBuilder.Proofs.Scope

namespace StagedBuilder

open PrefixTree (Under)

/-! ### Walked paths -/

namespace Path

theorem scope_extend (path : Path) (plan : ParameterPlan) :
    (path.extend plan).scope = path.scope.bindAll plan.introduced := rfl

theorem known_extend (path : Path) (plan : ParameterPlan) :
    (path.extend plan).known = path.known ++
      [⟨plan.key.name, (path.extend plan).scope.display plan.key.type,
        .field (path.fieldName plan.key.name)⟩] := rfl

theorem key_extend (path : Path) (plan : ParameterPlan) :
    (path.extend plan).key = path.key ++ [(plan.key.type, plan.key.name)] := rfl

end Path

/-- By what a step below the given keys is recognized. -/
def keyOf (above : List ParameterPlan) : StepKey :=
  above.map fun plan => (plan.key.type, plan.key.name)

/-- The paths that go down edges of a tree. -/
inductive Walked (tree : PlanTree) : Path → Prop
  | start : Walked tree {}
  | extend {path : Path} {above : List ParameterPlan} {node child : PlanTree}
      {representative : ParameterPlan} (walked : Walked tree path)
      (under : Under tree above node) (leads : keyOf above = path.key)
      (member : child ∈ node.children) (made : child.representative? = some representative) :
      Walked tree (path.extend representative)

namespace Walked

theorem keyOf_append_singleton {path : Path} {above : List ParameterPlan}
    (leads : keyOf above = path.key) (representative : ParameterPlan) :
    keyOf (above ++ [representative]) = (path.extend representative).key := by
  rw [keyOf, List.map_append, ← keyOf, leads, Path.key_extend]
  rfl

theorem map_fst_keyOf (above : List ParameterPlan) :
    (keyOf above).map (·.1) = above.map (·.key.type) := by
  rw [keyOf, List.map_map]
  rfl

/-- The known values bear the names along the way. -/
theorem map_name_known {tree : PlanTree} {path : Path} (walked : Walked tree path) :
    path.known.map (·.name) = path.key.map (·.2) := by
  induction walked with
  | start => rfl
  | extend _ _ _ _ _ inductionHypothesis =>
    rw [Path.known_extend, Path.key_extend, List.map_append, List.map_append,
      inductionHypothesis]
    rfl

theorem length_known {tree : PlanTree} {path : Path} (walked : Walked tree path) :
    path.known.length = path.key.length := by
  have lengths := congrArg List.length walked.map_name_known
  rwa [List.length_map, List.length_map] at lengths

end Walked

/-! ### What a path knows -/

/-- The scope of a path binds the placeholders along the way, and the known values have the
types that the scope shows. -/
structure Path.WellScoped (path : Path) : Prop where
  types : path.known.map (·.type) = (path.key.map (·.1)).map path.scope.display
  mentions : MentionsBelow path.scope.size (path.key.map (·.1))
  distinct : path.scope.names.Nodup

namespace ConstructorPlan.Declared

variable {declarations : List Declaration} {plan : ConstructorPlan}

/-- The types of the first keys are the positional form of the first parameter types. -/
theorem map_type_before (declared : plan.Declared declarations) {before after : List ParameterPlan}
    (parts : plan.parameters = before ++ after) :
    before.map (·.key.type) = positionalTypes (plan.declaration.types.take before.length) := by
  rw [← take_positionalTypes, ← declared.types, parts, List.map_append]
  exact (List.take_left' (List.length_map _)).symm

end ConstructorPlan.Declared

namespace Path.WellScoped

theorem start : ({} : Path).WellScoped where
  types := rfl
  mentions name := by simp [TypeTerm.occurrencesOfAll, Scope.size]
  distinct := List.nodup_nil

/-- A scope shows the types along the way as before when more is bound. -/
theorem map_display_extend {path : Path} (wellScoped : path.WellScoped)
    (representative : ParameterPlan) :
    (path.key.map (·.1)).map (path.extend representative).scope.display =
      path.known.map (·.type) := by
  rw [wellScoped.types]
  refine List.map_congr_left fun type member => Scope.display_of_isPrefix ?_ fun name occurs => ?_
  · exact path.scope.names_isPrefix_bindAll representative.introduced
  · exact (wellScoped.mentions name).1 (TypeTerm.mem_occurrencesOfAll.2 ⟨type, member, occurs⟩)

variable {declarations : List Declaration} {plans : List ConstructorPlan} {tree : PlanTree}

/-- A key that leads on belongs to a constructor with the types along the way, and introduces the
placeholders that the scope has to bind next. -/
theorem exists_declared {path : Path} (wellScoped : path.WellScoped)
    (grown : PlanTree.Grown plans tree) (allDeclared : ∀ plan ∈ plans, plan.Declared declarations)
    {above : List ParameterPlan} {node child : PlanTree} {representative : ParameterPlan}
    (under : Under tree above node) (leads : keyOf above = path.key)
    (member : child ∈ node.children) (made : child.representative? = some representative) :
    ∃ plan ∈ plans, ∃ before after, plan.parameters = before ++ representative :: after ∧
      before.map (·.key.type) = path.key.map (·.1) ∧
      path.scope.size = plan.declaration.width before.length ∧
      representative.introduced.map (·.1) =
        List.range' path.scope.size representative.introduced.length := by
  obtain ⟨-, plan, isPlan, before, after, parts, sameTypes⟩ :=
    grown.taken under member made (List.mem_of_mem_head? made)
  have declared := allDeclared plan isPlan
  rw [← Walked.map_fst_keyOf above, leads] at sameTypes
  -- The scope has as many names as the constructor has type parameters so far.
  have size : path.scope.size = plan.declaration.width before.length := by
    refine wellScoped.mentions.unique ?_
    rw [← sameTypes, declared.map_type_before parts]
    exact mentionsBelow_positionalTypes _
  refine ⟨plan, isPlan, before, after, parts, sameTypes, size, ?_⟩
  rw [size]
  exact (declared.introduced before representative after parts).1

theorem extend {path : Path} (wellScoped : path.WellScoped) (grown : PlanTree.Grown plans tree)
    (allDeclared : ∀ plan ∈ plans, plan.Declared declarations) {above : List ParameterPlan}
    {node child : PlanTree} {representative : ParameterPlan} (under : Under tree above node)
    (leads : keyOf above = path.key) (member : child ∈ node.children)
    (made : child.representative? = some representative) :
    (path.extend representative).WellScoped := by
  obtain ⟨plan, isPlan, before, after, parts, sameTypes, size, numbers⟩ :=
    wellScoped.exists_declared grown allDeclared under leads member made
  have declared := allDeclared plan isPlan
  obtain ⟨-, widths⟩ := declared.introduced before representative after parts
  have sizeExtended : (path.extend representative).scope.size =
      plan.declaration.width (before.length + 1) := by
    rw [widths, ← size, Path.scope_extend]
    exact path.scope.size_bindAll representative.introduced numbers
  have typesExtended : (path.extend representative).key.map (·.1) =
      positionalTypes (plan.declaration.types.take (before.length + 1)) := by
    have partsExtended : plan.parameters = (before ++ [representative]) ++ after := by
      rw [parts, List.append_assoc, List.singleton_append]
    have first := declared.map_type_before partsExtended
    rw [List.length_append, List.length_singleton] at first
    rw [← first, List.map_append, sameTypes, Path.key_extend, List.map_append]
    rfl
  refine ⟨?_, ?_, Scope.nodup_names_bindAll wellScoped.distinct _⟩
  · rw [Path.known_extend, Path.key_extend, List.map_append, List.map_append, List.map_append,
      wellScoped.map_display_extend]
    rfl
  · rw [sizeExtended, typesExtended]
    exact mentionsBelow_positionalTypes _

end Path.WellScoped

/-- Every walked path binds what it needs. -/
theorem Walked.wellScoped {declarations : List Declaration} {plans : List ConstructorPlan}
    {tree : PlanTree} (grown : PlanTree.Grown plans tree)
    (allDeclared : ∀ plan ∈ plans, plan.Declared declarations) {path : Path}
    (walked : Walked tree path) : path.WellScoped := by
  induction walked with
  | start => exact .start
  | extend _ under leads member made inductionHypothesis =>
    exact inductionHypothesis.extend grown allDeclared under leads member made

/-! ### Types at a place -/

namespace Path.WellScoped

variable {path : Path} {types : List TypeTerm}

/-- The scope has one name for each type parameter of types that lead here. -/
theorem size_eq_of_types (wellScoped : path.WellScoped)
    (arrives : positionalTypes types = path.key.map (·.1)) :
    (numberingOf types).names.length = path.scope.size := by
  refine MentionsBelow.unique (mentionsBelow_positionalTypes types) ?_
  rw [arrives]
  exact wellScoped.mentions

/-- What is known where types lead are these types, renamed. -/
theorem map_type_of_types (wellScoped : path.WellScoped)
    (arrives : positionalTypes types = path.key.map (·.1)) :
    path.known.map (·.type) =
      types.map (·.substitute (TypeTerm.relabel (path.scope.rename (numberingOf types))
        (TypeTerm.occurrencesOfAll types))) := by
  rw [wellScoped.types, ← arrives, positionalTypes, List.map_map]
  refine List.map_congr_left fun type member => ?_
  refine Scope.display_positional (Nat.le_of_eq (wellScoped.size_eq_of_types arrives))
    (fun name occurs => ?_) fun name numbered => TypeTerm.lookup_relabel _ ?_
  · exact mem_numberingOf.2 (TypeTerm.mem_occurrencesOfAll.2 ⟨type, member, occurs⟩)
  · exact mem_numberingOf.1 numbered

variable {declarations : List Declaration} {plan : ConstructorPlan}

/-- The scope has one name for each type parameter of a constructor whose types lead here. -/
theorem size_eq (wellScoped : path.WellScoped) (declared : plan.Declared declarations)
    (arrives : positionalTypes plan.declaration.types = path.key.map (·.1)) :
    plan.numbering.names.length = path.scope.size := by
  rw [declared.numbering]
  exact wellScoped.size_eq_of_types arrives

/-- What is known where a constructor ends are its parameter types, renamed. -/
theorem map_type_known (wellScoped : path.WellScoped) (declared : plan.Declared declarations)
    (arrives : positionalTypes plan.declaration.types = path.key.map (·.1)) :
    path.known.map (·.type) =
      plan.declaration.types.map (·.substitute (TypeTerm.relabel
        (path.scope.rename plan.numbering)
        (TypeTerm.occurrencesOfAll plan.declaration.types))) := by
  rw [declared.numbering]
  exact wellScoped.map_type_of_types arrives

end Path.WellScoped

end StagedBuilder
