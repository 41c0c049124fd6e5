/-
This file proves that the sections of a document sort its constructors by their roots. There is
one section for each root, in order; it holds what the constructors declare that refer to the
root, in order; and as no two roots have one name, every constructor is in one section.

A document has sections unless one of three things is wrong with it: a root is there twice, a
constructor refers to a root that is not there, or a type expression denotes no type. Which
type parameters an expression may use follows from where it stands, so for the third of these
every expression is listed with its scope. From the same scopes it follows that whatever is
declared declares the type parameters that it mentions.
-/

import StagedBuilder.Document.Section
import StagedBuilder.Proofs.Denotation
import StagedBuilder.Proofs.MethodScoping

namespace StagedBuilder

/-! ### Attempts that succeed -/

/-- There is a result. -/
def Succeeds {Failure Result : Type} (attempt : Except Failure Result) : Prop :=
  ∃ result, attempt = .ok result

section

variable {Failure First Last : Type}

theorem succeeds_pure (result : First) : Succeeds (pure result : Except Failure First) :=
  ⟨result, rfl⟩

theorem not_succeeds_iff {attempt : Except Failure First} :
    ¬Succeeds attempt ↔ ∃ failure, attempt = .error failure := by
  cases attempt <;> simp [Succeeds]

/-- Attempts of which none depends on the result of another succeed if each of them does. -/
theorem succeeds_bind_iff {attempt : Except Failure First} {next : First → Except Failure Last}
    {further : Prop} (independent : ∀ first, Succeeds (next first) ↔ further) :
    Succeeds (attempt >>= next) ↔ Succeeds attempt ∧ further := by
  constructor
  · rintro ⟨result, succeeds⟩
    obtain ⟨first, isFirst, isResult⟩ := exists_of_bind_eq_ok succeeds
    exact ⟨⟨first, isFirst⟩, (independent first).1 ⟨result, isResult⟩⟩
  · rintro ⟨⟨first, rfl⟩, succeeds⟩
    exact (independent first).2 succeeds

/-- An attempt with something made of its result succeeds if the attempt does. -/
theorem succeeds_bind_pure_iff {attempt : Except Failure First} {make : First → Last} :
    Succeeds (do return make (← attempt)) ↔ Succeeds attempt :=
  (succeeds_bind_iff fun first => iff_true_intro (succeeds_pure (make first))).trans
    (iff_of_eq (and_true _))

/-- A list of attempts succeeds if each of them does. -/
theorem succeeds_mapM_iff {attempt : First → Except Failure Last} {entries : List First} :
    Succeeds (entries.mapM attempt) ↔ ∀ entry ∈ entries, Succeeds (attempt entry) := by
  unfold Succeeds
  simp only [mapM_eq_ok_iff]
  induction entries with
  | nil => simp
  | cons first rest inductionHypothesis =>
    rw [List.forall_mem_cons, ← inductionHypothesis]
    simp only [List.map_cons, eq_comm (a := _ :: _), List.map_eq_cons_iff]
    constructor
    · rintro ⟨_, result, others, rfl, isFirst, areRest⟩
      exact ⟨⟨result, isFirst.symm⟩, others, areRest.symm⟩
    · rintro ⟨⟨result, isFirst⟩, others, areRest⟩
      exact ⟨_, result, others, rfl, isFirst.symm, areRest.symm⟩

/-- What every attempt keeps of its entry is kept of the list. -/
theorem map_eq_of_mapM {Image : Type} {attempt : First → Except Failure Last}
    {entries : List First} {results : List Last} {value : First → Image} {image : Last → Image}
    (succeeds : entries.mapM attempt = .ok results)
    (keeps : ∀ entry ∈ entries, ∀ result, attempt entry = .ok result →
      image result = value entry) : results.map image = entries.map value := by
  induction entries generalizing results with
  | nil =>
    cases succeeds
    rfl
  | cons first rest inductionHypothesis =>
    rw [List.mapM_cons] at succeeds
    obtain ⟨result, others, isFirst, areRest, rfl⟩ := cons_eq_ok_iff.1 succeeds
    obtain ⟨keepsFirst, keepsRest⟩ := List.forall_mem_cons.1 keeps
    rw [List.map_cons, List.map_cons, keepsFirst result isFirst,
      inductionHypothesis areRest keepsRest]

/-- A part of a list has the results of this part, if the results tell the part. -/
theorem mapM_filter {attempt : First → Except Failure Last} {entries : List First}
    {results : List Last} {keep : First → Bool} {kept : Last → Bool}
    (succeeds : entries.mapM attempt = .ok results)
    (tells : ∀ entry ∈ entries, ∀ result, attempt entry = .ok result → kept result = keep entry) :
    (entries.filter keep).mapM attempt = .ok (results.filter kept) := by
  induction entries generalizing results with
  | nil =>
    cases succeeds
    rfl
  | cons first rest inductionHypothesis =>
    rw [List.mapM_cons] at succeeds
    obtain ⟨result, others, isFirst, areRest, rfl⟩ := cons_eq_ok_iff.1 succeeds
    obtain ⟨tellsFirst, tellsRest⟩ := List.forall_mem_cons.1 tells
    have ofRest := inductionHypothesis areRest tellsRest
    rw [List.filter_cons, List.filter_cons, tellsFirst result isFirst]
    split
    · rw [List.mapM_cons, isFirst, ofRest]
      rfl
    · exact ofRest

end

namespace Document

/-! ### Expressions and their scopes -/

/-- A type expression with the type parameters that it may use where it stands. -/
structure Expression where
  scope : List String
  text : String

/-- The expression denotes a type. -/
def Expression.Denotes (expression : Expression) : Prop :=
  Succeeds (TypeExpression.typeOf expression.scope expression.text)

/-- The expressions in the bounds of type parameters. -/
def boundExpressions (entries : List TypeParameterEntry) : List Expression :=
  entries.flatMap fun entry => entry.bounds.map (Expression.mk (scopeOf entries))

def ConverterEntry.expressions (entry : ConverterEntry) : List Expression :=
  boundExpressions entry.typeParameters
    ++ entry.parameters.map (fun (_, text) => ⟨scopeOf entry.typeParameters, text⟩)
    ++ [⟨scopeOf entry.typeParameters, entry.returnType⟩]

def GroupEntry.expressions (entry : GroupEntry) : List Expression :=
  entry.converters.flatMap ConverterEntry.expressions ++ [⟨[], entry.declaringType⟩]

def ParameterEntry.expressions (scope : List String) (entry : ParameterEntry) :
    List Expression :=
  entry.group.toList.flatMap GroupEntry.expressions ++ [⟨scope, entry.type⟩]

def ConstructorEntry.expressions (entry : ConstructorEntry) : List Expression :=
  boundExpressions entry.target.typeParameters
    ++ entry.parameters.flatMap
      (ParameterEntry.expressions (scopeOf entry.target.typeParameters))

end Document

/-- All type expressions of a document. -/
def Document.expressions (document : Document) : List Document.Expression :=
  document.roots.flatMap (fun entry => Document.boundExpressions entry.typeParameters)
    ++ document.constructors.flatMap Document.ConstructorEntry.expressions

namespace Document

/-! ### What can be declared -/

theorem typeOf_eq_ok_iff {scope : List String} {text : String} {type : TypeTerm} :
    typeOf scope text = .ok type ↔ TypeExpression.typeOf scope text = .ok type := by
  unfold typeOf
  cases TypeExpression.typeOf scope text <;> simp

theorem succeeds_typeOf_iff {scope : List String} {text : String} :
    Succeeds (typeOf scope text) ↔ Expression.Denotes ⟨scope, text⟩ :=
  exists_congr fun _ => typeOf_eq_ok_iff

theorem succeeds_declaredTypeParameters_iff {entries : List TypeParameterEntry} :
    Succeeds (declaredTypeParameters entries) ↔
      ∀ expression ∈ boundExpressions entries, expression.Denotes := by
  simp only [declaredTypeParameters, boundExpressions, succeeds_mapM_iff, succeeds_bind_pure_iff,
    List.forall_mem_flatMap, List.forall_mem_map, succeeds_typeOf_iff]

theorem RootEntry.succeeds_declared_iff {entry : RootEntry} :
    Succeeds entry.declared ↔
      ∀ expression ∈ boundExpressions entry.typeParameters, expression.Denotes :=
  succeeds_bind_pure_iff.trans succeeds_declaredTypeParameters_iff

theorem TargetEntry.succeeds_declared_iff {entry : TargetEntry} :
    Succeeds entry.declared ↔
      ∀ expression ∈ boundExpressions entry.typeParameters, expression.Denotes :=
  succeeds_bind_pure_iff.trans succeeds_declaredTypeParameters_iff

theorem ConverterEntry.succeeds_declared_iff {entry : ConverterEntry} :
    Succeeds entry.declared ↔ ∀ expression ∈ entry.expressions, expression.Denotes := by
  have parameters : Succeeds (entry.parameters.mapM fun (name, text) => do
      return ConverterParameter.mk name (← typeOf (scopeOf entry.typeParameters) text)) ↔
        ∀ parameter ∈ entry.parameters,
          Expression.Denotes ⟨scopeOf entry.typeParameters, parameter.2⟩ :=
    succeeds_mapM_iff.trans (forall₂_congr fun _ _ =>
      succeeds_bind_pure_iff.trans succeeds_typeOf_iff)
  have parts : Succeeds entry.declared ↔
      Succeeds (declaredTypeParameters entry.typeParameters) ∧
        Succeeds (entry.parameters.mapM fun (name, text) => do
          return ConverterParameter.mk name (← typeOf (scopeOf entry.typeParameters) text)) ∧
        Succeeds (typeOf (scopeOf entry.typeParameters) entry.returnType) :=
    succeeds_bind_iff fun _ => succeeds_bind_iff fun _ => succeeds_bind_pure_iff
  rw [parts, parameters, succeeds_declaredTypeParameters_iff, succeeds_typeOf_iff]
  simp only [expressions, List.forall_mem_append, List.forall_mem_map, List.forall_mem_singleton,
    and_assoc]

theorem GroupEntry.succeeds_declared_iff {entry : GroupEntry} :
    Succeeds entry.declared ↔ ∀ expression ∈ entry.expressions, expression.Denotes := by
  have parts : Succeeds entry.declared ↔
      Succeeds (entry.converters.mapM ConverterEntry.declared) ∧
        Succeeds (typeOf [] entry.declaringType) :=
    succeeds_bind_iff fun _ => succeeds_bind_pure_iff
  rw [parts, succeeds_mapM_iff, succeeds_typeOf_iff]
  simp only [expressions, List.forall_mem_append, List.forall_mem_flatMap,
    List.forall_mem_singleton, ConverterEntry.succeeds_declared_iff]

theorem ParameterEntry.succeeds_declared_iff {scope : List String} {entry : ParameterEntry} :
    Succeeds (entry.declared scope) ↔
      ∀ expression ∈ entry.expressions scope, expression.Denotes := by
  have parts : Succeeds (entry.declared scope) ↔
      (∀ group, entry.group = some group → Succeeds group.declared) ∧
        Succeeds (typeOf scope entry.type) := by
    unfold declared
    cases entry.group with
    | none =>
      refine succeeds_bind_pure_iff.trans (iff_and_self.2 fun _ _ same => ?_)
      cases same
    | some group =>
      refine (succeeds_bind_iff fun _ => succeeds_bind_pure_iff).trans (and_congr_left' ?_)
      simp only [Option.some.injEq, forall_eq']
  rw [parts, succeeds_typeOf_iff]
  simp only [expressions, List.forall_mem_append, List.forall_mem_flatMap,
    List.forall_mem_singleton, Option.mem_toList, GroupEntry.succeeds_declared_iff]

theorem ConstructorEntry.succeeds_declared_iff {entry : ConstructorEntry} :
    Succeeds entry.declared ↔ ∀ expression ∈ entry.expressions, expression.Denotes := by
  have parts : Succeeds entry.declared ↔ Succeeds entry.target.declared ∧
      Succeeds (entry.parameters.mapM
        (ParameterEntry.declared (scopeOf entry.target.typeParameters))) :=
    succeeds_bind_iff fun _ => succeeds_bind_pure_iff
  rw [parts, succeeds_mapM_iff, TargetEntry.succeeds_declared_iff]
  simp only [expressions, List.forall_mem_append, List.forall_mem_flatMap,
    ParameterEntry.succeeds_declared_iff]

/-! ### What is mentioned -/

/-- The bounds of type parameters mention no others than those declared together. -/
def BoundsDeclared (declared : List TypeParameter) : Prop :=
  ∀ parameter ∈ declared, ∀ bound ∈ parameter.constraints.bounds, bound.DeclaredIn declared

section

variable {entries : List TypeParameterEntry} {declared : List TypeParameter}
  (declares : declaredTypeParameters entries = .ok declared)

include declares

theorem map_name_declaredTypeParameters : declared.map (·.name) = scopeOf entries := by
  refine map_eq_of_mapM declares fun entry _ parameter isParameter => ?_
  obtain ⟨bounds, -, same⟩ := exists_of_bind_eq_ok isParameter
  cases same
  rfl

theorem declaredIn_of_typeOf {text : String} {type : TypeTerm}
    (denotes : typeOf (scopeOf entries) text = .ok type) : type.DeclaredIn declared := by
  intro name occurs
  rw [map_name_declaredTypeParameters declares]
  exact TypeExpression.occurrences_subset_of_typeOf (typeOf_eq_ok_iff.1 denotes) occurs

theorem boundsDeclared_declaredTypeParameters : BoundsDeclared declared := by
  intro parameter isParameter bound isBound
  obtain ⟨entry, -, isDeclared⟩ := exists_of_mapM_eq_ok declares isParameter
  obtain ⟨bounds, areBounds, same⟩ := exists_of_bind_eq_ok isDeclared
  cases same
  obtain ⟨text, -, denotes⟩ := exists_of_mapM_eq_ok areBounds isBound
  exact declaredIn_of_typeOf declares denotes

end

end Document

open Document (BoundsDeclared)

/-- A converter declares the type parameters in its parameter types, its return type and its
bounds. -/
structure Converter.SelfContained (converter : Converter) : Prop where
  closed : converter.Closed
  bounds : BoundsDeclared converter.typeParameters

/-- The converters of a group declare what they mention, and the type that declares them mentions
nothing. -/
structure ConverterGroup.SelfContained (group : ConverterGroup) : Prop where
  declaringType : group.declaringType.occurrences = []
  converters : ∀ converter ∈ group.converters, converter.SelfContained

/-- The target declares the type parameters in the parameter types of the constructor and in its
own bounds, and groups of converters stand on their own. -/
structure Declaration.SelfContained (declaration : Declaration) : Prop where
  parameters : ∀ parameter ∈ declaration.constructor.parameters,
    parameter.type.DeclaredIn declaration.target.typeParameters
  bounds : BoundsDeclared declaration.target.typeParameters
  groups : ∀ parameter ∈ declaration.constructor.parameters, ∀ group,
    parameter.group = some group → group.SelfContained

namespace Document

theorem ConverterEntry.selfContained_declared {entry : ConverterEntry} {converter : Converter}
    (declares : entry.declared = .ok converter) : converter.SelfContained := by
  obtain ⟨typeParameters, areDeclared, further⟩ := exists_of_bind_eq_ok declares
  obtain ⟨parameters, areParameters, further⟩ := exists_of_bind_eq_ok further
  obtain ⟨returnType, isReturnType, same⟩ := exists_of_bind_eq_ok further
  cases same
  refine ⟨List.forall_mem_cons.2 ⟨declaredIn_of_typeOf areDeclared isReturnType,
    List.forall_mem_map.2 fun parameter isParameter => ?_⟩,
    boundsDeclared_declaredTypeParameters areDeclared⟩
  obtain ⟨⟨name, text⟩, -, isDeclared⟩ := exists_of_mapM_eq_ok areParameters isParameter
  obtain ⟨type, isType, same⟩ := exists_of_bind_eq_ok isDeclared
  cases same
  exact declaredIn_of_typeOf areDeclared isType

theorem GroupEntry.selfContained_declared {entry : GroupEntry} {group : ConverterGroup}
    (declares : entry.declared = .ok group) : group.SelfContained := by
  obtain ⟨converters, areConverters, further⟩ := exists_of_bind_eq_ok declares
  obtain ⟨declaringType, isType, same⟩ := exists_of_bind_eq_ok further
  cases same
  refine ⟨List.subset_nil.1 (TypeExpression.occurrences_subset_of_typeOf
    (typeOf_eq_ok_iff.1 isType)), fun converter isConverter => ?_⟩
  obtain ⟨entry, -, isDeclared⟩ := exists_of_mapM_eq_ok areConverters isConverter
  exact entry.selfContained_declared isDeclared

theorem ParameterEntry.of_declared {scope : List String} {entry : ParameterEntry}
    {parameter : Parameter} (declares : entry.declared scope = .ok parameter) :
    typeOf scope entry.type = .ok parameter.type ∧
      ∀ group, parameter.group = some group → group.SelfContained := by
  unfold declared at declares
  cases hasGroup : entry.group with
  | none =>
    rw [hasGroup] at declares
    change (typeOf scope entry.type >>= _) = _ at declares
    obtain ⟨type, isType, same⟩ := exists_of_bind_eq_ok declares
    cases same
    exact ⟨isType, fun _ isGroup => nomatch isGroup⟩
  | some groupEntry =>
    rw [hasGroup] at declares
    obtain ⟨group, isDeclared, further⟩ := exists_of_bind_eq_ok declares
    change (typeOf scope entry.type >>= _) = _ at further
    obtain ⟨type, isType, same⟩ := exists_of_bind_eq_ok further
    cases same
    refine ⟨isType, fun declared isGroup => ?_⟩
    cases isGroup
    exact groupEntry.selfContained_declared isDeclared

section

variable {entry : ConstructorEntry} {declaration : Declaration}
  (declares : entry.declared = .ok declaration)

include declares

theorem ConstructorEntry.root_declared : declaration.root = entry.root := by
  obtain ⟨target, -, further⟩ := exists_of_bind_eq_ok declares
  obtain ⟨parameters, -, same⟩ := exists_of_bind_eq_ok further
  cases same
  rfl

theorem ConstructorEntry.customCreateMethodName_declared
    (named : declaration.createMethodName.isSome = true) :
    declaration.options.customCreateMethodName = true := by
  obtain ⟨target, -, further⟩ := exists_of_bind_eq_ok declares
  obtain ⟨parameters, -, same⟩ := exists_of_bind_eq_ok further
  cases same
  exact Bool.or_eq_true_iff.2 (Or.inr named)

theorem ConstructorEntry.selfContained_declared : declaration.SelfContained := by
  obtain ⟨target, isTarget, further⟩ := exists_of_bind_eq_ok declares
  obtain ⟨parameters, areParameters, same⟩ := exists_of_bind_eq_ok further
  cases same
  obtain ⟨typeParameters, areDeclared, same⟩ := exists_of_bind_eq_ok isTarget
  cases same
  have each : ∀ parameter ∈ parameters,
      parameter.type.DeclaredIn typeParameters ∧
        ∀ group, parameter.group = some group → group.SelfContained := by
    intro parameter isParameter
    obtain ⟨entry, -, isDeclared⟩ := exists_of_mapM_eq_ok areParameters isParameter
    obtain ⟨isType, selfContained⟩ := entry.of_declared isDeclared
    exact ⟨declaredIn_of_typeOf areDeclared isType, selfContained⟩
  exact ⟨fun parameter isParameter => (each parameter isParameter).1,
    boundsDeclared_declaredTypeParameters areDeclared,
    fun parameter isParameter => (each parameter isParameter).2⟩

end

/-! ### Roots -/

/-- The qualified name of a root does not depend on its type parameters. -/
theorem qualifiedName_congr {root other : Root} (name : root.name = other.name)
    (space : root.space = other.space) : root.qualifiedName = other.qualifiedName := by
  rw [Root.qualifiedName, Root.qualifiedName, Root.asType, Root.asType, name, space,
    TypeTerm.qualified, TypeTerm.qualified]
  cases other.space.filter (· ≠ "") <;> rfl

theorem qualifiedName_declared {entry : RootEntry} {root : Root}
    (declared : entry.declared = .ok root) : root.qualifiedName = entry.root.qualifiedName := by
  obtain ⟨typeParameters, -, isRoot⟩ := exists_of_bind_eq_ok declared
  cases isRoot
  exact qualifiedName_congr rfl rfl

theorem any_qualifiedName_iff {roots : List Root} {name : String} :
    roots.any (·.qualifiedName == name) = true ↔ name ∈ roots.map Root.qualifiedName := by
  rw [List.any_eq_true, List.mem_map]
  simp only [beq_iff_eq]

/-- Roots are declared one by one, as long as their names are different. -/
theorem declaredRoots_eq_ok_iff {earlier roots : List Root} {entries : List RootEntry}
    (distinct : (earlier.map Root.qualifiedName).Nodup) :
    declaredRoots earlier entries = .ok roots ↔
      ∃ further, entries.mapM RootEntry.declared = .ok further ∧ roots = earlier ++ further ∧
        (roots.map Root.qualifiedName).Nodup := by
  induction entries generalizing earlier with
  | nil =>
    simp only [declaredRoots, List.mapM_nil, pure, Except.pure, Except.ok.injEq, exists_eq_left',
      List.append_nil]
    exact ⟨fun same => same ▸ ⟨rfl, distinct⟩, fun ⟨same, _⟩ => same.symm⟩
  | cons entry rest inductionHypothesis =>
    rw [declaredRoots, List.mapM_cons]
    simp only [cons_eq_ok_iff]
    cases isRoot : entry.declared with
    | error problem =>
      refine iff_of_false (fun declares => nomatch declares) ?_
      rintro ⟨_, ⟨_, _, isFirst, -⟩, -⟩
      cases isFirst
    | ok root =>
      have names : ∀ further, (earlier ++ root :: further).map Root.qualifiedName =
          earlier.map Root.qualifiedName ++
            root.qualifiedName :: further.map Root.qualifiedName := fun _ => by
        rw [List.map_append, List.map_cons]
      show (if _ then _ else declaredRoots (earlier ++ [root]) rest) = .ok roots ↔ _
      by_cases isThere : root.qualifiedName ∈ earlier.map Root.qualifiedName
      · rw [if_pos (any_qualifiedName_iff.2 isThere)]
        refine iff_of_false (fun declares => nomatch declares) ?_
        rintro ⟨_, ⟨_, further, isFirst, -, rfl⟩, rfl, apart⟩
        cases isFirst
        rw [names] at apart
        exact (List.nodup_append.1 apart).2.2 _ isThere _ List.mem_cons_self rfl
      · have isNew : ((earlier ++ [root]).map Root.qualifiedName).Nodup := by
          rw [List.map_append, List.map_singleton]
          exact List.concat_eq_append ▸ distinct.concat isThere
        rw [if_neg (mt any_qualifiedName_iff.1 isThere), inductionHypothesis isNew]
        constructor
        · rintro ⟨further, areRest, rfl, apart⟩
          exact ⟨root :: further, ⟨root, further, rfl, areRest, rfl⟩,
            (List.append_cons _ _ _).symm, apart⟩
        · rintro ⟨_, ⟨_, further, isFirst, areRest, rfl⟩, rfl, apart⟩
          cases isFirst
          exact ⟨further, areRest, List.append_cons _ _ _, apart⟩

/-- Constructors are declared one by one, as long as their roots are there. -/
theorem mapM_declaredFor_eq_ok_iff {roots : List Root} {entries : List ConstructorEntry}
    {declarations : List Declaration} :
    entries.mapM (declaredFor roots) = .ok declarations ↔
      (∀ entry ∈ entries, entry.root ∈ roots.map Root.qualifiedName) ∧
        entries.mapM ConstructorEntry.declared = .ok declarations := by
  have each : ∀ entry declaration, declaredFor roots entry = .ok declaration ↔
      entry.root ∈ roots.map Root.qualifiedName ∧ entry.declared = .ok declaration := by
    intro entry declaration
    unfold declaredFor
    by_cases isThere : entry.root ∈ roots.map Root.qualifiedName
    · rw [if_pos (any_qualifiedName_iff.2 isThere)]
      exact (and_iff_right isThere).symm
    · rw [if_neg (mt any_qualifiedName_iff.1 isThere)]
      exact iff_of_false (fun declares => nomatch declares) fun both => isThere both.1
  induction entries generalizing declarations with
  | nil => simp
  | cons first rest inductionHypothesis =>
    rw [List.mapM_cons, List.mapM_cons, cons_eq_ok_iff, cons_eq_ok_iff, List.forall_mem_cons]
    simp only [each, inductionHypothesis]
    constructor
    · rintro ⟨declaration, others, ⟨isThere, isFirst⟩, ⟨areThere, areRest⟩, same⟩
      exact ⟨⟨isThere, areThere⟩, declaration, others, isFirst, areRest, same⟩
    · rintro ⟨⟨isThere, areThere⟩, declaration, others, isFirst, areRest, same⟩
      exact ⟨declaration, others, ⟨isThere, isFirst⟩, ⟨areThere, areRest⟩, same⟩

/-- What a document has to be to have the given sections. -/
theorem sections_eq_ok_iff {document : Document} {sections : List Section} :
    document.sections = .ok sections ↔
      ∃ roots declarations, document.roots.mapM RootEntry.declared = .ok roots ∧
        (roots.map Root.qualifiedName).Nodup ∧
        (∀ entry ∈ document.constructors, entry.root ∈ roots.map Root.qualifiedName) ∧
        document.constructors.mapM ConstructorEntry.declared = .ok declarations ∧
        sections = roots.map fun root =>
          ⟨root, declarations.filter fun declaration =>
            declaration.root == root.qualifiedName⟩ := by
  have started : ∀ roots, declaredRoots [] document.roots = .ok roots ↔
      document.roots.mapM RootEntry.declared = .ok roots ∧
        (roots.map Root.qualifiedName).Nodup := by
    intro roots
    rw [declaredRoots_eq_ok_iff (by exact List.nodup_nil)]
    simp only [List.nil_append, exists_eq_left', and_left_comm]
  constructor
  · intro declares
    obtain ⟨roots, areRoots, further⟩ := exists_of_bind_eq_ok declares
    obtain ⟨declarations, areDeclarations, same⟩ := exists_of_bind_eq_ok further
    obtain ⟨areRoots, distinct⟩ := (started roots).1 areRoots
    obtain ⟨areThere, areDeclarations⟩ := mapM_declaredFor_eq_ok_iff.1 areDeclarations
    exact ⟨roots, declarations, areRoots, distinct, areThere, areDeclarations,
      (Except.ok.inj same).symm⟩
  · rintro ⟨roots, declarations, areRoots, distinct, areThere, areDeclarations, rfl⟩
    rw [sections, (started roots).2 ⟨areRoots, distinct⟩]
    show (document.constructors.mapM (declaredFor roots) >>= _) = _
    rw [mapM_declaredFor_eq_ok_iff.2 ⟨areThere, areDeclarations⟩]
    rfl

theorem map_qualifiedName_declared {entries : List RootEntry} {roots : List Root}
    (declare : entries.mapM RootEntry.declared = .ok roots) :
    roots.map Root.qualifiedName = entries.map (·.root.qualifiedName) :=
  map_eq_of_mapM declare fun _ _ _ => qualifiedName_declared

/-- A document has a section for each of its roots, in order. -/
theorem map_qualifiedName_sections {document : Document} {sections : List Section}
    (declares : document.sections = .ok sections) :
    sections.map (·.root.qualifiedName) = document.roots.map (·.root.qualifiedName) := by
  obtain ⟨roots, declarations, areRoots, -, -, -, rfl⟩ := sections_eq_ok_iff.1 declares
  rw [List.map_map]
  exact map_qualifiedName_declared areRoots

end Document

/-! ### Sections -/

namespace Document

/-- The sections sort the constructors of a document by their roots. -/
structure Sorts (document : Document) (sections : List Section) : Prop where
  /-- The roots are those of the document, in order. -/
  roots : document.roots.mapM RootEntry.declared = .ok (sections.map (·.root))
  distinct : (sections.map (·.root.qualifiedName)).Nodup
  /-- A section holds what the constructors declare that refer to its root, in order. -/
  declarations : ∀ part ∈ sections,
    (document.constructors.filter (·.root = part.root.qualifiedName)).mapM
      ConstructorEntry.declared = .ok part.declarations
  /-- What the constructors declare is in one section each. -/
  complete : ∃ declarations,
    document.constructors.mapM ConstructorEntry.declared = .ok declarations ∧
      (sections.flatMap (·.declarations)).Perm declarations
  selfContained : ∀ part ∈ sections, ∀ declaration ∈ part.declarations,
    declaration.SelfContained
  /-- A name for the create method counts as asked for. -/
  named : ∀ part ∈ sections, ∀ declaration ∈ part.declarations,
    declaration.createMethodName.isSome = true →
      declaration.options.customCreateMethodName = true

/-- Something is wrong with a document. -/
inductive IsBroken (document : Document) : Prop where
  | repeatedRoot (repeated : ¬(document.roots.map (·.root.qualifiedName)).Nodup)
  | unknownRoot (entry : ConstructorEntry) (isEntry : entry ∈ document.constructors)
      (unknown : entry.root ∉ document.roots.map (·.root.qualifiedName))
  | expression (expression : Expression) (isThere : expression ∈ document.expressions)
      (meaningless : ¬expression.Denotes)

/-- A document that makes sense has sections that sort its constructors; only a document that is
broken has none. -/
structure SortsConstructors (document : Document) : Prop where
  sorts : ∀ sections, document.sections = .ok sections → document.Sorts sections
  fails : (∃ problem, document.sections = .error problem) ↔ document.IsBroken

theorem not_isBroken_iff {document : Document} :
    ¬document.IsBroken ↔ (document.roots.map (·.root.qualifiedName)).Nodup ∧
      (∀ entry ∈ document.constructors,
        entry.root ∈ document.roots.map (·.root.qualifiedName)) ∧
      ∀ expression ∈ document.expressions, expression.Denotes := by
  constructor
  · intro whole
    refine ⟨?_, fun entry isEntry => ?_, fun expression isThere => ?_⟩ <;> by_contra wrong
    · exact whole (.repeatedRoot wrong)
    · exact whole (.unknownRoot entry isEntry wrong)
    · exact whole (.expression expression isThere wrong)
  · rintro ⟨distinct, areThere, denote⟩ (repeated | ⟨entry, isEntry, unknown⟩ |
      ⟨expression, isThere, meaningless⟩)
    · exact repeated distinct
    · exact unknown (areThere entry isEntry)
    · exact meaningless (denote expression isThere)

/-- A document has sections unless something is wrong with it. -/
theorem succeeds_sections_iff {document : Document} :
    Succeeds document.sections ↔ ¬document.IsBroken := by
  have denote : (∀ expression ∈ document.expressions, expression.Denotes) ↔
      Succeeds (document.roots.mapM RootEntry.declared) ∧
        Succeeds (document.constructors.mapM ConstructorEntry.declared) := by
    simp only [expressions, List.forall_mem_append, List.forall_mem_flatMap, succeeds_mapM_iff,
      RootEntry.succeeds_declared_iff, ConstructorEntry.succeeds_declared_iff]
  rw [not_isBroken_iff, denote]
  constructor
  · rintro ⟨sections, declares⟩
    obtain ⟨roots, declarations, areRoots, distinct, areThere, areDeclarations, -⟩ :=
      sections_eq_ok_iff.1 declares
    rw [map_qualifiedName_declared areRoots] at distinct areThere
    exact ⟨distinct, areThere, ⟨roots, areRoots⟩, declarations, areDeclarations⟩
  · rintro ⟨distinct, areThere, ⟨roots, areRoots⟩, declarations, areDeclarations⟩
    rw [← map_qualifiedName_declared areRoots] at distinct areThere
    exact ⟨_, sections_eq_ok_iff.2
      ⟨roots, declarations, areRoots, distinct, areThere, areDeclarations, rfl⟩⟩

theorem sorts_sections {document : Document} {sections : List Section}
    (declares : document.sections = .ok sections) : document.Sorts sections := by
  obtain ⟨roots, declarations, areRoots, distinct, areThere, areDeclarations, rfl⟩ :=
    sections_eq_ok_iff.1 declares
  have declared : ∀ declaration ∈ declarations, ∃ entry ∈ document.constructors,
      entry.declared = .ok declaration := fun _ => exists_of_mapM_eq_ok areDeclarations
  have inSection : ∀ part ∈ roots.map fun root => Section.mk root
      (declarations.filter (·.root == root.qualifiedName)),
        ∀ declaration ∈ part.declarations, declaration ∈ declarations := by
    intro part isPart declaration isDeclaration
    obtain ⟨root, -, rfl⟩ := List.mem_map.1 isPart
    exact (List.mem_filter.1 isDeclaration).1
  refine ⟨?_, ?_, ?_, ⟨declarations, areDeclarations, ?_⟩, ?_, ?_⟩
  · rw [List.map_map, areRoots]
    exact congrArg Except.ok (List.map_id roots).symm
  · rw [List.map_map]
    exact distinct
  · intro part isPart
    obtain ⟨root, -, rfl⟩ := List.mem_map.1 isPart
    refine mapM_filter areDeclarations fun entry _ declaration declares => ?_
    rw [ConstructorEntry.root_declared declares]
    rfl
  · have covered : ∀ declaration ∈ declarations,
        declaration.root ∈ roots.map Root.qualifiedName := by
      intro declaration isDeclaration
      obtain ⟨entry, isEntry, declares⟩ := declared declaration isDeclaration
      exact ConstructorEntry.root_declared declares ▸ areThere entry isEntry
    rw [List.flatMap_map]
    have parted := Lists.flatMap_filter_perm Declaration.root distinct covered
    rw [List.flatMap_map] at parted
    exact parted
  · intro part isPart declaration isDeclaration
    obtain ⟨entry, -, declares⟩ := declared declaration (inSection part isPart _ isDeclaration)
    exact ConstructorEntry.selfContained_declared declares
  · intro part isPart declaration isDeclaration
    obtain ⟨entry, -, declares⟩ := declared declaration (inSection part isPart _ isDeclaration)
    exact ConstructorEntry.customCreateMethodName_declared declares

theorem sortsConstructors_sections (document : Document) : document.SortsConstructors where
  sorts _ := sorts_sections
  fails := by rw [← not_succeeds_iff, succeeds_sections_iff, not_not]

end Document

end StagedBuilder
