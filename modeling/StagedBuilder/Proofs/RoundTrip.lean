/-
This file shows that the records of a declaration survive writing and reading:
reading the JSON form of a declaration, of a root or of a type gives the same
declaration, root or type back. What is left out of the written form is exactly
what reading fills in: a type without a name space, a type without arguments, and
a type parameter without constraints.

The records are taken from the innermost outwards. Arguments of a type are read
under a wider rule than the type itself, so types are read back under both.
-/

import StagedBuilder.Proofs.RecordReading
import StagedBuilder.Proofs.Substitution

namespace StagedBuilder

open Json (exists_read record?_object optional?_ofOption listOf?_ofList)

/-! ### Types -/

namespace TypeTerm

theorem allToJson_eq_map (types : List TypeTerm) : allToJson types = types.map toJson := by
  induction types with
  | nil => rfl
  | cons first rest inductionHypothesis => rw [allToJson, inductionHypothesis, List.map_cons]

theorem readAll?_allToJson {types : List TypeTerm}
    (gives : ∀ type ∈ types, read? true type.toJson = some type) :
    readAll? (allToJson types) = some types := by
  induction types with
  | nil => rfl
  | cons first rest inductionHypothesis =>
    rw [allToJson, readAll?, gives first List.mem_cons_self,
      inductionHypothesis fun type member => gives type (List.mem_cons_of_mem _ member)]
    rfl

/-- A type is given back, as an argument and on its own. -/
theorem read?_toJson (asArgument : Bool) (type : TypeTerm) :
    read? asArgument type.toJson = some type := by
  induction type using inductionOn generalizing asArgument with
  | named space name arguments inductionHypothesis =>
    have read := readAll?_allToJson fun type member => inductionHypothesis type member true
    -- Name space and arguments may each be left out.
    cases space with
    | none =>
      cases arguments with
      | nil => rfl
      | cons first rest =>
        show (readAll? (allToJson (first :: rest))).bind
          (fun arguments => some (TypeTerm.named none name arguments)) = _
        rw [read, Option.bind_some]
    | some space =>
      cases arguments with
      | nil => rfl
      | cons first rest =>
        show (readAll? (allToJson (first :: rest))).bind
          (fun arguments => some (TypeTerm.named (some space) name arguments)) = _
        rw [read, Option.bind_some]
  | parameter name => rfl

@[simp]
theorem ofJson?_toJson (type : TypeTerm) : ofJson? type.toJson = some type :=
  read?_toJson false type

end TypeTerm

theorem Constraints.ofJson?_toJson (constraints : Constraints) :
    ofJson? constraints.toJson = some constraints := by
  simp [ofJson?, toJson, record?_object, listOf?_ofList]

/-- Constraints that demand nothing are the ones filled in for missing ones. -/
theorem Constraints.eq_of_isEmpty {constraints : Constraints}
    (isEmpty : constraints.isEmpty = true) : constraints = {} := by
  obtain ⟨valueType, referenceType, defaultConstructor, bounds⟩ := constraints
  simp_all [Constraints.isEmpty]

@[simp]
theorem TypeParameter.ofJson?_toJson (declared : TypeParameter) :
    ofJson? declared.toJson = some declared := by
  obtain ⟨name, constraints⟩ := declared
  by_cases isEmpty : constraints.isEmpty = true
  · rw [Constraints.eq_of_isEmpty isEmpty]
    rfl
  · simp [ofJson?, toJson, isEmpty, record?_object, Constraints.ofJson?_toJson]

/-! ### Places -/

theorem Location.ofJson?_toJson (location : Location) :
    ofJson? location.toJson = some location := by
  obtain ⟨line, lineWritten, lineRead⟩ := exists_read (Json.word32?_ofNat location.line)
  obtain ⟨column, columnWritten, columnRead⟩ := exists_read (Json.word32?_ofNat location.column)
  simp [ofJson?, toJson, record?_object, lineWritten, lineRead, columnWritten, columnRead]

/-! ### Roots and targets -/

theorem Root.ofJson?_toJson (root : Root) : ofJson? root.toJson = some root := by
  obtain ⟨location, written, read⟩ := exists_read root.location.ofJson?_toJson
  simp [ofJson?, toJson, record?_object, listOf?_ofList, written, read]

@[simp]
theorem Target.ofJson?_toJson (target : Target) : ofJson? target.toJson = some target := by
  obtain ⟨location, written, read⟩ := exists_read target.location.ofJson?_toJson
  simp [ofJson?, toJson, record?_object, listOf?_ofList, written, read]

/-! ### Documentation and converters -/

theorem Documentation.ofJson?_toJson (documentation : Documentation) :
    ofJson? documentation.toJson = some documentation := by
  simp [ofJson?, toJson, record?_object]

@[simp]
theorem Documentation.optional?_toJson (documentation : Option Documentation) :
    Json.optional? ofJson? (some (.ofOption toJson documentation)) = some documentation :=
  optional?_ofOption ofJson?_toJson rfl documentation

@[simp]
theorem ConverterParameter.ofJson?_toJson (parameter : ConverterParameter) :
    ofJson? parameter.toJson = some parameter := by
  simp [ofJson?, toJson, record?_object]

@[simp]
theorem Converter.ofJson?_toJson (converter : Converter) :
    ofJson? converter.toJson = some converter := by
  obtain ⟨priority, written, read⟩ := exists_read (Json.signed32?_integer converter.priority)
  simp [ofJson?, toJson, record?_object, listOf?_ofList, Location.ofJson?_toJson, written, read]

theorem ConverterGroup.ofJson?_toJson (group : ConverterGroup) :
    ofJson? group.toJson = some group := by
  obtain ⟨location, written, read⟩ := exists_read group.location.ofJson?_toJson
  simp [ofJson?, toJson, record?_object, listOf?_ofList, written, read]

@[simp]
theorem ConverterGroup.optional?_toJson (group : Option ConverterGroup) :
    Json.optional? ofJson? (some (.ofOption toJson group)) = some group :=
  optional?_ofOption ofJson?_toJson rfl group

/-! ### Constructors and declarations -/

@[simp]
theorem Parameter.ofJson?_toJson (parameter : Parameter) :
    ofJson? parameter.toJson = some parameter := by
  obtain ⟨priority, priorityWritten, priorityRead⟩ :=
    exists_read (Json.signed32?_integer parameter.priority)
  obtain ⟨location, written, read⟩ := exists_read parameter.location.ofJson?_toJson
  simp [ofJson?, toJson, record?_object, priorityWritten, priorityRead, written, read]

@[simp]
theorem Constructor.ofJson?_toJson (constructor : Constructor) :
    ofJson? constructor.toJson = some constructor := by
  obtain ⟨location, written, read⟩ := exists_read constructor.location.ofJson?_toJson
  simp [ofJson?, toJson, record?_object, listOf?_ofList, written, read]

@[simp]
theorem Options.ofJson?_toJson (options : Options) : ofJson? options.toJson = some options := by
  simp [ofJson?, toJson, record?_object]

theorem Declaration.ofJson?_toJson (declaration : Declaration) :
    ofJson? declaration.toJson = some declaration := by
  obtain ⟨location, written, read⟩ := exists_read declaration.attributeLocation.ofJson?_toJson
  simp [ofJson?, toJson, record?_object, written, read]

/-- Declarations, roots and types are given back by reading what writing makes of them. -/
theorem roundTrips_records :
    (∀ declaration : Declaration, Declaration.ofJson? declaration.toJson = some declaration) ∧
      (∀ root : Root, Root.ofJson? root.toJson = some root) ∧
      ∀ type : TypeTerm, TypeTerm.ofJson? type.toJson = some type :=
  ⟨Declaration.ofJson?_toJson, Root.ofJson?_toJson, TypeTerm.ofJson?_toJson⟩

end StagedBuilder
