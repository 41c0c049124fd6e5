/-
This file says when two constructors share the beginning of their way. The keys of their
first parameters have to meet: the types agree, and there is a method name common to both.
This is not enough, because a key goes down the first edge whose representative it meets,
and meeting is not transitive. A constructor planned earlier may have made an edge that the
one key meets and the other does not.

If at the time when the first of the two constructors is planned no such edge is there, both
go through the same nodes, whatever is planned in between and afterwards, and the methods
that supply their first parameters lie on one chain of places. Otherwise they part for good.
-/

import StagedBuilder.Proofs.Endings
import StagedBuilder.Proofs.PrefixMeeting

namespace StagedBuilder

open PrefixTree (Under Undivided Matching Gathers insertAll gathers_iff_undivided)

/-! ### Constructors whose first keys meet -/

namespace EdgeKey

variable {left right : EdgeKey}

theorem meets_iff : left.meets right = true ↔
    left.type = right.type ∧ ∃ name ∈ left.methodNames, name ∈ right.methodNames := by
  rw [meets, overlaps, Bool.and_eq_true, decide_eq_true_eq, List.any_eq_true]
  simp only [List.contains_iff_mem]

/-- Keys that meet have a method name, so each meets itself. -/
theorem meets_self_of_meets (meets : left.meets right = true) :
    left.meets left = true ∧ right.meets right = true := by
  obtain ⟨-, name, inLeft, inRight⟩ := meets_iff.1 meets
  exact ⟨meets_iff.2 ⟨rfl, name, inLeft, inLeft⟩, meets_iff.2 ⟨rfl, name, inRight, inRight⟩⟩

end EdgeKey

namespace ConstructorPlan

/-- The constructors have at least as many parameters as the depth says, and as far as this their
keys meet. -/
def AgreesWith (first second : ConstructorPlan) (depth : Nat) : Prop :=
  ∀ place < depth, ∃ key other, first.parameters[place]? = some key ∧
    second.parameters[place]? = some other ∧ key.key.meets other.key = true

variable {first second : ConstructorPlan} {depth : Nat}

theorem AgreesWith.le_length (agrees : first.AgreesWith second depth) :
    depth ≤ first.parameters.length ∧ depth ≤ second.parameters.length := by
  cases depth with
  | zero => exact ⟨Nat.zero_le _, Nat.zero_le _⟩
  | succ depth =>
    obtain ⟨key, other, isKey, isOther, -⟩ := agrees depth (Nat.lt_succ_self depth)
    exact ⟨(List.getElem?_eq_some_iff.1 isKey).1, (List.getElem?_eq_some_iff.1 isOther).1⟩

theorem AgreesWith.matching (agrees : first.AgreesWith second depth) :
    Matching (first.parameters.take depth) (second.parameters.take depth) := by
  obtain ⟨firstLong, secondLong⟩ := agrees.le_length
  have firstLength := List.length_take_of_le firstLong
  have secondLength := List.length_take_of_le secondLong
  refine List.forall₂_iff_get.2 ⟨firstLength.trans secondLength.symm, ?_⟩
  intro place inFirst inSecond
  obtain ⟨key, other, isKey, isOther, meets⟩ := agrees place (firstLength ▸ inFirst)
  obtain ⟨meetsKey, meetsOther⟩ := EdgeKey.meets_self_of_meets meets
  have atKey : (first.parameters.take depth).get ⟨place, inFirst⟩ = key := by
    rw [List.get_eq_getElem, List.getElem_take]
    exact (List.getElem?_eq_some_iff.1 isKey).2
  have atOther : (second.parameters.take depth).get ⟨place, inSecond⟩ = other := by
    rw [List.get_eq_getElem, List.getElem_take]
    exact (List.getElem?_eq_some_iff.1 isOther).2
  rw [atKey, atOther]
  exact ⟨meetsKey, meets, meetsOther⟩

end ConstructorPlan

/-! ### The tree -/

section

variable {plans before between after : List ConstructorPlan} {first second : ConstructorPlan}
  {depth : Nat}

theorem planTree_eq_insertAll (plans : List ConstructorPlan) :
    planTree plans = PrefixTree.empty.insertAll
      ((plans.filter ConstructorPlan.isUsable).map fun plan => (plan.parameters, plan)) := by
  rw [insertAll, List.foldl_map]
  rfl

/-- Two constructors whose first keys meet go through one node if and only if no edge that was
there when the first of them was inserted parts them. -/
theorem gathers_planTree_iff (distinct : (plans.map (·.id)).Nodup)
    (usable : plans.filter ConstructorPlan.isUsable =
      before ++ first :: (between ++ second :: after))
    (agrees : first.AgreesWith second depth) :
    (planTree plans).Gathers depth first second ↔
      Undivided (first.parameters.take depth) (second.parameters.take depth) (planTree before) := by
  have beforeUsable : before.filter ConstructorPlan.isUsable = before := by
    refine List.filter_eq_self.2 fun plan member => ?_
    have isUsable : plan ∈ plans.filter ConstructorPlan.isUsable := by
      rw [usable]
      exact List.mem_append_left _ member
    exact (List.mem_filter.1 isUsable).2
  have distinctUsable : (before ++ first :: (between ++ second :: after)).Nodup := by
    rw [← usable]
    exact distinct.of_map.filter _
  let entry : ConstructorPlan → List ParameterPlan × ConstructorPlan :=
    fun plan => (plan.parameters, plan)
  have entries : (plans.filter ConstructorPlan.isUsable).map entry =
      before.map entry ++ entry first ::
        (between.map entry ++ entry second :: after.map entry) := by
    rw [usable, List.map_append, List.map_cons, List.map_append, List.map_cons]
  have distinctEntries : (((plans.filter ConstructorPlan.isUsable).map entry).map (·.2)).Nodup := by
    rw [List.map_map]
    exact (List.map_id _).symm ▸ distinct.of_map.filter _
  rw [planTree_eq_insertAll, planTree_eq_insertAll, beforeUsable]
  show Gathers (insertAll ((plans.filter ConstructorPlan.isUsable).map entry) .empty) _ _ _ ↔ _
  rw [entries] at distinctEntries ⊢
  refine gathers_iff_undivided ?_ ?_ distinctEntries
  · exact agrees.le_length.1
  · exact agrees.matching

end

/-! ### The places that the constructors go through -/

/-- Up to a depth the methods for a constructor stand at the given places, each at the one for as
many parameters as have been supplied, and lead from one to the next. -/
structure Builder.GoesThrough (declarations : List Declaration) (builder : Builder)
    (stations : Nat → CallNode) (depth id : Nat) : Prop where
  supplied : ∀ node owner, builder.place? node = some owner → ∀ method ∈ owner.methods,
    ∀ source, method.source? = some source → source.constructor = id →
      (source.index ≤ depth → node = stations source.index) ∧
        (source.index < depth → method.result.node = stations (source.index + 1))
  created : ∀ node owner, builder.place? node = some owner → ∀ method ∈ owner.methods,
    method.creates? = some id → ∀ declaration, declarations[id]? = some declaration →
      declaration.constructor.parameters.length ≤ depth →
        node = stations declaration.constructor.parameters.length

/-- From the root to a depth the methods for two constructors lie on one chain of places. -/
def Builder.SharesPath (declarations : List Declaration) (builder : Builder)
    (depth first second : Nat) : Prop :=
  ∃ stations : Nat → CallNode, stations 0 = .root ∧
    builder.GoesThrough declarations stations depth first ∧
      builder.GoesThrough declarations stations depth second

/-- The parameter that a method supplies, by its constructor and its index, and where the method
leads. -/
def Method.edge? (method : Method) : Option (Nat × Nat × CallNode) :=
  method.source?.map fun source => (source.constructor, source.index, method.result.node)

/-- On a shared path, methods of the root that supply the same parameter lead to the same place. -/
theorem Builder.SharesPath.leads_alike {declarations : List Declaration} {builder : Builder}
    {depth first second index : Nat} (shares : builder.SharesPath declarations depth first second)
    (bound : index < depth) {node other : CallNode}
    (ofFirst : (first, index, node) ∈ builder.methods.filterMap Method.edge?)
    (ofSecond : (second, index, other) ∈ builder.methods.filterMap Method.edge?) :
    node = other := by
  obtain ⟨stations, -, goesFirst, goesSecond⟩ := shares
  have next : ∀ id, builder.GoesThrough declarations stations depth id →
      ∀ target, (id, index, target) ∈ builder.methods.filterMap Method.edge? →
        target = stations (index + 1) := by
    intro id goes target member
    obtain ⟨method, isMethod, isEdge⟩ := List.mem_filterMap.1 member
    obtain ⟨source, supplies, same⟩ := Option.map_eq_some_iff.1 isEdge
    cases same
    exact (goes.supplied .root _ rfl method isMethod source supplies rfl).2 bound
  rw [next first goesFirst node ofFirst, next second goesSecond other ofSecond]

namespace Builder.Survey

variable {naming : Naming} {root : Root} {declarations : List Declaration} {builder : Builder}
  (survey : builder.Survey naming root declarations) {stations : Nat → CallNode} {depth : Nat}

include survey

/-- A method that supplies a parameter of a constructor leads from a node to a child, both of them
above where the constructor ends and as deep as the parameter's index says. -/
theorem exists_marks_of_source? {place : CallNode} {method : Method}
    (placed : Placed naming survey.chart place method) {source : Source}
    (supplies : method.source? = some source) {plan : ConstructorPlan}
    (isPlan : plan ∈ survey.plans) (isConstructor : source.constructor = plan.id) :
    ∃ mark ∈ survey.chart, ∃ below ∈ survey.chart, mark.place = place ∧
      method.result.node = below.place ∧ mark.depth = source.index ∧
        below.depth = source.index + 1 ∧ plan ∈ mark.node.values ∧ plan ∈ below.node.values := by
  cases placed with
  | ending met here ends creatable isCreation =>
    rw [isCreation] at supplies
    cases supplies
  | @edge mark below key scope met here metBelow isChild deeper onEdge suppliesKey leads =>
    cases supplies.symm.trans suppliesKey
    obtain ⟨other, isOther, isBelow, earlier, later, parts, length⟩ :=
      survey.grown.carried (survey.surveyed.under survey.keyed met) isChild onEdge
    have declared := survey.allDeclared other isOther
    have onPlan : key ∈ other.parameters := by
      rw [parts]
      exact List.mem_append_right _ List.mem_cons_self
    have sameId : other.id = plan.id := (declared.constructor key onPlan).symm.trans isConstructor
    have atDepth : key.key.index = mark.depth :=
      (declared.index earlier key later parts).trans length
    obtain rfl := survey.plan_eq isOther isPlan sameId
    exact ⟨mark, met, below, metBelow, here, leads, atDepth.symm,
      deeper.trans (congrArg (· + 1) atDepth.symm),
      PrefixTree.mem_values_of_child isChild isBelow, isBelow⟩

/-- A constructor goes through the places of the nodes that it is at or below. -/
theorem goesThrough {plan : ConstructorPlan} (isPlan : plan ∈ survey.plans)
    (stationed : ∀ mark ∈ survey.chart, plan ∈ mark.node.values → mark.depth ≤ depth →
      mark.place.mapStep survey.number = stations mark.depth) :
    builder.GoesThrough declarations stations depth plan.id where
  supplied node owner found method member source supplies isConstructor := by
    obtain ⟨start, before, rfl, rfl, placed⟩ := survey.placed found member
    rw [Method.source?_mapStep] at supplies
    obtain ⟨mark, met, below, metBelow, rfl, leads, atDepth, deeper, holds, holdsBelow⟩ :=
      survey.exists_marks_of_source? placed supplies isPlan isConstructor
    rw [Method.node_mapStep, leads, ← deeper, ← atDepth]
    refine ⟨stationed mark met holds, fun bound => stationed below metBelow holdsBelow ?_⟩
    rw [deeper, ← atDepth]
    exact bound
  created node owner found method member creates declaration isDeclared bound := by
    obtain ⟨start, before, rfl, rfl, placed⟩ := survey.placed found member
    rw [Method.creates?_mapStep] at creates
    obtain ⟨mark, met, rfl, other, ends, sameId, -⟩ := placed.exists_mark_of_creates? creates
    obtain ⟨isOther, length⟩ := survey.ends met ends
    obtain rfl := survey.plan_eq isOther isPlan sameId
    have declared := survey.allDeclared other isOther
    cases isDeclared.symm.trans declared.declared
    rw [← declared.length_parameters, length] at bound ⊢
    exact stationed mark met (PrefixTree.mem_values.2 (Or.inl ends)) bound

/-- Constructors that are at or below one node share the path to it. -/
theorem sharesPath {first second : ConstructorPlan} (isFirst : first ∈ survey.plans)
    (isSecond : second ∈ survey.plans) (gathers : survey.tree.Gathers depth first second) :
    builder.SharesPath declarations depth first.id second.id := by
  have marked : ∀ place, ∃ node, place ≤ depth → ∃ mark ∈ survey.chart, mark.depth = place ∧
      first ∈ mark.node.values ∧ second ∈ mark.node.values ∧
        mark.place.mapStep survey.number = node := by
    intro place
    by_cases bound : place ≤ depth
    · obtain ⟨above, node, under, length, holdsFirst, holdsSecond⟩ := gathers.of_le bound
      obtain ⟨mark, met, rfl, rfl⟩ := survey.surveyed.exists_mark survey.keyed under
      exact ⟨_, fun _ => ⟨mark, met, length, holdsFirst, holdsSecond, rfl⟩⟩
    · exact ⟨.root, fun within => absurd within bound⟩
  choose stations isStation using marked
  have stationed : ∀ plan, (plan = first ∨ plan = second) → ∀ mark ∈ survey.chart,
      plan ∈ mark.node.values → mark.depth ≤ depth →
        mark.place.mapStep survey.number = stations mark.depth := by
    intro plan which mark met holds bound
    obtain ⟨station, metStation, sameDepth, holdsFirst, holdsSecond, isPlace⟩ :=
      isStation mark.depth bound
    have holdsPlan : plan ∈ station.node.values := by
      rcases which with rfl | rfl
      · exact holdsFirst
      · exact holdsSecond
    rw [← isPlace, survey.mark_eq metStation met sameDepth holdsPlan holds]
  have atRoot : stations 0 = .root := by
    obtain ⟨mark, met, -, holdsFirst, -, -⟩ := isStation 0 (Nat.zero_le depth)
    have inTree : first ∈ survey.tree.values :=
      PrefixTree.mem_values_of_mem_visits (survey.surveyed.visits ▸ List.mem_map_of_mem met)
        holdsFirst
    exact (stationed first (Or.inl rfl) _ survey.surveyed.root inTree (Nat.zero_le depth)).symm
  exact ⟨stations, atRoot, survey.goesThrough isFirst (stationed first (Or.inl rfl)),
    survey.goesThrough isSecond (stationed second (Or.inr rfl))⟩

end Builder.Survey

/-! ### Builders of declarations -/

section

variable {system : TypeSystem} {naming : Naming} {declarations : List Declaration}
  {before between after : List ConstructorPlan} {first second : ConstructorPlan} {depth : Nat}

/-- Where nothing can be called every path is shared. -/
theorem Builder.sharesPath_of_empty {builder : Builder} (noMethods : builder.methods = [])
    (noSteps : builder.steps = []) (depth first second : Nat) :
    builder.SharesPath declarations depth first second := by
  have nothing : ∀ node owner, builder.place? node = some owner → owner.methods = [] := by
    intro node owner found
    cases node with
    | root =>
      cases found
      exact noMethods
    | step index =>
      obtain ⟨step, isStep, -⟩ := Option.map_eq_some_iff.1 found
      rw [Builder.step?, noSteps] at isStep
      cases isStep
    | target constructor => cases found
  have goes : ∀ id, builder.GoesThrough declarations (fun _ => .root) depth id := by
    intro id
    constructor
    · intro node owner found method member
      rw [nothing node owner found] at member
      exact absurd member List.not_mem_nil
    · intro node owner found method member
      rw [nothing node owner found] at member
      exact absurd member List.not_mem_nil
  exact ⟨fun _ => .root, rfl, goes first, goes second⟩

/-- Constructors that go through one node share the path to it in the builder. -/
theorem sharesPath_assemble (system : TypeSystem) (naming : Naming) (root : Root)
    (declarations : List Declaration)
    (isFirst : first ∈ (planAll system naming declarations).filter ConstructorPlan.isUsable)
    (isSecond : second ∈ (planAll system naming declarations).filter ConstructorPlan.isUsable)
    (gathers : (planTree (planAll system naming declarations)).Gathers depth first second) :
    (assemble system naming root declarations).SharesPath declarations depth first.id
      second.id := by
  by_cases refused : (Validation.findings root declarations).any Diagnostic.isError = true
  · rw [assemble_of_refused refused]
    exact Builder.sharesPath_of_empty rfl rfl depth first.id second.id
  · rw [assemble_of_accepted refused]
    obtain ⟨survey, isOrigin⟩ := exists_surveyOfValid system naming root declarations
    have samePlans : survey.plans = (planAll system naming declarations).filter
        ConstructorPlan.isUsable := congrArg Builder.Origin.plans isOrigin
    have sameTree : survey.tree = planTree (planAll system naming declarations) :=
      congrArg Builder.Origin.tree isOrigin
    rw [← samePlans] at isFirst isSecond
    rw [← sameTree] at gathers
    let withFindings : Builder.Survey naming root declarations
        { assembleValid system naming root declarations with
          diagnostics := Validation.findings root declarations ++
            (assembleValid system naming root declarations).diagnostics } :=
      { survey with methods := survey.methods, steps := survey.steps }
    exact withFindings.sharesPath isFirst isSecond gathers

/-- Two constructors whose first keys meet go through one node of the tree if and only if no edge
that was there when the first of them was inserted parts them, and then they share the path to
it, whatever else is declared. -/
theorem merges_assemble (system : TypeSystem) (naming : Naming) (root : Root)
    (declarations : List Declaration)
    (usable : (planAll system naming declarations).filter ConstructorPlan.isUsable =
      before ++ first :: (between ++ second :: after))
    (agrees : first.AgreesWith second depth) :
    ((planTree (planAll system naming declarations)).Gathers depth first second ↔
        Undivided (first.parameters.take depth) (second.parameters.take depth)
          (planTree before)) ∧
      (Undivided (first.parameters.take depth) (second.parameters.take depth)
          (planTree before) →
        (assemble system naming root declarations).SharesPath declarations depth first.id
          second.id) := by
  have meeting := gathers_planTree_iff
    (nodup_map_id (pairwise_id_planAll system naming declarations)) usable agrees
  refine ⟨meeting, fun undivided => sharesPath_assemble system naming root declarations ?_ ?_
    (meeting.2 undivided)⟩
  · rw [usable]
    exact List.mem_append_right _ List.mem_cons_self
  · rw [usable]
    refine List.mem_append_right _ (List.mem_cons_of_mem _ ?_)
    exact List.mem_append_right _ List.mem_cons_self

end

/-- A constructor with the given parameters. -/
def Declaration.taking (target : String) (parameters : List Parameter) : Declaration where
  constructor := { target := .bare none target, parameters }
  root := "Shop"

/-- A number that is supplied as it is. -/
def Parameter.number (name : String) : Parameter where
  name
  type := .simple "Int"

/-- The second and the fourth constructor begin alike, whatever is declared before and between. -/
theorem merges_assemble_alike :
    let order := Declaration.taking "Order" [.number "id"]
    let gift := Declaration.taking "Gift" [.number "id", .number "sender"]
    let parcel := Declaration.taking "Parcel" [.number "weight"]
    let invoice := Declaration.taking "Invoice" [.number "id", .number "total"]
    let declarations := [order, gift, parcel, invoice]
    (planAll {} {} declarations).filter ConstructorPlan.isUsable =
        [order.plan {} {} 0] ++ gift.plan {} {} 1 ::
          ([parcel.plan {} {} 2] ++ invoice.plan {} {} 3 :: []) ∧
      (gift.plan {} {} 1).AgreesWith (invoice.plan {} {} 3) 1 ∧
        (planTree (planAll {} {} declarations)).Gathers 1 (gift.plan {} {} 1)
            (invoice.plan {} {} 3) ∧
          (assemble {} {} (.marked none "Shop") declarations).SharesPath declarations 1 1 3 := by
  intro order gift parcel invoice declarations
  have usable : (planAll {} {} declarations).filter ConstructorPlan.isUsable =
      [order.plan {} {} 0] ++ gift.plan {} {} 1 ::
        ([parcel.plan {} {} 2] ++ invoice.plan {} {} 3 :: []) := rfl
  have agrees : (gift.plan {} {} 1).AgreesWith (invoice.plan {} {} 3) 1 := by
    intro place bound
    obtain rfl := Nat.lt_one_iff.1 bound
    exact ⟨_, _, rfl, rfl, by decide +kernel⟩
  have undivided : Undivided ((gift.plan {} {} 1).parameters.take 1)
      ((invoice.plan {} {} 3).parameters.take 1) (planTree [order.plan {} {} 0]) :=
    ⟨rfl, fun _ _ => trivial⟩
  obtain ⟨meeting, shares⟩ :=
    merges_assemble {} {} (.marked none "Shop") declarations usable agrees
  exact ⟨usable, agrees, meeting.2 undivided, shares undivided⟩

/-- A number that one of two methods reads from a text. -/
def Parameter.readNumber (name first second : String) : Parameter where
  name
  type := .simple "Int"
  group := some {
    declaringType := .simple "Readers"
    converters := [first, second].map fun method =>
      { name := method, parameters := [⟨"text", .simple "String"⟩], returnType := .simple "Int" } }

/-- The keys of the second and the third constructor meet, but the first constructor has made an
edge that only the second one goes down. -/
theorem parts_assemble_readers :
    let order := Declaration.taking "Order"
      [{ Parameter.number "id" with methodName := some "ById" }]
    let gift := Declaration.taking "Gift" [.readNumber "id" "ById" "ByCode"]
    let parcel := Declaration.taking "Parcel"
      [{ Parameter.number "code" with methodName := some "ByCode" }]
    let declarations := [order, gift, parcel]
    Validation.findings (.marked none "Shop") declarations = [] ∧
      (planAll {} {} declarations).filter ConstructorPlan.isUsable =
          [order.plan {} {} 0, gift.plan {} {} 1, parcel.plan {} {} 2] ∧
        (gift.plan {} {} 1).AgreesWith (parcel.plan {} {} 2) 1 ∧
          ¬ (planTree (planAll {} {} declarations)).Gathers 1 (gift.plan {} {} 1)
              (parcel.plan {} {} 2) ∧
            ¬ (assemble {} {} (.marked none "Shop") declarations).SharesPath declarations
              1 1 2 := by
  intro order gift parcel declarations
  have usable : (planAll {} {} declarations).filter ConstructorPlan.isUsable =
      [order.plan {} {} 0] ++ gift.plan {} {} 1 :: ([] ++ parcel.plan {} {} 2 :: []) := by
    rfl
  have agrees : (gift.plan {} {} 1).AgreesWith (parcel.plan {} {} 2) 1 := by
    intro place bound
    obtain rfl := Nat.lt_one_iff.1 bound
    exact ⟨_, _, rfl, rfl, by decide +kernel⟩
  refine ⟨rfl, usable, agrees, fun gathers => ?_, ?_⟩
  · have undivided := (gathers_planTree_iff
      (nodup_map_id (pairwise_id_planAll {} {} declarations)) usable agrees).1 gathers
    have parted : ((planTree [order.plan {} {} 0]).child? (gift.plan {} {} 1).parameters[0]!).isSome
        ≠ ((planTree [order.plan {} {} 0]).child? (parcel.plan {} {} 2).parameters[0]!).isSome := by
      decide +kernel
    exact parted (congrArg Option.isSome undivided.1)
  · intro shares
    have edges : (assemble {} {} (.marked none "Shop") declarations).methods.filterMap
        Method.edge? = [(0, 0, .step 0), (1, 0, .step 0), (1, 0, .step 0), (2, 0, .step 1)] := by
      delta assemble assembleValid keptSteps
      rw [CallGraph.liveSteps_eq]
      decide +kernel
    have same : CallNode.step 0 = .step 1 :=
      shares.leads_alike Nat.one_pos (edges ▸ by decide) (edges ▸ by decide)
    cases same

end StagedBuilder
