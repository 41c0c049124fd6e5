/-
This file makes methods and steps out of the prefix tree of the constructors. Going
down an edge of the tree is one call of the builder: the keys on the edge say which
parameters the call can stand for, and every way to supply one of them is proposed
as a method. What the call returns depends on the node below.

* A node where nothing goes on and constructors without create method end returns
  the finished target.
* A node where exactly one constructor ends, one without create method, whose
  target takes further members, returns the target itself as an existing step.
* Every other node returns a synthesized step. Nodes at which the same values are
  known share one such step: the methods of the later node are proposed for the
  step of the earlier one, together with the methods that are there already, and
  collisions are resolved anew.

On the way down a path collects what a step there needs to know: the names of the
type parameters, the values supplied so far, and the positional form of both by
which equal steps are recognized. Steps are numbered provisionally in the order in
which they are entered, which is before the steps below them.
-/

import StagedBuilder.Assembly.Collision
import StagedBuilder.Assembly.Plan
import StagedBuilder.Builder.Step
import StagedBuilder.Generic.Scope
import StagedBuilder.Prefix.Tree

namespace StagedBuilder

/-- The prefix tree of the constructors of a root. -/
abbrev PlanTree := PrefixTree ParameterPlan ConstructorPlan

/-! ### Targets -/

namespace ConstructorPlan

/-- What a type parameter of the target is called in a scope: the name of its placeholder if
it has one that is bound, and otherwise a fresh name. The second part tells whether the name
is fresh. -/
def argumentName (plan : ConstructorPlan) (scope : Scope) (declared : TypeParameter) :
    String × Bool :=
  match (plan.numbering.index? declared.name).bind (scope.names[·]?) with
  | some name => (name, false)
  | none => (scope.fresh declared.name, true)

/-- The type parameters of the target that the scope does not bind, with their names in the
scope. -/
def unboundParameters (plan : ConstructorPlan) (scope : Scope) : List (TypeParameter × String) :=
  plan.declaration.target.typeParameters.filterMap fun declared =>
    match plan.argumentName scope declared with
    | (name, true) => some (declared, name)
    | (_, false) => none

/-- What replaces the declared type parameters in the constraints of unbound ones: a fresh
name where it differs from the declared one, and else the placeholder. -/
def constraintSubstitution (plan : ConstructorPlan) (scope : Scope) : Substitution :=
  ((plan.unboundParameters scope).filterMap fun (declared, name) =>
    if name = declared.name then none else some (declared.name, TypeTerm.parameter name)).reverse
  ++ plan.numbering.substitution

/-- The target as a scope sees it. -/
def targetIn (plan : ConstructorPlan) (scope : Scope) : TypeTerm :=
  let target := plan.declaration.target
  .qualified target.space target.name
    (target.typeParameters.map fun declared => .parameter (plan.argumentName scope declared).1)

/-- Declarations for the type parameters of the target that the scope does not bind. -/
def unboundIn (plan : ConstructorPlan) (scope : Scope) : List TypeParameter :=
  (plan.unboundParameters scope).map fun (declared, name) =>
    let constraints := declared.constraints.substitute (plan.constraintSubstitution scope)
    ⟨name, { constraints with bounds := constraints.bounds.map scope.display }⟩

end ConstructorPlan

/-! ### Paths -/

/-- By what equal steps are recognized: the types of the known values in positional form,
with the names of the values. -/
abbrev StepKey := List (TypeTerm × String)

/-- What is known at a node from the way that leads there. -/
structure Path where
  scope : Scope := {}
  known : List Known := []
  key : StepKey := []
deriving DecidableEq, Inhabited

namespace Path

/-- The name of the field that holds one more value; a number tells it apart if the name of
the value is known already. -/
def fieldName (path : Path) (name : String) : String :=
  if path.known.any (·.name == name) then "_" ++ name ++ toString path.known.length
  else "_" ++ name

/-- The path that goes on down the edge made by a parameter. -/
def extend (path : Path) (plan : ParameterPlan) : Path :=
  let scope := plan.introduced.foldl
    (fun scope (number, name, constraints) => scope.bind number name constraints) path.scope
  let name := plan.key.name
  { scope
    known := path.known ++
      [⟨name, scope.display plan.key.type, .field (path.fieldName name)⟩]
    key := path.key ++ [(plan.key.type, name)] }

end Path

/-! ### Proposals -/

/-- What the methods of one edge have in common. -/
structure EdgeCall where
  /-- The scope below the edge. -/
  scope : Scope
  /-- The type parameters that the call introduces. -/
  introduced : List TypeParameter
  /-- The type parameters that are declared around the method. -/
  ambient : List TypeParameter
  result : Result

/-- The parameter that a method supplies, as the scope sees it. -/
def ParameterPlan.source (plan : ParameterPlan) (scope : Scope) : Source :=
  { constructor := plan.key.constructor
    index := plan.key.index
    name := plan.key.name
    type := scope.display plan.key.type }

/-- The method that takes the value of a parameter as it is. -/
def EdgeCall.supply (call : EdgeCall) (plan : ParameterPlan) (name : String) : Method :=
  let source := plan.source call.scope
  .supply {
    name
    source
    arguments := [⟨plan.key.name, source.type, plan.documentation⟩]
    typeParameters := TypeParameter.undeclared call.ambient call.introduced
    result := call.result
    documentation := plan.documentation
    priority := plan.parameter.priority
    location := plan.parameter.location }

/-- Names for type parameters, each different from all that are taken and from the earlier
ones. -/
def freshNames (taken : List String) : List String → List String
  | [] => []
  | name :: rest =>
    let fresh := freshName taken name
    fresh :: freshNames (taken ++ [fresh]) rest

/-- What the free type parameters of a converter are renamed to, where they are. -/
def ConverterPlan.renames (plan : ConverterPlan) (taken : List String) : Substitution :=
  let declared := plan.free.map (·.name)
  ((declared.zip (freshNames taken declared)).filterMap fun (name, fresh) =>
    if fresh = name then none else some (name, TypeTerm.parameter fresh)).reverse

/-- The method that makes the value of a parameter by a converter. -/
def EdgeCall.conversion (call : EdgeCall) (plan : ParameterPlan) (converted : ConverterPlan) :
    Method :=
  let converter := converted.converter
  let renames := converted.renames (call.scope.names ++ call.introduced.map (·.name))
  let render := fun (type : TypeTerm) => call.scope.display (type.substitute renames)
  let free := converted.free.map fun declared =>
    { name := ((TypeTerm.parameter declared.name).substitute renames).qualifiedName
      constraints := { declared.constraints with
        bounds := declared.constraints.bounds.map render } : TypeParameter }
  .conversion {
    name := converter.name
    source := plan.source call.scope
    arguments := converted.parameters.map fun parameter =>
      ⟨parameter.name, render parameter.type,
        converter.documentation.bind fun texts => texts.parameters.get? parameter.name⟩
    typeParameters := TypeParameter.undeclared call.ambient (call.introduced ++ free)
    result := call.result
    documentation :=
      (converter.documentation.bind Documentation.summary) <|> plan.documentation
    priority := if converter.priority = 0 then plan.parameter.priority else converter.priority
    converter := {
      declaringType := converted.declaringType
      method := converter.name
      arguments := converted.parameters.map (·.name) }
    siblings := converted.siblings
    attributeLocation := converted.attributeLocation
    converterLocations := converter.locations }

/-- A way to supply a parameter as a candidate, proposed at the given time. -/
def EdgeCall.candidate (call : EdgeCall) (plan : ParameterPlan) (order : Nat) :
    SupplyPlan → Candidate
  | .direct name =>
    { method := call.supply plan name
      origin := plan.declaration.target.qualifiedName ++ "::" ++ plan.key.name
      order }
  | .converted converted =>
    { method := call.conversion plan converted
      origin := converted.declaringType.qualifiedName ++ "::" ++ converted.converter.name
      order }

/-- Adds the candidates of one key to those proposed before. -/
def EdgeCall.propose (call : EdgeCall) (proposed : List Candidate) (plan : ParameterPlan) :
    List Candidate :=
  plan.supplies.foldl
    (fun candidates supply => candidates ++ [call.candidate plan candidates.length supply])
    proposed

/-- The method that creates the target of a constructor that ends at a node. -/
def ConstructorPlan.creation (naming : Naming) (scope : Scope) (ambient : List TypeParameter)
    (plan : ConstructorPlan) : Method :=
  let constructor := plan.declaration.constructor
  .creation {
    name := plan.declaration.createMethodName.getD (naming.creationName constructor.target.name)
    product := ⟨plan.targetIn scope, plan.id, [plan.id]⟩
    typeParameters := TypeParameter.undeclared ambient (plan.unboundIn scope)
    documentation := constructor.documentation.bind Documentation.summary
    location := constructor.location }

/-- Adds the create methods of the constructors that end at a node, those without one left
out. -/
def proposeCreations (naming : Naming) (scope : Scope) (ambient : List TypeParameter)
    (proposed : List Candidate) (endings : List ConstructorPlan) : List Candidate :=
  (endings.filter fun plan => !plan.declaration.options.noCreateMethod).foldl
    (fun candidates plan => candidates ++
      [{ method := plan.creation naming scope ambient
         origin := plan.declaration.target.qualifiedName
         order := candidates.length }])
    proposed

/-! ### The state of the walk -/

/-- A synthesized step that later nodes can share. -/
structure SharedStep where
  index : Nat
  /-- The scope and the known values of the path that made the step. -/
  scope : Scope
  known : List Known
  /-- The methods on the step. -/
  survivors : List Candidate

/-- What the walk has made so far. -/
structure Walk where
  /-- The steps by their provisional numbers; a step that is entered and not left has none
  yet. -/
  steps : List (Option Step) := []
  /-- The steps that can be shared, the latest first. -/
  shared : List (StepKey × SharedStep) := []
  /-- The collisions in which a converter lost. -/
  displaced : List Collision := []

namespace Walk

/-- Enters a step: its provisional number and the walk with a place for it. -/
def reserve (walk : Walk) : Nat × Walk :=
  (walk.steps.length, { walk with steps := walk.steps ++ [none] })

/-- Puts a step at its place. -/
def put (walk : Walk) (index : Nat) (step : Step) : Walk :=
  { walk with steps := walk.steps.set index (some step) }

/-- The step of a provisional number. -/
def step? (walk : Walk) (index : Nat) : Option Step := (walk.steps[index]?).join

/-- Resolves collisions and keeps those in which a converter lost. -/
def select (walk : Walk) (candidates : List Candidate) : List Candidate × Walk :=
  let collisions := Collision.resolve candidates
  (Collision.survivors collisions,
    { walk with
      displaced := walk.displaced ++ collisions.filter Collision.displacesConversion })

/-- The step that a node with the given known values can share. -/
def shared? (walk : Walk) (key : StepKey) : Option SharedStep := walk.shared.lookup key

/-- Records a step for sharing. -/
def share (walk : Walk) (key : StepKey) (step : SharedStep) : Walk :=
  { walk with shared := (key, step) :: walk.shared }

end Walk

/-! ### Nodes -/

/-- The known values at an existing step: those of the path, under the names of the
constructor's parameters, held by members of the target. -/
def existingKnown (known : List Known) (constructor : Constructor) : List Known :=
  (known.zip constructor.parameters).map fun (value, parameter) =>
    ⟨parameter.name, value.type, .property (parameter.member.getD (pascalCase parameter.name))⟩

/-- The digest of all constructors that end at or below a node of the given depth. -/
def nodeDigest? (depth : Nat) (endings : List ConstructorPlan) (children : List PlanTree) :
    Option Digest :=
  Digest.mergeAll? depth ((endings ++ PrefixTree.valuesOfAll children).map ConstructorPlan.digest)

/-- The common part of the methods of one edge. If the call finishes a target, the target's
own type parameters are introduced with it. -/
def edgeCall (parent child : Path) (ambient : List TypeParameter)
    (result : Result) (finished : Option ConstructorPlan) : EdgeCall :=
  { scope := child.scope
    introduced := child.scope.declarationsFrom parent.scope.size
      ++ (finished.map fun plan => plan.unboundIn child.scope).getD []
    ambient
    result }

/-- What calling into a node returns, and the constructor of the target that is finished by
the call, if one is. -/
structure Arrival where
  result : Result
  finished : Option ConstructorPlan := none

/-- Goes down to the children of a node: from a path, the type parameters that are declared
around the methods, and the candidates proposed before, to all candidates. -/
abbrev Descent := Path → List TypeParameter → List Candidate → Walk → List Candidate × Walk

/-- Makes an existing step for a node at which the constructor of a plan ends. -/
def enterExisting (path : Path) (plan : ConstructorPlan) (descend : Descent) (walk : Walk) :
    Arrival × Walk :=
  let (index, walk) := walk.reserve
  let typeParameters := path.scope.declarations
  let (candidates, walk) := descend path typeParameters [] walk
  let (survivors, walk) := walk.select candidates
  (⟨.step index, none⟩, walk.put index (.existing {
    index
    target := plan.targetIn path.scope
    constructor := plan.id
    known := existingKnown path.known plan.declaration.constructor
    typeParameters
    methods := survivors.map Candidate.method }))

/-- Makes a synthesized step for a node. -/
def enterNew (naming : Naming) (path : Path) (endings : List ConstructorPlan)
    (digest : Option Digest) (descend : Descent) (walk : Walk) : Arrival × Walk :=
  let (index, walk) := walk.reserve
  let typeParameters := path.scope.declarations
  let (candidates, walk) := descend path typeParameters [] walk
  let (survivors, walk) := walk.select
    (proposeCreations naming path.scope typeParameters candidates endings)
  let walk := walk.put index (.synthesized {
    index
    name := ""
    known := path.known
    typeParameters
    methods := survivors.map Candidate.method
    constructor := (digest.map Digest.constructor).getD 0
    candidates := (digest.map Digest.candidates).getD [] })
  (⟨.step index, none⟩,
    walk.share path.key { index, scope := path.scope, known := path.known, survivors })

/-- Adds the methods of a node to a step that is there already. -/
def enterShared (naming : Naming) (path : Path) (shared : SharedStep)
    (endings : List ConstructorPlan) (digest : Option Digest) (descend : Descent) (walk : Walk) :
    Arrival × Walk :=
  let path := { path with scope := shared.scope, known := shared.known }
  let typeParameters := path.scope.declarations
  let (candidates, walk) :=
    descend path typeParameters (Candidate.renumber shared.survivors) walk
  let (survivors, walk) := walk.select
    (proposeCreations naming path.scope typeParameters candidates endings)
  let added := (digest.map Digest.candidates).getD []
  let walk := match walk.step? shared.index with
    | some (.synthesized step) => walk.put shared.index (.synthesized { step with
        methods := survivors.map Candidate.method
        candidates := insertCandidates added step.candidates })
    | _ => walk
  (⟨.step shared.index, none⟩, walk.share path.key { shared with survivors })

/-- Makes a synthesized step for a node or shares one. -/
def enterSynthesized (naming : Naming) (path : Path) (endings : List ConstructorPlan)
    (digest : Option Digest) (descend : Descent) (walk : Walk) : Arrival × Walk :=
  match walk.shared? path.key with
  | some shared => enterShared naming path shared endings digest descend walk
  | none => enterNew naming path endings digest descend walk

/-- What a node is to a caller who arrives there. -/
inductive NodeRole where
  /-- A finished target and nothing further. -/
  | finish (plan : ConstructorPlan)
  /-- A finished target that can be used to go on. -/
  | existing (plan : ConstructorPlan)
  /-- A step of its own. -/
  | synthesized

/-- The role of a node, by the constructors that end there and by whether anything goes on. -/
def nodeRole (endings : List ConstructorPlan) (isLeaf : Bool) : NodeRole :=
  let direct := endings.filter fun plan => plan.declaration.options.noCreateMethod
  let creatable := endings.filter fun plan => !plan.declaration.options.noCreateMethod
  match creatable, direct with
  | [], [plan] =>
    if isLeaf then .finish plan
    else if plan.declaration.target.acceptsMembers then .existing plan
    else .synthesized
  | [], plan :: _ => if isLeaf then .finish plan else .synthesized
  | _, _ => .synthesized

mutual

/-- Makes what calling into a node returns. -/
def arrive (naming : Naming) (path : Path) : PlanTree → Walk → Arrival × Walk
  | .node _ _ endings children, walk =>
    let digest := nodeDigest? path.known.length endings children
    let descend : Descent := fun path ambient proposed walk =>
      branches naming path ambient children proposed walk
    match nodeRole endings children.isEmpty with
    | .finish plan =>
      let candidates := (digest.map Digest.candidates).getD [plan.id]
      (⟨.product ⟨plan.targetIn path.scope, plan.id, candidates⟩, some plan⟩, walk)
    | .existing plan => enterExisting path plan descend walk
    | .synthesized => enterSynthesized naming path endings digest descend walk

/-- Adds the methods of the edges to a list of children, one child after another. -/
def branches (naming : Naming) (path : Path) (ambient : List TypeParameter) :
    List PlanTree → List Candidate → Walk → List Candidate × Walk
  | [], proposed, walk => (proposed, walk)
  | child :: rest, proposed, walk =>
    match child.representative? with
    | none => branches naming path ambient rest proposed walk
    | some representative =>
      let below := path.extend representative
      let (arrival, walk) := arrive naming below child walk
      let call := edgeCall path below ambient arrival.result arrival.finished
      branches naming path ambient rest (child.keys.foldl call.propose proposed) walk

end

end StagedBuilder
