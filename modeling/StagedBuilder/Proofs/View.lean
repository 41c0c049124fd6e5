/-
This file says when the work on two lists of declarations looks the same. Constructors may
be numbered differently, as long as their order is kept, and it may be disregarded what
type parameters are called. A view fixes both: by what numbers constructors are to be seen,
and whether the names of type parameters are seen at all. Where they are not, types are
seen with their type parameters erased, and declarations of type parameters not at all.
Two things look the same if they are the same once each has been seen through a view of
its own.

What the walk does with methods it does by what every view shows: collisions depend on
names, erased argument types, priorities, kinds, origins and the order of the proposals,
steps are looked up by their places, and candidate lists and digests depend on the order of
the numbers. So it makes no difference whether one of these is done first and the outcome
looked at, or the other way round.
-/

import Mathlib.Data.List.Sort
import Mathlib.Order.Monotone.Basic
import StagedBuilder.Assembly.Basic
import StagedBuilder.Proofs.Collision
import StagedBuilder.Proofs.Lists
import StagedBuilder.Proofs.Substitution

namespace StagedBuilder

/-! ### Erased types -/

namespace TypeTerm

theorem erasedAll_eq_map (types : List TypeTerm) : erasedAll types = types.map erased := by
  induction types with
  | nil => rfl
  | cons first rest inductionHypothesis => rw [erasedAll, inductionHypothesis, List.map_cons]

theorem erased_erased (type : TypeTerm) : type.erased.erased = type.erased := by
  induction type using inductionOn with
  | named space name arguments inductionHypothesis =>
    rw [erased, erased, erasedAll_eq_map, erasedAll_eq_map, List.map_map]
    exact congrArg (TypeTerm.named space name) (List.map_congr_left inductionHypothesis)
  | parameter name => rfl

/-- What is put in the place of type parameters may be erased before. -/
theorem erased_substitute_congr {first second : Substitution}
    (same : ∀ name, ((parameter name).substitute first).erased =
      ((parameter name).substitute second).erased) (type : TypeTerm) :
    (type.substitute first).erased = (type.substitute second).erased := by
  induction type using inductionOn with
  | named space name arguments inductionHypothesis =>
    rw [substitute, substitute, erased, erased, substituteAll_eq_map, substituteAll_eq_map,
      erasedAll_eq_map, erasedAll_eq_map, List.map_map, List.map_map]
    exact congrArg (TypeTerm.named space name) (List.map_congr_left inductionHypothesis)
  | parameter name => exact same name

/-- Type parameters may be replaced by others before erasure. -/
theorem erased_substitute {substitution : Substitution}
    (renames : ∀ entry ∈ substitution, entry.2.isParameter = true) (type : TypeTerm) :
    (type.substitute substitution).erased = type.erased := by
  have unchanged : type.substitute [] = type := substitute_eq_self fun _ _ => rfl
  conv_rhs => rw [← unchanged]
  refine erased_substitute_congr (fun name => ?_) type
  cases found : substitution.lookup name with
  | none => rw [substitute, found]; rfl
  | some shown =>
    rw [substitute_parameter_of_lookup found]
    have isParameter : shown.isParameter = true :=
      renames (name, shown) (Lists.mem_of_lookup found)
    cases shown with
    | named space name arguments => cases isParameter
    | parameter other => rfl

/-- The types that a substitution puts in may be changed as far as erasure does not tell. -/
theorem erased_substitute_map {change : TypeTerm → TypeTerm}
    (keeps : ∀ type, (change type).erased = type.erased) (substitution : Substitution)
    (type : TypeTerm) :
    (type.substitute (substitution.map fun (name, image) => (name, change image))).erased =
      (type.substitute substitution).erased := by
  refine erased_substitute_congr (fun name => ?_) type
  rw [substitute, substitute, Lists.lookup_map_snd]
  cases substitution.lookup name with
  | none => rfl
  | some image => exact keeps image

end TypeTerm

/-! ### Views -/

/-- A way of looking at what is made of declarations. -/
structure View where
  /-- The numbers by which constructors are seen. -/
  number : Nat → Nat
  increasing : StrictMono number
  /-- Whether it is seen what type parameters are called. -/
  named : Bool

namespace View

/-- Everything is seen as it is. -/
def plain : View := ⟨id, strictMono_id, true⟩

/-- Constructors are seen by other numbers. -/
def renumbering (number : Nat → Nat) (increasing : StrictMono number) : View :=
  ⟨number, increasing, true⟩

/-- It is not seen what type parameters are called. -/
def nameless : View := ⟨id, strictMono_id, false⟩

/-! ### What is seen -/

def type (view : View) (type : TypeTerm) : TypeTerm := if view.named then type else type.erased

def parameters (view : View) (declared : List TypeParameter) : List TypeParameter :=
  if view.named then declared else []

def scope (view : View) (scope : Scope) : Scope := if view.named then scope else {}

def product (view : View) (value : Product) : Product :=
  ⟨view.type value.target, view.number value.constructor, value.candidates.map view.number⟩

def result (view : View) : Result → Result
  | .product value => .product (view.product value)
  | .step index => .step index

def argument (view : View) (argument : Argument) : Argument :=
  { argument with type := view.type argument.type }

def source (view : View) (source : Source) : Source :=
  { source with constructor := view.number source.constructor, type := view.type source.type }

/-- A method with its types, type parameters and numbers as they are seen. -/
def method (view : View) : Method → Method
  | .supply method => .supply { method with
      source := view.source method.source
      arguments := method.arguments.map view.argument
      typeParameters := view.parameters method.typeParameters
      result := view.result method.result }
  | .conversion method => .conversion { method with
      source := view.source method.source
      arguments := method.arguments.map view.argument
      typeParameters := view.parameters method.typeParameters
      result := view.result method.result }
  | .creation method => .creation { method with
      product := view.product method.product
      typeParameters := view.parameters method.typeParameters }

def known (view : View) (value : Known) : Known := { value with type := view.type value.type }

/-- A step with its types, type parameters and numbers as they are seen. -/
def step (view : View) : Step → Step
  | .synthesized step => .synthesized { step with
      known := step.known.map view.known
      typeParameters := view.parameters step.typeParameters
      methods := step.methods.map view.method
      constructor := view.number step.constructor
      candidates := step.candidates.map view.number }
  | .existing step => .existing { step with
      target := view.type step.target
      constructor := view.number step.constructor
      known := step.known.map view.known
      typeParameters := view.parameters step.typeParameters
      methods := step.methods.map view.method }

def candidate (view : View) (candidate : Candidate) : Candidate :=
  { candidate with method := view.method candidate.method }

def collision (view : View) (collision : Collision) : Collision :=
  ⟨view.candidate collision.survivor, collision.displaced.map view.candidate⟩

def digest (view : View) (digest : Digest) : Digest :=
  { digest with
    constructor := view.number digest.constructor
    candidates := digest.candidates.map view.number }

def path (view : View) (path : Path) : Path :=
  { path with scope := view.scope path.scope, known := path.known.map view.known }

def shared (view : View) (shared : SharedStep) : SharedStep :=
  { shared with
    scope := view.scope shared.scope
    known := shared.known.map view.known
    survivors := shared.survivors.map view.candidate }

def walk (view : View) (walk : Walk) : Walk where
  steps := walk.steps.map (Option.map view.step)
  shared := walk.shared.map fun (key, shared) => (key, view.shared shared)
  displaced := walk.displaced.map view.collision

/-! ### The plain view -/

theorem product_plain (value : Product) : plain.product value = value :=
  congrArg (Product.mk value.target value.constructor) (List.map_id value.candidates)

theorem result_plain (result : Result) : plain.result result = result := by
  cases result with
  | product value => exact congrArg Result.product (product_plain value)
  | step index => rfl

theorem map_argument_plain (arguments : List Argument) :
    arguments.map plain.argument = arguments :=
  (List.map_congr_left fun _ _ => rfl).trans (List.map_id arguments)

/-- A plain view changes nothing. -/
theorem method_plain (method : Method) : plain.method method = method := by
  cases method with
  | supply method =>
    simp only [View.method, result_plain, map_argument_plain]
    rfl
  | conversion method =>
    simp only [View.method, result_plain, map_argument_plain]
    rfl
  | creation method =>
    simp only [View.method, product_plain]
    rfl

theorem map_method_plain (methods : List Method) : methods.map plain.method = methods :=
  (List.map_congr_left fun method _ => method_plain method).trans (List.map_id methods)

theorem map_known_plain (known : List Known) : known.map plain.known = known :=
  (List.map_congr_left fun _ _ => rfl).trans (List.map_id known)

theorem step_plain (step : Step) : plain.step step = step := by
  cases step with
  | synthesized step =>
    simp only [View.step, map_method_plain, map_known_plain]
    exact congrArg (fun numbers => Step.synthesized { step with candidates := numbers })
      (List.map_id step.candidates)
  | existing step =>
    simp only [View.step, map_method_plain, map_known_plain]
    rfl

theorem map_step_plain (steps : List Step) : steps.map plain.step = steps :=
  (List.map_congr_left fun step _ => step_plain step).trans (List.map_id steps)

variable (view : View)

/-! ### What every view shows -/

theorem erased_type (type : TypeTerm) : (view.type type).erased = type.erased := by
  unfold View.type
  split
  · rfl
  · exact type.erased_erased

theorem signature_method (method : Method) : (view.method method).signature = method.signature := by
  have arguments : ∀ arguments : List Argument,
      (arguments.map view.argument).map (·.type.erased) = arguments.map (·.type.erased) := by
    intro arguments
    rw [List.map_map]
    exact List.map_congr_left fun argument _ => view.erased_type argument.type
  cases method with
  | supply method => exact congrArg (Signature.mk method.name) (arguments method.arguments)
  | conversion method => exact congrArg (Signature.mk method.name) (arguments method.arguments)
  | creation method => rfl

theorem name_method (method : Method) : (view.method method).name = method.name := by
  cases method <;> rfl

theorem priority_method (method : Method) : (view.method method).priority = method.priority := by
  cases method <;> rfl

theorem kindRank_method (method : Method) : (view.method method).kindRank = method.kindRank := by
  cases method <;> rfl

theorem isConversion_method (method : Method) :
    (view.method method).isConversion = method.isConversion := by
  cases method <;> rfl

theorem location_method (method : Method) : (view.method method).location = method.location := by
  cases method <;> rfl

theorem result_method (method : Method) :
    (view.method method).result = view.result method.result := by
  cases method <;> rfl

theorem step?_method (method : Method) : (view.method method).step? = method.step? := by
  rw [Method.step?, result_method, Method.step?]
  cases method.result <;> rfl

theorem method_mapStep (renumber : Nat → Nat) (method : Method) :
    view.method (method.mapStep renumber) = (view.method method).mapStep renumber := by
  cases method with
  | supply method => rcases method with ⟨_, _, _, _, _ | _, _, _, _⟩ <;> rfl
  | conversion method => rcases method with ⟨_, _, _, _, _ | _, _, _, _, _, _, _⟩ <;> rfl
  | creation method => rfl

/-! ### Collisions -/

theorem isPreferred_candidate (left right : Candidate) :
    (view.candidate left).isPreferred (view.candidate right) = left.isPreferred right := by
  simp only [Candidate.isPreferred, Candidate.preference, candidate, priority_method,
    kindRank_method, name_method]

theorem among?_map (candidates : List Candidate) :
    Collision.among? (candidates.map view.candidate) =
      (Collision.among? candidates).map view.collision := by
  have sorted : (candidates.map view.candidate).mergeSort Candidate.isPreferred =
      (candidates.mergeSort Candidate.isPreferred).map view.candidate :=
    (List.map_mergeSort fun left _ right _ => (view.isPreferred_candidate left right).symm).symm
  unfold Collision.among?
  rw [sorted]
  cases candidates.mergeSort Candidate.isPreferred <;> rfl

theorem resolve_map (candidates : List Candidate) :
    Collision.resolve (candidates.map view.candidate) =
      (Collision.resolve candidates).map view.collision := by
  have signatures : (candidates.map view.candidate).map (·.method.signature) =
      candidates.map (·.method.signature) := by
    rw [List.map_map]
    exact List.map_congr_left fun candidate _ => view.signature_method candidate.method
  have group : ∀ signature, Collision.group (candidates.map view.candidate) signature =
      (Collision.group candidates signature).map view.candidate := by
    intro signature
    rw [Collision.group, List.filter_map, Collision.group]
    refine congrArg (List.map view.candidate) (List.filter_congr fun candidate _ => ?_)
    exact congrArg (fun signed => decide (signed = signature))
      (view.signature_method candidate.method)
  rw [Collision.resolve_eq, Collision.resolve_eq, signatures, List.map_filterMap]
  refine List.filterMap_congr fun signature _ => ?_
  rw [group, among?_map]

theorem displacesConversion_collision (collision : Collision) :
    (view.collision collision).displacesConversion = collision.displacesConversion := by
  show (collision.displaced.map view.candidate).any (·.method.isConversion) =
    collision.displaced.any (·.method.isConversion)
  rw [List.any_map]
  exact congrArg collision.displaced.any
    (funext fun candidate => view.isConversion_method candidate.method)

theorem renumber_map (candidates : List Candidate) :
    Candidate.renumber (candidates.map view.candidate) =
      (Candidate.renumber candidates).map view.candidate := by
  rw [Candidate.renumber, List.zipIdx_map, List.map_map, Candidate.renumber, List.map_map]
  rfl

/-! ### Numbers -/

theorem insertCandidate_map (candidate : Nat) (numbers : List Nat) :
    insertCandidate (view.number candidate) (numbers.map view.number) =
      (insertCandidate candidate numbers).map view.number := by
  induction numbers with
  | nil => rfl
  | cons first rest inductionHypothesis =>
    simp only [List.map_cons, insertCandidate, view.increasing.lt_iff_lt, inductionHypothesis]
    split
    · rfl
    · split <;> rfl

theorem insertCandidates_map (candidates numbers : List Nat) :
    insertCandidates (candidates.map view.number) (numbers.map view.number) =
      (insertCandidates candidates numbers).map view.number := by
  unfold insertCandidates
  induction candidates generalizing numbers with
  | nil => rfl
  | cons first rest inductionHypothesis =>
    rw [List.map_cons, List.foldl_cons, insertCandidate_map, inductionHypothesis, List.foldl_cons]

theorem digest_merge (depth : Nat) (digest other : Digest) :
    Digest.merge depth (view.digest digest) (view.digest other) =
      view.digest (Digest.merge depth digest other) := by
  have sameCount : ∀ digest : Digest, (view.digest digest).parameterCount =
      digest.parameterCount := fun _ => rfl
  unfold Digest.merge
  simp only [sameCount]
  by_cases arrives : other.parameterCount = depth ∧ digest.parameterCount ≠ depth
  · simp only [if_pos arrives, View.digest, insertCandidates_map]
  · simp only [if_neg arrives, View.digest, insertCandidates_map]

theorem mergeAll?_map (depth : Nat) (digests : List Digest) :
    Digest.mergeAll? depth (digests.map view.digest) =
      (Digest.mergeAll? depth digests).map view.digest := by
  cases digests with
  | nil => rfl
  | cons first rest =>
    refine congrArg some ?_
    show List.foldl _ _ _ = view.digest _
    induction rest generalizing first with
    | nil => rfl
    | cons second rest inductionHypothesis =>
      rw [List.map_cons, List.foldl_cons, digest_merge, inductionHypothesis, List.foldl_cons]

/-! ### The walk -/

theorem walk_reserve (walk : Walk) : view.walk walk.reserve.2 = (view.walk walk).reserve.2 := by
  simp only [View.walk, Walk.reserve, List.map_append, List.map_cons, List.map_nil, Option.map_none]

theorem length_steps_walk (walk : Walk) : (view.walk walk).steps.length = walk.steps.length :=
  List.length_map _

theorem walk_put (walk : Walk) (index : Nat) (step : Step) :
    view.walk (walk.put index step) = (view.walk walk).put index (view.step step) := by
  simp only [View.walk, Walk.put, List.map_set, Option.map_some]

theorem step?_walk (walk : Walk) (index : Nat) :
    (view.walk walk).step? index = (walk.step? index).map view.step := by
  unfold Walk.step? View.walk
  rw [List.getElem?_map]
  cases walk.steps[index]? with
  | none => rfl
  | some place => rfl

theorem walk_share (walk : Walk) (key : StepKey) (shared : SharedStep) :
    view.walk (walk.share key shared) = (view.walk walk).share key (view.shared shared) := rfl

theorem shared?_walk (walk : Walk) (key : StepKey) :
    (view.walk walk).shared? key = (walk.shared? key).map view.shared :=
  Lists.lookup_map_snd view.shared walk.shared key

theorem select_walk (walk : Walk) (candidates : List Candidate) :
    (view.walk walk).select (candidates.map view.candidate) =
      ((walk.select candidates).1.map view.candidate, view.walk (walk.select candidates).2) := by
  have survivors : Collision.survivors (Collision.resolve (candidates.map view.candidate)) =
      (Collision.survivors (Collision.resolve candidates)).map view.candidate := by
    rw [resolve_map, Collision.survivors, Collision.survivors, List.map_map, List.map_map]
    rfl
  have displaced : (Collision.resolve (candidates.map view.candidate)).filter
      Collision.displacesConversion =
        ((Collision.resolve candidates).filter Collision.displacesConversion).map
          view.collision := by
    rw [resolve_map, List.filter_map]
    exact congrArg (List.map view.collision)
      (List.filter_congr fun collision _ => view.displacesConversion_collision collision)
  simp only [Walk.select, survivors, displaced, View.walk, List.map_append]

end View

end StagedBuilder
