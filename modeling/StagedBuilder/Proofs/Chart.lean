/-
This file follows the walk of a prefix tree node by node. While the walk goes on a chart
is kept: for every node that has been met, the place of the call graph where a caller is
who arrives there. Nodes with the same types and names on their way share a place, but no
node has two.

By the chart it can be said exactly which node a method comes from. A method that supplies
a key leads from the place of a node to the place of the child whose edge carries the key,
and a method that creates a target stands at the place of a node at which its constructor
ends. Existing steps and finished targets are the places of nodes with this role.
-/

import Mathlib.Data.List.Pairwise
import StagedBuilder.Proofs.Place
import StagedBuilder.Proofs.PrefixVisits

namespace StagedBuilder

open PrefixTree (Under Visit visits visitsOfAll)

/-! ### Charts -/

/-- A node of the tree of the plans as it is met on the way down. -/
abbrev PlanVisit := Visit ParameterPlan ConstructorPlan

/-- A node that was met, and the place where a caller is who arrives there. -/
structure Mark where
  visit : PlanVisit
  place : CallNode

namespace Mark

abbrev node (mark : Mark) : PlanTree := mark.visit.tree

/-- The number of keys that lead to the node. -/
abbrev depth (mark : Mark) : Nat := mark.visit.path.length

/-- What the node is to a caller who arrives there. -/
def role (mark : Mark) : NodeRole := nodeRole mark.node.endings mark.node.children.isEmpty

end Mark

/-- The method stands at the place because of a node that has this place. -/
inductive Placed (naming : Naming) (chart : List Mark) (place : CallNode) (method : Method) : Prop
  /-- It supplies a key on the edge to a child and leads to the place of the child. -/
  | edge {mark below : Mark} {key : ParameterPlan} {scope : Scope} (met : mark ∈ chart)
      (here : mark.place = place) (metBelow : below ∈ chart)
      (member : below.node ∈ mark.node.children) (deeper : below.depth = mark.depth + 1)
      (onEdge : key ∈ below.node.keys) (supplies : method.source? = some (key.source scope))
      (leads : method.result.node = below.place)
  /-- It creates the target of a constructor that ends at the node. -/
  | ending {mark : Mark} {plan : ConstructorPlan} {scope : Scope} {ambient : List TypeParameter}
      (met : mark ∈ chart) (here : mark.place = place) (ends : plan ∈ mark.node.endings)
      (creatable : plan.declaration.options.noCreateMethod = false)
      (creates : method = plan.creation naming scope ambient)

/-- The chart is right about the steps of a walk. -/
structure Walk.Charted (naming : Naming) (chart : List Mark) (walk : Walk) : Prop where
  placed : ∀ index step, walk.step? index = some step → ∀ method ∈ step.methods,
    Placed naming chart (.step index) method
  /-- Existing steps are the places of nodes that are existing steps to a caller. -/
  existing : ∀ index step, walk.step? index = some (.existing step) → ∃ mark ∈ chart,
    mark.place = .step index ∧ ∃ plan, mark.role = .existing plan ∧ plan.id = step.constructor
  /-- Finished targets are the places of nodes that are finished to a caller. -/
  finished : ∀ mark ∈ chart, ∀ constructor, mark.place = .target constructor →
    ∃ plan, mark.role = .finish plan ∧ plan.id = constructor

/-- A longer chart places what a shorter one does. -/
theorem Placed.append {naming : Naming} {chart : List Mark} {place : CallNode} {method : Method}
    (placed : Placed naming chart place method) (added : List Mark) :
    Placed naming (chart ++ added) place method := by
  cases placed with
  | edge met here metBelow member deeper onEdge supplies leads =>
    exact .edge (List.mem_append_left _ met) here (List.mem_append_left _ metBelow) member deeper
      onEdge supplies leads
  | ending met here ends creatable creates =>
    exact .ending (List.mem_append_left _ met) here ends creatable creates

namespace Walk.Charted

variable {naming : Naming} {chart : List Mark} {walk : Walk}

theorem start : ({} : Walk).Charted naming [] where
  placed _ _ found := absurd found (Option.some_ne_none _).symm
  existing _ _ found := absurd found (Option.some_ne_none _).symm
  finished _ member := absurd member List.not_mem_nil

/-- The chart is about the steps alone. -/
theorem of_same (charted : walk.Charted naming chart) {later : Walk}
    (steps : ∀ index, later.step? index = walk.step? index) : later.Charted naming chart where
  placed index step found := charted.placed index step ((steps index).symm.trans found)
  existing index step found := charted.existing index step ((steps index).symm.trans found)
  finished := charted.finished

/-- A node may be marked if its place, should it be a finished target, is one to a caller. -/
theorem mark (charted : walk.Charted naming chart) {mark : Mark}
    (finished : ∀ constructor, mark.place = .target constructor →
      ∃ plan, mark.role = .finish plan ∧ plan.id = constructor) :
    walk.Charted naming (chart ++ [mark]) where
  placed index step found method member :=
    (charted.placed index step found method member).append _
  existing index step found := by
    obtain ⟨earlier, met, known⟩ := charted.existing index step found
    exact ⟨earlier, List.mem_append_left _ met, known⟩
  finished other member := by
    rcases List.mem_append.1 member with wasMarked | isNew
    · exact charted.finished other wasMarked
    · rw [List.mem_singleton.1 isNew]
      exact finished

/-- A step may be put where the chart places its methods and, if it is an existing step, has a
node that is one to a caller. -/
theorem put (charted : walk.Charted naming chart) {index : Nat} {step : Step}
    (placed : ∀ method ∈ step.methods, Placed naming chart (.step index) method)
    (existing : ∀ existing, step = .existing existing → ∃ mark ∈ chart,
      mark.place = .step index ∧
        ∃ plan, mark.role = .existing plan ∧ plan.id = existing.constructor) :
    (walk.put index step).Charted naming chart where
  placed other found isFound := by
    rcases eq_or_step?_of_step?_put isFound with ⟨rfl, rfl⟩ | ⟨-, before⟩
    · exact placed
    · exact charted.placed other found before
  existing other found isFound := by
    rcases eq_or_step?_of_step?_put isFound with ⟨rfl, same⟩ | ⟨-, before⟩
    · exact existing found same.symm
    · exact charted.existing other found before
  finished := charted.finished

end Walk.Charted

/-! ### What the walk does to a chart -/

variable {naming : Naming} {tree node : PlanTree} {path : Path} {walk : Walk} {chart : List Mark}

/-- Going down from a node marks the given nodes, and the chart places what is proposed. -/
def Charts (naming : Naming) (chart : List Mark)
    (below : List PlanVisit) (place : CallNode) (outcome : List Candidate × Walk) : Prop :=
  ∃ added : List Mark, added.map Mark.visit = below ∧ outcome.2.Charted naming (chart ++ added) ∧
    ∀ candidate ∈ outcome.1, Placed naming (chart ++ added) place candidate.method

/-- Arriving at a node marks it with the place where the caller is then, and marks the given
nodes below it. -/
def Marks (naming : Naming) (chart : List Mark) (visit : PlanVisit)
    (below : List PlanVisit) (outcome : Arrival × Walk) : Prop :=
  ∃ added : List Mark, added.map Mark.visit = below ∧
    outcome.2.Charted naming (chart ++ ⟨visit, outcome.1.result.node⟩ :: added)

/-- A descent that marks the given nodes below a node, from every path of one key. -/
def ChartsFrom (naming : Naming) (tree : PlanTree) (key : StepKey)
    (visit : PlanVisit) (below : List PlanVisit) (descend : Descent) : Prop :=
  ∀ (path : Path) (ambient : List TypeParameter) (proposed : List Candidate) (walk : Walk)
    (chart : List Mark) (place : CallNode), path.key = key → Walked tree path →
      walk.Sound naming tree →
        (∀ candidate ∈ proposed, Offered naming tree walk path candidate.method) →
          walk.Charted naming chart → ⟨visit, place⟩ ∈ chart →
            (∀ candidate ∈ proposed, Placed naming chart place candidate.method) →
              Charts naming chart below place (descend path ambient proposed walk)

/-- With the constructors that end at a node, the chart places all that is proposed there. -/
theorem placed_creations (naming : Naming) {mark : Mark} (met : mark ∈ chart)
    {proposed : List Candidate}
    (placed : ∀ candidate ∈ proposed, Placed naming chart mark.place candidate.method)
    (scope : Scope) (ambient : List TypeParameter) :
    ∀ candidate ∈ proposeCreations naming scope ambient proposed mark.node.endings,
      Placed naming chart mark.place candidate.method := by
  intro candidate member
  rcases mem_proposeCreations member with wasProposed | ⟨plan, ends, creatable, isCreation⟩
  · exact placed candidate wasProposed
  · rw [isCreation]
    exact .ending met rfl ends creatable rfl

/-- With the keys on the edge to a child, the chart places all that is proposed. -/
theorem placed_foldl_propose {place : CallNode} {proposed : List Candidate}
    (placed : ∀ candidate ∈ proposed, Placed naming chart place candidate.method)
    {mark below : Mark} (met : mark ∈ chart) (here : mark.place = place) (metBelow : below ∈ chart)
    (member : below.node ∈ mark.node.children) (deeper : below.depth = mark.depth + 1)
    {call : EdgeCall} (leads : call.result.node = below.place) :
    ∀ candidate ∈ below.node.keys.foldl call.propose proposed,
      Placed naming chart place candidate.method := by
  intro candidate proposedThere
  rcases mem_foldl_propose proposedThere with
    wasProposed | ⟨key, onEdge, supply, -, order, rfl⟩
  · exact placed candidate wasProposed
  · refine .edge met here metBelow member deeper onEdge
      (call.source?_candidate key order supply) ?_
    rw [call.result_candidate]
    exact leads

/-- The chart places what survives. -/
theorem placed_survivors {place : CallNode} {candidates : List Candidate}
    (placed : ∀ candidate ∈ candidates, Placed naming chart place candidate.method) :
    ∀ method ∈ (Collision.survivors (Collision.resolve candidates)).map Candidate.method,
      Placed naming chart place method := by
  intro method member
  obtain ⟨candidate, survived, rfl⟩ := List.mem_map.1 member
  exact placed candidate (Collision.survivor_mem survived)

section

variable {visit : PlanVisit} {below : List PlanVisit} {descend : Descent}

/-- A node for which a step is reserved is marked with the step, and then the descent marks what is
below it. -/
theorem ChartsFrom.reserved (charts : ChartsFrom naming tree path.key visit below descend)
    (walked : Walked tree path) (sound : walk.Sound naming tree)
    (charted : walk.Charted naming chart) :
    ∃ added : List Mark, added.map Mark.visit = below ∧
      (descend path path.scope.declarations [] walk.reserve.2).2.Charted naming
        (chart ++ ⟨visit, .step walk.steps.length⟩ :: added) ∧
      ∀ candidate ∈ (descend path path.scope.declarations [] walk.reserve.2).1,
        Placed naming (chart ++ ⟨visit, .step walk.steps.length⟩ :: added)
          (.step walk.steps.length) candidate.method := by
  let mark : Mark := ⟨visit, .step walk.steps.length⟩
  have met : mark ∈ chart ++ [mark] := List.mem_append_right _ (List.mem_singleton_self mark)
  have marked : walk.reserve.2.Charted naming (chart ++ [mark]) :=
    (charted.mark fun constructor isTarget => CallNode.noConfusion isTarget).of_same
      walk.step?_reserve
  obtain ⟨added, isBelow, after, placed⟩ := charts path path.scope.declarations [] walk.reserve.2
    (chart ++ [mark]) mark.place rfl walked sound.reserve
    (fun _ member => absurd member List.not_mem_nil) marked met
    fun _ member => absurd member List.not_mem_nil
  rw [← List.append_cons] at after placed
  exact ⟨added, isBelow, after, placed⟩

theorem marks_enterExisting (walked : Walked tree path) (sound : walk.Sound naming tree)
    (charted : walk.Charted naming chart) {plan : ConstructorPlan}
    (role : nodeRole visit.tree.endings visit.tree.children.isEmpty = .existing plan)
    (charts : ChartsFrom naming tree path.key visit below descend) :
    Marks naming chart visit below (enterExisting path plan descend walk) := by
  obtain ⟨added, isBelow, after, placed⟩ := charts.reserved walked sound charted
  refine ⟨added, isBelow, ?_⟩
  show Walk.Charted _ _ (Walk.put _ _ (.existing _))
  refine Walk.Charted.put ?_ ?_ fun step isStep => ?_
  · exact after.of_same fun _ => rfl
  · exact placed_survivors placed
  · rw [Step.existing.injEq] at isStep
    subst isStep
    exact ⟨_, List.mem_append_right _ List.mem_cons_self, rfl, plan, role, rfl⟩

theorem marks_enterNew (walked : Walked tree path) (sound : walk.Sound naming tree)
    (charted : walk.Charted naming chart) (digest : Option Digest)
    (charts : ChartsFrom naming tree path.key visit below descend) :
    Marks naming chart visit below
      (enterNew naming path visit.tree.endings digest descend walk) := by
  obtain ⟨added, isBelow, after, placed⟩ := charts.reserved walked sound charted
  let mark : Mark := ⟨visit, .step walk.steps.length⟩
  have met : mark ∈ chart ++ mark :: added := List.mem_append_right _ List.mem_cons_self
  have placedAll := placed_creations naming met placed path.scope path.scope.declarations
  refine ⟨added, isBelow, ?_⟩
  show Walk.Charted _ _ (Walk.share (Walk.put _ _ (.synthesized _)) _ _)
  refine Walk.Charted.of_same (Walk.Charted.put ?_ ?_ fun step isStep => ?_) fun _ => rfl
  · exact after.of_same fun _ => rfl
  · exact placed_survivors placedAll
  · exact Step.noConfusion isStep

theorem marks_enterShared (sound : walk.Sound naming tree) (charted : walk.Charted naming chart)
    {shared : SharedStep} (found : walk.shared? path.key = some shared) (digest : Option Digest)
    (descends : DescendsFrom naming tree path.key descend)
    (charts : ChartsFrom naming tree path.key visit below descend) :
    Marks naming chart visit below
      (enterShared naming path shared visit.tree.endings digest descend walk) := by
  let creator : Path := ⟨shared.scope, shared.known, path.key⟩
  have before := sound.shared path.key shared found
  obtain ⟨step, isStep, -, sameMethods⟩ := before.filled
  let renumbered := Candidate.renumber shared.survivors
  have onStep : ∀ candidate ∈ renumbered, candidate.method ∈ step.methods :=
    fun candidate member => sameMethods ▸ Candidate.method_mem_of_mem_renumber member
  let mark : Mark := ⟨visit, .step shared.index⟩
  have met : mark ∈ chart ++ [mark] := List.mem_append_right _ (List.mem_singleton_self mark)
  have marked : walk.Charted naming (chart ++ [mark]) :=
    charted.mark fun constructor isTarget => CallNode.noConfusion isTarget
  have placedBefore : ∀ candidate ∈ renumbered,
      Placed naming (chart ++ [mark]) mark.place candidate.method := fun candidate member =>
    marked.placed shared.index _ isStep candidate.method (onStep candidate member)
  obtain ⟨added, isBelow, after, placed⟩ := charts creator shared.scope.declarations renumbered
    walk (chart ++ [mark]) mark.place rfl before.walked sound before.offered marked met placedBefore
  have placedAll := placed_creations naming (List.mem_append_left added met) placed shared.scope
    shared.scope.declarations
  -- The step is still there after the descent.
  have descended := descends creator shared.scope.declarations renumbered walk rfl before.walked
    sound before.offered
  have stillShared := (descended.grows.shallow path.key (Nat.lt_succ_self _)).trans found
  obtain ⟨filled, isFilled, -⟩ := (descended.sound.shared path.key shared stillShared).filled
  rw [enterShared_of_filled rfl isFilled]
  refine ⟨added, isBelow, ?_⟩
  rw [List.append_cons]
  refine Walk.Charted.of_same (Walk.Charted.put ?_ ?_ fun step isStep => ?_) fun _ => rfl
  · exact after.of_same fun _ => rfl
  · exact placed_survivors placedAll
  · exact Step.noConfusion isStep

end

/-! ### The whole tree -/

mutual

/-- Arriving at a node marks it and all nodes below it. -/
theorem marks_arrive {above : List ParameterPlan} {parent : Option Nat} :
    (node : PlanTree) → (path : Path) → (walk : Walk) → (chart : List Mark) → tree.Keyed →
      Under tree above node → keyOf above = path.key → Walked tree path →
        walk.Sound naming tree → walk.Charted naming chart →
          Marks naming chart ⟨node, parent, above⟩
            (visitsOfAll (some node.label) above node.children) (arrive naming path node walk)
  | .node label keys endings children, path, walk, chart, keyed, under, leads, walked, sound,
    charted => by
    have descends : DescendsFrom naming tree path.key fun path ambient proposed walk =>
        branches naming path ambient children proposed walk := descendsFrom_branches under leads
    have charts : ChartsFrom naming tree path.key ⟨.node label keys endings children, parent, above⟩
        (visitsOfAll (some label) above children) fun path ambient proposed walk =>
          branches naming path ambient children proposed walk := by
      intro other ambient proposed walk chart place sameKey walked sound offered charted met placed
      exact charts_branches children keyed under other (leads.trans sameKey.symm)
        (fun child member => member) ambient proposed walk chart place walked sound offered charted
        met placed
    rw [arrive]
    cases role : nodeRole endings children.isEmpty with
    | finish plan =>
      have isLeaf := (nodeRole_finish role).2.2
      refine ⟨[], ?_, charted.mark fun constructor isTarget => ?_⟩
      · show [] = visitsOfAll (some label) above children
        rw [List.isEmpty_iff.1 isLeaf]
        rfl
      · exact ⟨plan, role, CallNode.target.inj isTarget⟩
    | existing plan => exact marks_enterExisting walked sound charted role charts
    | synthesized =>
      show Marks naming chart _ _ (enterSynthesized naming path endings _ _ walk)
      unfold enterSynthesized
      cases found : walk.shared? path.key with
      | none => exact marks_enterNew walked sound charted _ charts
      | some shared => exact marks_enterShared sound charted found _ descends charts

/-- Going down to children of a node marks all nodes below them. -/
theorem charts_branches {above : List ParameterPlan} {node : PlanTree} {parent : Option Nat} :
    (children : List PlanTree) → tree.Keyed → Under tree above node → (path : Path) →
      keyOf above = path.key → (∀ child ∈ children, child ∈ node.children) →
        (ambient : List TypeParameter) → (proposed : List Candidate) → (walk : Walk) →
          (chart : List Mark) → (place : CallNode) → Walked tree path → walk.Sound naming tree →
            (∀ candidate ∈ proposed, Offered naming tree walk path candidate.method) →
              walk.Charted naming chart → ⟨⟨node, parent, above⟩, place⟩ ∈ chart →
                (∀ candidate ∈ proposed, Placed naming chart place candidate.method) →
                  Charts naming chart (visitsOfAll (some node.label) above children) place
                    (branches naming path ambient children proposed walk)
  | [], keyed, under, path, leads, included, ambient, proposed, walk, chart, place, walked, sound,
    offered, charted, met, placed => by
    refine ⟨[], rfl, ?_⟩
    rw [List.append_nil]
    exact ⟨charted, placed⟩
  | child :: rest, keyed, under, path, leads, included, ambient, proposed, walk, chart, place,
    walked, sound, offered, charted, met, placed => by
    have includedRest : ∀ other ∈ rest, other ∈ node.children :=
      fun other member => included other (List.mem_cons_of_mem _ member)
    have member : child ∈ node.children := included child List.mem_cons_self
    obtain ⟨representative, made⟩ := keyed.made above node under child member
    have underChild := under.down member made
    have leadsChild := Walked.keyOf_append_singleton leads representative
    have below : Walked tree (path.extend representative) :=
      .extend walked under leads member made
    let outcome := arrive naming (path.extend representative) child walk
    let mark : Mark := ⟨⟨child, some node.label, above ++ [representative]⟩, outcome.1.result.node⟩
    have entered : Entered naming tree (path.extend representative) child walk outcome :=
      entered_arrive child _ walk underChild leadsChild below sound
    obtain ⟨added, isBelow, after⟩ : Marks naming chart mark.visit
        (visitsOfAll (some child.label) (above ++ [representative]) child.children) outcome :=
      marks_arrive child _ walk chart keyed underChild leadsChild below sound charted
    have marked : mark ∈ chart ++ mark :: added :=
      List.mem_append_right _ List.mem_cons_self
    let call := edgeCall path (path.extend representative) ambient outcome.1.result
      outcome.1.finished
    have offeredAll : ∀ candidate ∈ child.keys.foldl call.propose proposed,
        Offered naming tree outcome.2 path candidate.method :=
      offered_foldl_propose offered entered.grows.toKeeps under leads member made rfl
        entered.arrives
    have placedAll : ∀ candidate ∈ child.keys.foldl call.propose proposed,
        Placed naming (chart ++ mark :: added) place candidate.method :=
      placed_foldl_propose (fun candidate wasProposed => (placed candidate wasProposed).append _)
        (List.mem_append_left _ met) rfl marked member List.length_append rfl
    obtain ⟨others, isRest, afterAll, placedRest⟩ := charts_branches rest keyed under path leads
      includedRest ambient (child.keys.foldl call.propose proposed) outcome.2
      (chart ++ mark :: added) place walked entered.sound offeredAll after
      (List.mem_append_left _ met) placedAll
    rw [branches, made]
    refine ⟨mark :: added ++ others, ?_, ?_⟩
    · rw [visitsOfAll, PrefixTree.visits_eq, PrefixTree.pathFrom_of_made made, List.map_append,
        isRest, List.map_cons, isBelow]
    · rw [← List.append_assoc]
      exact ⟨afterAll, placedRest⟩

end

/-- The chart of a whole walk: it marks the nodes of the tree one by one, and it is right about
the steps and about the methods of the root. -/
structure Walk.Surveyed (naming : Naming) (tree : PlanTree) (rootMethods : List Method)
    (chart : List Mark) (walk : Walk) : Prop where
  charted : walk.Charted naming chart
  placedRoot : ∀ method ∈ rootMethods, Placed naming chart .root method
  visits : chart.map Mark.visit = tree.visits none []
  root : ⟨⟨tree, none, []⟩, .root⟩ ∈ chart

/-- The walk of a tree has a chart. -/
theorem exists_surveyed_walkTree (naming : Naming) (root : Root) {tree : PlanTree}
    (keyed : tree.Keyed) :
    ∃ chart, (walkTree naming root tree).2.Surveyed naming tree (walkTree naming root tree).1
      chart := by
  let mark : Mark := ⟨⟨tree, none, []⟩, .root⟩
  have met : mark ∈ [mark] := List.mem_singleton_self mark
  have marked : ({} : Walk).Charted naming [mark] :=
    Walk.Charted.start.mark fun constructor isTarget => CallNode.noConfusion isTarget
  obtain ⟨added, isBelow, after, placed⟩ := charts_branches tree.children keyed .top {} rfl
    (fun _ member => member) root.typeParameters [] {} [mark] .root .start (.start naming tree)
    (fun _ member => absurd member List.not_mem_nil) marked met
    fun _ member => absurd member List.not_mem_nil
  refine ⟨[mark] ++ added, ?_, ?_, ?_, List.mem_append_left added met⟩
  · exact after.of_same fun _ => rfl
  · exact placed_survivors
      (placed_creations naming (List.mem_append_left added met) placed {} root.typeParameters)
  · have atRoot : tree.pathFrom [] = [] := by
      rw [PrefixTree.pathFrom, keyed.root]
      rfl
    rw [PrefixTree.visits_eq, atRoot, List.map_append, isBelow]
    rfl

namespace Walk.Surveyed

variable {rootMethods : List Method}

/-- A marked node stands below the keys that lead to it. -/
theorem under (surveyed : walk.Surveyed naming tree rootMethods chart) (keyed : tree.Keyed)
    {mark : Mark} (met : mark ∈ chart) : Under tree mark.visit.path mark.node := by
  have visited : mark.visit ∈ tree.visits none [] := by
    rw [← surveyed.visits]
    exact List.mem_map_of_mem met
  exact keyed.under_of_mem_visits keyed.under_root visited

/-- Every node that stands below keys is marked. -/
theorem exists_mark (surveyed : walk.Surveyed naming tree rootMethods chart) (keyed : tree.Keyed)
    {above : List ParameterPlan} (under : Under tree above node) :
    ∃ mark ∈ chart, mark.node = node ∧ mark.visit.path = above := by
  obtain ⟨parent, visited⟩ := keyed.exists_visit under
  rw [← surveyed.visits] at visited
  obtain ⟨mark, met, isVisit⟩ := List.mem_map.1 visited
  exact ⟨mark, met, congrArg Visit.tree isVisit, congrArg Visit.path isVisit⟩

/-- One mark is left for a depth and a plan. -/
theorem mark_eq (surveyed : walk.Surveyed naming tree rootMethods chart) (keyed : tree.Keyed)
    (distinct : tree.values.Nodup) {first second : Mark} (metFirst : first ∈ chart)
    (metSecond : second ∈ chart) (sameDepth : first.depth = second.depth)
    {plan : ConstructorPlan} (inFirst : plan ∈ first.node.values)
    (inSecond : plan ∈ second.node.values) : first = second := by
  have apart : chart.Pairwise fun first second => first.visit.Apart second.visit := by
    rw [← List.pairwise_map, surveyed.visits]
    exact keyed.pairwise_visits keyed.under_root distinct
  have symmetric : Std.Symm fun first second : Mark => first.visit.Apart second.visit :=
    ⟨fun _ _ apart => apart.symm⟩
  by_contra differ
  exact apart.forall metFirst metSecond differ sameDepth inFirst inSecond

end Walk.Surveyed

end StagedBuilder
