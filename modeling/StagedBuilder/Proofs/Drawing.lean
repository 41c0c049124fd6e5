/-
This file reads drawings of builders back and compares what they show with the call graph.

A node is drawn under its name, and a reader knows it by nothing else. The drawing says
what the graph says if the name of every node ends where its quotes end, and then it has
one statement for each node and one for each edge. But it shows the graph only if no two
nodes have the same name. The names come from four sources: the type of the root, the
numbers of the synthesized steps, the types of the existing steps and the signatures of
the constructors. The numbers keep the synthesized steps apart, and names from different
sources differ, unless that of an existing step is one of them: it is the name of a type,
which may be the root's or that of another existing step.
-/

import StagedBuilder.Proofs.CallReach
import StagedBuilder.Proofs.DotReading
import StagedBuilder.Proofs.Layers
import StagedBuilder.Proofs.Termini

namespace StagedBuilder

open CallGraph (Calls Reached)
open Relation (ReflTransGen)

/-! ### What a picture shows -/

namespace Dot.Picture

/-- The names that a picture mentions, each of them once. -/
def vertices (picture : Picture) : List String :=
  (picture.nodes.map (·.1) ++ (picture.arrows.map (·.1) ++ picture.arrows.map (·.2))).eraseDups

/-- With these names for its nodes a picture shows a graph: each node once, and an arrow for each
edge. -/
structure Shows (picture : Picture) (graph : CallGraph) (name : CallNode → String) : Prop where
  apart : (graph.nodes.map name).Nodup
  vertices : picture.vertices.Perm (graph.nodes.map name)
  arrows : picture.arrows.Perm (graph.edges.map (Prod.map name name))

/-- A picture shows a graph, under whatever names. -/
def IsIsomorphic (picture : Picture) (graph : CallGraph) : Prop := ∃ name, picture.Shows graph name

end Dot.Picture

/-! ### Names of nodes -/

/-- The graph that is drawn. -/
abbrev Builder.graph (builder : Builder) : CallGraph := .ofBuilder builder

/-- What is read of the name of a node. -/
def Builder.identifier (builder : Builder) (node : CallNode) : String :=
  String.ofList (Dot.shown false (builder.nodeName node).toList)

/-- The name of a node ends where its quotes end. -/
def Builder.Terminates (builder : Builder) (node : CallNode) : Prop :=
  Dot.closes false (builder.nodeName node).toList = true

/-- The picture that has one node for each of a graph and one arrow for each edge. -/
def CallGraph.picture (graph : CallGraph) (builder : Builder) : Dot.Picture where
  nodes := graph.nodes.map fun node => (builder.identifier node, some node.colour)
  arrows := graph.edges.map (Prod.map builder.identifier builder.identifier)

section

variable {builder : Builder} {node : CallNode}

theorem Builder.toList_nodeLabel (builder : Builder) (node : CallNode) :
    (builder.nodeLabel node).toList = Dot.quotation (builder.nodeName node).toList := by
  simp [nodeLabel, Dot.quotation, escapeQuotes]
  rfl

theorem Builder.tokens?_nodeLabel {identifier : String} :
    Dot.tokens? (builder.nodeLabel node).toList = some [.quoted identifier] ↔
      builder.Terminates node ∧ identifier = builder.identifier node := by
  rw [toList_nodeLabel]
  exact Dot.tokens?_quotation

theorem Builder.consists_nodeLabel (terminates : builder.Terminates node) :
    Dot.Consists (builder.nodeLabel node).toList [.quoted (builder.identifier node)] := by
  rw [toList_nodeLabel]
  exact .quotation terminates

theorem Builder.terminates_of_notMem (free : '\\' ∉ (builder.nodeName node).toList) :
    builder.Terminates node ∧ builder.identifier node = builder.nodeName node := by
  refine ⟨Dot.closes_of_notMem free, ?_⟩
  rw [identifier, Dot.shown_of_notMem free, String.ofList_toList]

end

/-! ### Reading a drawing -/

theorem toList_unlines (lines : List String) :
    (unlines lines).toList = lines.flatMap fun line => line.toList ++ ['\n'] := by
  simp [unlines, List.flatMap_map]

section

variable {builder : Builder} {node source target : CallNode}

theorem consists_colour (node : CallNode) :
    Dot.Consists (" [fillcolor=".toList ++ (node.colour.toList ++ "];\n".toList))
      [.mark '[', .word "fillcolor", .mark '=', .word node.colour, .mark ']', .mark ';'] := by
  cases node with
  | root => exact fun _ => rfl
  | step index =>
    rw [CallNode.colour]
    exact fun _ => rfl
  | target constructor =>
    rw [CallNode.colour]
    exact fun _ => rfl

theorem draws_node (terminates : builder.Terminates node) :
    Dot.Draws (("  " ++ builder.nodeLabel node ++ " [fillcolor=" ++ node.colour ++ "];").toList
        ++ ['\n'])
      [.node (builder.identifier node) [("fillcolor", node.colour)]] := by
  have indent : Dot.Consists "  ".toList [] := fun _ => rfl
  have line := indent.append
    ((Builder.consists_nodeLabel terminates).append (consists_colour node))
  have draws : Dot.Draws _ [.node (builder.identifier node) [("fillcolor", node.colour)]] :=
    .single line fun _ => rfl
  simpa using draws

theorem draws_edge (leaves : builder.Terminates source) (arrives : builder.Terminates target) :
    Dot.Draws
      (("  " ++ builder.nodeLabel source ++ " -> " ++ builder.nodeLabel target ++ ";").toList
        ++ ['\n'])
      [.arrow (builder.identifier source) (builder.identifier target)] := by
  have indent : Dot.Consists "  ".toList [] := fun _ => rfl
  have arrow : Dot.Consists " -> ".toList [.arrow] := fun _ => rfl
  have ending : Dot.Consists ";\n".toList [.mark ';'] := fun _ => rfl
  have line := indent.append ((Builder.consists_nodeLabel leaves).append
    (arrow.append ((Builder.consists_nodeLabel arrives).append ending)))
  have draws : Dot.Draws _ [.arrow (builder.identifier source) (builder.identifier target)] :=
    .single line fun _ => rfl
  simpa using draws

end

/-- The statements of a drawing: two about the looks of all of it, one for each node and one for
each edge. -/
def CallGraph.statements (graph : CallGraph) (builder : Builder) : List Dot.Statement :=
  .setting "rankdir" "LR" ::
    .defaults [("shape", "box"), ("style", "filled"), ("fontname", "JetBrains Mono")] ::
    (graph.nodes.map (fun node => .node (builder.identifier node) [("fillcolor", node.colour)])
      ++ graph.edges.map fun edge =>
        .arrow (builder.identifier edge.1) (builder.identifier edge.2))

theorem pictureOf_statements (graph : CallGraph) (builder : Builder) :
    Dot.pictureOf (graph.statements builder) = graph.picture builder := by
  simp [Dot.pictureOf, CallGraph.statements, CallGraph.picture, List.filterMap_map]

/-- Between its first and its last line a drawing consists of its statements. -/
theorem draws_statements {builder : Builder} {graph : CallGraph}
    (terminate : ∀ node ∈ graph.nodes, builder.Terminates node)
    (ends : ∀ edge ∈ graph.edges, edge.1 ∈ graph.nodes ∧ edge.2 ∈ graph.nodes) :
    ∃ text, Dot.Draws text (graph.statements builder) ∧
      (graph.drawing builder).toList =
        "digraph fluentgen \x7b\n".toList ++ (text ++ "\x7d\n".toList) := by
  have layout : Dot.Consists "  rankdir=LR;\n".toList
    [.word "rankdir", .mark '=', .word "LR", .mark ';'] := fun _ => rfl
  have defaults : Dot.Consists
      "  node [shape=box, style=filled, fontname=\"JetBrains Mono\"];\n".toList
      [.word "node", .mark '[', .word "shape", .mark '=', .word "box", .mark ',',
        .word "style", .mark '=', .word "filled", .mark ',',
        .word "fontname", .mark '=', .quoted "JetBrains Mono", .mark ']', .mark ';'] :=
    fun _ => rfl
  have blank : Dot.Draws "\n".toList [] := ⟨[], fun _ => rfl, fun _ _ reads => reads⟩
  have nodes := Dot.Draws.flatMap fun node member => draws_node (terminate node member)
  have edges := Dot.Draws.flatMap fun edge member =>
    draws_edge (terminate _ (ends edge member).1) (terminate _ (ends edge member).2)
  refine ⟨_, (Dot.Draws.single layout fun _ => rfl).append
    ((Dot.Draws.single defaults fun _ => rfl).append
      (blank.append (nodes.append (blank.append edges)))), ?_⟩
  simp [CallGraph.drawing, toList_unlines, List.flatMap_map]

/-- The drawing of a graph can be read if every name ends with its quotes, and it shows what the
graph says about the names. -/
theorem picture?_drawing {builder : Builder} {graph : CallGraph}
    (terminate : ∀ node ∈ graph.nodes, builder.Terminates node)
    (ends : ∀ edge ∈ graph.edges, edge.1 ∈ graph.nodes ∧ edge.2 ∈ graph.nodes) :
    Dot.picture? (graph.drawing builder).toList = some (graph.picture builder) := by
  obtain ⟨text, draws, whole⟩ := draws_statements terminate ends
  rw [whole, draws.picture?, pictureOf_statements]

/-! ### Isomorphic pictures -/

theorem mem_vertices_picture {builder : Builder} {graph : CallGraph}
    (ends : ∀ edge ∈ graph.edges, edge.1 ∈ graph.nodes ∧ edge.2 ∈ graph.nodes) {name : String} :
    name ∈ (graph.picture builder).vertices ↔ name ∈ graph.nodes.map builder.identifier := by
  simp only [Dot.Picture.vertices, CallGraph.picture, List.mem_eraseDups, List.mem_append,
    List.map_map]
  refine ⟨?_, fun isNode => .inl isNode⟩
  rintro (isNode | isSource | isTarget)
  · exact isNode
  · obtain ⟨edge, member, rfl⟩ := List.mem_map.1 isSource
    exact List.mem_map_of_mem (ends edge member).1
  · obtain ⟨edge, member, rfl⟩ := List.mem_map.1 isTarget
    exact List.mem_map_of_mem (ends edge member).2

/-- The picture of a graph shows the graph exactly if no two nodes are read under one name. -/
theorem isIsomorphic_picture_iff {builder : Builder} {graph : CallGraph}
    (ends : ∀ edge ∈ graph.edges, edge.1 ∈ graph.nodes ∧ edge.2 ∈ graph.nodes) :
    (graph.picture builder).IsIsomorphic graph ↔
      (graph.nodes.map builder.identifier).Nodup := by
  have once : (graph.picture builder).vertices.Nodup := Lists.nodup_eraseDups _
  constructor
  · rintro ⟨name, shows⟩
    -- As many names are mentioned as there are nodes, and each is that of a node.
    have fewer : (graph.picture builder).vertices.Subperm (graph.nodes.map builder.identifier) :=
      List.subperm_of_subset once fun _ member => (mem_vertices_picture ends).1 member
    have asMany := shows.vertices.length_eq
    rw [List.length_map] at asMany
    refine (fewer.perm_of_length_le ?_).nodup_iff.1 once
    rw [List.length_map, asMany]
  · intro apart
    refine ⟨builder.identifier, apart, ?_, List.Perm.refl _⟩
    exact (List.perm_ext_iff_of_nodup once apart).2 fun _ => mem_vertices_picture ends

/-- Then each node is drawn in its own colour and in no other. -/
theorem mem_nodes_picture_iff {builder : Builder} {graph : CallGraph}
    (apart : (graph.nodes.map builder.identifier).Nodup) {node : CallNode}
    (isNode : node ∈ graph.nodes) {colour : Option String} :
    (builder.identifier node, colour) ∈ (graph.picture builder).nodes ↔
      colour = some node.colour := by
  constructor
  · intro stated
    obtain ⟨other, isOther, same⟩ := List.mem_map.1 stated
    obtain ⟨sameName, rfl⟩ := Prod.mk.inj same
    rw [List.inj_on_of_nodup_map apart isOther isNode sameName]
  · rintro rfl
    exact List.mem_map_of_mem isNode

/-! ### Numbers in names -/

/-- The name that a synthesized step has by its number. -/
def stepName (naming : Naming) (root : Root) (index : Nat) : String :=
  naming.stepPrefix ++ "_" ++ toString index ++ "__" ++ root.name

theorem notMem_toString (index : Nat) : '\\' ∉ (toString index).toList := by
  rw [Nat.toString_eq_repr, Nat.toList_repr]
  intro member
  have isDigit := Nat.isDigit_of_mem_toDigits (by decide) (by decide) member
  exact absurd isDigit (by decide)

/-- Names with different numbers are read as different names. -/
theorem eq_of_shown_stepName {naming : Naming} {root : Root} {left right : Nat}
    (same : Dot.shown false (stepName naming root left).toList =
      Dot.shown false (stepName naming root right).toList) : left = right := by
  obtain ⟨before, reads⟩ :=
    Dot.exists_shown_append (show '_' ≠ '\\' by decide) false naming.stepPrefix.toList
  have readsName (index : Nat) : Dot.shown false (stepName naming root index).toList =
      before ++ ((toString index).toList ++ Dot.shown false ("__".toList ++ root.name.toList)) := by
    rw [← Dot.shown_append_of_notMem (notMem_toString index), ← reads]
    simp [stepName]
  rw [readsName, readsName] at same
  have sameNumber := List.append_cancel_right (List.append_cancel_left same)
  exact Nat.repr_injective (String.toList_inj.1 sameNumber)

/-! ### Last characters of names -/

/-- The name of the root ends with neither of the brackets that names of types and signatures of
constructors end with. -/
def Root.EndsPlainly (root : Root) : Prop :=
  root.name.toList.getLast? ≠ some '>' ∧ root.name.toList.getLast? ≠ some ')'

theorem getLast?_display_constructor (constructor : Constructor) :
    constructor.display.toList.getLast? = some ')' := by
  rw [Constructor.display, String.toList_append]
  exact List.getLast?_concat

theorem getLast?_stepName (naming : Naming) (root : Root) (index : Nat) :
    (stepName naming root index).toList.getLast? = root.name.toList.getLast?.or (some '_') := by
  rw [stepName, String.toList_append, List.getLast?_append, String.toList_append,
    List.getLast?_append]
  rfl

/-- The type of a root is written with arguments at the end, or as its name alone, or with its name
behind a name space. -/
theorem display_asType_cases (root : Root) :
    root.asType.display.toList.getLast? = some '>' ∨ root.asType.display = root.name ∨
      ∃ front, root.asType.display.toList = front ++ [':'] ++ root.name.toList := by
  rw [Root.asType, TypeTerm.qualified, TypeTerm.display]
  cases root.typeParameters with
  | nil =>
    cases root.space.filter (· ≠ "") with
    | none => exact .inr (.inl String.append_empty)
    | some space =>
      refine .inr (.inr ⟨space.toList ++ [':'], ?_⟩)
      simp [TypeTerm.qualifiedName, TypeTerm.displayAll, TypeTerm.argumentList]
  | cons first rest =>
    left
    rw [List.map_cons, TypeTerm.displayAll, TypeTerm.argumentList, ← String.append_assoc,
      String.toList_append]
    exact List.getLast?_concat

namespace Root.EndsPlainly

variable {root : Root} (plainly : root.EndsPlainly)

include plainly

/-- Behind another character the name of the root does not end a text with a bracket. -/
theorem getLast?_or {character : Char} (noAngle : character ≠ '>') (noRound : character ≠ ')') :
    root.name.toList.getLast?.or (some character) ≠ some '>' ∧
      root.name.toList.getLast?.or (some character) ≠ some ')' := by
  obtain ⟨noAngleAtEnd, noRoundAtEnd⟩ := plainly
  cases last : root.name.toList.getLast? with
  | none => simpa using ⟨noAngle, noRound⟩
  | some other =>
    rw [last] at noAngleAtEnd noRoundAtEnd
    exact ⟨noAngleAtEnd, noRoundAtEnd⟩

theorem display_ne_stepName (naming : Naming) (index : Nat) :
    root.asType.display ≠ stepName naming root index := by
  intro same
  rcases display_asType_cases root with applied | bare | ⟨front, qualified⟩
  · rw [same, getLast?_stepName] at applied
    exact (plainly.getLast?_or (by decide) (by decide)).1 applied
  · have lengths := congrArg String.length (bare.symm.trans same)
    simp only [stepName, String.length_append] at lengths
    have underscores : "__".length = 2 := rfl
    omega
  · have parts : (stepName naming root index).toList =
        (naming.stepPrefix ++ "_" ++ toString index ++ "_").toList ++ ['_'] ++
          root.name.toList := by
      simp [stepName]
    rw [same, parts] at qualified
    have sameEnd := List.append_cancel_right qualified
    have sameCharacter := congrArg List.getLast? sameEnd
    rw [List.getLast?_concat, List.getLast?_concat] at sameCharacter
    exact absurd (Option.some.inj sameCharacter) (by decide)

theorem display_ne_display (constructor : Constructor) :
    root.asType.display ≠ constructor.display := by
  intro same
  have ends := getLast?_display_constructor constructor
  rw [← same] at ends
  rcases display_asType_cases root with applied | bare | ⟨front, qualified⟩
  · rw [applied] at ends
    exact absurd (Option.some.inj ends) (by decide)
  · rw [bare] at ends
    exact plainly.2 ends
  · rw [qualified, List.getLast?_append, List.getLast?_concat] at ends
    exact (plainly.getLast?_or (by decide) (by decide)).2 ends

theorem stepName_ne_display (naming : Naming) (index : Nat) (constructor : Constructor) :
    stepName naming root index ≠ constructor.display := by
  intro same
  have ends := getLast?_display_constructor constructor
  rw [← same, getLast?_stepName] at ends
  exact (plainly.getLast?_or (by decide) (by decide)).2 ends

end Root.EndsPlainly

/-! ### Nodes of a builder -/

/-- Without methods and steps chains of calls do not begin. -/
theorem eq_root_of_reached_nil {node : CallNode} (reached : Reached [] [] node) : node = .root := by
  obtain same | ⟨source, -, last⟩ := ReflTransGen.cases_tail reached
  · exact same
  · cases last with
    | call member => cases source <;> cases member
    | arrive held => cases held

namespace Builder

section

variable {declarations : List Declaration} {builder : Builder}

/-- The steps that chains of calls come to are those of the builder. -/
theorem Layered.reached_step_iff (layered : builder.Layered declarations) {index : Nat} :
    Reached builder.methods builder.table (.step index) ↔ index < builder.steps.length := by
  refine ⟨fun reached => ?_, layered.reached index⟩
  obtain same | ⟨node, -, last⟩ := ReflTransGen.cases_tail reached
  · cases same
  generalize atStep : CallNode.step index = target at last
  cases last with
  | @call _ method member =>
    obtain ⟨place, found, isMethod⟩ := (mem_methodsAt builder.stop?_table).1 member
    exact layered.closed method (mem_allMethods_of_place found isMethod) index
      (CallGraph.step?_of_node atStep.symm)
  | arrive => cases atStep

/-- Chains of calls end at targets of declared constructors. -/
theorem TypeCoherent.declared (coherent : builder.TypeCoherent declarations) {id : Nat}
    (reached : Reached builder.methods builder.table (.target id)) :
    ∃ declaration, declarations[id]? = some declaration := by
  obtain same | ⟨node, -, last⟩ := ReflTransGen.cases_tail reached
  · cases same
  generalize atTarget : CallNode.target id = target at last
  cases last with
  | @call _ method member =>
    obtain ⟨place, found, isMethod⟩ := (mem_methodsAt builder.stop?_table).1 member
    cases returns : method.result with
    | product value =>
      obtain ⟨declaration, isDeclared, -⟩ :=
        coherent.returned node place found method isMethod value returns
      rw [returns] at atTarget
      cases atTarget
      exact ⟨declaration, isDeclared⟩
    | step index =>
      rw [returns] at atTarget
      cases atTarget
  | @arrive index stop constructor held arrives =>
    cases atTarget
    rw [builder.stop?_table] at held
    obtain ⟨step, isStep, rfl⟩ := Option.map_eq_some_iff.1 held
    cases step with
    | synthesized step => cases arrives
    | existing step =>
      cases arrives
      obtain ⟨declaration, isDeclared, -⟩ := coherent.existing index step isStep
      exact ⟨declaration, isDeclared⟩

theorem mem_nodes_graph {node : CallNode} :
    node ∈ builder.graph.nodes ↔ Reached builder.methods builder.table node :=
  CallGraph.mem_nodes_build

theorem ends_mem_nodes (edge : CallNode × CallNode)
    (member : edge ∈ builder.graph.edges) :
    edge.1 ∈ builder.graph.nodes ∧ edge.2 ∈ builder.graph.nodes := by
  obtain ⟨reached, calls⟩ := CallGraph.mem_edges_build_iff.1 member
  exact ⟨mem_nodes_graph.2 reached, mem_nodes_graph.2 (reached.tail calls)⟩

/-- A node is the root, a step of the builder or a target that chains of calls end at. -/
theorem Layered.mem_nodes_iff (layered : builder.Layered declarations) {node : CallNode} :
    node ∈ builder.graph.nodes ↔
      node = .root ∨ (∃ index < builder.steps.length, node = .step index) ∨
        ∃ id ∈ builder.graph.reachableConstructors, node = .target id := by
  cases node with
  | root => simp [mem_nodes_graph, Reached, ReflTransGen.refl]
  | step index => simp [mem_nodes_graph, layered.reached_step_iff]
  | target id =>
    have listed : id ∈ builder.graph.reachableConstructors ↔
        Reached builder.methods builder.table (.target id) :=
      CallGraph.mem_reachableConstructors_build
    simp [mem_nodes_graph, listed]

end

/-! ### Where the names come from -/

/-- A node that is an existing step. -/
def IsExisting (builder : Builder) (node : CallNode) : Prop :=
  ∃ index step, node = .step index ∧ builder.step? index = some (.existing step)

/-- The names of the nodes come from four sources. -/
structure NamesNodes (naming : Naming) (root : Root) (declarations : List Declaration)
    (builder : Builder) : Prop where
  ofRoot : builder.nodeName .root = root.asType.display
  ofSynthesized : ∀ index step, builder.step? index = some (.synthesized step) →
    builder.nodeName (.step index) = stepName naming root index
  ofExisting : ∀ index step, builder.step? index = some (.existing step) →
    builder.nodeName (.step index) = step.target.display
  ofTarget : ∀ id ∈ builder.graph.reachableConstructors,
    ∃ declaration, declarations[id]? = some declaration ∧
      builder.nodeName (.target id) = declaration.constructor.display

theorem nodeName_step {builder : Builder} {index : Nat} {step : Step}
    (found : builder.step? index = some step) : builder.nodeName (.step index) = step.name := by
  rw [nodeName, found, Option.map_some, Option.getD_some]

/-- A synthesized step that is kept is named by its number. -/
theorem Origin.nodeName_synthesized {naming : Naming} {root : Root}
    {declarations : List Declaration} {builder : Builder}
    (origin : builder.Origin naming root declarations) {index : Nat} {final : SynthesizedStep}
    (found : builder.step? index = some (.synthesized final)) :
    builder.nodeName (.step index) = stepName naming root index := by
  rw [nodeName_step found]
  obtain ⟨-, step, -, -, -, isFinal⟩ := origin.exists_kept found
  cases step with
  | synthesized step =>
    cases isFinal
    rfl
  | existing step => cases isFinal

theorem nodeName_target {builder : Builder} {declarations : List Declaration} {id : Nat}
    {declaration : Declaration} (constructors : builder.constructors = summaries declarations)
    (isDeclared : declarations[id]? = some declaration) :
    builder.nodeName (.target id) = declaration.constructor.display := by
  obtain ⟨bound, isThere⟩ := List.getElem?_eq_some_iff.1 isDeclared
  have found : builder.constructor? id = some {
      id
      display := declaration.constructor.display
      target := declaration.target.asType
      location := declaration.constructor.location } := by
    rw [constructor?, constructors, List.find?_eq_some_iff_getElem]
    refine ⟨by simp, id, by simpa [summaries] using bound, by simp [summaries, isThere], ?_⟩
    intro place before
    simpa [summaries] using Nat.ne_of_lt before
  rw [nodeName, found, Option.map_some, Option.getD_some]

end Builder

open Builder

theorem namesNodes_assemble (system : TypeSystem) (naming : Naming) (root : Root)
    (declarations : List Declaration) :
    (assemble system naming root declarations).NamesNodes naming root declarations := by
  obtain ⟨origin⟩ := nonempty_origin system naming root declarations
  have layered := origin.layered
  have coherent := origin.typeCoherent
  refine ⟨?_, fun index step found => origin.nodeName_synthesized found,
    fun index step found => nodeName_step found, fun id ends => ?_⟩
  · by_cases refused : (Validation.findings root declarations).any Diagnostic.isError = true
    · rw [assemble_of_refused refused]
      rfl
    · rw [assemble_of_accepted refused]
      rfl
  · have reached := mem_nodes_graph.1 (layered.mem_nodes_iff.2 (.inr (.inr ⟨id, ends, rfl⟩)))
    obtain ⟨declaration, isDeclared⟩ := coherent.declared reached
    refine ⟨declaration, isDeclared, nodeName_target ?_ isDeclared⟩
    by_cases refused : (Validation.findings root declarations).any Diagnostic.isError = true
    · rw [assemble_of_refused refused] at reached
      cases eq_root_of_reached_nil reached
    · rw [assemble_of_accepted refused]
      rfl

/-! ### What a drawing shows of a builder -/

namespace Builder

section

variable {naming : Naming} {root : Root} {declarations : List Declaration} {builder : Builder}

/-- The declarations with two numbers are of constructors with one signature. -/
def SameSignature (declarations : List Declaration) (left right : Nat) : Prop :=
  ∃ first second, declarations[left]? = some first ∧ declarations[right]? = some second ∧
    first.constructor.display = second.constructor.display

theorem SameSignature.eq_of_nodup {declarations : List Declaration} {left right : Nat}
    (alike : SameSignature declarations left right)
    (distinct : (declarations.map (·.constructor.display)).Nodup) : left = right := by
  obtain ⟨first, second, isFirst, isSecond, same⟩ := alike
  obtain ⟨bound, -⟩ := List.getElem?_eq_some_iff.1 isFirst
  refine (List.getElem?_inj (by rwa [List.length_map]) distinct).1 ?_
  rw [List.getElem?_map, List.getElem?_map, isFirst, isSecond, Option.map_some, Option.map_some,
    same]

/-- The names of all nodes but the existing steps. -/
inductive NamedAs (naming : Naming) (root : Root) (declarations : List Declaration) :
    CallNode → String → Prop
  | root : NamedAs naming root declarations .root root.asType.display
  | number (index : Nat) :
      NamedAs naming root declarations (.step index) (stepName naming root index)
  | signature {id : Nat} {declaration : Declaration}
      (isDeclared : declarations[id]? = some declaration) :
      NamedAs naming root declarations (.target id) declaration.constructor.display

/-- Of these only targets whose constructors have one signature share a name. -/
theorem NamedAs.eq_or_of_eq (plainly : root.EndsPlainly) {first second : CallNode}
    {name other : String} (isFirst : NamedAs naming root declarations first name)
    (isSecond : NamedAs naming root declarations second other) (same : name = other) :
    first = second ∨ ∃ left right, first = .target left ∧ second = .target right ∧
      SameSignature declarations left right := by
  cases isFirst with
  | root =>
    cases isSecond with
    | root => exact .inl rfl
    | number index => exact absurd same (plainly.display_ne_stepName naming index)
    | signature => exact absurd same (plainly.display_ne_display _)
  | number left =>
    cases isSecond with
    | root => exact absurd same.symm (plainly.display_ne_stepName naming left)
    | number right =>
      exact .inl (congrArg _ (eq_of_shown_stepName (congrArg (Dot.shown false ·.toList) same)))
    | signature => exact absurd same (plainly.stepName_ne_display naming left _)
  | signature isLeft =>
    cases isSecond with
    | root => exact absurd same.symm (plainly.display_ne_display _)
    | number index => exact absurd same.symm (plainly.stepName_ne_display naming index _)
    | signature isRight => exact .inr ⟨_, _, rfl, rfl, _, _, isLeft, isRight, same⟩

theorem NamesNodes.existing_or_namedAs (names : builder.NamesNodes naming root declarations)
    (layered : builder.Layered declarations) {node : CallNode}
    (isNode : node ∈ builder.graph.nodes) :
    builder.IsExisting node ∨ NamedAs naming root declarations node (builder.nodeName node) := by
  rcases layered.mem_nodes_iff.1 isNode with rfl | ⟨index, bound, rfl⟩ | ⟨id, ends, rfl⟩
  · exact .inr (names.ofRoot ▸ .root)
  · have found : builder.step? index = some builder.steps[index] := List.getElem?_eq_getElem bound
    cases kind : builder.steps[index] with
    | synthesized step =>
      rw [kind] at found
      exact .inr (names.ofSynthesized index step found ▸ .number index)
    | existing step =>
      rw [kind] at found
      exact .inl ⟨index, step, rfl, found⟩
  · obtain ⟨declaration, isDeclared, isName⟩ := names.ofTarget id ends
    exact .inr (isName ▸ .signature isDeclared)

/-- Two nodes with one name are the same, or one of them is an existing step, or they are targets
whose constructors have one signature. -/
theorem NamesNodes.eq_or_of_nodeName_eq (names : builder.NamesNodes naming root declarations)
    (layered : builder.Layered declarations) (plainly : root.EndsPlainly) {first second : CallNode}
    (isFirst : first ∈ builder.graph.nodes) (isSecond : second ∈ builder.graph.nodes)
    (same : builder.nodeName first = builder.nodeName second) :
    first = second ∨ builder.IsExisting first ∨ builder.IsExisting second ∨
      ∃ left right, first = .target left ∧ second = .target right ∧
        SameSignature declarations left right := by
  rcases names.existing_or_namedAs layered isFirst with existing | firstName
  · exact .inr (.inl existing)
  rcases names.existing_or_namedAs layered isSecond with existing | secondName
  · exact .inr (.inr (.inl existing))
  rcases firstName.eq_or_of_eq plainly secondName same with isSame | targets
  · exact .inl isSame
  · exact .inr (.inr (.inr targets))

end

/-- What the drawing of a builder shows of its call graph. -/
structure DrawsGraph (naming : Naming) (root : Root) (declarations : List Declaration)
    (builder : Builder) : Prop where
  /-- The nodes are the root, the steps and the targets that chains of calls end at. -/
  nodes : ∀ node, node ∈ builder.graph.nodes ↔
    node = .root ∨ (∃ index < builder.steps.length, node = .step index) ∨
      ∃ id ∈ builder.graph.reachableConstructors, node = .target id
  /-- Neither nodes nor edges are listed twice. -/
  listed : builder.graph.nodes.Nodup ∧ builder.graph.edges.Nodup
  names : builder.NamesNodes naming root declarations
  /-- What stands for a node in the drawing is one text in quotes exactly if the name of the node
  ends with its quotes. -/
  labels : ∀ node identifier,
    Dot.tokens? (builder.nodeLabel node).toList = some [.quoted identifier] ↔
      builder.Terminates node ∧ identifier = builder.identifier node
  /-- A name without backslashes does, and is read as it is. -/
  plain : ∀ node, '\\' ∉ (builder.nodeName node).toList →
    builder.Terminates node ∧ builder.identifier node = builder.nodeName node
  /-- If all do, the drawing has one statement for each node and one arrow for each edge. -/
  reads : (∀ node ∈ builder.graph.nodes, builder.Terminates node) →
    Dot.picture? builder.drawing.toList = some (builder.graph.picture builder)
  /-- It shows the graph exactly if no two nodes are read under one name. -/
  isomorphic :
    (builder.graph.picture builder).IsIsomorphic builder.graph ↔
      (builder.graph.nodes.map builder.identifier).Nodup
  /-- Then each node is in its own colour and in no other. -/
  coloured : (builder.graph.nodes.map builder.identifier).Nodup →
    ∀ node ∈ builder.graph.nodes, ∀ colour,
      (builder.identifier node, colour) ∈ (builder.graph.picture builder).nodes ↔
        colour = some node.colour
  /-- Two synthesized steps are never read under one name. -/
  numbered : ∀ left leftStep right rightStep,
    builder.step? left = some (.synthesized leftStep) →
    builder.step? right = some (.synthesized rightStep) →
    builder.identifier (.step left) = builder.identifier (.step right) → left = right
  /-- Other nodes of one name are targets of constructors with one signature, or one of them is an
  existing step. -/
  shared : root.EndsPlainly →
    ∀ first ∈ builder.graph.nodes, ∀ second ∈ builder.graph.nodes,
      builder.nodeName first = builder.nodeName second →
        first = second ∨ builder.IsExisting first ∨ builder.IsExisting second ∨
          ∃ left right, first = .target left ∧ second = .target right ∧
            SameSignature declarations left right
  /-- So a builder whose existing steps have names of their own is drawn as it is, if its
  constructors have different signatures and there are no backslashes in its names. -/
  faithful : root.EndsPlainly → (declarations.map (·.constructor.display)).Nodup →
    (∀ node ∈ builder.graph.nodes, '\\' ∉ (builder.nodeName node).toList) →
    (∀ first ∈ builder.graph.nodes, builder.IsExisting first →
      ∀ second ∈ builder.graph.nodes,
        builder.nodeName first = builder.nodeName second → first = second) →
    ∃ picture, Dot.picture? builder.drawing.toList = some picture ∧
      picture.IsIsomorphic builder.graph

end Builder

/-- Every builder is drawn in this way, whatever it is made from. -/
theorem drawsGraph_assemble (system : TypeSystem) (naming : Naming) (root : Root)
    (declarations : List Declaration) :
    (assemble system naming root declarations).DrawsGraph naming root declarations := by
  obtain ⟨origin⟩ := nonempty_origin system naming root declarations
  have layered := origin.layered
  have names := namesNodes_assemble system naming root declarations
  have distinct : (assemble system naming root declarations).graph.nodes.Nodup :=
    Lists.nodup_eraseDups _
  refine {
    nodes := fun node => layered.mem_nodes_iff
    listed := ⟨distinct, Lists.nodup_eraseDups _⟩
    names
    labels := fun node identifier => tokens?_nodeLabel
    plain := fun node free => terminates_of_notMem free
    reads := fun terminate => picture?_drawing terminate ends_mem_nodes
    isomorphic := isIsomorphic_picture_iff ends_mem_nodes
    coloured := fun apart node isNode colour => mem_nodes_picture_iff apart isNode
    numbered := fun left leftStep right rightStep isLeft isRight same => ?_
    shared := fun plainly first isFirst second isSecond same =>
      names.eq_or_of_nodeName_eq layered plainly isFirst isSecond same
    faithful := fun plainly signatures free apart => ?_ }
  · rw [identifier, identifier, names.ofSynthesized left leftStep isLeft,
      names.ofSynthesized right rightStep isRight] at same
    exact eq_of_shown_stepName (String.ofList_injective same)
  · refine ⟨_, picture?_drawing (fun node isNode => (terminates_of_notMem (free node isNode)).1)
      ends_mem_nodes, (isIsomorphic_picture_iff ends_mem_nodes).2 ?_⟩
    refine distinct.map_on fun first isFirst second isSecond same => ?_
    rw [(terminates_of_notMem (free first isFirst)).2,
      (terminates_of_notMem (free second isSecond)).2] at same
    rcases names.eq_or_of_nodeName_eq layered plainly isFirst isSecond same with
      isSame | existing | existing | ⟨left, right, rfl, rfl, alike⟩
    · exact isSame
    · exact apart first isFirst existing second isSecond same
    · exact (apart second isSecond existing first isFirst same.symm).symm
    · rw [alike.eq_of_nodup signatures]

/-- A constructor of one target, without a create method. -/
def Declaration.box (parameters : List Parameter) : Declaration where
  constructor := { target := { name := "Box", isPartial := true }, parameters }
  root := "Shop"
  options := { noCreateMethod := true }

/-- Each constructor goes on where the one before it ends, so there are two existing steps. Both are
of the type of the target, and the drawing shows one node instead of them. -/
theorem not_isIsomorphic_assemble_box :
    let size : Parameter := { name := "size", type := .simple "Int", methodName := some "WithSize" }
    let weight : Parameter :=
      { name := "weight", type := .simple "Int", methodName := some "WithWeight" }
    let height : Parameter :=
      { name := "height", type := .simple "Int", methodName := some "WithHeight" }
    let declarations :=
      [Declaration.box [size], .box [size, weight], .box [size, weight, height]]
    let builder := assemble {} {} (.marked none "Shop") declarations
    Validation.findings (.marked none "Shop") declarations = [] ∧
      ∃ picture, Dot.picture? builder.drawing.toList = some picture ∧
        ¬ picture.IsIsomorphic builder.graph := by
  intro size weight height declarations builder
  have named : builder.graph.nodes.map builder.nodeName =
      ["Shop", "Box", "Box(size: Int)", "Box", "Box(size: Int, weight: Int)",
        "Box(size: Int, weight: Int, height: Int)"] := by
    -- Sorting is exchanged for one that evaluates, in the recursion of the walk as well.
    subst builder
    delta assemble assembleValid keptSteps walkTree branches branches._f arrive._f enterExisting
      Walk.select Collision.resolve
    rw [Collision.among?_eq, CallGraph.liveSteps_eq]
    decide +kernel
  have noneThere : ∀ name ∈ builder.graph.nodes.map builder.nodeName, '\\' ∉ name.toList := by
    rw [named]
    decide
  have free : ∀ node ∈ builder.graph.nodes, '\\' ∉ (builder.nodeName node).toList :=
    fun node isNode => noneThere _ (List.mem_map_of_mem isNode)
  have read : builder.graph.nodes.map builder.identifier =
      builder.graph.nodes.map builder.nodeName :=
    List.map_congr_left fun node isNode => (terminates_of_notMem (free node isNode)).2
  refine ⟨rfl, _, picture?_drawing (fun node isNode => ?_) ends_mem_nodes, fun isomorphic => ?_⟩
  · exact (terminates_of_notMem (free node isNode)).1
  · have apart := (isIsomorphic_picture_iff ends_mem_nodes).1 isomorphic
    rw [read, named] at apart
    exact absurd apart (by decide)

end StagedBuilder
