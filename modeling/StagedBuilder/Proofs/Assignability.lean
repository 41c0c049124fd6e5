/-
This file proves that assignability is reachability. A value of one type may be used where
another type is expected exactly if the types are the same, or neither is a type parameter and
a chain of widenings leads from the qualified name of the first to the second. Only the last
type of a chain is looked at as a whole; in between a chain goes on from a qualified name,
whatever the arguments.

The search for such a chain ends on every table, also where widenings go round in circles. As
nothing but the facts themselves decides about chains, assignability does not depend on their
order, and more facts never take anything away. A chain that starts where another one ends
continues it, so assignability is transitive.
-/

import StagedBuilder.Proofs.Reachability
import StagedBuilder.Type.System

namespace StagedBuilder

open Relation (ReflTransGen)

namespace TypeSystem

/-- A chain of widenings leads from a qualified name to a type. Each widening starts at the
qualified name of the type that the one before it ends with. -/
inductive Widens (system : TypeSystem) (name : String) : TypeTerm → Prop
  | once {type : TypeTerm} (fact : (name, type) ∈ system.widenings) : Widens system name type
  | onward {middle type : TypeTerm} (chain : Widens system name middle)
      (fact : (middle.qualifiedName, type) ∈ system.widenings) : Widens system name type

variable {system : TypeSystem} {name : String} {middle type : TypeTerm}

/-! ### Chains -/

/-- A chain that starts at the end of another one continues it. -/
theorem Widens.trans (first : system.Widens name middle)
    (second : system.Widens middle.qualifiedName type) : system.Widens name type := by
  induction second with
  | once fact => exact first.onward fact
  | onward _ fact inductionHypothesis => exact inductionHypothesis.onward fact

/-- With more facts the chains are still there. -/
theorem Widens.mono {larger : TypeSystem} (included : system.widenings ⊆ larger.widenings)
    (chain : system.Widens name type) : larger.Widens name type := by
  induction chain with
  | once fact => exact .once (included fact)
  | onward _ fact inductionHypothesis => exact inductionHypothesis.onward (included fact)

/-! ### Chains and the search -/

theorem mem_widened : type ∈ system.widened name ↔ (name, type) ∈ system.widenings := by
  unfold widened
  simp only [List.mem_map, List.mem_filter, decide_eq_true_eq, Prod.exists, exists_eq_right]

theorem leads_of_fact (fact : (name, type) ∈ system.widenings) :
    Reachability.Leads system.nameEdges name type.qualifiedName :=
  List.mem_map.2 ⟨(name, type), fact, rfl⟩

/-- Whatever qualified name is reached is the one at the start or belongs to a type at the end of
a chain. -/
theorem eq_or_widens_of_reached {reached : String}
    (chain : ReflTransGen (Reachability.Leads system.nameEdges) name reached) :
    reached = name ∨ ∃ type, system.Widens name type ∧ type.qualifiedName = reached := by
  induction chain with
  | refl => exact Or.inl rfl
  | tail _ leads inductionHypothesis =>
    obtain ⟨⟨source, type⟩, fact, same⟩ := List.mem_map.1 leads
    obtain ⟨rfl, rfl⟩ := Prod.mk.inj same
    rcases inductionHypothesis with rfl | ⟨before, widens, rfl⟩
    · exact Or.inr ⟨type, .once fact, rfl⟩
    · exact Or.inr ⟨type, widens.onward fact, rfl⟩

/-- The last widening of a chain starts at a qualified name that is reached. -/
theorem Widens.exists_reached (chain : system.Widens name type) :
    ∃ reached, ReflTransGen (Reachability.Leads system.nameEdges) name reached ∧
      (reached, type) ∈ system.widenings := by
  induction chain with
  | once fact => exact ⟨name, .refl, fact⟩
  | onward _ fact inductionHypothesis =>
    obtain ⟨reached, chain, factBefore⟩ := inductionHypothesis
    exact ⟨_, chain.tail (leads_of_fact factBefore), fact⟩

/-- The search finds out whether there is a chain. -/
theorem widensTo_iff : system.widensTo name type = true ↔ system.Widens name type := by
  unfold widensTo
  simp only [List.any_eq_true, List.contains_iff_mem, Reachability.mem_reachableFrom, mem_widened]
  constructor
  · rintro ⟨reached, chain, fact⟩
    rcases eq_or_widens_of_reached chain with rfl | ⟨before, widens, rfl⟩
    · exact .once fact
    · exact widens.onward fact
  · exact Widens.exists_reached

/-! ### Assignability -/

/-- Of different types both have to be named, and a chain has to lead from one to the other. -/
theorem isAssignable_iff {source target : TypeTerm} :
    system.isAssignable source target = true ↔
      source = target ∨ source.isParameter = false ∧ target.isParameter = false ∧
        system.Widens source.qualifiedName target := by
  unfold isAssignable
  simp only [Bool.or_eq_true, decide_eq_true_eq, Bool.and_eq_true, Bool.not_eq_true', and_assoc,
    widensTo_iff]

/-- A value that may be used as one type may be used as whatever that type may be used as. -/
theorem isAssignable_trans {first second third : TypeTerm}
    (one : system.isAssignable first second = true)
    (two : system.isAssignable second third = true) :
    system.isAssignable first third = true := by
  rcases isAssignable_iff.1 one with rfl | ⟨namedFirst, -, chainFirst⟩
  · exact two
  · rcases isAssignable_iff.1 two with rfl | ⟨-, namedThird, chainSecond⟩
    · exact one
    · exact isAssignable_iff.2 (Or.inr ⟨namedFirst, namedThird, chainFirst.trans chainSecond⟩)

theorem isAssignable_mono {larger : TypeSystem} (included : system.widenings ⊆ larger.widenings)
    {source target : TypeTerm} (assignable : system.isAssignable source target = true) :
    larger.isAssignable source target = true := by
  rcases isAssignable_iff.1 assignable with same | ⟨namedSource, namedTarget, chain⟩
  · exact isAssignable_iff.2 (Or.inl same)
  · exact isAssignable_iff.2 (Or.inr ⟨namedSource, namedTarget, chain.mono included⟩)

/-- Assignability is decided by chains of widenings. -/
structure AssignsAlongChains (system : TypeSystem) : Prop where
  assigns : ∀ source target, system.isAssignable source target = true ↔
    source = target ∨ source.isParameter = false ∧ target.isParameter = false ∧
      system.Widens source.qualifiedName target
  /-- The search for a chain ends by itself: with however much more fuel it finds the same. -/
  ends : ∀ name extra,
    Reachability.search system.nameEdges (system.nameEdges.length + 1 + extra) [name] [] =
      Reachability.reachableFrom system.nameEdges name
  refl : ∀ type, system.isAssignable type type = true
  trans : ∀ first second third, system.isAssignable first second = true →
    system.isAssignable second third = true → system.isAssignable first third = true
  /-- Neither the order of the facts nor their repetition matters. -/
  unordered : ∀ other : TypeSystem,
    (∀ fact, fact ∈ other.widenings ↔ fact ∈ system.widenings) →
      ∀ source target, other.isAssignable source target = system.isAssignable source target
  /-- More facts take nothing away. -/
  mono : ∀ larger : TypeSystem, system.widenings ⊆ larger.widenings →
    ∀ source target, system.isAssignable source target = true →
      larger.isAssignable source target = true

/-- In every type system a type may be used as another one exactly if a chain of widenings says
so. -/
theorem assignsAlongChains (system : TypeSystem) : system.AssignsAlongChains where
  assigns _ _ := isAssignable_iff
  ends name extra :=
    Reachability.search_add_fuel _ _ extra _ _ (Reachability.enough_fuel _ name)
  refl _ := isAssignable_iff.2 (Or.inl rfl)
  trans _ _ _ := isAssignable_trans
  unordered other same source target := by
    have forward : other.widenings ⊆ system.widenings := fun fact => (same fact).1
    have backward : system.widenings ⊆ other.widenings := fun fact => (same fact).2
    exact Bool.eq_iff_iff.2 ⟨isAssignable_mono forward, isAssignable_mono backward⟩
  mono _ included _ _ := isAssignable_mono included

/-- Widenings may go round in circles, and a chain goes on from a qualified name whatever its
arguments. -/
example :
    let list := fun argument => TypeTerm.named none "List" [.simple argument]
    let system : TypeSystem :=
      { widenings := [("Ring", list "A"), ("List", .simple "Ring"), ("List", .simple "Bag")] }
    system.isAssignable (.simple "Ring") (.simple "Bag") = true ∧
      system.isAssignable (list "B") (list "A") = true ∧
      system.isAssignable (list "A") (list "B") = false := by
  decide +kernel

end TypeSystem

end StagedBuilder
