import BuildPath.Proofs.Graph.Effective

/-!
# What views depend on

What is collected for a configuration comes from its ancestry alone. Two graphs that agree on every
configuration in its hierarchy, on what it holds and on its parents in order, give it the same
hierarchy (`Graph.AgreesAbove.hierarchy_eq`) and collect the same for it
(`Graph.AgreesAbove.collect_eq`). A successful edit agrees with what was there before on every
configuration but the one that it is about (`Graph.Edited.agreesOn`), and so it is not seen by a
configuration that does not inherit from that one.
-/

namespace BuildPath

open Relation

/-- The configuration but for whether it was observed. -/
def Configuration.contents (configuration : Configuration) : Configuration :=
  { configuration with observed := false }

namespace Graph

/-- Two graphs have a configuration in common: what it holds, and its parents in their order.
Whether it was observed does not matter. -/
structure AgreesOn (graph other : Graph) (name : String) : Prop where
  contents : (other.find? name).map Configuration.contents =
    (graph.find? name).map Configuration.contents
  parents : Inheritance.parents other.inheritances name =
    Inheritance.parents graph.inheritances name

/-- Two graphs have a configuration in common and all that it inherits from. -/
def AgreesAbove (graph other : Graph) (name : String) : Prop :=
  ∀ member ∈ Inheritance.hierarchy graph.inheritances name, graph.AgreesOn other member

variable {graph other after : Graph} {name target : String}

namespace AgreesOn

/-- A graph agrees with itself. -/
theorem refl (graph : Graph) (name : String) : graph.AgreesOn graph name :=
  ⟨rfl, rfl⟩

/-- Graphs that agree know a name both or neither. -/
theorem contains_eq (agrees : graph.AgreesOn other name) :
    other.contains name = graph.contains name := by
  have same := congrArg Option.isSome agrees.contents
  simpa [contains] using same

end AgreesOn

namespace AgreesAbove

variable (agrees : graph.AgreesAbove other name)
include agrees

/-- Graphs that agree above a configuration agree on it. -/
theorem here : graph.AgreesOn other name :=
  agrees name (Inheritance.mem_hierarchy_iff.2 .refl)

/-- Graphs that agree above a configuration reach the same from it. -/
theorem reached_eq : Inheritance.hierarchy other.inheritances name =
    Inheritance.hierarchy graph.inheritances name := by
  have agree : ∀ member, member ∈ Inheritance.hierarchy graph.inheritances name →
      Inheritance.parents other.inheritances member =
        Inheritance.parents graph.inheritances member :=
    fun member reached => (agrees member reached).parents
  refine Inheritance.hierarchy_congr agree (fun member parent reached edge => ?_)
    (Inheritance.mem_hierarchy_iff.2 .refl)
  rw [Inheritance.mem_hierarchy_iff] at reached ⊢
  exact reached.tail edge

/-- Graphs that agree above a configuration give it the same hierarchy. -/
theorem hierarchy_eq : other.hierarchy name = graph.hierarchy name := by
  have known := agrees.here.contains_eq
  unfold contains at known
  unfold hierarchy get
  rw [agrees.reached_eq]
  cases found : graph.find? name <;> cases present : other.find? name <;>
    simp [found, present] at known ⊢

/-- Graphs that agree above a configuration collect the same for it, as long as it is not marks that
are collected. -/
theorem collect_eq {Item : Type} {items : Configuration → List Item}
    (unmarked : ∀ configuration, items configuration.contents = items configuration) :
    other.collect name items = graph.collect name items := by
  have listed : ∀ (graph : Graph) (names : List String),
      (names.filterMap graph.find?).flatMap items =
        (names.filterMap fun member => (graph.find? member).map Configuration.contents).flatMap
          items := by
    intro graph names
    rw [← List.map_filterMap, List.flatMap_map]
    exact (List.flatMap_congr fun configuration _ => unmarked configuration).symm
  have same : (Inheritance.hierarchy graph.inheritances name).filterMap
        (fun member => (other.find? member).map Configuration.contents) =
      (Inheritance.hierarchy graph.inheritances name).filterMap
        fun member => (graph.find? member).map Configuration.contents :=
    List.filterMap_congr fun member reached => (agrees member reached).contents
  have known := agrees.here.contains_eq
  unfold contains at known
  rw [Graph.collect_eq, Graph.collect_eq, agrees.reached_eq, listed, listed graph, same]
  cases found : graph.find? name <;> cases present : other.find? name <;>
    simp [found, present] at known ⊢

end AgreesAbove

/-- What an edit does to one configuration is not seen on another one. -/
theorem Edited.agreesOn (edited : Edited target graph after) (apart : name ≠ target) :
    graph.AgreesOn after name := by
  cases edited with
  | kept => exact .refl graph name
  | create fresh open_ =>
    refine ⟨?_, rfl⟩
    rw [find?_create, if_neg (by simpa using apart.symm), Option.or_none]
  | extend found known new distinct changeable =>
    exact ⟨rfl, Inheritance.parents_concat_of_ne apart.symm⟩
  | change changes found changeable =>
    refine ⟨?_, rfl⟩
    rw [find?_modify changes.name_eq, if_neg apart]

/-- What an edit does to a configuration is not seen above one that does not inherit from it. -/
theorem Edited.agreesAbove (edited : Edited target graph after)
    (apart : target ∉ Inheritance.hierarchy graph.inheritances name) :
    graph.AgreesAbove after name := by
  intro member reached
  refine edited.agreesOn ?_
  rintro rfl
  exact apart reached

end Graph

end BuildPath
