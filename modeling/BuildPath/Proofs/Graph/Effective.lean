import BuildPath.Proofs.Graph.WellFormed
import BuildPath.Proofs.Outcome

/-!
# Effective views

What a configuration has of its own and by inheritance. Its lineage lists the configurations that
edges lead to from it (`Graph.WellFormed.exists_lineage`); a view collects along it and keeps first
mentions. Marks left by reading are not part of any view (`Graph.collect_observe`).
-/

namespace BuildPath.Graph

open Relation

/-- The configuration of a name, followed by everything that edges lead to from it, each once. -/
structure Ancestry (graph : Graph) (name : String) (members : List Configuration) : Prop where
  hierarchy : graph.hierarchy name = .ok (members.map Configuration.name)
  first : (members.map Configuration.name).head? = some name
  once : (members.map Configuration.name).Nodup
  mem_iff : ∀ configuration, configuration ∈ members ↔ configuration ∈ graph.configurations ∧
    ReflTransGen (Inheritance.Extends graph.inheritances) name configuration.name

variable {graph : Graph} {name : String} {Item : Type} {items : Configuration → List Item}

/-- What collecting along a hierarchy comes to. -/
theorem collect_eq (graph : Graph) (name : String) (items : Configuration → List Item) :
    graph.collect name items =
      match graph.find? name with
      | none => .error (.unknownConfiguration name)
      | some _ => .ok (((Inheritance.hierarchy graph.inheritances name).filterMap
          graph.find?).flatMap items) := by
  unfold collect lineage hierarchy get
  cases graph.find? name <;> rfl

/-- A known name has a hierarchy. -/
theorem hierarchy_of_contains (known : graph.contains name = true) :
    graph.hierarchy name = .ok (Inheritance.hierarchy graph.inheritances name) := by
  obtain ⟨configuration, found⟩ := Option.isSome_iff_exists.1 known
  unfold hierarchy get
  rw [found]
  rfl

/-- Known names have a hierarchy, and no other ones. -/
theorem hierarchy_eq_ok_iff {reached : List String} : graph.hierarchy name = .ok reached ↔
    graph.contains name = true ∧ Inheritance.hierarchy graph.inheritances name = reached := by
  unfold hierarchy get contains
  cases graph.find? name with
  | none => exact iff_of_false nofun (fun known => Bool.false_ne_true known.1)
  | some configuration =>
    change Except.ok _ = _ ↔ _
    simp

/-- Something is collected for a known name. -/
theorem exists_collect (known : graph.contains name = true) (items : Configuration → List Item) :
    ∃ found, graph.collect name items = .ok found := by
  obtain ⟨configuration, found⟩ := Option.isSome_iff_exists.1 known
  rw [collect_eq, found]
  exact ⟨_, rfl⟩

/-- What is collected belongs to configurations of the graph. -/
theorem exists_mem_of_mem_collect {found : List Item}
    (collected : graph.collect name items = .ok found) {item : Item} (member : item ∈ found) :
    ∃ configuration ∈ graph.configurations, item ∈ items configuration := by
  rw [collect_eq] at collected
  split at collected
  · contradiction
  · cases collected
    obtain ⟨configuration, reached, own⟩ := List.mem_flatMap.1 member
    obtain ⟨other, -, present⟩ := List.mem_filterMap.1 reached
    exact ⟨configuration, (mem_of_find? present).1, own⟩

/-- Something is collected for every known name and no other one. -/
theorem contains_of_collect {found : List Item} (collected : graph.collect name items = .ok found) :
    graph.contains name = true := by
  rw [collect_eq] at collected
  unfold contains
  cases present : graph.find? name with
  | none =>
    rw [present] at collected
    contradiction
  | some configuration => rfl

/-- Observing a configuration adds and removes nothing that is collected, as long as marks are not
what is collected. -/
theorem collect_observe (unmarked : ∀ configuration reached,
    items (configuration.marked reached) = items configuration) (observed : String) :
    (graph.observe observed).collect name items = graph.collect name items := by
  rw [observe_eq]
  split
  · simp only [collect_eq, find?_map (Configuration.marked_name _)]
    cases graph.find? name with
    | none => rfl
    | some configuration =>
      simp only [Option.map_some, Except.ok.injEq]
      rw [← List.map_filterMap, List.flatMap_map]
      exact List.flatMap_congr fun member _ => unmarked member _
  · rfl

/-- Observing a configuration adds nothing to a hierarchy and removes nothing. -/
theorem hierarchy_observe (observed : String) :
    (graph.observe observed).hierarchy name = graph.hierarchy name := by
  rw [observe_eq]
  split
  · unfold hierarchy get
    rw [find?_map (Configuration.marked_name _)]
    cases graph.find? name <;> rfl
  · rfl

/-- Configurations that are looked up under known names have these names. -/
theorem map_name_filterMap_find? {names : List String}
    (known : ∀ name ∈ names, graph.contains name = true) :
    (names.filterMap graph.find?).map Configuration.name = names := by
  induction names with
  | nil => rfl
  | cons first rest ih =>
    obtain ⟨here, later⟩ := List.forall_mem_cons.1 known
    obtain ⟨configuration, found⟩ := Option.isSome_iff_exists.1 here
    rw [List.filterMap_cons_some found, List.map_cons, ih later, (mem_of_find? found).2]

namespace WellFormed

variable (formed : graph.WellFormed) (known : graph.contains name = true)
include formed known

/-- What is inherited by a known name is known. -/
theorem contains_of_reached {other : String}
    (path : ReflTransGen (Inheritance.Extends graph.inheritances) name other) :
    graph.contains other = true := by
  rcases path.cases_tail with rfl | ⟨child, -, edge⟩
  · exact known
  · exact (formed.known _ edge).2

/-- The lineage of a known name lists its ancestry. -/
theorem exists_lineage :
    ∃ members, graph.lineage name = .ok members ∧ graph.Ancestry name members := by
  have hierarchy := hierarchy_of_contains known
  have names : ((Inheritance.hierarchy graph.inheritances name).filterMap graph.find?).map
      Configuration.name = Inheritance.hierarchy graph.inheritances name := by
    refine map_name_filterMap_find? fun other reached => ?_
    exact formed.contains_of_reached known (Inheritance.mem_hierarchy_iff.1 reached)
  refine ⟨(Inheritance.hierarchy graph.inheritances name).filterMap graph.find?, ?_, ?_, ?_, ?_, ?_⟩
  · rw [lineage, hierarchy]
    rfl
  · rw [names, hierarchy]
  · rw [names]
    exact Inheritance.head?_hierarchy name
  · rw [names]
    exact Inheritance.nodup_hierarchy name
  · intro member
    simp only [List.mem_filterMap, Inheritance.mem_hierarchy_iff, formed.find?_eq_some_iff]
    constructor
    · rintro ⟨_, path, present, rfl⟩
      exact ⟨present, path⟩
    · rintro ⟨present, path⟩
      exact ⟨_, path, present, rfl⟩

end WellFormed

/-- Along a lineage, everything is collected in order. -/
theorem collect_of_lineage {members : List Configuration}
    (lineage : graph.lineage name = .ok members) :
    graph.collect name items = .ok (members.flatMap items) := by
  unfold collect
  rw [lineage]
  rfl

/-- Along an ancestry, everything is collected in order. -/
theorem Ancestry.collect_eq (formed : graph.WellFormed) {members : List Configuration}
    (ancestry : graph.Ancestry name members) :
    graph.collect name items = .ok (members.flatMap items) := by
  have found : ∀ member ∈ members, (graph.find? ∘ Configuration.name) member = some member :=
    fun member listed => formed.find?_eq_some_iff.2 ⟨((ancestry.mem_iff member).1 listed).1, rfl⟩
  refine collect_of_lineage ?_
  rw [lineage, ancestry.hierarchy]
  change Except.ok _ = _
  rw [List.filterMap_map, List.filterMap_congr found, List.filterMap_some]

/-- The effective artifacts are the first mentions along the lineage. -/
theorem effectiveArtifacts_of_lineage {members : List Configuration}
    (lineage : graph.lineage name = .ok members) :
    ∃ found, graph.effectiveArtifacts name = .ok found ∧
      Ordered.FirstMentions (members.flatMap Configuration.artifacts) found := by
  refine ⟨_, ?_, Ordered.firstMentions_iff_distinct.2 rfl⟩
  rw [effectiveArtifacts, collect_of_lineage lineage]
  rfl

/-- The effective exclude rules are the first mentions along the lineage. -/
theorem effectiveExcludes_of_lineage {members : List Configuration}
    (lineage : graph.lineage name = .ok members) :
    ∃ found, graph.effectiveExcludes name = .ok found ∧
      Ordered.FirstMentions (members.flatMap Configuration.excludes) found := by
  refine ⟨_, ?_, Ordered.firstMentions_iff_distinct.2 rfl⟩
  rw [effectiveExcludes, collect_of_lineage lineage]
  rfl

/-- The rules of an ancestor are effective. -/
theorem WellFormed.effectiveExcludes_subset (formed : graph.WellFormed) {parent : String}
    (path : ReflTransGen (Inheritance.Extends graph.inheritances) name parent)
    {rules others : List ExcludeRule} (effective : graph.effectiveExcludes name = .ok rules)
    (inherited : graph.effectiveExcludes parent = .ok others) : ∀ rule ∈ others, rule ∈ rules := by
  have mem_iff : ∀ {name rules}, graph.effectiveExcludes name = .ok rules → ∀ rule,
      rule ∈ rules ↔ ∃ configuration ∈ graph.configurations,
        ReflTransGen (Inheritance.Extends graph.inheritances) name configuration.name ∧
          rule ∈ configuration.excludes := by
    intro name rules effective rule
    obtain ⟨own, collected, -⟩ := Outcome.map_eq_ok_iff.1 effective
    obtain ⟨members, lineage, ancestry⟩ := formed.exists_lineage (contains_of_collect collected)
    obtain ⟨found, read, mentions⟩ := effectiveExcludes_of_lineage lineage
    cases effective.symm.trans read
    rw [← List.contains_iff_mem, mentions.contains_eq, List.contains_iff_mem, List.mem_flatMap]
    simp only [ancestry.mem_iff, and_assoc]
  intro rule member
  obtain ⟨configuration, present, onward, own⟩ := (mem_iff inherited rule).1 member
  exact (mem_iff effective rule).2 ⟨configuration, present, path.trans onward, own⟩

end BuildPath.Graph
