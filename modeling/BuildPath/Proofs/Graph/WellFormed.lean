import BuildPath.Proofs.Equality
import BuildPath.Proofs.FirstMention
import BuildPath.Proofs.Graph.Lookup
import BuildPath.Proofs.Session.Step

/-!
# Well-formed graphs

What holds of every graph that operations lead to from an empty one (`Graph.WellFormed`): names are
unique, edges join known configurations, no edge is there twice, no configuration inherits from
itself, and no configuration holds equal dependencies, artifacts or rules. Each step keeps that, so
operations that stop half-way keep it too.

That inheritance has no cycle rests on the test before each edge, which refuses exactly the edges
that would close one (`Graph.extend_eq_cyclic_iff`).
-/

namespace BuildPath

open Relation

/-- The dependency that a declaration is, if it waits for no evaluation. -/
def Declared.resolved? : Declared → Option Dependency
  | .resolved dependency => some dependency
  | .deferred _ => none

namespace Configuration

/-- The dependencies declared without anything lazy. -/
def resolved (configuration : Configuration) : List Dependency :=
  configuration.declared.filterMap Declared.resolved?

/-- A configuration that holds nothing twice. Deferred declarations do not count: what they stand
for is not known. -/
structure Distinct (configuration : Configuration) : Prop where
  dependencies : Ordered.Distinct configuration.resolved
  artifacts : Ordered.Distinct configuration.artifacts
  excludes : Ordered.Distinct configuration.excludes

/-- A new configuration holds nothing. -/
theorem distinct_named (name : String) : (named name).Distinct :=
  ⟨.nil, .nil, .nil⟩

/-- A declaration that waits for no evaluation is inserted. -/
theorem resolved_declare_resolved (configuration : Configuration) (dependency : Dependency) :
    (configuration.declare (.resolved dependency)).resolved =
      Ordered.insert configuration.resolved dependency := by
  have same : configuration.declared.any (·.isResolvedAs dependency) =
      configuration.resolved.any (· == dependency) := by
    rw [resolved, List.any_filterMap]
    congr
    funext declaration
    cases declaration <;> rfl
  rw [declare, same, Ordered.insert]
  split
  · rfl
  · exact List.filterMap_append

/-- A deferred declaration adds no resolved one. -/
theorem resolved_declare_deferred (configuration : Configuration) (value : LazyValue Dependency) :
    (configuration.declare (.deferred value)).resolved = configuration.resolved := by
  rw [resolved, declare, List.filterMap_append]
  exact List.append_nil _

/-- Declaring anything keeps a configuration free of repetition. -/
theorem Distinct.declare {configuration : Configuration} (distinct : configuration.Distinct)
    (declaration : Declared) : (configuration.declare declaration).Distinct := by
  have dependencies : Ordered.Distinct (configuration.declare declaration).resolved := by
    cases declaration with
    | resolved dependency =>
      rw [resolved_declare_resolved]
      exact distinct.dependencies.insert dependency
    | deferred value =>
      rw [resolved_declare_deferred]
      exact distinct.dependencies
  refine ⟨dependencies, ?_, ?_⟩
  · rw [declare_eq]
    exact distinct.artifacts
  · rw [declare_eq]
    exact distinct.excludes

/-- Declaring several things keeps a configuration free of repetition. -/
theorem Distinct.declareAll {configuration : Configuration} (distinct : configuration.Distinct)
    (declarations : List Declared) : (configuration.declareAll declarations).Distinct := by
  induction declarations generalizing configuration with
  | nil => exact distinct
  | cons first rest ih => exact ih (distinct.declare first)

/-- Every change keeps a configuration free of repetition. -/
theorem Change.distinct {change : Configuration → Configuration} (changes : Change change)
    {configuration : Configuration} (distinct : configuration.Distinct) :
    (change configuration).Distinct := by
  obtain ⟨dependencies, artifacts, excludes⟩ := distinct
  cases changes with
  | visible visible => exact ⟨dependencies, artifacts, excludes⟩
  | transitive transitive => exact ⟨dependencies, artifacts, excludes⟩
  | description text => exact ⟨dependencies, artifacts, excludes⟩
  | exclude rule => exact ⟨dependencies, artifacts, excludes.insert rule⟩
  | addArtifact binding => exact ⟨dependencies, artifacts.insert binding, excludes⟩
  | removeArtifacts producer => exact ⟨dependencies, artifacts.filter _, excludes⟩
  | declareAll declarations =>
    exact Distinct.declareAll ⟨dependencies, artifacts, excludes⟩ declarations

/-- A mark keeps a configuration free of repetition. -/
theorem Distinct.marked {configuration : Configuration} (distinct : configuration.Distinct)
    (reached : List String) : (configuration.marked reached).Distinct := by
  unfold Configuration.marked
  split
  · exact ⟨distinct.dependencies, distinct.artifacts, distinct.excludes⟩
  · exact distinct

end Configuration

namespace Graph

/-- A graph as operations leave it. -/
structure WellFormed (graph : Graph) : Prop where
  /-- No two configurations have one name. -/
  names : graph.names.Nodup
  /-- Both ends of every edge are known. -/
  known : ∀ edge ∈ graph.inheritances,
    graph.contains edge.child = true ∧ graph.contains edge.parent = true
  /-- No configuration is linked to another one twice. -/
  single : graph.inheritances.Nodup
  acyclic : Inheritance.Acyclic graph.inheritances
  distinct : ∀ configuration ∈ graph.configurations, configuration.Distinct

variable {graph : Graph}

/-- An empty graph is well formed. -/
theorem wellFormed_new (settings : Settings) (project : DeclaringProject) :
    (Graph.new settings project).WellFormed where
  names := .nil
  known := fun _ edge => absurd edge List.not_mem_nil
  single := .nil
  acyclic := Inheritance.acyclic_nil
  distinct := fun _ member => absurd member List.not_mem_nil

namespace WellFormed

/-- A configuration is found under a name exactly when it is in the graph and has that name. -/
theorem find?_eq_some_iff (formed : graph.WellFormed) {name : String}
    {configuration : Configuration} :
    graph.find? name = some configuration ↔
      configuration ∈ graph.configurations ∧ configuration.name = name := by
  constructor
  · exact mem_of_find?
  · rintro ⟨member, rfl⟩
    exact find?_of_mem formed.names member

/-- A new configuration under a new name keeps a graph well formed. -/
theorem create (formed : graph.WellFormed) {name : String}
    (fresh : graph.contains name = false) :
    WellFormed { graph with configurations := graph.configurations ++ [.named name] } := by
  have grown : ∀ other, graph.contains other = true → Graph.contains
      { graph with configurations := graph.configurations ++ [.named name] } other = true := by
    intro other known
    rw [contains, find?_create, Option.isSome_or]
    exact Bool.or_eq_true_iff.2 (.inl known)
  refine ⟨?_, ?_, formed.single, formed.acyclic, ?_⟩
  · rw [Graph.names, List.map_append]
    refine List.nodup_append.2 ⟨formed.names, List.nodup_singleton _, ?_⟩
    rintro taken member _ last rfl
    rw [List.mem_singleton.1 last] at member
    exact Bool.eq_false_iff.1 fresh (contains_iff_mem_names.2 member)
  · intro edge member
    obtain ⟨child, parent⟩ := formed.known edge member
    exact ⟨grown _ child, grown _ parent⟩
  · intro configuration member
    rcases List.mem_append.1 member with old | new
    · exact formed.distinct configuration old
    · rw [List.mem_singleton.1 new]
      exact Configuration.distinct_named name

/-- An edge that is new and closes no cycle keeps a graph well formed. -/
theorem extend (formed : graph.WellFormed) {child parent : String}
    (children : graph.contains child = true) (parents : graph.contains parent = true)
    (new : ¬Inheritance.Extends graph.inheritances child parent)
    (apart : ¬ReflTransGen (Inheritance.Extends graph.inheritances) parent child) :
    WellFormed { graph with inheritances := graph.inheritances ++ [⟨child, parent⟩] } := by
  refine ⟨formed.names, ?_, ?_, formed.acyclic.concat apart, formed.distinct⟩
  · intro edge member
    rcases List.mem_append.1 member with old | last
    · exact formed.known edge old
    · rw [List.mem_singleton.1 last]
      exact ⟨children, parents⟩
  · refine List.nodup_append.2 ⟨formed.single, List.nodup_singleton _, ?_⟩
    rintro edge member _ last rfl
    rw [List.mem_singleton.1 last] at member
    exact new member

/-- An update that neither renames nor repeats anything keeps a graph well formed. -/
theorem map (formed : graph.WellFormed) {update : Configuration → Configuration}
    (keeps : ∀ configuration, (update configuration).name = configuration.name)
    (distinct : ∀ configuration, configuration.Distinct → (update configuration).Distinct) :
    WellFormed { graph with configurations := graph.configurations.map update } := by
  refine ⟨?_, ?_, formed.single, formed.acyclic, ?_⟩
  · rw [names_map keeps]
    exact formed.names
  · intro edge member
    rw [contains, contains, find?_map keeps, find?_map keeps, Option.isSome_map, Option.isSome_map]
    exact formed.known edge member
  · intro configuration member
    obtain ⟨before, present, rfl⟩ := List.mem_map.1 member
    exact distinct before (formed.distinct before present)

/-- Every step keeps a graph well formed. -/
theorem step {after : Graph} (formed : graph.WellFormed) (step : Step graph after) :
    after.WellFormed := by
  cases step with
  | create fresh open_ => exact formed.create fresh
  | extend found known new apart changeable =>
    exact formed.extend (by rw [contains, found]; rfl) known new apart
  | @change name configuration change changes found changeable =>
    refine formed.map (fun configuration => ?_) (fun configuration distinct => ?_)
    · split
      · exact changes.name_eq configuration
      · rfl
    · split
      · exact changes.distinct distinct
      · exact distinct
  | observe name =>
    rw [observe_eq]
    split
    · exact formed.map (Configuration.marked_name _) fun _ distinct => distinct.marked _
    · exact formed
  | freeze => exact ⟨formed.names, formed.known, formed.single, formed.acyclic, formed.distinct⟩
  | note conventions =>
    exact ⟨formed.names, formed.known, formed.single, formed.acyclic, formed.distinct⟩

end WellFormed

/-- Every graph that operations lead to is well formed. -/
theorem wellFormed_of_reachable {session : Session} (reachable : session.Reachable) :
    session.graph.WellFormed :=
  reachable.induction wellFormed_new fun _ _ formed step => formed.step step

/-- A new edge between known configurations is refused as a cycle exactly when it would close one,
whether or not the child takes changes. -/
theorem extend_eq_cyclic_iff {child parent : String} (children : graph.contains child = true)
    (parents : graph.contains parent = true)
    (new : ¬Inheritance.Extends graph.inheritances child parent) :
    graph.extend child parent = .error (.cyclicInheritance child parent) ↔
      child = parent ∨ TransGen (Inheritance.Extends graph.inheritances) parent child := by
  obtain ⟨inheriting, found⟩ := Option.isSome_iff_exists.1 children
  obtain ⟨inherited, known⟩ := Option.isSome_iff_exists.1 parents
  have unlinked : graph.inheritances.contains ⟨child, parent⟩ = false :=
    Bool.eq_false_iff.2 fun edge => new (List.contains_iff_mem.1 edge)
  have reached : (Inheritance.hierarchy graph.inheritances parent).contains child = true ↔
      child = parent ∨ TransGen (Inheritance.Extends graph.inheritances) parent child := by
    rw [List.contains_iff_mem, Inheritance.mem_hierarchy_iff, reflTransGen_iff_eq_or_transGen]
  simp only [extend_eq, found, known, unlinked]
  rw [← reached]
  constructor
  · intro refused
    split at refused
    · contradiction
    · split at refused
      · assumption
      · split at refused <;> cases refused
  · intro cyclic
    rw [if_neg Bool.false_ne_true, if_pos cyclic]

end Graph

namespace Session

/-- What comes of an edit in a session is what comes of it in the graph. -/
theorem perform_edit_eq_error {session : Session} {edit : Edit} {error : Error} :
    ((Operation.edit edit).perform.perform session).1 = .error error ↔
      edit.apply session.graph = .error error := by
  rw [perform_edit]
  cases edit.apply session.graph <;> simp

/-- An edit that fails leaves the session as it was. -/
theorem perform_edit_of_error {session : Session} {edit : Edit} {error : Error}
    (failed : edit.apply session.graph = .error error) :
    ((Operation.edit edit).perform.perform session).2 = session := by
  rw [perform_edit, failed]

/-- After any run of operations from an empty graph, names and configurations correspond, no edge is
there twice, inheritance has no cycle and no configuration holds anything twice. A new edge between
known configurations is then refused as a cycle exactly when its child is its parent or is inherited
by it, frozen or not, and the refusal leaves the session as it was. -/
theorem run_wellFormed (settings : Settings) (project : DeclaringProject) (tree : FileTree)
    (room : Nat) (operations : List Operation) :
    let session := (start (.new settings project) tree room).run operations
    let graph := session.graph
    (∀ name configuration, graph.find? name = some configuration ↔
      configuration ∈ graph.configurations ∧ configuration.name = name) ∧
    graph.WellFormed ∧
    ∀ child parent, graph.contains child = true → graph.contains parent = true →
      ¬Inheritance.Extends graph.inheritances child parent →
        let linked := (Operation.edit (.extend child parent)).perform.perform session
        (linked.1 = .error (.cyclicInheritance child parent) ↔
          child = parent ∨ TransGen (Inheritance.Extends graph.inheritances) parent child) ∧
        (linked.1 = .error (.cyclicInheritance child parent) → linked.2 = session) := by
  intro session graph
  have formed : graph.WellFormed :=
    Graph.wellFormed_of_reachable ⟨settings, project, tree, room, operations, rfl⟩
  refine ⟨fun _ _ => formed.find?_eq_some_iff, formed, ?_⟩
  intro child parent children parents new linked
  constructor
  · rw [perform_edit_eq_error]
    exact Graph.extend_eq_cyclic_iff children parents new
  · intro refused
    exact perform_edit_of_error (perform_edit_eq_error.1 refused)

end Session

end BuildPath
