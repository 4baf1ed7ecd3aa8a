import BuildPath.Proofs.Graph.WellFormed

/-!
# What reading freezes

A configuration whose effective view was read is observed, and so is everything it inherits from
(`Graph.ObservedClosed`); an edge may still be added below an observed configuration but never out
of one. No step changes what is observed or its parents (`Graph.Keeps`). Together this means that
its hierarchy, and all that is collected along it, stays as it was read.
-/

namespace BuildPath.Graph

open Relation

/-- A configuration of this name is there and was observed. -/
def Observed (graph : Graph) (name : String) : Prop :=
  ∃ configuration, graph.find? name = some configuration ∧ configuration.observed = true

/-- What was observed inherits from nothing but what was observed. -/
def ObservedClosed (graph : Graph) : Prop :=
  ∀ child parent, graph.Observed child → Inheritance.Extends graph.inheritances child parent →
    graph.Observed parent

/-- What one graph keeps of another one: everything observed, and the number of configurations up to
new ones. -/
structure Keeps (before after : Graph) : Prop where
  settings : after.settings = before.settings
  find? : ∀ name, before.Observed name → after.find? name = before.find? name
  parents : ∀ name, before.Observed name →
    Inheritance.parents after.inheritances name = Inheritance.parents before.inheritances name
  length : before.configurations.length ≤ after.configurations.length

variable {graph after : Graph} {name : String}

section Observed

/-- A configuration that takes changes was not observed. -/
theorem not_observed_of_isMutable {configuration : Configuration}
    (found : graph.find? name = some configuration)
    (changeable : graph.isMutable configuration = true) : ¬graph.Observed name := by
  rintro ⟨other, present, observed⟩
  rw [found, Option.some.injEq] at present
  rw [isMutable, present, observed] at changeable
  simp at changeable

/-- What is observed after an update that keeps names and marks was observed before. -/
theorem observed_map_iff {update : Configuration → Configuration}
    (names : ∀ configuration, (update configuration).name = configuration.name)
    (marks : ∀ configuration, (update configuration).observed = configuration.observed) :
    Observed { graph with configurations := graph.configurations.map update } name ↔
      graph.Observed name := by
  unfold Observed
  simp only [find?_map names, Option.map_eq_some_iff]
  constructor
  · rintro ⟨_, ⟨configuration, found, rfl⟩, observed⟩
    exact ⟨configuration, found, (marks configuration).symm.trans observed⟩
  · rintro ⟨configuration, found, observed⟩
    exact ⟨_, ⟨configuration, found, rfl⟩, (marks configuration).trans observed⟩

/-- To change a configuration marks none as observed and takes no mark away. -/
theorem observed_modify_iff {change : Configuration → Configuration}
    (changes : Configuration.Change change) {changed : String} :
    (graph.modify changed change).Observed name ↔ graph.Observed name := by
  refine observed_map_iff (fun configuration => ?_) (fun configuration => ?_)
  · split
    · exact changes.name_eq configuration
    · rfl
  · split
    · exact changes.observed_eq configuration
    · rfl

/-- A new configuration is not observed. -/
theorem observed_create_iff {created : String} :
    Observed { graph with configurations := graph.configurations ++ [.named created] } name ↔
      graph.Observed name := by
  unfold Observed
  rw [find?_create]
  cases graph.find? name with
  | some configuration => rfl
  | none =>
    refine iff_of_false ?_ (by simp)
    rintro ⟨configuration, found, observed⟩
    rw [Option.none_or] at found
    split at found
    · cases found
      contradiction
    · contradiction

/-- To observe a configuration is to observe what its hierarchy knows, and nothing else. -/
theorem observed_observe_iff (freezes : graph.settings.freezeOnRead = true) {other : String} :
    (graph.observe name).Observed other ↔
      graph.Observed other ∨
        graph.contains other = true ∧ other ∈ Inheritance.hierarchy graph.inheritances name := by
  rw [observe_eq, if_pos freezes]
  unfold Observed contains
  simp only [find?_map (Configuration.marked_name _), Option.map_eq_some_iff]
  cases found : graph.find? other with
  | none => simp
  | some configuration =>
    have named := (mem_of_find? found).2
    simp only [Option.some.injEq, exists_eq_left', Option.isSome_some, true_and]
    rw [Configuration.marked, named, ← List.contains_iff_mem]
    split
    next reached => exact iff_of_true rfl (.inr reached)
    next apart => exact (or_iff_left apart).symm

/-- Editing marks nothing as observed and takes no mark away. -/
theorem Editing.observed_iff (editing : Editing graph after) :
    after.Observed name ↔ graph.Observed name := by
  cases editing with
  | edit edited =>
    cases edited with
    | create fresh open_ => exact observed_create_iff
    | change changes found changeable => exact observed_modify_iff changes
    | _ => rfl
  | note conventions => rfl

/-- No amount of editing marks anything as observed or takes a mark away. -/
theorem Editings.observed_iff (editings : Editings graph after) :
    after.Observed name ↔ graph.Observed name := by
  induction editings with
  | refl => rfl
  | tail _ editing ih => exact editing.observed_iff.trans ih

/-- Editing neither freezes a graph nor thaws it. -/
theorem Editings.frozen_eq (editings : Editings graph after) : after.frozen = graph.frozen := by
  induction editings with
  | refl => rfl
  | tail _ editing ih =>
    rw [← ih]
    cases editing with
    | edit edited => cases edited <;> rfl
    | note conventions => rfl

/-- What is read is observed, if it is there. -/
theorem observed_observe (freezes : graph.settings.freezeOnRead = true)
    (known : graph.contains name = true) : (graph.observe name).Observed name :=
  (observed_observe_iff freezes).2 (.inr ⟨known, Inheritance.mem_hierarchy_iff.2 .refl⟩)

end Observed

section Closed

/-- Nothing is observed in an empty graph. -/
theorem observedClosed_new (settings : Settings) (project : DeclaringProject) :
    (Graph.new settings project).ObservedClosed := by
  rintro child parent ⟨configuration, found, -⟩
  contradiction

/-- Every step keeps the observed configurations closed. -/
theorem ObservedClosed.step (closed : graph.ObservedClosed) (formed : graph.WellFormed)
    (step : Step graph after) : after.ObservedClosed := by
  intro child parent observed edge
  cases step with
  | create fresh open_ =>
    rw [observed_create_iff] at observed ⊢
    exact closed child parent observed edge
  | extend found known new apart changeable =>
    rcases List.mem_append.1 edge with old | last
    · exact closed child parent observed old
    · -- The new edge starts at a configuration that takes changes.
      cases List.mem_singleton.1 last
      exact absurd observed (not_observed_of_isMutable found changeable)
  | change changes found changeable =>
    rw [observed_modify_iff changes] at observed ⊢
    exact closed child parent observed edge
  | observe name =>
    by_cases freezes : graph.settings.freezeOnRead = true
    · rw [inheritances_observe] at edge
      rw [observed_observe_iff freezes] at observed ⊢
      rcases observed with before | ⟨-, reached⟩
      · exact .inl (closed child parent before edge)
      · refine .inr ⟨(formed.known _ edge).2, ?_⟩
        rw [Inheritance.mem_hierarchy_iff] at reached ⊢
        exact reached.tail edge
    · rw [observe_eq, if_neg freezes] at observed edge ⊢
      exact closed child parent observed edge
  | freeze => exact closed child parent observed edge
  | note conventions => exact closed child parent observed edge

/-- Any number of steps keep the observed configurations closed. -/
theorem observedClosed_of_steps (steps : Steps graph after)
    (before : graph.WellFormed ∧ graph.ObservedClosed) :
    after.WellFormed ∧ after.ObservedClosed := by
  induction steps with
  | refl => exact before
  | tail _ step ih => exact ⟨ih.1.step step, ih.2.step ih.1 step⟩

/-- What was observed is closed in every graph that operations lead to. -/
theorem observedClosed_of_reachable {session : Session} (reachable : session.Reachable) :
    session.graph.WellFormed ∧ session.graph.ObservedClosed := by
  obtain ⟨settings, project, tree, room, operations, rfl⟩ := reachable
  exact observedClosed_of_steps (Session.steps_run _ operations).steps_graph
    ⟨wellFormed_new settings project, observedClosed_new settings project⟩

/-- Everything in the hierarchy of what was observed was observed. -/
theorem ObservedClosed.hierarchy (closed : graph.ObservedClosed) (observed : graph.Observed name)
    {member : String} (reached : member ∈ Inheritance.hierarchy graph.inheritances name) :
    graph.Observed member := by
  rw [Inheritance.mem_hierarchy_iff] at reached
  induction reached with
  | refl => exact observed
  | tail _ edge ih => exact closed _ _ ih edge

end Closed

namespace Keeps

/-- Every graph keeps itself. -/
theorem refl (graph : Graph) : graph.Keeps graph :=
  ⟨rfl, fun _ _ => rfl, fun _ _ => rfl, Nat.le_refl _⟩

/-- What was observed stays so. -/
theorem observed (keeps : graph.Keeps after) (observed : graph.Observed name) :
    after.Observed name := by
  obtain ⟨configuration, found, marked⟩ := observed
  exact ⟨configuration, (keeps.find? name ⟨configuration, found, marked⟩).trans found, marked⟩

/-- What is kept of what is kept. -/
theorem trans {last : Graph} (first : graph.Keeps after) (second : after.Keeps last) :
    graph.Keeps last where
  settings := second.settings.trans first.settings
  find? := fun name observed =>
    (second.find? name (first.observed observed)).trans (first.find? name observed)
  parents := fun name observed =>
    (second.parents name (first.observed observed)).trans (first.parents name observed)
  length := Nat.le_trans first.length second.length

/-- An update that leaves what was observed alone. -/
theorem map {update : Configuration → Configuration}
    (names : ∀ configuration, (update configuration).name = configuration.name)
    (same : ∀ name configuration, graph.find? name = some configuration →
      configuration.observed = true → update configuration = configuration) :
    graph.Keeps { graph with configurations := graph.configurations.map update } where
  settings := rfl
  find? := by
    rintro name ⟨configuration, found, observed⟩
    rw [find?_map names, found, Option.map_some, same name configuration found observed]
  parents := fun _ _ => rfl
  length := by simp

/-- Every step keeps what was observed. -/
theorem of_step (step : Step graph after) : graph.Keeps after := by
  cases step with
  | create fresh open_ =>
    refine ⟨rfl, ?_, fun _ _ => rfl, by simp⟩
    rintro name ⟨configuration, found, -⟩
    rw [find?_create, found, Option.some_or]
  | @extend child parent inheriting found known new apart changeable =>
    refine ⟨rfl, fun _ _ => rfl, ?_, Nat.le_refl _⟩
    intro name observed
    have differs : child ≠ name := by
      rintro rfl
      exact not_observed_of_isMutable found changeable observed
    exact Inheritance.parents_concat_of_ne differs
  | @change changed configuration change changes found changeable =>
    refine map (fun other => ?_) (fun name other present observed => ?_)
    · split
      · exact changes.name_eq other
      · rfl
    · split
      next same =>
        have named : changed = name := by
          rw [← eq_of_beq same]
          exact (mem_of_find? present).2
        exact absurd ⟨other, named ▸ present, observed⟩ (not_observed_of_isMutable found changeable)
      · rfl
  | observe name =>
    rw [observe_eq]
    split
    · refine map (Configuration.marked_name _) fun _ configuration _ observed => ?_
      unfold Configuration.marked
      split
      · cases configuration
        cases observed
        rfl
      · rfl
    · exact refl graph
  | freeze => exact ⟨rfl, fun _ _ => rfl, fun _ _ => rfl, Nat.le_refl _⟩
  | note conventions => exact ⟨rfl, fun _ _ => rfl, fun _ _ => rfl, Nat.le_refl _⟩

/-- Any number of steps keep what was observed. -/
theorem of_steps (steps : Steps graph after) : graph.Keeps after := by
  induction steps with
  | refl => exact refl graph
  | tail _ step ih => exact ih.trans (of_step step)

variable (keeps : graph.Keeps after) (closed : graph.ObservedClosed)
  (observed : graph.Observed name)
include keeps closed observed

/-- The edges from an observed configuration lead where they led. -/
theorem reached_eq : Inheritance.hierarchy after.inheritances name =
    Inheritance.hierarchy graph.inheritances name :=
  Inheritance.hierarchy_congr keeps.parents closed observed

/-- The hierarchy of an observed configuration stays. -/
theorem hierarchy_eq : after.hierarchy name = graph.hierarchy name := by
  unfold hierarchy get
  rw [keeps.find? name observed, keeps.reached_eq closed observed]

/-- The configurations in the hierarchy of an observed one stay. -/
theorem lineage_eq : after.lineage name = graph.lineage name := by
  obtain ⟨configuration, found, -⟩ := id observed
  unfold lineage
  rw [keeps.hierarchy_eq closed observed]
  unfold Graph.hierarchy get
  rw [found]
  refine congrArg Except.ok (List.filterMap_congr fun member reached => ?_)
  exact keeps.find? member (closed.hierarchy observed reached)

/-- What is collected from the hierarchy of an observed configuration stays. -/
theorem collect_eq {Item : Type} (items : Configuration → List Item) :
    after.collect name items = graph.collect name items := by
  unfold collect
  rw [keeps.lineage_eq closed observed]

end Keeps

end BuildPath.Graph
