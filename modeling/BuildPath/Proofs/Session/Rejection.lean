import BuildPath.Proofs.Graph.Collecting
import BuildPath.Proofs.Graph.Locality
import BuildPath.Proofs.Session.History
import Mathlib

/-!
# What is rejected

A configuration is closed to changes when the graph is frozen or the configuration was observed
(`Graph.Closed`). A call that would change an open one (`Operation.Mutates`) succeeds, and on a
closed one it is rejected, leaving everything as it was. Since marks and reads correspond, this is
to say exactly which calls are rejected after a run of operations (`Session.rejected_iff_read`). A
frozen graph stays as it is but for marks (`Graph.holdsTheSame_of_steps`).
-/

namespace BuildPath

open Relation

namespace Graph

/-- A configuration takes no changes: the graph was frozen, or the configuration was observed. -/
def Closed (graph : Graph) (name : String) : Prop :=
  graph.frozen = true ∨ graph.Observed name

/-- Two graphs hold the same: the same configurations with the same contents, and the same edges. -/
structure HoldsTheSame (graph after : Graph) : Prop where
  contents : after.configurations.map Configuration.contents =
    graph.configurations.map Configuration.contents
  inheritances : after.inheritances = graph.inheritances

variable {graph after : Graph} {name : String}

section Closed

variable {configuration : Configuration} (found : graph.find? name = some configuration)
include found

/-- A configuration takes changes unless it is closed. -/
theorem isMutable_iff_not_closed : graph.isMutable configuration = true ↔ ¬graph.Closed name := by
  have observed : configuration.observed = true ↔ graph.Observed name := by
    simp [Observed, found]
  rw [← Bool.not_eq_false, isMutable_eq_false_iff, observed, Closed]

/-- A change of a closed configuration is rejected. -/
theorem mutate_of_closed (closed : graph.Closed name) (change : Configuration → Configuration) :
    graph.mutate name change = .error (.frozen name) := by
  have fixed : graph.isMutable configuration = false := by
    rw [← Bool.not_eq_true, isMutable_iff_not_closed found, not_not]
    exact closed
  exact mutate_eq_error_iff.2 (.inr ⟨configuration, found, fixed, rfl⟩)

/-- A change of an open configuration succeeds. -/
theorem mutate_of_open (open_ : ¬graph.Closed name) (change : Configuration → Configuration) :
    graph.mutate name change = .ok (graph.modify name change) :=
  mutate_eq_ok_iff.2 ⟨configuration, found, (isMutable_iff_not_closed found).2 open_, rfl⟩

/-- A new edge that closes no cycle is added, or rejected if the child is closed. -/
theorem extend_of_new {parent : String} (known : graph.contains parent = true)
    (new : ¬Inheritance.Extends graph.inheritances name parent)
    (apart : ¬ReflTransGen (Inheritance.Extends graph.inheritances) parent name) :
    graph.extend name parent =
      if graph.isMutable configuration then
        .ok { graph with inheritances := graph.inheritances ++ [⟨name, parent⟩] }
      else .error (.frozen name) := by
  obtain ⟨inherited, present⟩ := Option.isSome_iff_exists.1 known
  have unlinked : ¬graph.inheritances.contains ⟨name, parent⟩ = true :=
    mt List.contains_iff_mem.1 new
  have unreached : ¬(Inheritance.hierarchy graph.inheritances parent).contains name = true := by
    rwa [List.contains_iff_mem, Inheritance.mem_hierarchy_iff]
  rw [extend_eq, found, present]
  dsimp only
  rw [if_neg unlinked, if_neg unreached]
  cases graph.isMutable configuration <;> rfl

end Closed

section Frozen

/-- A graph holds the same as itself. -/
theorem HoldsTheSame.refl (graph : Graph) : graph.HoldsTheSame graph :=
  ⟨rfl, rfl⟩

/-- A step from a frozen graph changes marks and remembered conventions only. -/
theorem holdsTheSame_of_step (frozen : graph.frozen = true) (step : Step graph after) :
    after.frozen = true ∧ graph.HoldsTheSame after := by
  have fixed {configuration : Configuration} : graph.isMutable configuration = false :=
    isMutable_eq_false_iff.2 (.inl frozen)
  cases step with
  | create fresh open_ => exact absurd (frozen.symm.trans open_) nofun
  | extend found known new apart changeable => exact absurd (fixed.symm.trans changeable) nofun
  | change changes found changeable => exact absurd (fixed.symm.trans changeable) nofun
  | observe observed =>
    refine ⟨(graph.frozen_observe observed).trans frozen, ?_, graph.inheritances_observe observed⟩
    rw [observe_eq]
    split
    · rw [List.map_map]
      refine List.map_congr_left fun configuration _ => ?_
      simp only [Function.comp_apply, Configuration.marked]
      split <;> rfl
    · rfl
  | freeze => exact ⟨rfl, rfl, rfl⟩
  | note conventions => exact ⟨frozen, rfl, rfl⟩

/-- Steps from a frozen graph change marks and remembered conventions only. -/
theorem holdsTheSame_of_steps (frozen : graph.frozen = true) (steps : Steps graph after) :
    after.frozen = true ∧ graph.HoldsTheSame after := by
  induction steps with
  | refl => exact ⟨frozen, .refl graph⟩
  | tail _ step ih =>
    obtain ⟨still, contents, inheritances⟩ := ih
    obtain ⟨last, same, edges⟩ := holdsTheSame_of_step still step
    exact ⟨last, same.trans contents, edges.trans inheritances⟩

end Frozen

end Graph

/-- An edit would change a configuration that is there: it sets, adds or takes away something of its
own, with a notation and an action that are accepted, or adds an edge from it to another one that
closes no cycle. -/
def Edit.Mutates (graph : Graph) (name : String) : Edit → Prop
  | .create _ | .ensure _ => False
  | .extend child parent =>
    child = name ∧ graph.contains parent = true ∧
      ¬Inheritance.Extends graph.inheritances child parent ∧
      Inheritance.Acyclic (graph.inheritances ++ [⟨child, parent⟩])
  | .setVisible target _ | .setTransitive target _ | .setDescription target _ | .exclude target _
  | .addArtifact target _ | .removeArtifacts target _ => target = name
  | .add target written action =>
    target = name ∧ ∃ declared, graph.declarations written action = .ok declared

/-- An operation would change a configuration that is there. -/
def Operation.Mutates (graph : Graph) (name : String) : Operation → Prop
  | .edit single => single.Mutates graph name
  | .removeArtifacts target _ => target = name
  | _ => False

/-- An edit that would change a configuration is rejected if that is closed, and else succeeds. -/
theorem Edit.Mutates.apply_eq {graph : Graph} {name : String} {edit : Edit}
    (mutates : edit.Mutates graph name) (formed : graph.WellFormed)
    (known : graph.contains name = true) :
    (graph.Closed name → edit.apply graph = .error (.frozen name)) ∧
      (¬graph.Closed name → ∃ after, edit.apply graph = .ok after) := by
  obtain ⟨configuration, found⟩ := Option.isSome_iff_exists.1 known
  have mutated (change : Configuration → Configuration) :
      (graph.Closed name → graph.mutate name change = .error (.frozen name)) ∧
        (¬graph.Closed name → ∃ after, graph.mutate name change = .ok after) :=
    ⟨fun closed => Graph.mutate_of_closed found closed change,
      fun open_ => ⟨_, Graph.mutate_of_open found open_ change⟩⟩
  cases edit with
  | create | ensure => exact absurd mutates id
  | extend child parent =>
    obtain ⟨rfl, there, new, acyclic⟩ := mutates
    have apart := (Inheritance.acyclic_concat_iff formed.acyclic).1 acyclic
    have changeable := Graph.isMutable_iff_not_closed found
    rw [Edit.apply, Graph.extend_of_new found there new apart]
    constructor
    · intro closed
      rw [if_neg fun open_ => changeable.1 open_ closed]
    · intro open_
      exact ⟨_, if_pos (changeable.2 open_)⟩
  | add target written action =>
    obtain ⟨rfl, declared, accepted⟩ := mutates
    have adds : (Edit.add target written action).apply graph =
        graph.mutate target (·.declareAll declared) := by
      rw [Edit.apply, Graph.add, accepted]
      rfl
    rw [adds]
    exact mutated _
  | setVisible | setTransitive | setDescription | exclude | addArtifact | removeArtifacts =>
    cases mutates
    exact mutated _

namespace Session

variable {session : Session} {name : String} {operation : Operation}

/-- An operation that would change a configuration is an edit that would, with an answer. -/
theorem exists_edit_of_mutates (mutates : operation.Mutates session.graph name)
    (known : session.graph.contains name = true) :
    ∃ (edit : Edit) (answer : operation.Answer), edit.Mutates session.graph name ∧
      operation.perform.perform session =
        match edit.apply session.graph with
        | .ok graph => (.ok answer, { session with graph })
        | .error error => (.error error, session) := by
  cases operation with
  | edit single => exact ⟨single, (), mutates, perform_edit single session⟩
  | removeArtifacts target producer =>
    cases mutates
    obtain ⟨configuration, found⟩ := Option.isSome_iff_exists.1 known
    have performs := perform_removeArtifacts name producer session
    rw [Graph.get, found] at performs
    exact ⟨.removeArtifacts name producer, configuration.countArtifacts producer, rfl, performs⟩
  | _ => exact absurd mutates id

/-- An operation that would change a configuration is rejected exactly if that is closed. If it
fails at all it leaves the session as it was, and if the configuration is open it succeeds. -/
theorem rejected_iff_closed (formed : session.graph.WellFormed)
    (known : session.graph.contains name = true)
    (mutates : operation.Mutates session.graph name) :
    let mutated := operation.perform.perform session
    (mutated.1 = .error (.frozen name) ↔ session.graph.Closed name) ∧
      (¬session.graph.Closed name → ∃ answer, mutated.1 = .ok answer) ∧
      ∀ error, mutated.1 = .error error → mutated.2 = session := by
  obtain ⟨edit, answer, mutates, performs⟩ := exists_edit_of_mutates mutates known
  obtain ⟨rejects, accepts⟩ := mutates.apply_eq formed known
  dsimp only
  rw [performs]
  by_cases closed : session.graph.Closed name
  · rw [rejects closed]
    exact ⟨iff_of_true rfl closed, fun open_ => absurd closed open_, fun _ _ => rfl⟩
  · obtain ⟨after, done⟩ := accepts closed
    rw [done]
    exact ⟨iff_of_false nofun closed, fun _ => ⟨answer, rfl⟩, nofun⟩

/-- After any run of operations from an empty graph, a call that would change a configuration is
rejected exactly if the graph was frozen in the run, or reading has consequences and the run has
read an effective view that included the configuration at that moment; a rejected call leaves
everything as it was. Questions to the graph leave everything as it was, and so does adding an edge
again, which succeeds. Once the graph was frozen, configurations, edges and contents stay what they
are. -/
theorem rejected_iff_read (settings : Settings) (project : DeclaringProject) (tree : FileTree)
    (room : Nat) (operations : List Operation) :
    let initial := start (.new settings project) tree room
    let session := initial.run operations
    let closed name := .freeze ∈ operations ∨ settings.freezeOnRead = true ∧
      ∃ read ∈ pastReads initial operations, read.Includes name
    (∀ name, session.graph.contains name = true →
      ∀ operation : Operation, operation.Mutates session.graph name →
        let mutated := operation.perform.perform session
        (mutated.1 = .error (.frozen name) ↔ closed name) ∧
          (¬closed name → ∃ answer, mutated.1 = .ok answer) ∧
          ∀ error, mutated.1 = .error error → mutated.2 = session) ∧
    (∀ child parent, Inheritance.Extends session.graph.inheritances child parent →
      (Operation.edit (.extend child parent)).perform.perform session = (.ok (), session)) ∧
    (∀ (Value : Type) (question : Graph → Outcome Value),
      ((ask question).perform session).2 = session) ∧
    (.freeze ∈ operations → ∀ later, session.graph.HoldsTheSame (session.run later).graph) := by
  intro initial session closed
  have formed : session.graph.WellFormed :=
    Graph.wellFormed_of_reachable ⟨settings, project, tree, room, operations, rfl⟩
  have frozen : session.graph.frozen = true ↔ .freeze ∈ operations :=
    (frozen_run_iff operations).trans (or_iff_left Bool.false_ne_true)
  refine ⟨fun name known operation mutates => ?_, fun child parent edge => ?_, ?_, ?_⟩
  · have unread : ¬initial.graph.Observed name := by
      rintro ⟨configuration, found, -⟩
      contradiction
    have shut : session.graph.Closed name ↔ closed name := by
      rw [Graph.Closed, frozen, observed_run_iff (Graph.wellFormed_new settings project),
        or_iff_right unread]
      rfl
    rw [← shut]
    exact rejected_iff_closed formed known mutates
  · obtain ⟨children, parents⟩ := formed.known _ edge
    obtain ⟨inheriting, found⟩ := Option.isSome_iff_exists.1 children
    have again : (Edit.extend child parent).apply session.graph = .ok session.graph :=
      Graph.extend_eq_ok_iff.2 ⟨inheriting, found, parents, .inl ⟨edge, rfl⟩⟩
    rw [perform_edit, again]
  · intro Value question
    rw [perform_ask]
  · intro freezes later
    exact (Graph.holdsTheSame_of_steps (frozen.2 freezes) (steps_run session later).steps_graph).2

section Witness

/-- An empty session. -/
def untouched : Session := start (.new {} .root) ⟨[], []⟩

/-- A run that reads the exclude rules of `runtime`, and what it inherits from `compile`. -/
def readOnce : List Operation :=
  [.edit (.create "compile"), .edit (.create "runtime"), .edit (.create "tests"),
    .edit (.extend "runtime" "compile"), .readExcludes "runtime"]

/-- The same run, after which `tests` inherits from `runtime`. -/
def belated : List Operation := readOnce ++ [.edit (.extend "tests" "runtime")]

/-- The read of `runtime`, before `tests` inherited from it. -/
def runtimeRead : PastRead := ⟨"runtime", (untouched.run readOnce).graph⟩

/-- After `runtime` was read, `compile` takes no changes, and `tests`, which inherits from both but
was not read, does. -/
theorem rejected_iff_read_belated :
    let session := untouched.run belated
    session.graph.hierarchy "tests" = .ok ["tests", "runtime", "compile"] ∧
      ((Operation.edit (.setVisible "compile" false)).perform.perform session).1 =
        .error (.frozen "compile") ∧
      ∃ answer,
        ((Operation.edit (.setVisible "tests" false)).perform.perform session).1 = .ok answer := by
  have only : pastReads untouched belated = [runtimeRead] := by cbv
  have listed : runtimeRead.graph.hierarchy runtimeRead.name = .ok ["runtime", "compile"] := by cbv
  have included : runtimeRead.Includes "compile" := ⟨_, listed, by decide⟩
  have apart : ¬runtimeRead.Includes "tests" := by
    rintro ⟨reached, again, member⟩
    cases listed.symm.trans again
    exact absurd member (by decide)
  obtain ⟨rejected, -⟩ := rejected_iff_read {} .root ⟨[], []⟩ _ belated
  refine ⟨by cbv, ?_, ?_⟩
  · refine (rejected "compile" (by cbv) (.edit (.setVisible "compile" false)) rfl).1.2 (.inr ?_)
    exact ⟨rfl, _, only ▸ List.mem_singleton_self _, included⟩
  · refine (rejected "tests" (by cbv) (.edit (.setVisible "tests" false)) rfl).2.1 ?_
    rintro (freezes | ⟨-, past, member, includes⟩)
    · simp [belated, readOnce] at freezes
    · cases List.mem_singleton.1 (only ▸ member)
      exact apart includes

end Witness

end Session

end BuildPath
