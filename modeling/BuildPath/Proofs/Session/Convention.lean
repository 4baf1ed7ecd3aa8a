import BuildPath.Proofs.Graph.Publishing
import BuildPath.Proofs.Graph.Stopping
import BuildPath.Proofs.Graph.WellFormed
import BuildPath.Proofs.Session.Step

/-!
# Conventions in a session

Whatever happens in a session, where a convention is remembered its links are there, if no other
convention was applied under its name (`Session.linked_run`). The conventions of libraries and of
web applications can be applied in any order and number (`Session.conventions_in_any_order`): the
latter begins with the former, edits do not look at what is remembered, and what is remembered is
not carried out again. What they leave falls short where another convention had taken the name of
that of libraries, or where a war was published by another path
(`Session.war_convention_falls_short`). If one of them fails, what it did until then stays
(`Session.failed_convention_stops`), so that a failure can be seen afterwards
(`Session.failed_convention_leaves_traces`).
-/

namespace BuildPath

open Relation

variable {original : Convention} {child parent : String}

/-- An operation that applies no convention under the name of a certain one. -/
def Operation.Respects (original : Convention) : Operation → Prop
  | .applyConvention convention => original.Respects convention
  | _ => True

namespace Session

variable {before : Session}

/-- To go from one session to another keeps a link of a convention where it belongs. -/
def KeepsLinked (original : Convention) (child parent : String) (before after : Session) : Prop :=
  before.graph.Linked original child parent → after.graph.Linked original child parent

/-- Whatever steps keep a link where it belongs, so do many of them. -/
theorem keepsLinked_of_steps {after : Session}
    (steps : ReflTransGen (KeepsLinked original child parent) before after) :
    KeepsLinked original child parent before after := by
  intro linked
  induction steps with
  | refl => exact linked
  | tail _ keeps ih => exact keeps ih

section Respects

variable (linking : ∀ given, .extend child parent ∈ original.edits given)
include linking

/-- What an operation does to a graph on its own account keeps a link where it belongs. -/
theorem linked_of_changeOf {operation : Operation} {change : Graph → Changed}
    (respectful : operation.Respects original) (member : change ∈ changeOf operation)
    {graph : Graph} (linked : graph.Linked original child parent) :
    (change graph).2.Linked original child parent := by
  have edit : ∀ single, (graph.edit single).2.Linked original child parent := by
    intro single
    have alone : graph.edit single = graph.editAll [single] := by
      unfold Graph.edit Graph.editAll
      cases single.apply graph <;> rfl
    rw [alone]
    exact linked.editAll [single]
  cases operation with
  | edit single => cases member; exact edit single
  | removeArtifacts name producer => cases member; exact edit _
  | freeze => cases member; exact linked.of_steps (.single .freeze) id
  | applyConvention convention =>
    cases member
    exact Convention.linked_apply linking respectful linked
  | applyManifest manifest =>
    cases member
    unfold Manifest.apply
    split
    · exact linked.editAll _
    · exact linked
  | _ => cases member

/-- An operation keeps a link where it belongs. -/
theorem keepsLinked_perform {operation : Operation} (respectful : operation.Respects original) :
    KeepsLinked original child parent before (operation.perform.perform before).2 := by
  refine keepsLinked_of_steps (takes_perform_of (fun change member => ?_)
    (fun _ seen after reading => ?_) (fun _ _ => id) (fun _ _ => id) before)
  · intro seen
    rw [perform_change]
    exact .single fun linked => linked_of_changeOf linking respectful member linked
  · cases reading with
    | run source => exact id
    | observe name =>
      refine fun linked => linked.of_steps (.single (.observe name)) fun remembered => ?_
      rw [Graph.observe_eq] at remembered
      split at remembered <;> exact remembered

/-- Every run of operations keeps a link where it belongs. -/
theorem linked_run {operations : List Operation}
    (respectful : ∀ operation ∈ operations, operation.Respects original)
    (linked : before.graph.Linked original child parent) :
    (before.run operations).graph.Linked original child parent := by
  induction operations generalizing before with
  | nil => exact linked
  | cons operation rest ih =>
    obtain ⟨here, later⟩ := List.forall_mem_cons.1 respectful
    exact ih later (keepsLinked_perform linking here linked)

end Respects

/-- Applying a convention comes to the same in a session as in its graph. -/
theorem perform_applyConvention_eq_iff {convention : Convention} {session after : Session}
    {outcome : Outcome Unit} :
    (Operation.applyConvention convention).perform.perform session = (outcome, after) ↔
      ∃ graph, convention.apply session.graph = (outcome, graph) ∧
        after = { session with graph } := by
  change (Session.change convention.apply).perform session = _ ↔ _
  rw [perform_change]
  rcases convention.apply session.graph with ⟨other, graph⟩
  simp only [Prod.mk.injEq]
  constructor
  · rintro ⟨same, rfl⟩
    exact ⟨graph, ⟨same, rfl⟩, rfl⟩
  · rintro ⟨_, ⟨same, rfl⟩, rfl⟩
    exact ⟨same, rfl⟩

section Order

variable {session after : Session}

/-- Conventions that are all remembered can be applied in any order and number, and do nothing. -/
theorem perform_forM_applyConvention {sequence : List Convention}
    (known : ∀ convention ∈ sequence, convention.name ∈ session.graph.conventions) :
    Event.perform (sequence.forM fun convention =>
      (Operation.applyConvention convention).perform) session = (.ok (), session) := by
  induction sequence with
  | nil => rfl
  | cons convention rest ih =>
    obtain ⟨here, others⟩ := List.forall_mem_cons.1 known
    have nothing : (Operation.applyConvention convention).perform.perform session =
        (.ok (), session) :=
      perform_applyConvention_eq_iff.2 ⟨session.graph, Convention.apply_of_mem here, rfl⟩
    rw [List.forM, Event.perform_bind_of_ok nothing]
    exact ih others

/-- The archive of a web application is published once, and nothing that the task for the jar
builds. -/
theorem published_of_apply_war (formed : after.graph.WellFormed)
    (unknown : Convention.war.name ∉ session.graph.conventions)
    (applied : Convention.war.apply session.graph = (.ok (), after.graph)) :
    ∃ published, after.graph.find? Convention.archives = some published ∧
      (∀ binding ∈ published.artifacts, binding.producer ≠ some Convention.jarTask) ∧
      published.artifacts.countP
        (· == ⟨Convention.archive session.graph "war", some Convention.warTask⟩) = 1 := by
  obtain ⟨others, listed⟩ := Convention.artifactsOf_apply_war unknown applied
  have there := Ordered.contains_insert
    (others.filter fun binding => !binding.isProducedBy Convention.jarTask)
    ⟨Convention.archive session.graph "war", some Convention.warTask⟩
  rw [← listed] at there
  cases found : after.graph.find? Convention.archives with
  | none =>
    rw [Graph.artifactsOf, found] at there
    contradiction
  | some published =>
    have same : after.graph.artifactsOf Convention.archives = published.artifacts := by
      rw [Graph.artifactsOf, found]
      rfl
    have single := (formed.distinct published (Graph.mem_of_find? found).1).artifacts
    rw [same] at there listed
    refine ⟨published, rfl, fun binding member => ?_, single.countP_eq_one there⟩
    rw [listed] at member
    rcases Ordered.mem_or_eq_of_mem_insert member with kept | rfl
    · have apart := (List.mem_filter.1 kept).2
      intro produced
      simp [ArtifactBinding.isProducedBy, produced] at apart
    · exact fun same => absurd (Option.some.inj same) (by decide)

/-- After any run of operations, when the convention of web applications is applied for the first
time and succeeds: that of libraries and this one can then be applied in any order and number and
change nothing. Had that of libraries been applied first, both would have succeeded and come to the
same, for what is remembered is a set. The war of the project is published once and nothing that the
task for the jar builds. What is compiled and run is linked to what the container provides, and what
is run to what is compiled, where only the convention of libraries was applied under its name. -/
theorem conventions_in_any_order (settings : Settings) (project : DeclaringProject)
    (tree : FileTree) (room : Nat) (operations : List Operation)
    (reached : session = (start (.new settings project) tree room).run operations)
    (unknown : Convention.war.name ∉ session.graph.conventions)
    (applied : (Operation.applyConvention .war).perform.perform session = (.ok (), after)) :
    (∀ sequence : List Convention,
      (∀ convention ∈ sequence, convention = .java ∨ convention = .war) →
      Event.perform (sequence.forM fun convention =>
        (Operation.applyConvention convention).perform) after = (.ok (), after)) ∧
    (∃ middle last,
      (Operation.applyConvention .java).perform.perform session = (.ok (), middle) ∧
      (Operation.applyConvention .war).perform.perform middle = (.ok (), last) ∧
      last.graph.conventions.Perm after.graph.conventions ∧
      last = { after with
        graph := { after.graph with conventions := last.graph.conventions } }) ∧
    (∃ published, after.graph.find? Convention.archives = some published ∧
      (∀ binding ∈ published.artifacts, binding.producer ≠ some Convention.jarTask) ∧
      published.artifacts.countP
        (· == ⟨Convention.archive session.graph "war", some Convention.warTask⟩) = 1) ∧
    Inheritance.Extends after.graph.inheritances Convention.compile Convention.providedCompile ∧
    Inheritance.Extends after.graph.inheritances Convention.runtime Convention.providedRuntime ∧
    ((∀ operation ∈ operations, operation.Respects .java) →
      Inheritance.Extends after.graph.inheritances Convention.runtime Convention.compile) := by
  obtain ⟨graph, done, rfl⟩ := perform_applyConvention_eq_iff.1 applied
  have apart : Convention.java.name ≠ Convention.war.name := by decide
  refine ⟨fun sequence either => ?_, ?_, ?_, ?_, ?_, fun respectful => ?_⟩
  · refine perform_forM_applyConvention fun convention member => ?_
    rcases either convention member with rfl | rfl
    · exact Convention.base_name_mem_of_apply_eq_ok unknown done
    · exact Convention.name_mem_of_apply_eq_ok done
  · obtain ⟨middle, last, first, second, same, equal⟩ :=
      Convention.apply_upon_of_apply_plain (fun _ _ => rfl) (fun _ _ => rfl) apart unknown done
    exact ⟨{ session with graph := middle }, { session with graph := last },
      perform_applyConvention_eq_iff.2 ⟨middle, first, rfl⟩,
      perform_applyConvention_eq_iff.2 ⟨last, second, rfl⟩, same,
      congrArg (fun graph => { session with graph }) equal⟩
  · have reachable : session.Reachable := ⟨settings, project, tree, room, operations, reached⟩
    have formed := Graph.wellFormed_of_reachable (reachable.run [.applyConvention .war])
    change ((Operation.applyConvention .war).perform.perform session).2.graph.WellFormed at formed
    rw [applied] at formed
    exact published_of_apply_war formed unknown done
  · exact Convention.extends_of_apply_eq_ok Convention.extend_compile_mem_edits_war unknown done
  · exact Convention.extends_of_apply_eq_ok Convention.extend_mem_edits_war unknown done
  · have linked : session.graph.Linked .java Convention.runtime Convention.compile := by
      rw [reached]
      exact linked_run Convention.extend_mem_edits_java respectful nofun
    exact Convention.base_extends_of_apply_eq_ok linked Convention.extend_mem_edits_java apart
      unknown done

/-- A program with a jar and a war of its own, made by hand. -/
def prepared : List Operation := [
  .edit (.create Convention.archives),
  .edit (.addArtifact Convention.archives
    ⟨.ofFile "program" "jar" ⟨"program.jar"⟩, some Convention.jarTask⟩),
  .edit (.addArtifact Convention.archives
    ⟨.archive "shop" "war" ⟨"build/libs"⟩, some Convention.warTask⟩),
  .edit (.create Convention.runtime), .edit (.create Convention.compile),
  .edit (.extend Convention.runtime Convention.compile)]

/-- The war that was there is not published twice, the jar is taken back, and the conventions can be
applied the other way round. -/
theorem conventions_in_any_order_prepared :
    ∃ session after, session = (start (.new {} (.ofPath "shop")) (FileTree.new [])).run prepared ∧
      (session.graph.artifactsOf Convention.archives).contains
        ⟨Convention.archive session.graph "war", some Convention.warTask⟩ = true ∧
      (Operation.applyConvention .war).perform.perform session = (.ok (), after) ∧
      (∃ published, after.graph.find? Convention.archives = some published ∧
        (∀ binding ∈ published.artifacts, binding.producer ≠ some Convention.jarTask) ∧
        published.artifacts.countP
          (· == ⟨Convention.archive session.graph "war", some Convention.warTask⟩) = 1) ∧
      Inheritance.Extends after.graph.inheritances Convention.runtime Convention.compile ∧
      ∃ middle last, (Operation.applyConvention .java).perform.perform session = (.ok (), middle) ∧
        (Operation.applyConvention .war).perform.perform middle = (.ok (), last) := by
  let session := (start (.new {} (.ofPath "shop")) (FileTree.new [])).run prepared
  have reached : session = (start (.new {} (.ofPath "shop")) (FileTree.new [])).run prepared := rfl
  have applied : (Operation.applyConvention .war).perform.perform session =
      (.ok (), ((Operation.applyConvention .war).perform.perform session).2) :=
    Event.perform_eq_of_fst (by decide +kernel)
  have unknown : Convention.war.name ∉ session.graph.conventions := by decide +kernel
  obtain ⟨-, ⟨middle, last, first, second, -⟩, published, -, -, linked⟩ :=
    conventions_in_any_order {} (.ofPath "shop") _ _ prepared reached unknown applied
  have respectful : ∀ operation ∈ prepared, operation.Respects .java := by
    simp [prepared, Operation.Respects]
  exact ⟨session, _, reached, by decide +kernel, applied, published, linked respectful, middle,
    last, first, second⟩

/-- A program in which another convention, one that does nothing, goes by the name of that of
libraries. -/
def misled : List Operation := [
  .edit (.create Convention.compile), .edit (.create Convention.runtime),
  .edit (.create Convention.archives),
  .applyConvention (.plain Convention.java.name fun _ => [])]

/-- A program with a war of its own, made by hand, the path of which starts at the directory. -/
def handmade : List Operation := [
  .edit (.create Convention.archives),
  .edit (.addArtifact Convention.archives
    ⟨.archive "project" "war" ⟨"./build/libs"⟩, some Convention.warTask⟩)]

/-- The convention of web applications succeeds where it does not link what is run to what is
compiled, for it takes another convention for that of libraries, and where the task for the war
builds two artifacts in one file, for their paths are written differently. -/
theorem war_convention_falls_short :
    (let session := (start (.new {} .root) (FileTree.new [])).run misled
      let applied := (Operation.applyConvention .war).perform.perform session
      Convention.war.name ∉ session.graph.conventions ∧ applied.1 = .ok () ∧
      ¬Inheritance.Extends applied.2.graph.inheritances Convention.runtime Convention.compile) ∧
    let session := (start (.new {} .root) (FileTree.new [])).run handmade
    let applied := (Operation.applyConvention .war).perform.perform session
    let wars := (applied.2.graph.artifactsOf Convention.archives).filter
      (·.isProducedBy Convention.warTask)
    Convention.war.name ∉ session.graph.conventions ∧ applied.1 = .ok () ∧
    wars.map (·.artifact.file.text) = ["./build/libs/project.war", "build/libs/project.war"] ∧
    wars.map (·.artifact.file.normalize.text) =
      ["build/libs/project.war", "build/libs/project.war"] := by
  refine ⟨⟨by decide +kernel, by decide +kernel, ?_⟩, by decide +kernel, by decide +kernel,
    by decide +kernel, by decide +kernel⟩
  unfold Inheritance.Extends
  decide +kernel

end Order

section Stopping

variable {session after : Session} {convention : Convention} {error : Error}

/-- When the convention of libraries or that of web applications fails, then at one of the edits
that applying it amounts to. Those before were carried out and stay so, the one that failed changed
nothing, and neither did those after it. The convention is not remembered; that of libraries is if
it was, or if all of its edits were carried out. Every configuration that was there keeps its place,
its attributes but for the description, its dependencies and rules, and its artifacts before others;
every edge stays. In a frozen graph all stays as it was. -/
theorem failed_convention_stops (either : convention = .java ∨ convention = .war)
    (failed : (Operation.applyConvention convention).perform.perform session =
      (.error error, after)) :
    ∃ earlier failing later done,
      convention.steps session.graph = earlier ++ failing :: later ∧
      session.graph.editAll earlier = (.ok (), done) ∧ failing.apply done = .error error ∧
      after =
        { session with graph := { done with conventions := after.graph.conventions } } ∧
      convention.name ∉ after.graph.conventions ∧
      Convention.Noted session.graph earlier after.graph ∧
      session.graph.Retained after.graph ∧
      (session.graph.frozen = true → after = session) := by
  obtain ⟨graph, stopped, rfl⟩ := perform_applyConvention_eq_iff.1 failed
  obtain ⟨earlier, failing, later, done, split, carried, refused, same, noted⟩ :=
    Convention.exists_stopped either stopped
  exact ⟨earlier, failing, later, done, split, carried, refused,
    congrArg (fun graph => { session with graph }) same,
    Convention.name_not_mem_of_failed either stopped, noted,
    Convention.retained_of_apply_eq_error either stopped,
    fun frozen => congrArg (fun graph => { session with graph })
      (Convention.eq_of_frozen either stopped frozen)⟩

/-- A program with configurations of some names, some of which are linked. -/
def configured (names : List String) (links : List (String × String)) : Session :=
  (start (.new {} .root) (FileTree.new [])).run
    (names.map (fun name => .edit (.create name)) ++
      links.map fun (child, parent) => .edit (.extend child parent))

/-- The convention of web applications fails at a name that is taken; the program keeps what it had.
-/
theorem failed_convention_stops_taken :
    ∃ session after, session = configured [Convention.providedRuntime, Convention.archives] [] ∧
      (Operation.applyConvention .war).perform.perform session =
        (.error (.duplicateConfiguration Convention.providedRuntime), after) ∧
      Convention.war.name ∉ after.graph.conventions ∧ session.graph.Retained after.graph := by
  let session := configured [Convention.providedRuntime, Convention.archives] []
  have failed : (Operation.applyConvention .war).perform.perform session =
      (.error (.duplicateConfiguration Convention.providedRuntime),
        ((Operation.applyConvention .war).perform.perform session).2) :=
    Event.perform_eq_of_fst (by decide +kernel)
  obtain ⟨_, _, _, _, -, -, -, -, forgotten, -, retained, -⟩ :=
    failed_convention_stops (.inr rfl) failed
  exact ⟨session, _, rfl, failed, forgotten, retained⟩

/-- A convention that fails leaves configurations, descriptions and a convention behind: that of web
applications where a name is taken, and that of libraries where an edge would close a cycle. -/
theorem failed_convention_leaves_traces :
    (let session := configured [Convention.providedRuntime] []
      let failed := (Operation.applyConvention .war).perform.perform session
      failed.1 = .error (.duplicateConfiguration Convention.providedRuntime) ∧
      session.graph.names = [Convention.providedRuntime] ∧
      failed.2.graph.names = [Convention.providedRuntime, Convention.compile, Convention.runtime,
        Convention.archives, Convention.default, Convention.providedCompile] ∧
      session.graph.conventions = [] ∧
      failed.2.graph.conventions = [Convention.java.name]) ∧
    let session := configured [Convention.compile, Convention.runtime]
      [(Convention.compile, Convention.runtime)]
    let failed := (Operation.applyConvention .java).perform.perform session
    failed.1 = .error (.cyclicInheritance Convention.runtime Convention.compile) ∧
    (session.graph.find? Convention.compile).bind Configuration.description = none ∧
    (failed.2.graph.find? Convention.compile).bind Configuration.description =
      some "Compile classpath for source set 'main'." := by
  refine ⟨⟨?_, ?_, ?_, ?_, ?_⟩, ?_, ?_, ?_⟩ <;> decide +kernel

end Stopping

end Session

end BuildPath
