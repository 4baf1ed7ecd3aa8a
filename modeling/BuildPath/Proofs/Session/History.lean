import BuildPath.Proofs.Graph.Freezing
import BuildPath.Proofs.Session.Reading

/-!
# What was read

The effective views that a run of operations has read (`Session.pastReads`), in the order in which
the reads succeeded: those that were asked for, those that the evaluation of a classpath made, and
those that lazy declarations made from within either. A read that failed is not among them, but what
was read before it failed is. Each comes with the graph at that moment, and so with the hierarchy
that it included.

The marks on configurations say exactly this and nothing else: a configuration is observed when
reading has consequences and a past read included it (`Session.observed_run_iff`), and the graph is
frozen when it was frozen before or in the run (`Session.frozen_run_iff`).
-/

namespace BuildPath

variable {Value Result : Type}

/-- An effective view that was read: of which configuration, and the graph at that moment. -/
structure PastRead where
  name : String
  graph : Graph

/-- A read includes what was in the hierarchy of its configuration at that moment. -/
def PastRead.Includes (read : PastRead) (name : String) : Prop :=
  ∃ reached, read.graph.hierarchy read.name = .ok reached ∧ name ∈ reached

namespace Session

/-- The read of an effective view, if it succeeded. -/
def readOf (name : String) : Outcome Value × Session → List PastRead
  | (.ok _, after) => [⟨name, after.graph⟩]
  | (.error _, _) => []

/-- The reads that the answer to a request makes, where those of dependencies are given. -/
def readsOfRequest (nested : String → Session → List PastRead) (session : Session) :
    Request → List PastRead
  | .dependencies name => nested name session
  | .excludes name => readOf name ((readExcludes name).perform session)
  | _ => []

/-- The reads that a computation makes when it runs, as far as it gets. -/
def readsWhile (read : String → Event (List Dependency))
    (nested : String → Session → List PastRead) : Computation Value → Session → List PastRead
  | .done _, _ | .failed _, _ => []
  | .ask asked resume, session =>
    readsOfRequest nested session asked ++
      match (answer read asked).perform session with
      | (.ok given, after) => readsWhile read nested (resume given) after
      | (.error _, _) => []

/-- The reads that a read of dependencies makes: those from within the declarations, and then, if
all of them evaluated, its own. -/
def dependencyReads : Nat → String → Session → List PastRead
  | 0, _, _ => []
  | depth + 1, name, session =>
    match session.graph.collect name Configuration.declared with
    | .ok declared =>
      readsWhile (readDependenciesWithin depth) (dependencyReads depth)
          (Notation.evaluateAll declared) session ++
        readOf name ((readDependenciesWithin (depth + 1) name).perform session)
    | .error _ => []

/-- The reads that a read of dependencies on its own makes. -/
def allDependencyReads (name : String) (session : Session) : List PastRead :=
  dependencyReads session.depth name session

/-- The reads that an operation makes. -/
def readsOf (session : Session) : Operation → List PastRead
  | .readDependencies name => allDependencyReads name session
  | .readArtifacts name => readOf name ((readArtifacts name).perform session)
  | .readExcludes name => readOf name ((readExcludes name).perform session)
  | .evaluate identifier =>
    match session.classpaths.lookup identifier with
    | some classpath =>
      readsWhile readDependencies allDependencyReads classpath.evaluateOne session
    | none => []
  | _ => []

/-- The reads that a run of operations makes. -/
def pastReads (session : Session) : List Operation → List PastRead
  | [] => []
  | operation :: rest =>
    readsOf session operation ++ pastReads (operation.perform.perform session).2 rest

end Session

/-- What an event observes in a well-formed graph is what some reads include. -/
def Event.Observes (event : Event Value) (reads : Session → List PastRead) : Prop :=
  ∀ session : Session, session.graph.WellFormed → ∀ name,
    (event.perform session).2.graph.Observed name ↔
      session.graph.Observed name ∨
        session.graph.settings.freezeOnRead = true ∧ ∃ read ∈ reads session, read.Includes name

namespace Session

open Relation

variable {session before after : Session} {name other : String}

/-- Evaluation keeps a graph well formed. -/
theorem Readings.wellFormed (readings : Readings before after) (formed : before.graph.WellFormed) :
    after.graph.WellFormed :=
  readings.steps.steps_graph.preserve (fun _ _ formed step => formed.step step) formed

/-- After a configuration was read, what its hierarchy includes is observed besides what was before.
-/
theorem observed_observing_iff (formed : session.graph.WellFormed)
    (known : session.graph.contains name = true) :
    (session.observing name).graph.Observed other ↔
      session.graph.Observed other ∨ session.graph.settings.freezeOnRead = true ∧
        PastRead.Includes ⟨name, (session.observing name).graph⟩ other := by
  have included : PastRead.Includes ⟨name, (session.observing name).graph⟩ other ↔
      session.graph.contains other = true ∧
        other ∈ Inheritance.hierarchy session.graph.inheritances name := by
    unfold PastRead.Includes observing
    simp only [Graph.hierarchy_observe, Graph.hierarchy_of_contains known, Except.ok.injEq,
      exists_eq_left', iff_and_self]
    exact fun reached => formed.contains_of_reached known (Inheritance.mem_hierarchy_iff.1 reached)
  rw [included]
  by_cases freezes : session.graph.settings.freezeOnRead = true
  · exact (Graph.observed_observe_iff freezes).trans (by simp [freezes])
  · have unmarked : (session.observing name).graph = session.graph := by
      rw [observing, Graph.observe_eq, if_neg freezes]
    simp [unmarked, freezes]

/-- A question about a known name, followed by its observation, is a read of it. -/
theorem observes_ask_observe {question : Graph → Outcome Value}
    (known : ∀ graph value, question graph = .ok value → graph.contains name = true) :
    Event.Observes (Session.ask question >>= fun value => observe name >>= fun _ => pure value)
      fun session => readOf name (Event.perform
        (Session.ask question >>= fun value => observe name >>= fun _ => pure value) session) := by
  intro session formed other
  dsimp only
  rw [perform_ask_observe]
  cases answered : question session.graph with
  | error error => simp [readOf]
  | ok value =>
    simpa [readOf] using observed_observing_iff formed (known _ _ answered)

/-- To read artifacts is to read an effective view. -/
theorem observes_readArtifacts (name : String) :
    (readArtifacts name).Observes fun session =>
      readOf name ((readArtifacts name).perform session) := by
  refine observes_ask_observe fun graph value found => ?_
  obtain ⟨own, collected, -⟩ := Outcome.map_eq_ok_iff.1 found
  exact Graph.contains_of_collect collected

/-- To read exclude rules is to read an effective view. -/
theorem observes_readExcludes (name : String) :
    (readExcludes name).Observes fun session =>
      readOf name ((readExcludes name).perform session) := by
  refine observes_ask_observe fun graph value found => ?_
  obtain ⟨own, collected, -⟩ := Outcome.map_eq_ok_iff.1 found
  exact Graph.contains_of_collect collected

section Evaluation

variable {read : String → Event (List Dependency)} {nested : String → Session → List PastRead}

/-- An answer observes what its reads include. -/
theorem observes_answer (reads : ∀ name, (read name).Observes (nested name)) (asked : Request) :
    (answer read asked).Observes fun session => readsOfRequest nested session asked := by
  cases asked with
  | dependencies name => exact reads name
  | excludes name => exact observes_readExcludes name
  | _ =>
    intro session formed other
    exact (or_iff_left (by simp [readsOfRequest])).symm

/-- A computation observes what its reads include. -/
theorem observes_runWith (takes : ∀ name, Event.Takes Reading (read name))
    (reads : ∀ name, (read name).Observes (nested name)) (computation : Computation Value) :
    (computation.runWith (answer read)).Observes (readsWhile read nested computation) := by
  induction computation with
  | done value => exact fun session formed other => (or_iff_left (by simp [readsWhile])).symm
  | failed error => exact fun session formed other => (or_iff_left (by simp [readsWhile])).symm
  | ask asked resume ih =>
    intro session formed other
    have here := observes_answer reads asked session formed other
    have onward := takes_answer takes asked session
    rw [Computation.runWith_ask, Event.perform_bind, readsWhile]
    generalize (answer read asked).perform session = performed at here onward ⊢
    obtain ⟨outcome, middle⟩ := performed
    cases outcome with
    | error error => simpa using here
    | ok given =>
      have later := ih given middle (Readings.wellFormed onward formed) other
      rw [here, Readings.settings_eq onward] at later
      simp only [later, List.mem_append, or_and_right, exists_or, and_or_left, or_assoc]

end Evaluation

/-- To read dependencies is to observe what the reads from within include, and the configuration
itself. -/
theorem observes_readDependenciesWithin (depth : Nat) (name : String) :
    (readDependenciesWithin depth name).Observes (dependencyReads depth name) := by
  induction depth generalizing name with
  | zero =>
    intro session formed other
    unfold readDependenciesWithin
    rw [Event.perform_bind, perform_ask, dependencyReads]
    cases session.graph.collect name Configuration.declared <;> simp
  | succ depth ih =>
    intro session formed other
    rw [dependencyReads, perform_readDependenciesWithin]
    cases collected : session.graph.collect name Configuration.declared with
    | error error => simp
    | ok declared =>
      have within := observes_runWith (takes_readDependenciesWithin depth) ih
        (Notation.evaluateAll declared) session formed other
      have readings := takes_evaluateWithin depth (Notation.evaluateAll declared) session
      unfold evaluateWithin at readings ⊢
      dsimp only
      generalize Event.perform _ session = performed at within readings ⊢
      obtain ⟨outcome, middle⟩ := performed
      cases outcome with
      | error error => simpa [readOf] using within
      | ok found =>
        have known : middle.graph.contains name = true := Graph.contains_of_collect
          ((Readings.collect_eq Configuration.marked_declared readings).trans collected)
        have own : (middle.observing name).graph.Observed other ↔ _ :=
          observed_observing_iff (Readings.wellFormed readings formed) known
        rw [within, Readings.settings_eq readings, or_assoc] at own
        simpa only [readOf, List.mem_append, or_and_right, exists_or, and_or_left,
          List.mem_singleton, exists_eq_left] using own

/-- To read dependencies on its own is to observe what its reads include. -/
theorem observes_readDependencies (name : String) :
    (readDependencies name).Observes (allDependencyReads name) :=
  fun session => observes_readDependenciesWithin session.depth name session

section Run

variable {operation : Operation}

/-- The session that evaluating a kept classpath leaves. -/
theorem snd_perform_operation_evaluate (identifier : String) (session : Session) :
    ((Operation.evaluate identifier).perform.perform session).2 =
      match session.classpaths.lookup identifier with
      | none => session
      | some classpath => ((evaluate classpath.evaluateOne).perform session).2 := by
  change (Event.perform (get >>= fun session : Session => _) session).2 = _
  rw [Event.perform_bind_of_ok (Event.perform_get session)]
  cases session.classpaths.lookup identifier with
  | none => rfl
  | some classpath =>
    dsimp only
    rw [Event.perform_bind]
    generalize (evaluate classpath.evaluateOne).perform session = performed
    obtain ⟨outcome, after⟩ := performed
    cases outcome <;> rfl

/-- An operation that reads no effective view makes no read. -/
theorem readsOf_of_not_isRead (quiet : ¬IsRead operation) : readsOf session operation = [] := by
  cases operation with
  | readDependencies | readArtifacts | readExcludes | evaluate => exact absurd trivial quiet
  | _ => rfl

/-- An operation that reads no effective view observes nothing. -/
theorem observed_perform_of_not_isRead (quiet : ¬IsRead operation) :
    (operation.perform.perform session).2.graph.Observed = session.graph.Observed := by
  refine unchanged_perform (·.graph.Observed) (fun change member before => ?_)
    (fun reads => absurd reads quiet) (fun _ _ => rfl) (fun _ _ => rfl) session
  rcases editings_of_changeOf member before.graph with ⟨-, frozen⟩ | ⟨-, editings⟩
  · dsimp only
    rw [frozen]
    rfl
  · exact funext fun name => propext editings.observed_iff

/-- An operation observes what its reads include. -/
theorem observes_perform (operation : Operation) :
    operation.perform.Observes fun session => readsOf session operation := by
  by_cases reads : IsRead operation
  · cases operation with
    | readDependencies name => exact observes_readDependencies name
    | readArtifacts name => exact observes_readArtifacts name
    | readExcludes name => exact observes_readExcludes name
    | evaluate identifier =>
      intro session formed other
      dsimp only [readsOf]
      rw [snd_perform_operation_evaluate]
      cases session.classpaths.lookup identifier with
      | none => simp
      | some classpath =>
        exact observes_runWith takes_readDependencies observes_readDependencies
          classpath.evaluateOne session formed other
    | _ => exact absurd reads id
  · intro session formed other
    dsimp only
    rw [readsOf_of_not_isRead reads, observed_perform_of_not_isRead reads]
    simp

/-- Only one operation freezes a graph, and none thaws it. -/
theorem frozen_perform_iff :
    (operation.perform.perform session).2.graph.frozen = true ↔
      operation = .freeze ∨ session.graph.frozen = true := by
  by_cases freezes : operation = .freeze
  · subst freezes
    exact iff_of_true rfl (.inl rfl)
  · have same : (operation.perform.perform session).2.graph.frozen = session.graph.frozen := by
      refine unchanged_perform (·.graph.frozen) (fun change member before => ?_)
        (fun _ before after reading => ?_) (fun _ _ => rfl) (fun _ _ => rfl) session
      · rcases editings_of_changeOf member before.graph with ⟨here, -⟩ | ⟨-, editings⟩
        · exact absurd here freezes
        · exact editings.frozen_eq
      · refine Readings.unchanged (·.graph.frozen) (fun _ _ => rfl) (fun session name => ?_)
          (.single reading)
        exact session.graph.frozen_observe name
    rw [same, or_iff_right freezes]

/-- After a run, what is observed was so before or was included in a read of the run. -/
theorem observed_run_iff (formed : session.graph.WellFormed) (operations : List Operation) :
    (session.run operations).graph.Observed name ↔
      session.graph.Observed name ∨ session.graph.settings.freezeOnRead = true ∧
        ∃ read ∈ pastReads session operations, read.Includes name := by
  induction operations generalizing session with
  | nil => exact (or_iff_left (by simp [pastReads])).symm
  | cons operation rest ih =>
    have steps := Steps.steps_graph (takes_perform operation session)
    have here := observes_perform operation session formed name
    have later := @ih (operation.perform.perform session).2
      (steps.preserve (fun _ _ formed step => formed.step step) formed)
    rw [here, (Graph.Keeps.of_steps steps).settings] at later
    rw [pastReads]
    simp only [List.mem_append, or_and_right, exists_or, and_or_left, ← or_assoc]
    exact later

/-- After a run, the graph is frozen if it was so before or froze in the run. -/
theorem frozen_run_iff (operations : List Operation) :
    (session.run operations).graph.frozen = true ↔
      .freeze ∈ operations ∨ session.graph.frozen = true := by
  induction operations generalizing session with
  | nil => simp [Session.run]
  | cons operation rest ih =>
    have later := @ih (operation.perform.perform session).2
    rw [frozen_perform_iff, ← or_assoc] at later
    rw [List.mem_cons, @eq_comm _ _ operation, @or_comm (operation = _)]
    exact later

end Run

end Session

end BuildPath
