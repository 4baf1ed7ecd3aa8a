import BuildPath.Proofs.Graph.Step
import BuildPath.Proofs.Session.Event

/-!
# Steps of a session

Evaluation leaves two kinds of traces, counted runs of sources and marks on configurations that
were read (`Session.Reading`). Everything else that a session does changes the graph by its steps,
assigns a variable or keeps a classpath (`Session.Step`). Every operation takes such steps, whether
it succeeds or fails, and so does every run of operations; a session that such a run leads to from
an empty graph is called reachable.
-/

namespace BuildPath.Session

open Relation

/-- What evaluating something can leave behind. -/
inductive Reading (before : Session) : Session → Prop
  | run (source : Nat) : Reading before { before with runs := source :: before.runs }
  | observe (name : String) : Reading before { before with graph := before.graph.observe name }

/-- What can happen in a session. -/
inductive Step (before : Session) : Session → Prop
  | reading {after : Session} (reading : Reading before after) : Step before after
  | graph {graph : Graph} (step : Graph.Step before.graph graph) : Step before { before with graph }
  | assign (assigned : List (String × String)) : Step before { before with assigned }
  | keep (classpaths : List (String × LazyValue Classpath)) : Step before { before with classpaths }

/-- Some traces of evaluation. -/
abbrev Readings : Session → Session → Prop := ReflTransGen Reading

/-- Some steps of a session. -/
abbrev Steps : Session → Session → Prop := ReflTransGen Step

/-- A session that operations lead to from an empty graph. -/
def Reachable (session : Session) : Prop :=
  ∃ settings project tree room operations,
    session = (start (.new settings project) tree room).run operations

/-- A step of a session takes steps of its graph, if any. -/
theorem Step.steps_graph {before after : Session} (step : Step before after) :
    Graph.Steps before.graph after.graph := by
  cases step with
  | reading reading =>
    cases reading with
    | run source => exact .refl
    | observe name => exact .single (.observe name)
  | graph step => exact .single step
  | assign assigned => exact .refl
  | keep classpaths => exact .refl

/-- Steps of a session take steps of its graph. -/
theorem Steps.steps_graph {before after : Session} (steps : Steps before after) :
    Graph.Steps before.graph after.graph := by
  induction steps with
  | refl => exact .refl
  | tail _ step ih => exact ih.trans step.steps_graph

/-- Traces of evaluation are steps. -/
theorem Readings.steps {before after : Session} (readings : Readings before after) :
    Steps before after :=
  ReflTransGen.mono (fun _ _ => Step.reading) _ _ readings

/-- No step changes how much room there is. -/
theorem Steps.room_eq {before after : Session} (steps : Steps before after) :
    after.room = before.room := by
  induction steps with
  | refl => rfl
  | tail _ step ih =>
    rw [← ih]
    cases step with
    | reading reading => cases reading <;> rfl
    | _ => rfl

/-- Steps of the graph alone are steps of the session. -/
theorem steps_of_graph {session : Session} {graph : Graph}
    (steps : Graph.Steps session.graph graph) : Steps session { session with graph } := by
  induction steps with
  | refl => exact .refl
  | tail _ step ih => exact ih.tail (.graph step)

section Reading

/-- Observing a configuration leaves a trace. -/
theorem takes_observe (name : String) : Event.Takes Reading (observe name) :=
  Event.takes_modify fun _ => .observe name

/-- Reading exclude rules leaves a trace. -/
theorem takes_readExcludes (name : String) : Event.Takes Reading (readExcludes name) :=
  Event.takes_bind (takes_ask _) fun _ =>
    Event.takes_bind (takes_observe name) fun _ => Event.takes_pure _

/-- Reading artifacts leaves a trace. -/
theorem takes_readArtifacts (name : String) : Event.Takes Reading (readArtifacts name) :=
  Event.takes_bind (takes_ask _) fun _ =>
    Event.takes_bind (takes_observe name) fun _ => Event.takes_pure _

/-- Answers leave traces if the given way of reading dependencies does. -/
theorem takes_answer {readDependencies : String → Event (List Dependency)}
    (reads : ∀ name, Event.Takes Reading (readDependencies name)) (asked : Request) :
    Event.Takes Reading (answer readDependencies asked) := by
  cases asked with
  | run source => exact Event.takes_modify fun _ => .run source
  | runs source => exact Event.takes_bind Event.takes_get fun _ => Event.takes_pure _
  | assigned name => exact Event.takes_bind Event.takes_get fun _ => Event.takes_pure _
  | dependencies name => exact reads name
  | excludes name => exact takes_readExcludes name
  | files => exact Event.takes_bind Event.takes_get fun _ => Event.takes_pure _

/-- Reading dependencies leaves traces, to whatever depth. -/
theorem takes_readDependenciesWithin (depth : Nat) (name : String) :
    Event.Takes Reading (readDependenciesWithin depth name) := by
  induction depth generalizing name with
  | zero =>
    unfold readDependenciesWithin
    exact Event.takes_bind (takes_ask _) fun _ => Event.takes_throw _
  | succ depth ih =>
    unfold readDependenciesWithin
    refine Event.takes_bind (takes_ask _) fun declared => ?_
    refine Event.takes_bind (Computation.takes_runWith (takes_answer ih) _) fun found => ?_
    exact Event.takes_bind (takes_observe name) fun _ => Event.takes_pure _

/-- Reading dependencies leaves traces. -/
theorem takes_readDependencies (name : String) : Event.Takes Reading (readDependencies name) :=
  Event.takes_bind Event.takes_get fun _ => takes_readDependenciesWithin _ name

/-- Evaluating anything leaves traces. -/
theorem takes_evaluate {Value : Type} (computation : Computation Value) :
    Event.Takes Reading (evaluate computation) :=
  Computation.takes_runWith (takes_answer takes_readDependencies) computation

end Reading

/-- A change of the graph by its steps is made of steps. -/
theorem takes_change {change : Graph → Changed}
    (steps : ∀ graph, Graph.Steps graph (change graph).2) :
    Event.Takes Step (Session.change change) := by
  intro session
  rw [perform_change]
  exact steps_of_graph (steps session.graph)

/-- What an edit comes to in a session. -/
theorem perform_edit (edit : Edit) (session : Session) :
    (Operation.edit edit).perform.perform session =
      match edit.apply session.graph with
      | .ok graph => (.ok (), { session with graph })
      | .error error => (.error error, session) := by
  change (Session.change (·.edit edit)).perform session = _
  rw [perform_change, Graph.edit]
  cases edit.apply session.graph <;> rfl

/-- An edit succeeds in a session as it does in the graph. -/
theorem perform_edit_eq_ok {edit : Edit} {session after : Session} :
    (Operation.edit edit).perform.perform session = (.ok (), after) ↔
      ∃ graph, edit.apply session.graph = .ok graph ∧ after = { session with graph } := by
  rw [perform_edit]
  cases edit.apply session.graph <;> simp [@eq_comm _ after]

/-- To take artifacts back is an edit that answers how many there were. -/
theorem perform_removeArtifacts (name producer : String) (session : Session) :
    (Operation.removeArtifacts name producer).perform.perform session =
      match session.graph.get name with
      | .ok before =>
        match (Edit.removeArtifacts name producer).apply session.graph with
        | .ok graph => (.ok (before.countArtifacts producer), { session with graph })
        | .error error => (.error error, session)
      | .error error => (.error error, session) := by
  change Event.perform (Session.ask (·.get name) >>= fun before =>
    Session.change (·.edit (.removeArtifacts name producer)) >>= fun _ =>
      pure (before.countArtifacts producer)) session = _
  rw [Event.perform_bind, perform_ask]
  cases session.graph.get name with
  | error error => rfl
  | ok before =>
    dsimp only
    rw [Event.perform_bind, perform_change, Graph.edit]
    cases (Edit.removeArtifacts name producer).apply session.graph <;> rfl

/-- Artifacts are taken back where the edit succeeds, and the answer is their number before. -/
theorem perform_removeArtifacts_eq_ok {name producer : String} {session after : Session}
    {count : Nat} :
    (Operation.removeArtifacts name producer).perform.perform session = (.ok count, after) ↔
      ∃ configuration graph, session.graph.find? name = some configuration ∧
        (Edit.removeArtifacts name producer).apply session.graph = .ok graph ∧
        count = configuration.countArtifacts producer ∧ after = { session with graph } := by
  rw [perform_removeArtifacts, Graph.get]
  cases session.graph.find? name with
  | none => simp
  | some configuration =>
    cases (Edit.removeArtifacts name producer).apply session.graph <;>
      simp [@eq_comm _ count, @eq_comm _ after]

/-- What an operation does to the graph on its own account. -/
def changeOf : Operation → Option (Graph → Changed)
  | .edit single => some (·.edit single)
  | .removeArtifacts name producer => some (·.edit (.removeArtifacts name producer))
  | .freeze => some fun graph => (.ok (), graph.freeze)
  | .applyConvention convention => some convention.apply
  | .applyManifest manifest => some manifest.apply
  | _ => none

/-- An operation freezes the graph, or what it does to it on its own account is editing. -/
theorem editings_of_changeOf {operation : Operation} {change : Graph → Changed}
    (member : change ∈ changeOf operation) (graph : Graph) :
    operation = .freeze ∧ (change graph).2 = graph.freeze ∨
      operation ≠ .freeze ∧ Graph.Editings graph (change graph).2 := by
  cases operation with
  | edit single => cases member; exact .inr ⟨nofun, .single (.edit (graph.edited_edit single))⟩
  | removeArtifacts name producer =>
    cases member
    exact .inr ⟨nofun, .single (.edit (graph.edited_edit (.removeArtifacts name producer)))⟩
  | freeze => cases member; exact .inl ⟨rfl, rfl⟩
  | applyConvention convention =>
    cases member
    exact .inr ⟨nofun, graph.editings_convention convention⟩
  | applyManifest manifest => cases member; exact .inr ⟨nofun, graph.editings_manifest manifest⟩
  | _ => cases member

/-- An operation that reads effective views, directly or to evaluate something. -/
def IsRead : Operation → Prop
  | .readDependencies _ | .readArtifacts _ | .readExcludes _ | .evaluate _ => True
  | _ => False

/-- An operation takes steps of any relation that holds for what it does to the graph, for traces of
evaluation if it reads, and for variables and classpaths. -/
theorem takes_perform_of {relation : Session → Session → Prop} {operation : Operation}
    (changes : ∀ change ∈ changeOf operation, Event.Takes relation (Session.change change))
    (reading : IsRead operation → ∀ before after, Reading before after → relation before after)
    (assign : ∀ session assigned, relation session { session with assigned })
    (keep : ∀ session classpaths, relation session { session with classpaths }) :
    Event.Takes relation operation.perform := by
  unfold Operation.perform
  cases operation with
  | edit single => exact changes _ rfl
  | removeArtifacts name producer =>
    refine Event.takes_bind (takes_ask _) fun before => ?_
    exact Event.takes_bind (changes _ rfl) fun _ => Event.takes_pure _
  | readDependencies name => exact (takes_readDependencies name).mono (reading trivial)
  | readArtifacts name => exact (takes_readArtifacts name).mono (reading trivial)
  | readExcludes name => exact (takes_readExcludes name).mono (reading trivial)
  | freeze => exact changes _ rfl
  | applyConvention convention => exact changes _ rfl
  | applyManifest manifest => exact changes _ rfl
  | setVariable name value => exact Event.takes_modify fun session => assign session _
  | compose identifier view resolver =>
    refine Event.takes_bind Event.takes_get fun session => ?_
    exact Event.takes_bind (Event.takes_modify fun session => keep session _) fun _ =>
      Event.takes_pure _
  | evaluate identifier =>
    refine Event.takes_bind Event.takes_get fun session => ?_
    split
    · exact Event.takes_pure _
    · exact Event.takes_bind ((takes_evaluate _).mono (reading trivial)) fun _ => Event.takes_pure _
  | package identifier resolver =>
    refine Event.takes_bind (takes_ask _) fun archive => ?_
    exact Event.takes_bind (Event.takes_modify fun session => keep session _) fun _ =>
      Event.takes_pure _

/-- What an operation can be seen not to do: a look at the session shows the same afterwards, if
what the operation does to the graph does not change it, traces of evaluation do not if it reads,
and variables and classpaths do not either. -/
theorem unchanged_perform {Look : Type} (look : Session → Look) {operation : Operation}
    (changes : ∀ change ∈ changeOf operation, ∀ session : Session,
      look { session with graph := (change session.graph).2 } = look session)
    (reading : IsRead operation → ∀ before after, Reading before after → look after = look before)
    (assign : ∀ session assigned, look { session with assigned } = look session)
    (keep : ∀ session classpaths, look { session with classpaths } = look session)
    (session : Session) : look (operation.perform.perform session).2 = look session := by
  have steps : ReflTransGen (fun before after => look after = look before) session
      (operation.perform.perform session).2 := by
    refine takes_perform_of (fun change member before => ?_) reading assign keep session
    rw [perform_change]
    exact .single (changes change member before)
  generalize (operation.perform.perform session).2 = after at steps
  induction steps with
  | refl => rfl
  | tail _ step ih => exact step.trans ih

/-- Every operation takes steps. -/
theorem takes_perform (operation : Operation) : Event.Takes Step operation.perform := by
  refine takes_perform_of (fun change member => takes_change fun graph => ?_)
    (fun _ _ _ => .reading) (fun _ => .assign) (fun _ => .keep)
  rcases editings_of_changeOf member graph with ⟨-, frozen⟩ | ⟨-, editings⟩
  · rw [frozen]
    exact .single .freeze
  · exact editings.steps

/-- Every run of operations takes steps. -/
theorem steps_run (session : Session) (operations : List Operation) :
    Steps session (session.run operations) := by
  induction operations generalizing session with
  | nil => exact .refl
  | cons operation rest ih => exact (takes_perform operation session).trans (ih _)

/-- What can be reached from a session that can be reached can be reached. -/
theorem Reachable.run {session : Session} (reachable : session.Reachable)
    (operations : List Operation) : (session.run operations).Reachable := by
  obtain ⟨settings, project, tree, room, earlier, rfl⟩ := reachable
  exact ⟨settings, project, tree, room, earlier ++ operations, List.foldl_append.symm⟩

/-- What holds of empty graphs and is kept by every step holds of all graphs that can be reached. -/
theorem Reachable.induction {property : Graph → Prop} {session : Session}
    (reachable : session.Reachable)
    (empty : ∀ settings project, property (.new settings project))
    (kept : ∀ before after, property before → Graph.Step before after → property after) :
    property session.graph := by
  obtain ⟨settings, project, tree, room, operations, rfl⟩ := reachable
  have steps := (steps_run (start (.new settings project) tree room) operations).steps_graph
  exact steps.preserve kept (empty settings project)

end BuildPath.Session
