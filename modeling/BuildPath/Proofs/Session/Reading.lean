import BuildPath.Proofs.Graph.Effective
import BuildPath.Proofs.Lazy.Computation
import BuildPath.Proofs.Session.Step

/-!
# Reading in turn

What reading an effective view comes to. Whatever evaluation leaves behind, it changes nothing that
is collected along a hierarchy (`Session.Readings.collect_eq`). A read that succeeds observes the
configuration and one that fails does not (`Session.perform_readArtifacts`,
`Session.perform_readExcludes`). To read dependencies is to evaluate the declarations of the
hierarchy in turn, each in the session that the one before it left (`Session.InTurn`), up to the
first that fails.
-/

namespace BuildPath

open Relation

variable {Value Result : Type}

namespace Session

/-- The session after an effective view of a configuration was read. -/
def observing (session : Session) (name : String) : Session :=
  { session with graph := session.graph.observe name }

/-- Evaluates something as a read does, with reads from within it nested up to a depth. -/
def evaluateWithin (depth : Nat) (computation : Computation Value) : Event Value :=
  computation.runWith (answer (readDependenciesWithin depth))

/-- Declarations that all evaluate, one after the other: what each of them yields, and the session
that they leave. -/
inductive InTurn (depth : Nat) : Session → List Declared → List (List Dependency) → Session → Prop
  | nothing {session : Session} : InTurn depth session [] [] session
  | next {before middle after : Session} {declaration : Declared} {yielded : List Dependency}
      {declarations : List Declared} {others : List (List Dependency)}
      (first : (evaluateWithin depth declaration.evaluate).perform before = (.ok yielded, middle))
      (rest : InTurn depth middle declarations others after) :
      InTurn depth before (declaration :: declarations) (yielded :: others) after

variable {depth : Nat} {before after session : Session} {name : String} {error : Error}

/-- Evaluation leaves traces, to whatever depth. -/
theorem takes_evaluateWithin (depth : Nat) (computation : Computation Value) :
    Event.Takes Reading (evaluateWithin depth computation) :=
  Computation.takes_runWith (takes_answer (takes_readDependenciesWithin depth)) computation

/-- Where a name is known, a read of it can be carried out. -/
theorem exists_depth_eq_succ (known : session.graph.contains name = true) :
    ∃ depth, session.depth = depth + 1 := by
  obtain ⟨configuration, found⟩ := Option.isSome_iff_exists.1 known
  have positive := List.length_pos_of_mem (Graph.mem_of_find? found).1
  unfold Session.depth
  exact ⟨session.graph.configurations.length + session.room - 1, by omega⟩

section Readings

/-- What neither a counted run nor an observation changes is the same after evaluation. -/
theorem Readings.unchanged {Look : Type} (look : Session → Look)
    (counted : ∀ session source,
      look { session with runs := source :: session.runs } = look session)
    (observed : ∀ session name, look (session.observing name) = look session)
    (readings : Readings before after) : look after = look before := by
  induction readings with
  | refl => rfl
  | tail _ reading ih =>
    cases reading with
    | run source => exact (counted _ source).trans ih
    | observe name => exact (observed _ name).trans ih

/-- Evaluation leaves the settings alone. -/
theorem Readings.settings_eq (readings : Readings before after) :
    after.graph.settings = before.graph.settings :=
  Readings.unchanged (·.graph.settings) (fun _ _ => rfl)
    (fun session name => session.graph.settings_observe name) readings

/-- Evaluation leaves reads as deep as they can be nested. -/
theorem Readings.depth_eq (readings : Readings before after) : after.depth = before.depth :=
  Readings.unchanged (·.depth) (fun _ _ => rfl)
    (fun session name =>
      congrArg (· + session.room) (session.graph.length_configurations_observe name)) readings

/-- Evaluation leaves the files alone. -/
theorem Readings.tree_eq (readings : Readings before after) : after.tree = before.tree :=
  Readings.unchanged (·.tree) (fun _ _ => rfl) (fun _ _ => rfl) readings

/-- Evaluation changes nothing that is collected, as long as marks are not what is collected. -/
theorem Readings.collect_eq {Item : Type} {items : Configuration → List Item}
    (unmarked : ∀ configuration reached,
      items (configuration.marked reached) = items configuration)
    (readings : Readings before after) :
    after.graph.collect name items = before.graph.collect name items :=
  Readings.unchanged (·.graph.collect name items) (fun _ _ => rfl)
    (fun _ observed => Graph.collect_observe unmarked observed) readings

end Readings

/-- What is evaluated in turn leaves traces. -/
theorem InTurn.readings {declared : List Declared} {yields : List (List Dependency)}
    (turns : InTurn depth before declared yields after) : Readings before after := by
  induction turns with
  | nothing => exact .refl
  | next first rest ih => exact ((takes_evaluateWithin depth _).reaches first).trans ih

/-- A question followed by an observation: if there is no answer, nothing is observed. -/
theorem perform_ask_observe (question : Graph → Outcome Value) (name : String) (session : Session) :
    Event.perform (Session.ask question >>= fun value => observe name >>= fun _ => pure value)
        session =
      match question session.graph with
      | .ok value => (.ok value, session.observing name)
      | .error error => (.error error, session) := by
  rw [Event.perform_bind, perform_ask]
  cases question session.graph <;> rfl

/-- What reading artifacts comes to. -/
theorem perform_readArtifacts (name : String) (session : Session) :
    (readArtifacts name).perform session =
      match session.graph.effectiveArtifacts name with
      | .ok bindings => (.ok bindings, session.observing name)
      | .error error => (.error error, session) := by
  unfold readArtifacts
  rw [perform_ask_observe]
  cases session.graph.effectiveArtifacts name <;> rfl

/-- What reading exclude rules comes to. -/
theorem perform_readExcludes (name : String) (session : Session) :
    (readExcludes name).perform session =
      match session.graph.effectiveExcludes name with
      | .ok rules => (.ok rules, session.observing name)
      | .error error => (.error error, session) := by
  unfold readExcludes
  rw [perform_ask_observe]
  cases session.graph.effectiveExcludes name <;> rfl

/-- Artifacts are read when they can be collected, and their configuration is then observed. -/
theorem perform_readArtifacts_eq_ok {found : List ArtifactBinding} :
    (readArtifacts name).perform before = (.ok found, after) ↔
      ∃ own, before.graph.collect name Configuration.artifacts = .ok own ∧
        Ordered.distinct own = found ∧ after = before.observing name := by
  rw [perform_readArtifacts, Graph.effectiveArtifacts]
  cases before.graph.collect name Configuration.artifacts <;> simp [eq_comm]

/-- Exclude rules are read when they can be collected, and their configuration is then observed. -/
theorem perform_readExcludes_eq_ok {found : List ExcludeRule} :
    (readExcludes name).perform before = (.ok found, after) ↔
      ∃ own, before.graph.collect name Configuration.excludes = .ok own ∧
        Ordered.distinct own = found ∧ after = before.observing name := by
  rw [perform_readExcludes, Graph.effectiveExcludes]
  cases before.graph.collect name Configuration.excludes <;> simp [eq_comm]

/-- What evaluating the first of some declarations and then the others comes to. -/
theorem evaluateWithin_evaluateAll_cons (depth : Nat) (declaration : Declared)
    (declarations : List Declared) :
    evaluateWithin depth (Notation.evaluateAll (declaration :: declarations)) =
      evaluateWithin depth declaration.evaluate >>= fun yielded =>
        evaluateWithin depth (Notation.evaluateAll declarations) >>= fun others =>
          pure (yielded ++ others) := by
  unfold evaluateWithin Notation.evaluateAll
  rw [Computation.concatMap_cons, Computation.runWith_andThen]
  congr
  funext yielded
  rw [Computation.runWith_andThen]
  rfl

/-- All declarations evaluate exactly when they do so in turn, and what they yield is joined. -/
theorem perform_evaluateAll_eq_ok {declared : List Declared} {found : List Dependency} :
    (evaluateWithin depth (Notation.evaluateAll declared)).perform before = (.ok found, after) ↔
      ∃ yields, InTurn depth before declared yields after ∧ found = yields.flatten := by
  induction declared generalizing before found with
  | nil =>
    constructor
    · rintro ⟨⟩
      exact ⟨[], .nothing, rfl⟩
    · rintro ⟨_, ⟨⟩, rfl⟩
      rfl
  | cons declaration declarations ih =>
    rw [evaluateWithin_evaluateAll_cons, Event.perform_bind_eq_ok]
    constructor
    · rintro ⟨yielded, middle, first, done⟩
      obtain ⟨others, last, rest, same⟩ := Event.perform_bind_eq_ok.1 done
      cases same
      obtain ⟨yields, turns, rfl⟩ := ih.1 rest
      exact ⟨yielded :: yields, .next first turns, rfl⟩
    · rintro ⟨yields, turns, rfl⟩
      cases turns with
      | @next _ middle _ _ yielded _ others first rest =>
        refine ⟨yielded, middle, first, ?_⟩
        exact Event.perform_bind_eq_ok.2 ⟨others.flatten, after, ih.2 ⟨others, rest, rfl⟩, rfl⟩

/-- Declarations fail to evaluate exactly when one of them fails after those before it did not, and
they fail as it does. -/
theorem perform_evaluateAll_eq_error {declared : List Declared} :
    (evaluateWithin depth (Notation.evaluateAll declared)).perform before = (.error error, after) ↔
      ∃ earlier failing later yields middle, declared = earlier ++ failing :: later ∧
        InTurn depth before earlier yields middle ∧
        (evaluateWithin depth failing.evaluate).perform middle = (.error error, after) := by
  induction declared generalizing before with
  | nil =>
    constructor
    · rintro ⟨⟩
    · rintro ⟨earlier, failing, later, yields, middle, impossible, -⟩
      exact absurd impossible (by simp)
  | cons declaration declarations ih =>
    rw [evaluateWithin_evaluateAll_cons, Event.perform_bind_eq_error]
    constructor
    · rintro (failed | ⟨yielded, middle, first, failed⟩)
      · exact ⟨[], declaration, declarations, [], before, rfl, .nothing, failed⟩
      · rcases Event.perform_bind_eq_error.1 failed with failed | ⟨others, last, rest, same⟩
        · obtain ⟨earlier, failing, later, yields, point, rfl, turns, failed⟩ := ih.1 failed
          exact ⟨declaration :: earlier, failing, later, yielded :: yields, point, rfl,
            .next first turns, failed⟩
        · rw [Event.perform_pure] at same
          cases same
    · rintro ⟨earlier, failing, later, yields, middle, same, turns, failed⟩
      cases turns with
      | nothing =>
        cases same
        exact .inl failed
      | @next _ point _ _ yielded _ _ first rest =>
        cases same
        refine .inr ⟨yielded, point, first, Event.perform_bind_eq_error.2 (.inl ?_)⟩
        exact ih.2 ⟨_, failing, later, _, middle, rfl, rest, failed⟩

/-- What reading dependencies comes to. -/
theorem perform_readDependenciesWithin (depth : Nat) (name : String) (session : Session) :
    (readDependenciesWithin (depth + 1) name).perform session =
      match session.graph.collect name Configuration.declared with
      | .error error => (.error error, session)
      | .ok declared =>
        match (evaluateWithin depth (Notation.evaluateAll declared)).perform session with
        | (.ok found, after) => (.ok (Ordered.distinct found), after.observing name)
        | (.error error, after) => (.error error, after) := by
  unfold readDependenciesWithin
  rw [Event.perform_bind, perform_ask]
  cases session.graph.collect name Configuration.declared with
  | error error => rfl
  | ok declared =>
    refine (Event.perform_bind (evaluateWithin depth (Notation.evaluateAll declared)) _
      session).trans ?_
    dsimp only
    generalize (evaluateWithin depth (Notation.evaluateAll declared)).perform session = performed
    obtain ⟨outcome, after⟩ := performed
    cases outcome <;> rfl

/-- Reading dependencies succeeds exactly when the declarations evaluate in turn. -/
theorem perform_readDependenciesWithin_eq_ok {found : List Dependency} :
    (readDependenciesWithin (depth + 1) name).perform before = (.ok found, after) ↔
      ∃ declared yields middle, before.graph.collect name Configuration.declared = .ok declared ∧
        InTurn depth before declared yields middle ∧ found = Ordered.distinct yields.flatten ∧
        after = middle.observing name := by
  rw [perform_readDependenciesWithin]
  cases collected : before.graph.collect name Configuration.declared with
  | error error => simp
  | ok declared =>
    simp only [Except.ok.injEq, exists_and_left, exists_eq_left']
    constructor
    · intro done
      split at done
      next raw middle evaluated =>
        cases done
        obtain ⟨yields, turns, rfl⟩ := perform_evaluateAll_eq_ok.1 evaluated
        exact ⟨yields, middle, turns, rfl, rfl⟩
      · cases done
    · rintro ⟨yields, middle, turns, rfl, rfl⟩
      rw [perform_evaluateAll_eq_ok.2 ⟨yields, turns, rfl⟩]

/-- Reading the dependencies of a known name fails exactly when its declarations do. -/
theorem perform_readDependenciesWithin_eq_error {declared : List Declared}
    (collected : before.graph.collect name Configuration.declared = .ok declared) :
    (readDependenciesWithin (depth + 1) name).perform before = (.error error, after) ↔
      (evaluateWithin depth (Notation.evaluateAll declared)).perform before =
        (.error error, after) := by
  rw [perform_readDependenciesWithin, collected]
  dsimp only
  generalize (evaluateWithin depth (Notation.evaluateAll declared)).perform before = performed
  obtain ⟨outcome, middle⟩ := performed
  cases outcome <;> simp

/-- A read on its own can be nested as deep as the session allows. -/
theorem perform_readDependencies (name : String)
    (deep : session.depth = depth) :
    (readDependencies name).perform session =
      (readDependenciesWithin depth name).perform session := by
  subst deep
  rfl

/-- What comes of reading dependencies is what comes of their declarations, each dependency once. -/
theorem fst_perform_readDependencies {declared : List Declared}
    (collected : session.graph.collect name Configuration.declared = .ok declared)
    (deep : session.depth = depth + 1) :
    ((readDependencies name).perform session).1 = Ordered.distinct <$>
      ((evaluateWithin depth (Notation.evaluateAll declared)).perform session).1 := by
  rw [perform_readDependencies name deep, perform_readDependenciesWithin, collected]
  dsimp only
  generalize (evaluateWithin depth (Notation.evaluateAll declared)).perform session = performed
  obtain ⟨outcome, after⟩ := performed
  cases outcome <;> rfl

/-- Reading the dependencies of an unknown name fails at once. -/
theorem perform_readDependenciesWithin_of_error
    (unknown : session.graph.collect name Configuration.declared = .error error) :
    (readDependenciesWithin depth name).perform session = (.error error, session) := by
  unfold readDependenciesWithin
  rw [Event.perform_bind, perform_ask, unknown]

/-- No read is nested to the depth of zero. -/
theorem perform_readDependenciesWithin_zero (name : String) (session : Session)
    (found : List Dependency) :
    ((readDependenciesWithin 0 name).perform session).1 ≠ .ok found := by
  unfold readDependenciesWithin
  rw [Event.perform_bind, perform_ask]
  cases session.graph.collect name Configuration.declared <;> simp

end Session

end BuildPath
