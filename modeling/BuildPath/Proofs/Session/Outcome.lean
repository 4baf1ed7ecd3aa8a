import BuildPath.Proofs.Session.Reading

/-!
# Outcomes that do not depend on when

What comes of evaluating a computation in a session. Evaluation leaves traces, so that the parts of
a computation are evaluated in different sessions; yet if what is declared evaluates alike in all of
them (`Session.Steady`), it makes no difference in which: what comes of a sequence is what comes of
its parts in one session (`Session.outcome_bind`).
-/

namespace BuildPath

variable {Value Result : Type}

/-- Whether a declaration is a dependency already. -/
def Declared.isResolved : Declared → Bool
  | .resolved _ => true
  | .deferred _ => false

/-- A request that views make: for effective dependencies or exclude rules, or for the files. -/
def Request.OfViews : Request → Prop
  | .dependencies _ | .excludes _ | .files => True
  | .run _ | .runs _ | .assigned _ => False

namespace Session

/-- What comes of evaluating a computation. -/
def outcome (session : Session) (computation : Computation Value) : Outcome Value :=
  ((evaluate computation).perform session).1

/-- Whatever is declared evaluates alike, successfully or not, wherever evaluation leads to. -/
def Steady (session : Session) : Prop :=
  ∀ configuration ∈ session.graph.configurations, ∀ declaration ∈ configuration.declared,
    ∀ reached, Readings session reached →
      ∀ depth, session.depth = depth + 1 →
        ((evaluateWithin depth declaration.evaluate).perform reached).1 =
          ((evaluateWithin depth declaration.evaluate).perform session).1

/-- An event that leaves nothing but traces of evaluation and comes out alike wherever evaluation
leads to. -/
structure Settled (session : Session) (event : Event Value) : Prop where
  takes : Event.Takes Reading event
  alike : ∀ reached, Readings session reached →
    (event.perform reached).1 = (event.perform session).1

variable {session : Session}

/-- To succeed is settled. -/
theorem settled_pure (value : Value) : Settled session (pure value : Event Value) :=
  ⟨Event.takes_pure value, fun _ _ => rfl⟩

/-- To fail is settled. -/
theorem settled_throw (error : Error) : Settled session (throw error : Event Value) :=
  ⟨Event.takes_throw error, fun _ _ => rfl⟩

/-- What comes of a sequence whose later part is settled, wherever evaluation led to. -/
theorem perform_bind_of_settled {event : Event Value} {next : Value → Event Result}
    (takes : Event.Takes Reading event) (rest : ∀ value, Settled session (next value))
    {reached : Session} (readings : Readings session reached) :
    (Event.perform (event >>= next) reached).1 =
      (event.perform reached).1 >>= fun value => ((next value).perform session).1 := by
  have onward := takes reached
  rw [Event.perform_bind]
  generalize event.perform reached = performed at onward
  obtain ⟨outcome, middle⟩ := performed
  cases outcome with
  | error error => rfl
  | ok value => exact (rest value).alike middle (readings.trans onward)

/-- Settled events in sequence are settled. -/
theorem Settled.bind {event : Event Value} {next : Value → Event Result}
    (first : Settled session event) (rest : ∀ value, Settled session (next value)) :
    Settled session (event >>= next) := by
  refine ⟨Event.takes_bind first.takes fun value => (rest value).takes, fun reached readings => ?_⟩
  rw [perform_bind_of_settled first.takes rest readings, first.alike reached readings,
    perform_bind_of_settled first.takes rest .refl]

/-- To read exclude rules is settled. -/
theorem settled_readExcludes (name : String) : Settled session (readExcludes name) := by
  refine ⟨takes_readExcludes name, fun reached readings => ?_⟩
  have same : reached.graph.effectiveExcludes name = session.graph.effectiveExcludes name := by
    unfold Graph.effectiveExcludes
    rw [Readings.collect_eq Configuration.marked_excludes readings]
  rw [perform_readExcludes, perform_readExcludes, same]
  cases session.graph.effectiveExcludes name <;> rfl

/-- Where everything declared is a dependency already, it evaluates alike. -/
theorem steady_of_isResolved (known : ∀ configuration ∈ session.graph.configurations,
    ∀ declaration ∈ configuration.declared, declaration.isResolved = true) : session.Steady := by
  intro configuration present declaration member reached readings depth deep
  cases declaration with
  | resolved dependency => rfl
  | deferred value => exact absurd (known configuration present _ member) Bool.false_ne_true

/-- What comes of a known outcome is that outcome. -/
theorem outcome_ofOutcome (session : Session) (outcome : Outcome Value) :
    session.outcome (.ofOutcome outcome) = outcome := by
  cases outcome <;> rfl

/-- What comes of a request is its answer. -/
theorem outcome_request (session : Session) (asked : Request) :
    session.outcome (.request asked) = ((answer readDependencies asked).perform session).1 := by
  unfold outcome evaluate Computation.request
  rw [Computation.runWith_ask, Event.perform_bind]
  obtain ⟨outcome, after⟩ := (answer readDependencies asked).perform session
  cases outcome <;> rfl

section Steady

variable (steady : session.Steady)
include steady

/-- Declarations of the graph are settled, one after the other. -/
theorem Steady.settled_evaluateAll {depth : Nat}
    (deep : session.depth = depth + 1) {declared : List Declared}
    (known : ∀ declaration ∈ declared, ∃ configuration ∈ session.graph.configurations,
      declaration ∈ configuration.declared) :
    Settled session (evaluateWithin depth (Notation.evaluateAll declared)) := by
  induction declared with
  | nil => exact settled_pure []
  | cons declaration declarations ih =>
    obtain ⟨⟨configuration, present, member⟩, others⟩ := List.forall_mem_cons.1 known
    rw [evaluateWithin_evaluateAll_cons]
    have here : Settled session (evaluateWithin depth declaration.evaluate) :=
      ⟨takes_evaluateWithin depth _, fun reached readings =>
        steady configuration present declaration member reached readings depth deep⟩
    exact here.bind fun _ => (ih others).bind fun _ => settled_pure _

/-- To read dependencies is settled. -/
theorem Steady.settled_readDependencies (name : String) :
    Settled session (readDependencies name) := by
  refine ⟨takes_readDependencies name, fun reached readings => ?_⟩
  have same : reached.graph.collect name Configuration.declared =
      session.graph.collect name Configuration.declared :=
    Readings.collect_eq Configuration.marked_declared readings
  cases collected : session.graph.collect name Configuration.declared with
  | error error =>
    rw [perform_readDependencies name (Readings.depth_eq readings),
      perform_readDependencies name rfl,
      perform_readDependenciesWithin_of_error (same.trans collected),
      perform_readDependenciesWithin_of_error collected]
  | ok declared =>
    obtain ⟨depth, deep⟩ := exists_depth_eq_succ (Graph.contains_of_collect collected)
    have alike := (steady.settled_evaluateAll deep fun _ member =>
      Graph.exists_mem_of_mem_collect collected member).alike reached readings
    have deepThere := (Readings.depth_eq readings).trans deep
    rw [fst_perform_readDependencies (same.trans collected) deepThere,
      fst_perform_readDependencies collected deep, alike]

/-- What views ask for is settled. -/
theorem Steady.settled_answer {asked : Request} (viewed : asked.OfViews) :
    Settled session (answer readDependencies asked) := by
  cases asked with
  | dependencies name => exact steady.settled_readDependencies name
  | excludes name => exact settled_readExcludes name
  | files =>
    refine ⟨takes_answer takes_readDependencies .files, fun reached readings => ?_⟩
    exact congrArg Except.ok (Readings.tree_eq readings)
  | run source => exact viewed.elim
  | runs source => exact viewed.elim
  | assigned name => exact viewed.elim

/-- A computation that asks for what views ask for is settled. -/
theorem Steady.settled_evaluate {computation : Computation Value}
    (asks : computation.AsksOnly Request.OfViews) : Settled session (evaluate computation) := by
  induction computation with
  | done value => exact settled_pure value
  | failed error => exact settled_throw error
  | ask asked resume ih =>
    exact (steady.settled_answer asks.1).bind fun given => ih given (asks.2 given)

/-- What comes of a sequence is what comes of its parts. -/
theorem Steady.outcome_bind (computation : Computation Value) {next : Value → Computation Result}
    (asks : ∀ value, (next value).AsksOnly Request.OfViews) :
    session.outcome (computation >>= next) =
      session.outcome computation >>= fun value => session.outcome (next value) := by
  have parts : evaluate (computation >>= next) =
      evaluate computation >>= fun value => evaluate (next value) :=
    Computation.runWith_andThen computation next
  unfold outcome
  rw [parts]
  exact perform_bind_of_settled (takes_evaluate computation)
    (fun value => steady.settled_evaluate (asks value)) .refl

/-- What comes of going on with the answer to a request. -/
theorem Steady.outcome_request_bind {asked : Request} {next : asked.Answer → Computation Result}
    (asks : ∀ given, (next given).AsksOnly Request.OfViews) :
    session.outcome (.request asked >>= next) =
      ((answer readDependencies asked).perform session).1 >>= fun given =>
        session.outcome (next given) := by
  rw [steady.outcome_bind _ asks, outcome_request]

end Steady

/-- What comes of a computation whose value is changed. -/
theorem outcome_map (session : Session) (computation : Computation Value)
    (change : Value → Result) :
    session.outcome (computation >>= fun value => pure (change value)) =
      change <$> session.outcome computation := by
  have parts : evaluate (computation >>= fun value => pure (change value)) =
      evaluate computation >>= fun value => pure (change value) :=
    Computation.runWith_andThen computation _
  unfold outcome
  rw [parts, Event.perform_bind]
  obtain ⟨outcome, after⟩ := (evaluate computation).perform session
  cases outcome <;> rfl

/-- What comes of a computation is among what it can yield. -/
theorem holds_of_yields {property : Value → Prop} {computation : Computation Value}
    (yields : computation.Yields property) {value : Value}
    (comes : session.outcome computation = .ok value) : property value := by
  unfold outcome evaluate at comes
  induction computation generalizing session with
  | done known =>
    cases comes
    exact yields
  | failed error => cases comes
  | ask asked resume ih =>
    rw [Computation.runWith_ask, Event.perform_bind] at comes
    split at comes
    next given middle answered => exact ih given (yields given) comes
    · cases comes

end Session

end BuildPath
