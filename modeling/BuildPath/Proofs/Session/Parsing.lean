import BuildPath.Proofs.Declaration.Leaves
import BuildPath.Proofs.Session.Outcome

/-!
# Parsing that does not depend on when

A computation that comes out alike wherever evaluation leads to (`Session.Constant`) can be put in
sequence with others of that sort, and what comes of all of them is what comes of each. If all lazy
notations in a notation are of that sort, those that evaluation brings up included
(`Session.Fixed`), then so is parsing it, although its parts are parsed one after the other
(`Session.Fixed.constant_parseAll`).
-/

namespace BuildPath

variable {Value Result : Type}

/-- The first of some declarations is evaluated before the others. -/
theorem Notation.evaluateAll_cons (declaration : Declared) (declarations : List Declared) :
    evaluateAll (declaration :: declarations) =
      declaration.evaluate >>= fun yielded =>
        evaluateAll declarations >>= fun others => pure (yielded ++ others) :=
  Computation.concatMap_cons _ _ _

/-- The first of some notations is parsed before the others. -/
theorem Notation.parseEach_cons (project : DeclaringProject) (item : Notation)
    (items : List Notation) : parseEach project (item :: items) =
      item.parseAll project >>= fun first =>
        parseEach project items >>= fun rest => pure (first ++ rest) := by
  rw [parseEach, parseAll, bind_assoc]

/-- To parse notations one after the other is to map them to their dependencies. -/
theorem Notation.parseEach_eq_concatMap (project : DeclaringProject) (items : List Notation) :
    parseEach project items = Computation.concatMap (parseAll project) items := by
  induction items with
  | nil => rw [parseEach]; rfl
  | cons item items ih => rw [parseEach_cons, ih, Computation.concatMap_cons]; rfl

namespace Session

/-- A computation that comes out alike wherever evaluation leads to, on its own as well as within a
read of a configuration. -/
def Constant (session : Session) (computation : Computation Value) : Prop :=
  ∀ reached, Readings session reached →
    ∀ depth, session.depth = depth ∨
        session.depth = depth + 1 →
      ((evaluateWithin depth computation).perform reached).1 = session.outcome computation

/-- A notation all of whose lazy leaves yield the same notations each time, and these again are of
that sort. -/
inductive Fixed (session : Session) : Notation → Prop
  | intro {written : Notation}
      (constant : ∀ source, .deferred source ∈ written.leaves → session.Constant source.evaluate)
      (yielded : ∀ source, .deferred source ∈ written.leaves → ∀ items,
        session.outcome source.evaluate = .ok items → ∀ item ∈ items, Fixed session item) :
      Fixed session written

variable {session reached : Session} {depth : Nat} {project : DeclaringProject}

/-- What is evaluated on its own may nest reads as deep as the session allows. -/
theorem perform_evaluate (computation : Computation Value)
    (deep : session.depth = depth) :
    (evaluate computation).perform session =
      (evaluateWithin depth computation).perform session := by
  induction computation generalizing session with
  | done value => rfl
  | failed error => rfl
  | ask asked resume ih =>
    have answers : (answer readDependencies asked).perform session =
        (answer (readDependenciesWithin depth) asked).perform session := by
      cases asked with
      | dependencies name => exact perform_readDependencies name deep
      | _ => rfl
    have onward := takes_answer takes_readDependencies asked session
    unfold evaluate evaluateWithin
    rw [Computation.runWith_ask, Computation.runWith_ask, Event.perform_bind, Event.perform_bind,
      ← answers]
    generalize (answer readDependencies asked).perform session = performed at onward
    obtain ⟨outcome, middle⟩ := performed
    cases outcome with
    | error error => rfl
    | ok given => exact ih given ((Readings.depth_eq onward).trans deep)

/-- A known value comes out alike. -/
theorem constant_pure (session : Session) (value : Value) :
    session.Constant (pure value : Computation Value) :=
  fun _ _ _ _ => rfl

/-- A failure comes out alike. -/
theorem constant_failed (session : Session) (error : Error) :
    session.Constant (.failed error : Computation Value) :=
  fun _ _ _ _ => rfl

/-- A known outcome comes out alike. -/
theorem constant_ofOutcome (session : Session) (outcome : Outcome Value) :
    session.Constant (.ofOutcome outcome) := by
  cases outcome with
  | ok value => exact constant_pure session value
  | error error => exact constant_failed session error

section Bind

variable {computation : Computation Value} {next : Value → Computation Result}
  (first : session.Constant computation)
  (rest : ∀ value, session.outcome computation = .ok value → session.Constant (next value))
include first rest

/-- What comes of a sequence wherever evaluation leads to. -/
theorem Constant.perform_bind (readings : Readings session reached)
    (deep : session.depth = depth ∨
      session.depth = depth + 1) :
    ((evaluateWithin depth (computation >>= next)).perform reached).1 =
      session.outcome computation >>= fun value => session.outcome (next value) := by
  have parts : evaluateWithin depth (computation >>= next) =
      evaluateWithin depth computation >>= fun value => evaluateWithin depth (next value) :=
    Computation.runWith_andThen computation next
  have here := first reached readings depth deep
  have onward := takes_evaluateWithin depth computation reached
  rw [parts, Event.perform_bind]
  generalize (evaluateWithin depth computation).perform reached = performed at here onward
  obtain ⟨outcome, middle⟩ := performed
  cases outcome with
  | error error =>
    rw [← here]
    rfl
  | ok value =>
    rw [← here]
    exact rest value here.symm middle (readings.trans onward) depth deep

/-- What comes of a sequence is what comes of its parts. -/
theorem Constant.outcome_bind : session.outcome (computation >>= next) =
    session.outcome computation >>= fun value => session.outcome (next value) := by
  rw [← first.perform_bind rest .refl (.inl rfl), ← perform_evaluate _ rfl]
  rfl

/-- A sequence comes out alike if its parts do. -/
theorem Constant.bind : session.Constant (computation >>= next) := by
  intro reached readings depth deep
  rw [first.perform_bind rest readings deep, first.outcome_bind rest]

end Bind

section List

variable {Item : Type} {change : Item → Computation (List Value)} {items : List Item}
  (each : ∀ item ∈ items, session.Constant (change item))
include each

/-- What maps items one after the other comes out alike if it does for each of them. -/
theorem constant_concatMap : session.Constant (Computation.concatMap change items) := by
  induction items with
  | nil => exact constant_pure session []
  | cons item items ih =>
    obtain ⟨here, later⟩ := List.forall_mem_cons.1 each
    rw [Computation.concatMap_cons]
    exact here.bind fun _ _ => (ih later).bind fun _ _ => constant_pure session _

/-- What comes of items that are mapped one after the other is what comes of each of them. -/
theorem outcome_concatMap : session.outcome (Computation.concatMap change items) =
    List.flatten <$> items.mapM fun item => session.outcome (change item) := by
  induction items with
  | nil => rfl
  | cons item items ih =>
    obtain ⟨here, later⟩ := List.forall_mem_cons.1 each
    have others := constant_concatMap later
    have parts : Computation.concatMap change (item :: items) =
        change item >>= fun yielded => Computation.concatMap change items >>= fun rest =>
          pure (yielded ++ rest) := Computation.concatMap_cons change item items
    rw [parts, here.outcome_bind fun _ _ => others.bind fun _ _ => constant_pure session _,
      List.mapM_cons]
    simp only [outcome_map, ih later]
    cases session.outcome (change item) with
    | error error => rfl
    | ok yielded => cases items.mapM fun item => session.outcome (change item) <;> rfl

end List

/-- Declarations come out alike together if each of them does. -/
theorem constant_evaluateAll {declared : List Declared}
    (each : ∀ declaration ∈ declared, session.Constant declaration.evaluate) :
    session.Constant (Notation.evaluateAll declared) :=
  constant_concatMap each

/-- What comes of declarations is what comes of each of them. -/
theorem outcome_evaluateAll {declared : List Declared}
    (each : ∀ declaration ∈ declared, session.Constant declaration.evaluate) :
    session.outcome (Notation.evaluateAll declared) =
      List.flatten <$> declared.mapM fun declaration => session.outcome declaration.evaluate :=
  outcome_concatMap each

/-- Notations parsed one after the other come out alike if each of them does. -/
theorem constant_parseEach {items : List Notation}
    (each : ∀ item ∈ items, session.Constant (item.parseAll project)) :
    session.Constant (Notation.parseEach project items) := by
  rw [Notation.parseEach_eq_concatMap]
  exact constant_concatMap each

/-- What comes of notations that are parsed one after the other is what comes of each of them. -/
theorem outcome_parseEach {items : List Notation}
    (each : ∀ item ∈ items, session.Constant (item.parseAll project)) :
    session.outcome (Notation.parseEach project items) =
      List.flatten <$> items.mapM fun item => session.outcome (item.parseAll project) := by
  rw [Notation.parseEach_eq_concatMap]
  exact outcome_concatMap each

namespace Fixed

/-- What is declared for a notation comes out alike if what its lazy leaves yield is parsed alike.
-/
theorem constant_of_parsed {written : Notation} {declared : List Declared}
    (constant : ∀ source, .deferred source ∈ written.leaves → session.Constant source.evaluate)
    (parsed : ∀ source, .deferred source ∈ written.leaves → ∀ items,
      session.outcome source.evaluate = .ok items →
        ∀ item ∈ items, session.Constant (item.parseAll project))
    (done : written.declare project = .ok declared) :
    ∀ declaration ∈ declared, session.Constant declaration.evaluate := by
  intro declaration member
  rcases Notation.resolved_or_deferred_of_mem_declare done member with
    ⟨dependency, rfl⟩ | ⟨source, leaf, rfl⟩
  · exact constant_pure session [dependency]
  · exact (constant source leaf).bind fun items comes =>
      constant_parseEach (parsed source leaf items comes)

/-- Parsing a fixed notation comes out alike. -/
theorem constant_parseAll {written : Notation} (fixed : session.Fixed written)
    (project : DeclaringProject) : session.Constant (written.parseAll project) := by
  induction fixed with
  | @intro written constant yielded ih =>
    unfold Notation.parseAll
    cases done : written.declare project with
    | error error => exact constant_failed session error
    | ok declared => exact constant_evaluateAll (constant_of_parsed constant ih done)

/-- What is declared for a fixed notation comes out alike. -/
theorem constant_of_declare {written : Notation} (fixed : session.Fixed written)
    {declared : List Declared} (done : written.declare project = .ok declared) :
    ∀ declaration ∈ declared, session.Constant declaration.evaluate := by
  obtain ⟨constant, yielded⟩ := fixed
  exact constant_of_parsed constant (fun source leaf items comes item member =>
    (yielded source leaf items comes item member).constant_parseAll project) done

end Fixed

end Session

end BuildPath
