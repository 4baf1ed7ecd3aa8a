import BuildPath.Lazy.Source
import BuildPath.Proofs.Declaration.Leaves
import BuildPath.Proofs.Session.Effective
import BuildPath.Proofs.Session.Parsing
import Mathlib

/-!
# What runs, and how often

Sources of lazy values are counted when they run, before anything else that they do. Nothing that
only declares, links or describes runs any of them (`Session.runs_run_of_declaring`). The sources
that a declaration runs when it is evaluated (`Computation.RunsInOrder`) are not changed by anything
that wraps them. Reading the dependencies of a configuration then runs the sources of every
declaration of its hierarchy once, in order, up to the first declaration that fails
(`Session.sources_run_once_when_read`).
-/

namespace BuildPath

variable {Value Other Result Item : Type}

namespace Computation

/-- A computation that runs exactly these among some sources, each as often as it is listed and in
this order, whatever it is answered; if it fails, it may not come to all of them. It does not call
the graph. -/
inductive RunsInOrder (own : List Nat) : Computation Value → List Nat → Prop
  | done (value : Value) : RunsInOrder own (.done value) []
  | failed (error : Error) (sources : List Nat) : RunsInOrder own (.failed error) sources
  | own {source : Nat} {resume : Unit → Computation Value} {sources : List Nat}
      (mine : source ∈ own) (onward : RunsInOrder own (resume ()) sources) :
      RunsInOrder own (.ask (.run source) resume) (source :: sources)
  | other {asked : Request} {resume : asked.Answer → Computation Value} {sources : List Nat}
      (outside : ¬asked.CallsGraph) (foreign : ∀ source ∈ own, asked ≠ .run source)
      (onward : ∀ given, RunsInOrder own (resume given) sources) :
      RunsInOrder own (.ask asked resume) sources

variable {own sources more : List Nat}

/-- A known outcome runs nothing. -/
theorem runsInOrder_ofOutcome (outcome : Outcome Value) :
    (ofOutcome outcome).RunsInOrder own [] := by
  cases outcome with
  | ok value => exact .done value
  | error error => exact .failed error []

/-- A sequence runs what its first part runs and then what the second part does, given what the
first one yields. -/
theorem RunsInOrder.bind {property : Value → Prop} {computation : Computation Value}
    {next : Value → Computation Result} (first : computation.RunsInOrder own sources)
    (yields : computation.Yields property)
    (rest : ∀ value, property value → (next value).RunsInOrder own more) :
    (computation >>= next).RunsInOrder own (sources ++ more) := by
  induction first with
  | done value => exact rest value yields
  | failed error sources => exact .failed error _
  | own mine _ ih => exact .own mine (ih (yields ()))
  | other outside foreign _ ih => exact .other outside foreign fun given => ih given (yields given)

/-- What is mapped by something that runs nothing runs nothing. -/
theorem runsInOrder_concatMap {change : Item → Computation (List Value)} {items : List Item}
    (each : ∀ item ∈ items, (change item).RunsInOrder own []) :
    (concatMap change items).RunsInOrder own [] := by
  induction items with
  | nil => exact .done []
  | cons item items ih =>
    obtain ⟨here, later⟩ := List.forall_mem_cons.1 each
    rw [concatMap_cons]
    exact here.bind (yields_trivial _) fun _ _ =>
      (ih later).bind (yields_trivial _) fun _ _ => .done _

end Computation

namespace LazyValue

variable {own sources more : List Nat}

/-- A lazy value runs what it ran when its values are mapped. -/
theorem runsInOrder_flatMap {value : LazyValue Item} {change : Item → Computation (List Result)}
    (runs : value.evaluate.RunsInOrder own sources)
    (quiet : ∀ item, (change item).RunsInOrder own []) :
    (value.flatMap change).evaluate.RunsInOrder own sources := by
  rw [← sources.append_nil]
  exact runs.bind (Computation.yields_trivial _) fun _ _ =>
    Computation.runsInOrder_concatMap fun item _ => quiet item

/-- Two lazy values that are combined run what the left one ran and then what the right one did. -/
theorem runsInOrder_zipWith {left : LazyValue Item} {right : LazyValue Other}
    {combine : List Item → List Other → Computation (List Result)}
    (first : left.evaluate.RunsInOrder own sources) (second : right.evaluate.RunsInOrder own more)
    (quiet : ∀ lefts rights, (combine lefts rights).RunsInOrder own []) :
    (left.zipWith combine right).evaluate.RunsInOrder own (sources ++ more) := by
  refine first.bind (Computation.yields_trivial _) fun lefts _ => ?_
  rw [← more.append_nil]
  exact second.bind (Computation.yields_trivial _) fun rights _ => quiet lefts rights

/-- A lazy notation runs what it ran when it is declared, with an action or without, if what it
yields runs nothing. -/
theorem runsInOrder_recorded {project : DeclaringProject} {action : Option Action}
    {value : LazyValue Notation} {declaration : Declared}
    (recorded : Notation.Recorded project action (.deferred value) declaration)
    (runs : value.evaluate.RunsInOrder own sources)
    (quiet : value.evaluate.Yields fun items =>
      ∀ item ∈ items, (item.parseAll project).RunsInOrder own []) :
    declaration.evaluate.RunsInOrder own sources := by
  cases recorded with
  | direct direct => exact direct.elim
  | lazy =>
    rw [← sources.append_nil]
    refine runs.bind quiet fun items each => ?_
    have parsed : (Notation.parseEach project items).RunsInOrder own [] := by
      rw [Notation.parseEach_eq_concatMap]
      exact Computation.runsInOrder_concatMap each
    exact parsed.bind (Computation.yields_trivial _) fun found _ =>
      Computation.runsInOrder_ofOutcome _

end LazyValue

namespace Session

/-- An operation that evaluates lazy declarations. -/
def Evaluates : Operation → Prop
  | .readDependencies _ | .evaluate _ => True
  | _ => False

/-- The sources among some that were run between two sessions, in the order of their runs. -/
def RanAmong (own : List Nat) (before after : Session) (ran : List Nat) : Prop :=
  ∃ recent, after.runs = recent ++ before.runs ∧ recent.reverse.filter own.contains = ran

variable {session before middle after : Session} {own ran more sources : List Nat} {depth : Nat}
  {name : String}

/-- Nothing runs where nothing is counted. -/
theorem RanAmong.refl (own : List Nat) (session : Session) : RanAmong own session session [] :=
  ⟨[], rfl, rfl⟩

/-- What was run until then was run before what was run afterwards. -/
theorem RanAmong.trans (first : RanAmong own before middle ran)
    (second : RanAmong own middle after more) : RanAmong own before after (ran ++ more) := by
  obtain ⟨early, toMiddle, rfl⟩ := first
  obtain ⟨late, toAfter, rfl⟩ := second
  refine ⟨late ++ early, ?_, ?_⟩
  · rw [toAfter, toMiddle, List.append_assoc]
  · rw [List.reverse_append, List.filter_append]

/-- What is answered without the graph, if it is not a run of one of some sources, runs none of
them. -/
theorem exists_answer_of_foreign (depth : Nat) {asked : Request} (outside : ¬asked.CallsGraph)
    (foreign : ∀ source ∈ own, asked ≠ .run source) (session : Session) :
    ∃ given middle,
      (answer (readDependenciesWithin depth) asked).perform session = (.ok given, middle) ∧
        RanAmong own session middle [] := by
  cases asked with
  | dependencies other => exact absurd trivial outside
  | excludes other => exact absurd trivial outside
  | run source =>
    refine ⟨(), _, rfl, [source], rfl, List.filter_eq_nil_iff.2 fun ran member => ?_⟩
    rw [List.mem_singleton.1 member, List.contains_iff_mem]
    exact fun mine => foreign source mine rfl
  | _ => exact ⟨_, session, rfl, RanAmong.refl own session⟩

/-- What a computation ran when it was evaluated: all its sources in order if it succeeded, and the
first of them if it failed, at least that which it counts before anything else. -/
theorem exists_ranAmong_evaluateWithin (depth : Nat) {computation : Computation Value}
    (runs : computation.RunsInOrder own sources) (session : Session) :
    let performed := (evaluateWithin depth computation).perform session
    ∃ ran, RanAmong own session performed.2 ran ∧ ran <+: sources ∧
      (∀ value, performed.1 = .ok value → ran = sources) ∧
      ∀ source rest, computation = .counted source rest → source ∈ own →
        ran.head? = some source := by
  induction runs generalizing session with
  | done value => exact ⟨[], .refl own session, List.prefix_rfl, fun _ _ => rfl, nofun⟩
  | failed error sources =>
    exact ⟨[], .refl own session, List.nil_prefix, nofun, nofun⟩
  | @own source resume sources mine _ ih =>
    obtain ⟨ran, later, first, all, -⟩ := ih { session with runs := source :: session.runs }
    have counts : RanAmong own session { session with runs := source :: session.runs } [source] :=
      ⟨[source], rfl, List.filter_eq_self.2 (by simpa using mine)⟩
    refine ⟨source :: ran, counts.trans later, ?_, fun value done => ?_, ?_⟩
    · exact List.cons_prefix_cons.2 ⟨rfl, first⟩
    · exact congrArg (source :: ·) (all value done)
    · rintro _ _ ⟨⟩ _
      rfl
  | @other asked resume sources outside foreign _ ih =>
    obtain ⟨given, middle, answered, quiet⟩ :=
      exists_answer_of_foreign depth outside foreign session
    obtain ⟨ran, later, first, all, -⟩ := ih given middle
    have onward : (evaluateWithin depth (.ask asked resume)).perform session =
        (evaluateWithin depth (resume given)).perform middle :=
      Event.perform_bind_of_ok answered
    rw [onward]
    refine ⟨ran, quiet.trans later, first, all, ?_⟩
    rintro source rest ⟨⟩ mine
    exact absurd rfl (foreign source mine)

/-- Declarations that evaluate in turn run the sources of each, in order. -/
theorem InTurn.ranAmong {declared : List Declared} {yields : List (List Dependency)}
    {counters : List (List Nat)} (turns : InTurn depth before declared yields after)
    (runs : List.Forall₂ (fun declaration sources =>
      declaration.evaluate.RunsInOrder own sources) declared counters) :
    RanAmong own before after counters.flatten := by
  induction turns generalizing counters with
  | @nothing session =>
    cases runs
    exact .refl own session
  | @next before middle _ _ _ _ _ first _ ih =>
    obtain ⟨sources, others, here, later, rfl⟩ := List.forall₂_cons_left_iff.1 runs
    obtain ⟨ran, counted, -, all, -⟩ := exists_ranAmong_evaluateWithin depth here before
    rw [first] at counted all
    rw [List.flatten_cons, ← all _ rfl]
    exact counted.trans (ih later)

/-- What evaluates no declarations runs nothing. -/
theorem runs_perform_of_declaring {operation : Operation} (declaring : ¬Evaluates operation) :
    (operation.perform.perform session).2.runs = session.runs := by
  by_cases reads : IsRead operation
  · cases operation with
    | readDependencies | evaluate => exact absurd trivial declaring
    | readArtifacts name =>
      change ((readArtifacts name).perform session).2.runs = _
      rw [perform_readArtifacts]
      cases session.graph.effectiveArtifacts name <;> rfl
    | readExcludes name =>
      change ((readExcludes name).perform session).2.runs = _
      rw [perform_readExcludes]
      cases session.graph.effectiveExcludes name <;> rfl
    | _ => exact absurd reads id
  · exact unchanged_perform (·.runs) (fun _ _ _ => rfl) (fun read => absurd read reads)
      (fun _ _ => rfl) (fun _ _ => rfl) session

/-- A run of operations that evaluate no declarations runs nothing. -/
theorem runs_run_of_declaring {operations : List Operation}
    (declaring : ∀ operation ∈ operations, ¬Evaluates operation) :
    (session.run operations).runs = session.runs := by
  induction operations generalizing session with
  | nil => rfl
  | cons operation rest ih =>
    obtain ⟨here, later⟩ := List.forall_mem_cons.1 declaring
    exact (ih later).trans (runs_perform_of_declaring here)

/-- A read of the dependencies of a known configuration runs the sources of the declarations of its
hierarchy, each declaration once and in order. If it fails, it ran those of the declarations before
the first that fails, and of that one those that it came to. -/
theorem ranAmong_readDependencies {members : List Configuration} {counters : List (List Nat)}
    (lineage : session.graph.lineage name = .ok members)
    (deep : session.depth = depth + 1)
    (runs : List.Forall₂ (fun declaration sources =>
      declaration.evaluate.RunsInOrder own sources)
      (members.flatMap Configuration.declared) counters) :
    let read := (readDependencies name).perform session
    (∀ found, read.1 = .ok found → RanAmong own session read.2 counters.flatten) ∧
    ∀ error, read.1 = .error error →
      ∃ earlier failing later yields middle before sources after ran,
        members.flatMap Configuration.declared = earlier ++ failing :: later ∧
        counters = before ++ sources :: after ∧ before.length = earlier.length ∧
        InTurn depth session earlier yields middle ∧
        (evaluateWithin depth failing.evaluate).perform middle = (.error error, read.2) ∧
        RanAmong own session read.2 (before.flatten ++ ran) ∧ ran <+: sources ∧
        ∀ source rest, failing.evaluate = .counted source rest → source ∈ own →
          ran.head? = some source := by
  have collected : session.graph.collect name Configuration.declared =
      .ok (members.flatMap Configuration.declared) := Graph.collect_of_lineage lineage
  rw [perform_readDependencies name deep]
  cases performed : (readDependenciesWithin (depth + 1) name).perform session with
  | mk outcome after =>
    constructor
    · rintro found rfl
      obtain ⟨declared, yields, middle, same, turns, -, rfl⟩ :=
        perform_readDependenciesWithin_eq_ok.1 performed
      cases collected.symm.trans same
      exact turns.ranAmong runs
    · rintro error rfl
      obtain ⟨earlier, failing, later, yields, middle, split, turns, failed⟩ :=
        perform_evaluateAll_eq_error.1
          ((perform_readDependenciesWithin_eq_error collected).1 performed)
      -- The sources are split where the declarations are.
      rw [split] at runs
      have before := List.forall₂_take_append _ _ _ runs.flip
      obtain ⟨sources, rest, here, -, remaining⟩ :=
        List.forall₂_cons_right_iff.1 (List.forall₂_drop_append _ _ _ runs.flip)
      obtain ⟨ran, counted, first, -, begun⟩ :=
        exists_ranAmong_evaluateWithin depth here middle
      rw [failed] at counted
      refine ⟨earlier, failing, later, yields, middle, counters.take earlier.length, sources, rest,
        ran, split, ?_, before.length_eq, turns, failed,
        (turns.ranAmong before.flip).trans counted, first, begun⟩
      rw [← remaining, List.take_append_drop]

/-- Declaring, linking and describing run no source, and questions leave everything as it was. What
runs a source goes on to run it as often through mapping, combining, declaring and actions. Reading
the dependencies of a known configuration, where declarations do not call the graph, runs the
sources of the declarations of its hierarchy, each declaration once, in the order of the hierarchy
and then of the declarations; if it fails, it has run those up to the first declaration that fails.
-/
theorem sources_run_once_when_read (reachable : session.Reachable)
    (known : session.graph.contains name = true) :
    (∀ operations : List Operation, (∀ operation ∈ operations, ¬Evaluates operation) →
      (session.run operations).runs = session.runs) ∧
    (∀ (Value : Type) (question : Graph → Outcome Value),
      ((ask question).perform session).2 = session) ∧
    (∀ own sources more : List Nat,
      (∀ (Item Result : Type) (value : LazyValue Item) (change : Item → Computation (List Result)),
        value.evaluate.RunsInOrder own sources → (∀ item, (change item).RunsInOrder own []) →
          (value.flatMap change).evaluate.RunsInOrder own sources) ∧
      (∀ (Item Other Result : Type) (left : LazyValue Item) (right : LazyValue Other)
          (combine : List Item → List Other → Computation (List Result)),
        left.evaluate.RunsInOrder own sources → right.evaluate.RunsInOrder own more →
          (∀ lefts rights, (combine lefts rights).RunsInOrder own []) →
            (left.zipWith combine right).evaluate.RunsInOrder own (sources ++ more)) ∧
      ∀ project action value declaration,
        Notation.Recorded project action (.deferred value) declaration →
          value.evaluate.RunsInOrder own sources →
            (value.evaluate.Yields fun items =>
              ∀ item ∈ items, (item.parseAll project).RunsInOrder own []) →
              declaration.evaluate.RunsInOrder own sources) ∧
    ∃ members, session.graph.Ancestry name members ∧
      ∃ depth, session.depth = depth + 1 ∧
        let declared := members.flatMap Configuration.declared
        let read := (readDependencies name).perform session
        ∀ own counters, List.Forall₂ (fun declaration sources =>
            declaration.evaluate.RunsInOrder own sources) declared counters →
          (∀ found, read.1 = .ok found → RanAmong own session read.2 counters.flatten) ∧
          ∀ error, read.1 = .error error →
            ∃ earlier failing later yields middle before sources after ran,
              declared = earlier ++ failing :: later ∧ counters = before ++ sources :: after ∧
              before.length = earlier.length ∧ InTurn depth session earlier yields middle ∧
              (evaluateWithin depth failing.evaluate).perform middle = (.error error, read.2) ∧
              RanAmong own session read.2 (before.flatten ++ ran) ∧ ran <+: sources ∧
              ∀ source rest, failing.evaluate = .counted source rest → source ∈ own →
                ran.head? = some source := by
  obtain ⟨members, lineage, ancestry⟩ :=
    (Graph.wellFormed_of_reachable reachable).exists_lineage known
  obtain ⟨depth, deep⟩ := exists_depth_eq_succ known
  refine ⟨fun _ => runs_run_of_declaring, fun Value question => ?_, fun own sources more =>
    ⟨?_, ?_, ?_⟩, members, ancestry, depth, deep, fun own counters =>
      ranAmong_readDependencies lineage deep⟩
  · rw [perform_ask]
  · exact fun Item Result value change => LazyValue.runsInOrder_flatMap
  · exact fun Item Other Result left right combine => LazyValue.runsInOrder_zipWith
  · exact fun project action value declaration => LazyValue.runsInOrder_recorded

section Witness

/-- A module. -/
def widget : Dependency := .externalModule (.ofCoordinates none "widget" none none none)

/-- A numbered source of one notation. -/
def numbered (source : Nat) : LazyValue Notation :=
  .computed source (.done [.dependency widget])

/-- A session in which `app` inherits from `base` twice over, by way of `left` and `right`, and all
that they declare is lazy. -/
def tallied : Session :=
  (start (.new {} .root) ⟨[], []⟩).run [
    .edit (.create "base"), .edit (.create "left"), .edit (.create "right"), .edit (.create "app"),
    .edit (.extend "left" "base"), .edit (.extend "right" "base"),
    .edit (.extend "app" "left"), .edit (.extend "app" "right"),
    .edit (.add "base" (.deferred (numbered 0)) none),
    .edit (.add "left" (.bundle [.deferred (numbered 1), .bundle [.deferred (numbered 2)]]) none),
    .edit (.add "right" (.deferred (numbered 3)) none)]

/-- What is declared for a numbered source. -/
def declaredOf (source : Nat) : Declared :=
  .deferred ⟨LazyValue.defaultLabel Notation, fun reported =>
    Notation.parseProduced .root ((numbered source).produce reported)⟩

/-- What is declared for a numbered source runs it once. -/
theorem runsInOrder_declaredOf {own : List Nat} {source : Nat} (mine : source ∈ own) :
    (declaredOf source).evaluate.RunsInOrder own [source] := by
  change (Notation.parseProduced .root (.ask (.run source) _)).RunsInOrder own [source]
  rw [Notation.parseProduced]
  refine .own mine ?_
  rw [Notation.parseProduced, Notation.parseEach, Notation.declare, Notation.parseEach]
  exact .done _

/-- The sources run in the order of the hierarchy, that of `base` once. -/
theorem sources_run_once_when_read_tallied :
    tallied.Reachable ∧ tallied.graph.contains "app" = true ∧
      tallied.graph.hierarchy "app" = .ok ["app", "left", "base", "right"] ∧
      ((readDependencies "app").perform tallied).1 = .ok [widget] ∧
      RanAmong [0, 1, 2, 3] tallied ((readDependencies "app").perform tallied).2 [1, 2, 0, 3] := by
  have reachable : tallied.Reachable := ⟨_, _, _, _, _, rfl⟩
  have known : tallied.graph.contains "app" = true := by cbv
  have outcome : ((readDependencies "app").perform tallied).1 = .ok [widget] := by cbv
  have declared : tallied.graph.collect "app" Configuration.declared =
      .ok [declaredOf 1, declaredOf 2, declaredOf 0, declaredOf 3] := by cbv
  obtain ⟨-, -, -, members, ancestry, depth, -, reads⟩ := sources_run_once_when_read reachable known
  have listed := (ancestry.collect_eq (Graph.wellFormed_of_reachable reachable)).symm.trans declared
  have runs : List.Forall₂ (fun declaration sources =>
      declaration.evaluate.RunsInOrder [0, 1, 2, 3] sources)
      (members.flatMap Configuration.declared) [[1], [2], [0], [3]] := by
    have each (source : Nat) (mine : source ∈ [0, 1, 2, 3]) :
        (declaredOf source).evaluate.RunsInOrder [0, 1, 2, 3] [source] :=
      runsInOrder_declaredOf mine
    rw [Except.ok.inj listed]
    exact .cons (each 1 (by decide)) (.cons (each 2 (by decide))
      (.cons (each 0 (by decide)) (.cons (each 3 (by decide)) .nil)))
  exact ⟨reachable, known, by cbv, outcome, (reads _ _ runs).1 _ outcome⟩

end Witness

end Session

end BuildPath
