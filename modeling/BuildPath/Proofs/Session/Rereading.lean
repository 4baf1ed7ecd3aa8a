import BuildPath.Lazy.Source
import BuildPath.Proofs.Graph.Freezing
import BuildPath.Proofs.Session.Reading

/-!
# Reading again

When dependencies that were read come out the same once more. A declaration may yield the same again
on its own account (`Session.Repeats`), or have nothing to go by but effective views
(`Declared.Consults`), since a read from within a declaration froze what it read as well. If each
declaration does one or the other, then so does the whole (`Session.Frozen`).
-/

namespace BuildPath

open Relation

variable {Value Result Item : Type}

/-- A request that counts a run or reads an effective view. -/
def Request.IsRead : Request → Prop
  | .run _ | .dependencies _ | .excludes _ => True
  | .runs _ | .assigned _ | .files => False

/-- A declaration that has nothing to go by but effective views. -/
def Declared.Consults (declaration : Declared) : Prop :=
  declaration.evaluate.AsksOnly Request.IsRead

namespace Notation

variable (project : DeclaringProject)

/-- Dependencies that were built already are parsed to themselves. -/
theorem parseEach_map_dependency (found : List Dependency) :
    parseEach project (found.map .dependency) = .done found := by
  induction found with
  | nil => rw [List.map_nil, parseEach]
  | cons first rest ih =>
    rw [List.map_cons, parseEach, ih, declare]
    rfl

/-- What is declared when the effective dependencies of another configuration are given. -/
theorem declare_dependenciesOf (source : Nat) (name : String) :
    (Notation.deferred ((LazyValue.dependenciesOf source name).map .dependency)).declare project =
      .ok [.deferred ⟨LazyValue.defaultLabel Dependency, fun _ =>
        .counted source (.request (.dependencies name))⟩] := by
  unfold LazyValue.map LazyValue.tryMap LazyValue.flatMap
  rw [declare]
  congr
  funext reported
  change parseProduced project (.ask (.run source) fun _ => .ask (.dependencies name) fun found =>
    Computation.concatMap (fun item => .done [Notation.dependency item]) found) = _
  rw [parseProduced]
  refine congrArg _ (funext fun _ => ?_)
  rw [parseProduced]
  refine congrArg _ (funext fun found => ?_)
  rw [Computation.concatMap_singleton, parseProduced, parseEach_map_dependency]

/-- To give the effective dependencies of another configuration is to consult effective views. -/
theorem consults_dependenciesOf (source : Nat) (name : String) {declared : List Declared}
    (done : (Notation.deferred ((LazyValue.dependenciesOf source name).map .dependency)).declare
      project = .ok declared) : ∀ declaration ∈ declared, declaration.Consults := by
  rw [declare_dependenciesOf] at done
  cases done
  intro declaration member
  rw [List.mem_singleton.1 member]
  exact ⟨trivial, fun _ => ⟨trivial, fun _ => trivial⟩⟩

end Notation

namespace Session

/-- What one event yields while evaluation leads from `first` to `seen`, the other yields again
while evaluation goes on from `later`. -/
def Echoes (first seen later : Session) (event other : Event Value) : Prop :=
  ∀ before after again value, Readings first before → Readings after seen → Readings later again →
    event.perform before = (.ok value, after) → (other.perform again).1 = .ok value

/-- A declaration that yields the same when it is evaluated again. -/
def Repeats (first seen later : Session) (declaration : Declared) : Prop :=
  ∀ depth further, depth ≤ further → Echoes first seen later
    (evaluateWithin depth declaration.evaluate) (evaluateWithin further declaration.evaluate)

variable {first seen later before after : Session} {name : String}

/-- A declaration that yields the same values at every evaluation repeats them. -/
theorem repeats_of_constant {declaration : Declared} {values : List Dependency}
    (constant : ∀ depth session,
      ((evaluateWithin depth declaration.evaluate).perform session).1 = .ok values) :
    Repeats first seen later declaration := by
  intro depth further _ before after again found _ _ _ done
  rw [constant further again, ← constant depth before, done]

/-- The session after an effective view was read has it observed, if reading has consequences. -/
theorem observed_observing {items : Configuration → List Item} {found : List Item}
    (freezes : before.graph.settings.freezeOnRead = true)
    (collected : before.graph.collect name items = .ok found) :
    (before.observing name).graph.Observed name :=
  Graph.observed_observe freezes (Graph.contains_of_collect collected)

section Echoes

/-- Events in sequence yield again what both yield again. -/
theorem Echoes.bind {event other : Event Value} {next more : Value → Event Result}
    (takes : Event.Takes Reading event) (takesOther : Event.Takes Reading other)
    (takesNext : ∀ value, Event.Takes Reading (next value))
    (here : Echoes first seen later event other)
    (rest : ∀ value, Echoes first seen later (next value) (more value)) :
    Echoes first seen later (event >>= next) (other >>= more) := by
  intro before after again result start stop anew done
  obtain ⟨value, middle, begun, ended⟩ := Event.perform_bind_eq_ok.1 done
  have toMiddle := takes.reaches begun
  have fromMiddle := (takesNext value).reaches ended
  have repeated := here before middle again value start (fromMiddle.trans stop) anew begun
  have onward : other.perform again = (.ok value, (other.perform again).2) :=
    Prod.ext repeated rfl
  rw [Event.perform_bind_of_ok onward]
  exact rest value middle after _ result (start.trans toMiddle) stop
    (anew.trans (takesOther again)) ended

/-- A value that is there already is there again. -/
theorem echoes_pure (value : Value) :
    Echoes first seen later (pure value : Event Value) (pure value) := by
  rintro before after again _ - - - ⟨⟩
  rfl

/-- What fails yields nothing that would have to be yielded again. -/
theorem echoes_throw (error : Error) (other : Event Value) :
    Echoes first seen later (throw error : Event Value) other := by
  rintro before after again value - - - ⟨⟩

end Echoes

/-- What evaluation between `first` and `seen` read is frozen in `seen` and kept until `later`, and
whatever is declared yields the same again or consults effective views. -/
structure Frozen (first seen later : Session) : Prop where
  freezes : first.graph.settings.freezeOnRead = true
  readings : Readings first seen
  closed : seen.graph.ObservedClosed
  keeps : seen.graph.Keeps later.graph
  declared : ∀ configuration ∈ first.graph.configurations, ∀ declaration ∈ configuration.declared,
    Repeats first seen later declaration ∨ declaration.Consults

namespace Frozen

variable (frozen : Frozen first seen later)
include frozen

/-- What was collected when an effective view was read is collected again. -/
theorem collect_eq {items : Configuration → List Item} {found : List Item} {middle again : Session}
    (unmarked : ∀ configuration reached,
      items (configuration.marked reached) = items configuration)
    (start : Readings first before) (reads : Readings before middle)
    (stop : Readings (middle.observing name) seen) (anew : Readings later again)
    (collected : before.graph.collect name items = .ok found) :
    again.graph.collect name items = .ok found := by
  have there := (reads.collect_eq unmarked).trans collected
  have freezes : middle.graph.settings.freezeOnRead = true := by
    rw [Readings.settings_eq (start.trans reads)]
    exact frozen.freezes
  have observed : seen.graph.Observed name :=
    (Graph.Keeps.of_steps stop.steps.steps_graph).observed (observed_observing freezes there)
  have keeps := frozen.keeps.trans (Graph.Keeps.of_steps anew.steps.steps_graph)
  rw [keeps.collect_eq frozen.closed observed, frozen.readings.collect_eq unmarked,
    ← start.collect_eq unmarked, collected]

/-- Exclude rules that were read are read again. -/
theorem echoes_readExcludes (name : String) :
    Echoes first seen later (readExcludes name) (readExcludes name) := by
  intro before after again rules start stop anew done
  obtain ⟨own, collected, same, rfl⟩ := perform_readExcludes_eq_ok.1 done
  have repeated := frozen.collect_eq Configuration.marked_excludes start .refl stop anew collected
  rw [perform_readExcludes_eq_ok.2 ⟨own, repeated, same, rfl⟩]

section Depth

variable {depth further : Nat} (reads : ∀ name, Echoes first seen later
  (readDependenciesWithin depth name) (readDependenciesWithin further name))
include reads

/-- What has nothing to go by but effective views yields the same again. -/
theorem echoes_of_asksOnly {computation : Computation Value}
    (asks : computation.AsksOnly Request.IsRead) : Echoes first seen later
      (evaluateWithin depth computation) (evaluateWithin further computation) := by
  induction computation with
  | done value => exact echoes_pure value
  | failed error => exact echoes_throw error _
  | ask asked resume ih =>
    obtain ⟨read, asks⟩ := asks
    refine Echoes.bind (takes_answer (takes_readDependenciesWithin depth) asked)
      (takes_answer (takes_readDependenciesWithin further) asked)
      (fun given => takes_evaluateWithin depth (resume given)) ?_ fun given => ih given (asks given)
    cases asked with
    | run source => exact fun _ _ _ _ _ _ _ _ => rfl
    | dependencies name => exact reads name
    | excludes name => exact frozen.echoes_readExcludes name
    | runs source => exact read.elim
    | assigned name => exact read.elim
    | files => exact read.elim

/-- What is declared yields the same again. -/
theorem echoes_declared (deeper : depth ≤ further) {configuration : Configuration}
    (present : configuration ∈ first.graph.configurations) {declaration : Declared}
    (member : declaration ∈ configuration.declared) : Echoes first seen later
      (evaluateWithin depth declaration.evaluate)
      (evaluateWithin further declaration.evaluate) := by
  rcases frozen.declared configuration present declaration member with repeated | consults
  · exact repeated depth further deeper
  · exact frozen.echoes_of_asksOnly reads consults

/-- Declarations evaluated in turn yield the same again. -/
theorem echoes_evaluateAll (deeper : depth ≤ further) {declared : List Declared}
    (known : ∀ declaration ∈ declared, ∃ configuration ∈ first.graph.configurations,
      declaration ∈ configuration.declared) : Echoes first seen later
      (evaluateWithin depth (Notation.evaluateAll declared))
      (evaluateWithin further (Notation.evaluateAll declared)) := by
  induction declared with
  | nil => exact echoes_pure []
  | cons declaration declarations ih =>
    obtain ⟨⟨configuration, present, member⟩, others⟩ := List.forall_mem_cons.1 known
    rw [evaluateWithin_evaluateAll_cons, evaluateWithin_evaluateAll_cons]
    refine Echoes.bind (takes_evaluateWithin depth _) (takes_evaluateWithin further _)
      (fun _ => Event.takes_bind (takes_evaluateWithin depth _) fun _ => Event.takes_pure _)
      (frozen.echoes_declared reads deeper present member) fun yielded => ?_
    exact Echoes.bind (takes_evaluateWithin depth _) (takes_evaluateWithin further _)
      (fun _ => Event.takes_pure _) (ih others) fun _ => echoes_pure _

end Depth

/-- Dependencies that were read are read again, as deep or deeper. -/
theorem echoes_readDependenciesWithin {depth further : Nat} (deeper : depth ≤ further)
    (name : String) : Echoes first seen later
      (readDependenciesWithin depth name) (readDependenciesWithin further name) := by
  induction depth generalizing further name with
  | zero =>
    intro before after again found start stop anew done
    exact absurd (congrArg Prod.fst done) (perform_readDependenciesWithin_zero _ _ _)
  | succ depth ih =>
    obtain ⟨further, rfl⟩ : ∃ less, further = less + 1 := ⟨further - 1, by omega⟩
    have deeper : depth ≤ further := by omega
    intro before after again found start stop anew done
    obtain ⟨declared, yields, middle, collected, turns, rfl, rfl⟩ :=
      perform_readDependenciesWithin_eq_ok.1 done
    have known : ∀ declaration ∈ declared, ∃ configuration ∈ first.graph.configurations,
        declaration ∈ configuration.declared := by
      rw [start.collect_eq Configuration.marked_declared] at collected
      exact fun declaration member => Graph.exists_mem_of_mem_collect collected member
    have repeated := frozen.echoes_evaluateAll (ih deeper) deeper known before middle again _ start
      (.head (.observe name) stop) anew (perform_evaluateAll_eq_ok.2 ⟨yields, turns, rfl⟩)
    have there := frozen.collect_eq Configuration.marked_declared start turns.readings stop anew
      collected
    rw [perform_readDependenciesWithin, there]
    dsimp only
    generalize (evaluateWithin further (Notation.evaluateAll declared)).perform again = performed
      at repeated
    obtain ⟨_, last⟩ := performed
    cases repeated
    rfl

end Frozen

end Session

end BuildPath
