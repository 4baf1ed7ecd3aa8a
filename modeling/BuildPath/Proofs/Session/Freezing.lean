import BuildPath.Proofs.Session.Rereading
import Mathlib

/-!
# Views that stay

Once an effective view of a configuration was read (`Session.EffectiveRead`), the configuration,
what it inherits from and all that they hold stay as they are, whatever is done afterwards, and so
do its effective dependencies as far as lazy declarations do not change their minds
(`Session.effective_views_stay`).
-/

namespace BuildPath.Session

/-- An effective view of a configuration was read. A read on its own is nested as deep as there are
configurations, and one from within a declaration less. -/
inductive EffectiveRead (name : String) (before after : Session) : Prop
  | dependencies {depth : Nat} {found : List Dependency}
      (done : (readDependenciesWithin depth name).perform before = (.ok found, after))
  | artifacts {found : List ArtifactBinding}
      (done : (readArtifacts name).perform before = (.ok found, after))
  | excludes {found : List ExcludeRule}
      (done : (readExcludes name).perform before = (.ok found, after))

variable {before after : Session} {name : String}

/-- Reading an effective view leaves traces. -/
theorem EffectiveRead.readings (read : EffectiveRead name before after) :
    Readings before after := by
  cases read with
  | dependencies done => exact (takes_readDependenciesWithin _ name).reaches done
  | artifacts done => exact (takes_readArtifacts name).reaches done
  | excludes done => exact (takes_readExcludes name).reaches done

/-- What was read is observed. -/
theorem EffectiveRead.observed (read : EffectiveRead name before after)
    (freezes : before.graph.settings.freezeOnRead = true) : after.graph.Observed name := by
  cases read with
  | @dependencies depth found done =>
    cases depth with
    | zero => exact absurd (congrArg Prod.fst done) (perform_readDependenciesWithin_zero _ _ _)
    | succ depth =>
      obtain ⟨declared, yields, middle, collected, turns, -, rfl⟩ :=
        perform_readDependenciesWithin_eq_ok.1 done
      rw [← turns.readings.settings_eq] at freezes
      exact observed_observing freezes
        ((turns.readings.collect_eq Configuration.marked_declared).trans collected)
  | artifacts done =>
    obtain ⟨own, collected, -, rfl⟩ := perform_readArtifacts_eq_ok.1 done
    exact observed_observing freezes collected
  | excludes done =>
    obtain ⟨own, collected, -, rfl⟩ := perform_readExcludes_eq_ok.1 done
    exact observed_observing freezes collected

/-- Steps leave room for reads that are nested no less deeply. -/
theorem Steps.depth_le (steps : Steps before after) : before.depth ≤ after.depth := by
  unfold Session.depth
  rw [steps.room_eq]
  exact Nat.add_le_add_right (Graph.Keeps.of_steps steps.steps_graph).length _

/-- Once an effective view of a configuration was read, on its own or from within a declaration, no
later run of operations changes its hierarchy, its effective artifacts and exclude rules, or
anything about the configurations in its hierarchy. If it was its dependencies that were read, they
are read again as they were, provided that what is declared yields the same again or consults
effective views. -/
theorem effective_views_stay {session before seen after : Session} {name : String}
    (reachable : session.Reachable) (within : Readings session before)
    (freezes : session.graph.settings.freezeOnRead = true)
    (read : EffectiveRead name before seen) (rest : Readings seen after)
    (operations : List Operation) :
    let later := after.run operations
    (∃ reached, seen.graph.hierarchy name = .ok reached ∧
      later.graph.hierarchy name = .ok reached ∧
      ∀ member ∈ reached, ∃ configuration, seen.graph.find? member = some configuration ∧
        later.graph.find? member = some configuration) ∧
    (∃ artifacts, seen.graph.effectiveArtifacts name = .ok artifacts ∧
      later.graph.effectiveArtifacts name = .ok artifacts) ∧
    (∃ rules, seen.graph.effectiveExcludes name = .ok rules ∧
      later.graph.effectiveExcludes name = .ok rules) ∧
    ∀ depth found, depth ≤ before.depth →
      (readDependenciesWithin depth name).perform before = (.ok found, seen) →
      (∀ configuration ∈ before.graph.configurations, ∀ declaration ∈ configuration.declared,
        Repeats before seen later declaration ∨ declaration.Consults) →
      ((readDependencies name).perform later).1 = .ok found := by
  intro later
  have toSeen : Readings session seen := within.trans read.readings
  have closed : seen.graph.ObservedClosed :=
    (Graph.observedClosed_of_steps toSeen.steps.steps_graph
      (Graph.observedClosed_of_reachable reachable)).2
  have freezesBefore : before.graph.settings.freezeOnRead = true := by
    rw [within.settings_eq]
    exact freezes
  have observed := read.observed freezesBefore
  have steps : Steps seen later := rest.steps.trans (steps_run after operations)
  have keeps := Graph.Keeps.of_steps steps.steps_graph
  have known : seen.graph.contains name = true := by
    obtain ⟨configuration, found, -⟩ := observed
    rw [Graph.contains, found]
    rfl
  refine ⟨?_, ?_, ?_, ?_⟩
  · have reached := Graph.hierarchy_of_contains known
    refine ⟨_, reached, (keeps.hierarchy_eq closed observed).trans reached, ?_⟩
    intro member inherited
    have seenMember := closed.hierarchy observed inherited
    obtain ⟨configuration, found, -⟩ := id seenMember
    exact ⟨configuration, found, (keeps.find? member seenMember).trans found⟩
  · obtain ⟨own, collected⟩ := Graph.exists_collect known Configuration.artifacts
    refine ⟨Ordered.distinct own, ?_, ?_⟩
    · rw [Graph.effectiveArtifacts, collected]
      rfl
    · rw [Graph.effectiveArtifacts, keeps.collect_eq closed observed, collected]
      rfl
  · obtain ⟨own, collected⟩ := Graph.exists_collect known Configuration.excludes
    refine ⟨Ordered.distinct own, ?_, ?_⟩
    · rw [Graph.effectiveExcludes, collected]
      rfl
    · rw [Graph.effectiveExcludes, keeps.collect_eq closed observed, collected]
      rfl
  · intro depth found shallow done steady
    have frozen : Frozen before seen later :=
      ⟨freezesBefore, read.readings, closed, keeps, steady⟩
    have whole : Steps before later := read.readings.steps.trans steps
    have deeper : depth ≤ later.depth := shallow.trans whole.depth_le
    exact frozen.echoes_readDependenciesWithin deeper name before seen later found
      .refl .refl .refl done

section Witness

/-- A module. -/
def library : Dependency := .externalModule (.ofCoordinates none "library" none none none)

/-- Another module. -/
def driver : Dependency := .externalModule (.ofCoordinates none "driver" none none none)

/-- A source that looks at a variable and gives the same module whatever it holds. -/
def insistent : LazyValue Notation :=
  ⟨"driver", fun _ => .ask (.assigned "database") fun _ => .done [.dependency driver]⟩

/-- A session in which `runtime` declares a driver and inherits from `compile`, which takes over
what `tools` declares. -/
def takingOver : Session :=
  (start (.new {} .root) ⟨[], []⟩).run [
    .edit (.create "tools"), .edit (.create "compile"), .edit (.create "runtime"),
    .edit (.add "tools" (.dependency library) none),
    .edit (.add "compile"
      (.deferred ((LazyValue.dependenciesOf 0 "tools").map Notation.dependency)) none),
    .edit (.add "runtime" (.deferred insistent) none), .edit (.extend "runtime" "compile")]

/-- The session after its dependencies were read. -/
def takenOver : Session := ((readDependencies "runtime").perform takingOver).2

/-- What others might do then. -/
def interference : List Operation :=
  [.edit (.add "tools" (.coordinates "other") none), .edit (.create "late"),
    .edit (.extend "compile" "late"), .edit (.extend "late" "runtime"),
    .setVariable "database" "other"]

/-- The dependencies of `runtime` stay when `tools` is to be changed, `compile` is to inherit from a
new configuration, and a variable that was looked at is assigned. -/
theorem effective_views_stay_takingOver :
    takingOver.Reachable ∧ takingOver.graph.settings.freezeOnRead = true ∧
      EffectiveRead "runtime" takingOver takenOver ∧
      (∀ configuration ∈ takingOver.graph.configurations,
        ∀ declaration ∈ configuration.declared,
          Repeats takingOver takenOver (takenOver.run interference) declaration ∨
            declaration.Consults) ∧
      ((readDependencies "runtime").perform (takenOver.run interference)).1 =
        .ok [driver, library] := by
  have reachable : takingOver.Reachable := ⟨_, _, _, _, _, rfl⟩
  have freezes : takingOver.graph.settings.freezeOnRead = true := by cbv
  have outcome : ((readDependencies "runtime").perform takingOver).1 =
      .ok [driver, library] := by cbv
  have done : (readDependencies "runtime").perform takingOver =
      (.ok [driver, library], takenOver) := by
    rw [← outcome, takenOver]
  have read : EffectiveRead "runtime" takingOver takenOver := .dependencies done
  have declared : takingOver.graph.configurations.flatMap Configuration.declared =
      [.resolved library, .deferred ⟨LazyValue.defaultLabel Dependency, fun reported =>
        Notation.parseProduced .root (((LazyValue.dependenciesOf 0 "tools").map
          Notation.dependency).produce reported)⟩,
        .deferred ⟨"driver", fun reported =>
          Notation.parseProduced .root (insistent.produce reported)⟩] := by cbv
  have steady : ∀ configuration ∈ takingOver.graph.configurations,
      ∀ declaration ∈ configuration.declared,
        Repeats takingOver takenOver (takenOver.run interference) declaration ∨
          declaration.Consults := by
    intro configuration present declaration member
    have listed := List.mem_flatMap.2 ⟨configuration, present, member⟩
    simp only [declared, List.mem_cons, List.not_mem_nil, or_false] at listed
    rcases listed with rfl | rfl | rfl
    · exact .inr trivial
    · exact .inr
        (Notation.consults_dependenciesOf .root 0 "tools" rfl _ (List.mem_singleton_self _))
    · exact .inl (repeats_of_constant fun _ _ => rfl)
  have stays := effective_views_stay reachable .refl freezes read .refl interference
  exact ⟨reachable, freezes, read, steady, stays.2.2.2 _ _ (Nat.le_refl _) done steady⟩

end Witness

end BuildPath.Session
