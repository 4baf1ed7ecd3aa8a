import BuildPath.Proofs.Graph.Locality
import BuildPath.Proofs.Session.Effective

/-!
# Views of a configuration elsewhere

What is read of a configuration in a session depends on its ancestry and, as far as declarations
look at them, on the files, the variables and the counts of runs (`Session.SameSurroundings`). An
operation that is about a configuration outside of its hierarchy is therefore not seen in any view
of it, even if that operation makes the other one inherit from a configuration of the hierarchy
(`Session.views_of_ancestry_alone`).
-/

namespace BuildPath

variable {Value : Type}

/-- The configuration that an operation is about, if it is about one. Reading is about none. -/
def Operation.target? : Operation → Option String
  | .edit single => some single.target
  | .removeArtifacts name _ => some name
  | _ => none

namespace Session

/-- Two sessions show the same to what does not call the graph. -/
structure SameSurroundings (first second : Session) : Prop where
  tree : second.tree = first.tree
  assigned : second.assigned = first.assigned
  runs : second.runs = first.runs

/-- Two sessions give a configuration the same views but for its dependencies. -/
structure SameViews (first second : Session) (name : String) : Prop where
  hierarchy : second.graph.hierarchy name = first.graph.hierarchy name
  artifacts : ((readArtifacts name).perform second).1 = ((readArtifacts name).perform first).1
  excludes : ((readExcludes name).perform second).1 = ((readExcludes name).perform first).1

/-- No declaration of these configurations calls the graph. -/
def DeclaresOutside (session : Session) (reached : List String) : Prop :=
  ∀ member ∈ reached, ∀ configuration, session.graph.find? member = some configuration →
    ∀ declaration ∈ configuration.declared,
      declaration.evaluate.AsksOnly fun asked => ¬asked.CallsGraph

variable {first second session : Session} {name : String}

/-- What does not call the graph comes out alike in the same surroundings, and leaves them the same,
however deep reads may be nested. -/
theorem SameSurroundings.evaluateWithin (same : SameSurroundings first second)
    (depth further : Nat) {computation : Computation Value}
    (outside : computation.AsksOnly fun asked => ¬asked.CallsGraph) :
    let here := (Session.evaluateWithin depth computation).perform first
    let there := (Session.evaluateWithin further computation).perform second
    there.1 = here.1 ∧ SameSurroundings here.2 there.2 := by
  refine Computation.alike_runWith (fun asked apart first second same => ?_) outside first second
    same
  obtain ⟨tree, assigned, runs⟩ := id same
  cases asked with
  | dependencies other => exact absurd trivial apart
  | excludes other => exact absurd trivial apart
  | run source => exact ⟨rfl, tree, assigned, congrArg (source :: ·) runs⟩
  | runs source =>
    exact ⟨congrArg (fun runs : List Nat => Except.ok (runs.count source)) runs, same⟩
  | assigned key =>
    exact ⟨congrArg (fun assigned : List (String × String) => Except.ok (assigned.lookup key))
      assigned, same⟩
  | files => exact ⟨congrArg Except.ok tree, same⟩

/-- Declarations that do not call the graph yield the same dependencies in the same surroundings. -/
theorem SameSurroundings.readDependencies_eq (same : SameSurroundings first second)
    {declared : List Declared}
    (here : first.graph.collect name Configuration.declared = .ok declared)
    (there : second.graph.collect name Configuration.declared = .ok declared)
    (outside : ∀ declaration ∈ declared,
      declaration.evaluate.AsksOnly fun asked => ¬asked.CallsGraph) :
    ((readDependencies name).perform second).1 = ((readDependencies name).perform first).1 := by
  obtain ⟨depth, deep⟩ := exists_depth_eq_succ (Graph.contains_of_collect here)
  obtain ⟨further, deeper⟩ := exists_depth_eq_succ (Graph.contains_of_collect there)
  have alone : (Notation.evaluateAll declared).AsksOnly fun asked => ¬asked.CallsGraph :=
    Computation.asksOnly_concatMap outside
  rw [fst_perform_readDependencies here deep, fst_perform_readDependencies there deeper,
    (same.evaluateWithin depth further alone).1]

/-- An operation that is about a configuration changes no more than the graph, and there no more
than an edit of that configuration may do. -/
theorem exists_edited_of_target {operation : Operation} {target : String}
    (about : operation.target? = some target) (session : Session) :
    ∃ graph, (operation.perform.perform session).2 = { session with graph } ∧
      Graph.Edited target session.graph graph := by
  cases operation with
  | edit single =>
    cases about
    rw [perform_edit]
    cases done : single.apply session.graph with
    | error error => exact ⟨_, rfl, .kept⟩
    | ok graph => exact ⟨graph, rfl, Graph.edited_of_apply done⟩
  | removeArtifacts name producer =>
    cases about
    rw [perform_removeArtifacts]
    cases session.graph.get target with
    | error error => exact ⟨_, rfl, .kept⟩
    | ok before =>
      dsimp only
      cases done : (Edit.removeArtifacts target producer).apply session.graph with
      | error error => exact ⟨_, rfl, .kept⟩
      | ok graph => exact ⟨graph, rfl, Graph.edited_of_apply done⟩
  | _ => contradiction

/-- Graphs that agree above a configuration give it the same views. -/
theorem sameViews_of_agreesAbove {other : Session}
    (agrees : session.graph.AgreesAbove other.graph name) : SameViews session other name where
  hierarchy := agrees.hierarchy_eq
  artifacts := by
    have same : other.graph.effectiveArtifacts name = session.graph.effectiveArtifacts name :=
      congrArg _ (agrees.collect_eq fun _ => rfl)
    rw [perform_readArtifacts, perform_readArtifacts, same]
    cases session.graph.effectiveArtifacts name <;> rfl
  excludes := by
    have same : other.graph.effectiveExcludes name = session.graph.effectiveExcludes name :=
      congrArg _ (agrees.collect_eq fun _ => rfl)
    rw [perform_readExcludes, perform_readExcludes, same]
    cases session.graph.effectiveExcludes name <;> rfl

/-- Graphs that agree above a configuration yield the same dependencies for it in the same
surroundings, if nothing that it has or inherits calls the graph. -/
theorem readDependencies_of_agreesAbove {other : Session}
    (known : session.graph.contains name = true)
    (agrees : session.graph.AgreesAbove other.graph name)
    (same : SameSurroundings session other)
    (outside : session.DeclaresOutside (Inheritance.hierarchy session.graph.inheritances name)) :
    ((readDependencies name).perform other).1 = ((readDependencies name).perform session).1 := by
  obtain ⟨declared, collected⟩ := Graph.exists_collect known Configuration.declared
  refine same.readDependencies_eq collected
    ((agrees.collect_eq fun _ => rfl).trans collected) fun declaration member => ?_
  obtain ⟨configuration, found⟩ := Option.isSome_iff_exists.1 known
  rw [Graph.collect_eq, found] at collected
  cases collected
  obtain ⟨holder, listed, own⟩ := List.mem_flatMap.1 member
  obtain ⟨inherited, reached, present⟩ := List.mem_filterMap.1 listed
  exact outside inherited reached holder present declaration own

/-- The views of a configuration depend on what it and all that it inherits from hold, and on the
order of their parents, and on nothing else: they are the same in any session that agrees on this.
In particular no operation about a configuration outside of its hierarchy changes them, whether it
succeeds or fails. The same goes for dependencies, where declarations do not call the graph and what
else they look at is the same. -/
theorem views_of_ancestry_alone {reached : List String}
    (listed : session.graph.hierarchy name = .ok reached) :
    (∀ other : Session, (∀ member ∈ reached, session.graph.AgreesOn other.graph member) →
      SameViews session other name ∧
      (SameSurroundings session other → session.DeclaresOutside reached →
        ((readDependencies name).perform other).1 =
          ((readDependencies name).perform session).1)) ∧
    ∀ operation target, Operation.target? operation = some target → target ∉ reached →
      let after := (operation.perform.perform session).2
      SameViews session after name ∧
      (session.DeclaresOutside reached →
        ((readDependencies name).perform after).1 =
          ((readDependencies name).perform session).1) := by
  obtain ⟨known, rfl⟩ := Graph.hierarchy_eq_ok_iff.1 listed
  have alike : ∀ other : Session, session.graph.AgreesAbove other.graph name →
      SameViews session other name ∧ (SameSurroundings session other →
        session.DeclaresOutside (Inheritance.hierarchy session.graph.inheritances name) →
          ((readDependencies name).perform other).1 =
            ((readDependencies name).perform session).1) := fun other agrees =>
    ⟨sameViews_of_agreesAbove agrees, readDependencies_of_agreesAbove known agrees⟩
  refine ⟨alike, fun operation target about apart => ?_⟩
  obtain ⟨graph, left, edited⟩ := exists_edited_of_target about session
  rw [left]
  obtain ⟨views, dependencies⟩ := alike { session with graph } (edited.agreesAbove apart)
  exact ⟨views, dependencies ⟨rfl, rfl, rfl⟩⟩

section Witness

/-- A module of a name. -/
def component (name : String) : Dependency :=
  .externalModule (.ofCoordinates none name none none none)

/-- A lazy notation of the module that a variable names. -/
def fitted : LazyValue Notation :=
  ⟨"component", fun _ => .ask (.assigned "fitting") fun given =>
    .done [.dependency (component (given.getD "plain"))]⟩

/-- A session in which `app` inherits from `base` and declares what a variable names. -/
def assembled : Session :=
  (start (.new {} .root) ⟨[], []⟩).run [
    .edit (.create "base"), .edit (.create "app"), .edit (.create "tools"),
    .edit (.extend "app" "base"), .setVariable "fitting" "turbo",
    .edit (.add "base" (.dependency (component "engine")) none),
    .edit (.add "app" (.deferred fitted) none)]

/-- No declaration of the session calls the graph. -/
theorem declaresOutside_assembled (reached : List String) : assembled.DeclaresOutside reached := by
  have declared : assembled.graph.configurations.flatMap Configuration.declared =
      [.resolved (component "engine"), .deferred ⟨"component", fun reported =>
        Notation.parseProduced .root (fitted.produce reported)⟩] := by cbv
  intro member _ configuration found declaration own
  have listed := List.mem_flatMap.2 ⟨configuration, (Graph.mem_of_find? found).1, own⟩
  simp only [declared, List.mem_cons, List.not_mem_nil, or_false] at listed
  rcases listed with rfl | rfl
  · trivial
  · refine ⟨id, fun given => ?_⟩
    change (Notation.parseProduced .root (.done [.dependency _])).AsksOnly _
    rw [Notation.parseProduced, Notation.parseEach, Notation.declare, Notation.parseEach]
    trivial

/-- To let `tools` inherit from `base` as well, which `app` inherits from, changes no view of `app`.
-/
theorem views_of_ancestry_alone_assembled :
    assembled.graph.hierarchy "app" = .ok ["app", "base"] ∧ "tools" ∉ ["app", "base"] ∧
      assembled.DeclaresOutside ["app", "base"] ∧
      let after := ((Operation.edit (.extend "tools" "base")).perform.perform assembled).2
      after.graph.inheritances = [⟨"app", "base"⟩, ⟨"tools", "base"⟩] ∧
        SameViews assembled after "app" ∧
        ((readDependencies "app").perform after).1 =
          .ok [component "turbo", component "engine"] := by
  have listed : assembled.graph.hierarchy "app" = .ok ["app", "base"] := by cbv
  have apart : "tools" ∉ ["app", "base"] := by decide
  have outside := declaresOutside_assembled ["app", "base"]
  have read : ((readDependencies "app").perform assembled).1 =
      .ok [component "turbo", component "engine"] := by cbv
  obtain ⟨views, dependencies⟩ := (views_of_ancestry_alone listed).2
    (.edit (.extend "tools" "base")) "tools" rfl apart
  exact ⟨listed, apart, outside, by cbv, views, (dependencies outside).trans read⟩

end Witness

end Session

end BuildPath
