import BuildPath.Graph.Convention
import BuildPath.Manifest.Basic
import BuildPath.Proofs.Graph.Hierarchy
import BuildPath.Proofs.Outcome

/-!
# Steps of a graph

Whatever is done to a graph is done in steps of six kinds (`Graph.Step`), each with the conditions
under which it happens. Every edit that succeeds, every convention and every manifest, whether it
succeeds or stops half-way, leads from one graph to another by such steps. What a step keeps is
therefore kept by all of them. An edit takes one step at most, and that concerns the configuration
that the edit is about (`Graph.Edited`); conventions and manifests are edits in a row
(`Graph.Editings`).
-/

namespace BuildPath

open Relation

/-- A change that can be made to a single configuration. -/
inductive Configuration.Change : (Configuration → Configuration) → Prop
  | visible (visible : Bool) : Change fun configuration => { configuration with visible }
  | transitive (transitive : Bool) : Change fun configuration => { configuration with transitive }
  | description (text : String) :
      Change fun configuration => { configuration with description := some text }
  | exclude (rule : ExcludeRule) : Change (·.exclude rule)
  | addArtifact (binding : ArtifactBinding) : Change (·.addArtifact binding)
  | removeArtifacts (producer : String) : Change (·.removeArtifacts producer)
  | declareAll (declarations : List Declared) : Change (·.declareAll declarations)

namespace Configuration

/-- A declaration changes nothing but the list of declarations. -/
theorem declare_eq (configuration : Configuration) (declaration : Declared) :
    configuration.declare declaration =
      { configuration with declared := (configuration.declare declaration).declared } := by
  cases declaration with
  | resolved dependency => rw [declare]; split <;> rfl
  | deferred value => rfl

/-- Declarations change nothing but the list of declarations. -/
theorem declareAll_eq (configuration : Configuration) (declarations : List Declared) :
    configuration.declareAll declarations =
      { configuration with declared := (configuration.declareAll declarations).declared } := by
  induction declarations generalizing configuration with
  | nil => rfl
  | cons first rest ih =>
    change (configuration.declare first).declareAll rest =
      { configuration with declared := ((configuration.declare first).declareAll rest).declared }
    rw [ih, declare_eq]

variable {change : Configuration → Configuration}

/-- No change renames a configuration. -/
theorem Change.name_eq (changes : Change change) (configuration : Configuration) :
    (change configuration).name = configuration.name := by
  cases changes with
  | declareAll declarations =>
    change (configuration.declareAll declarations).name = configuration.name
    rw [declareAll_eq]
  | _ => rfl

/-- No change marks a configuration as observed or takes such a mark away. -/
theorem Change.observed_eq (changes : Change change) (configuration : Configuration) :
    (change configuration).observed = configuration.observed := by
  cases changes with
  | declareAll declarations =>
    change (configuration.declareAll declarations).observed = configuration.observed
    rw [declareAll_eq]
  | _ => rfl

end Configuration

/-- The configuration that an edit is about. -/
def Edit.target : Edit → String
  | .create name | .ensure name | .extend name _ | .setVisible name _ | .setTransitive name _
  | .setDescription name _ | .exclude name _ | .addArtifact name _ | .removeArtifacts name _
  | .add name _ _ => name

namespace Graph

/-- A step from a graph to another one. -/
inductive Step (before : Graph) : Graph → Prop
  /-- A configuration of a new name is created. -/
  | create {name : String} (fresh : before.contains name = false)
      (open_ : before.frozen = false) :
      Step before { before with configurations := before.configurations ++ [.named name] }
  /-- A configuration that takes changes is linked to one that does not inherit from it. -/
  | extend {child parent : String} {inheriting : Configuration}
      (found : before.find? child = some inheriting) (known : before.contains parent = true)
      (new : ¬Inheritance.Extends before.inheritances child parent)
      (apart : ¬ReflTransGen (Inheritance.Extends before.inheritances) parent child)
      (changeable : before.isMutable inheriting = true) :
      Step before { before with inheritances := before.inheritances ++ [⟨child, parent⟩] }
  /-- A configuration that takes changes is changed. -/
  | change {name : String} {configuration : Configuration}
      {change : Configuration → Configuration} (changes : Configuration.Change change)
      (found : before.find? name = some configuration)
      (changeable : before.isMutable configuration = true) :
      Step before (before.modify name change)
  /-- An effective view is read. -/
  | observe (name : String) : Step before (before.observe name)
  | freeze : Step before before.freeze
  /-- Conventions are remembered or forgotten. -/
  | note (conventions : List String) : Step before { before with conventions }

/-- Some steps from a graph to another one. -/
abbrev Steps : Graph → Graph → Prop := ReflTransGen Step

variable {graph after : Graph}

/-- What every step keeps is kept by any number of them. -/
theorem Steps.preserve {property : Graph → Prop}
    (kept : ∀ before after, property before → Step before after → property after)
    {before after : Graph} (steps : Steps before after) (holds : property before) :
    property after := by
  induction steps with
  | refl => exact holds
  | tail _ step ih => exact kept _ _ ih step

/-- Mutating succeeds on a configuration that is there and takes changes. -/
theorem mutate_eq (graph : Graph) (name : String) (change : Configuration → Configuration) :
    graph.mutate name change =
      match graph.find? name with
      | none => .error (.unknownConfiguration name)
      | some configuration =>
        if graph.isMutable configuration then .ok (graph.modify name change)
        else .error (.frozen name) := by
  unfold mutate get
  cases graph.find? name <;> rfl

/-- Mutating succeeds exactly on a configuration that is there and takes changes. -/
theorem mutate_eq_ok_iff {name : String} {change : Configuration → Configuration} :
    graph.mutate name change = .ok after ↔
      ∃ configuration, graph.find? name = some configuration ∧
        graph.isMutable configuration = true ∧ after = graph.modify name change := by
  rw [mutate_eq]
  cases graph.find? name with
  | none => simp
  | some configuration =>
    simp only [Option.some.injEq, exists_eq_left']
    cases graph.isMutable configuration <;> simp [@eq_comm _ after]

/-- Mutating fails exactly on a configuration that is not there or takes no changes. -/
theorem mutate_eq_error_iff {name : String} {change : Configuration → Configuration}
    {error : Error} : graph.mutate name change = .error error ↔
      graph.find? name = none ∧ error = .unknownConfiguration name ∨
      ∃ configuration, graph.find? name = some configuration ∧
        graph.isMutable configuration = false ∧ error = .frozen name := by
  rw [mutate_eq]
  cases graph.find? name with
  | none => simp [@eq_comm _ error]
  | some configuration =>
    simp only [Option.some.injEq, exists_eq_left', reduceCtorEq, false_and, false_or]
    cases graph.isMutable configuration <;> simp [@eq_comm _ error]

/-- Creating succeeds exactly under a new name in a graph that is not frozen. -/
theorem create_eq_ok_iff {name : String} : graph.create name = .ok after ↔
    graph.contains name = false ∧ graph.frozen = false ∧
      after = { graph with configurations := graph.configurations ++ [.named name] } := by
  unfold create
  cases graph.contains name <;> cases graph.frozen <;> simp [@eq_comm _ after]

/-- Creating fails exactly under a name that is taken, and then in a graph that is frozen. -/
theorem create_eq_error_iff {name : String} {error : Error} : graph.create name = .error error ↔
    graph.contains name = true ∧ error = .duplicateConfiguration name ∨
      graph.contains name = false ∧ graph.frozen = true ∧ error = .frozen name := by
  unfold create
  cases graph.contains name <;> cases graph.frozen <;> simp [@eq_comm _ error]

/-- Ensuring leaves a graph that knows the name as it is, and creates in any other one. -/
theorem ensure_eq_ok_iff {name : String} : graph.ensure name = .ok after ↔
    graph.contains name = true ∧ after = graph ∨ graph.create name = .ok after := by
  unfold ensure
  cases known : graph.contains name with
  | true => simp [create_eq_ok_iff, known, @eq_comm _ after]
  | false => simp

/-- What linking comes to, in the order of its tests. -/
theorem extend_eq (graph : Graph) (child parent : String) :
    graph.extend child parent =
      match graph.find? child, graph.find? parent with
      | none, _ => .error (.unknownConfiguration child)
      | some _, none => .error (.unknownConfiguration parent)
      | some inheriting, some _ =>
        if graph.inheritances.contains ⟨child, parent⟩ then .ok graph
        else if (Inheritance.hierarchy graph.inheritances parent).contains child then
          .error (.cyclicInheritance child parent)
        else if !graph.isMutable inheriting then .error (.frozen child)
        else .ok { graph with inheritances := graph.inheritances ++ [⟨child, parent⟩] } := by
  unfold extend get
  cases graph.find? child with
  | none => rfl
  | some inheriting => cases graph.find? parent <;> rfl

/-- Linking succeeds exactly between known configurations, if the edge is there already, or else if
it closes no cycle and the child takes changes. -/
theorem extend_eq_ok_iff {child parent : String} : graph.extend child parent = .ok after ↔
    ∃ inheriting, graph.find? child = some inheriting ∧ graph.contains parent = true ∧
      (Inheritance.Extends graph.inheritances child parent ∧ after = graph ∨
        ¬Inheritance.Extends graph.inheritances child parent ∧
          ¬ReflTransGen (Inheritance.Extends graph.inheritances) parent child ∧
          graph.isMutable inheriting = true ∧
          after = { graph with inheritances := graph.inheritances ++ [⟨child, parent⟩] }) := by
  rw [extend_eq, contains]
  cases graph.find? child with
  | none => simp
  | some inheriting =>
    cases graph.find? parent with
    | none => simp
    | some inherited =>
      have edge : graph.inheritances.contains ⟨child, parent⟩ = true ↔
          Inheritance.Extends graph.inheritances child parent := List.contains_iff_mem
      have reached : (Inheritance.hierarchy graph.inheritances parent).contains child = true ↔
          ReflTransGen (Inheritance.Extends graph.inheritances) parent child := by
        rw [List.contains_iff_mem, Inheritance.mem_hierarchy_iff]
      simp only [Option.some.injEq, exists_eq_left', Option.isSome_some, true_and, ← edge,
        ← reached]
      generalize graph.inheritances.contains ⟨child, parent⟩ = present
      generalize (Inheritance.hierarchy graph.inheritances parent).contains child = cyclic
      cases present <;> cases cyclic <;> cases graph.isMutable inheriting <;>
        simp [@eq_comm _ after]

/-- What an edit of a configuration does to a graph when it succeeds. -/
inductive Edited (target : String) (before : Graph) : Graph → Prop
  /-- Nothing, where all that it asks for is there. -/
  | kept : Edited target before before
  | create (fresh : before.contains target = false) (open_ : before.frozen = false) :
      Edited target before
        { before with configurations := before.configurations ++ [.named target] }
  | extend {parent : String} {inheriting : Configuration}
      (found : before.find? target = some inheriting) (known : before.contains parent = true)
      (new : ¬Inheritance.Extends before.inheritances target parent)
      (apart : ¬ReflTransGen (Inheritance.Extends before.inheritances) parent target)
      (changeable : before.isMutable inheriting = true) :
      Edited target before
        { before with inheritances := before.inheritances ++ [⟨target, parent⟩] }
  | change {configuration : Configuration} {change : Configuration → Configuration}
      (changes : Configuration.Change change) (found : before.find? target = some configuration)
      (changeable : before.isMutable configuration = true) :
      Edited target before (before.modify target change)

/-- A mutation that succeeds changes its configuration. -/
theorem edited_of_mutate {name : String} {change : Configuration → Configuration}
    (changes : Configuration.Change change) (done : graph.mutate name change = .ok after) :
    Edited name graph after := by
  obtain ⟨configuration, found, changeable, rfl⟩ := mutate_eq_ok_iff.1 done
  exact .change changes found changeable

/-- A creation that succeeds adds its configuration. -/
theorem edited_of_create {name : String} (done : graph.create name = .ok after) :
    Edited name graph after := by
  obtain ⟨fresh, thawed, rfl⟩ := create_eq_ok_iff.1 done
  exact .create fresh thawed

/-- An edit that succeeds does no more than it may do to its configuration. -/
theorem edited_of_apply {edit : Edit} (done : edit.apply graph = .ok after) :
    Edited edit.target graph after := by
  cases edit with
  | create name => exact edited_of_create done
  | ensure name =>
    rcases ensure_eq_ok_iff.1 done with ⟨-, rfl⟩ | created
    · exact .kept
    · exact edited_of_create created
  | extend child parent =>
    obtain ⟨inheriting, found, known, ⟨-, rfl⟩ | ⟨new, apart, changeable, rfl⟩⟩ :=
      extend_eq_ok_iff.1 done
    · exact .kept
    · exact .extend found known new apart changeable
  | setVisible name visible => exact edited_of_mutate (.visible visible) done
  | setTransitive name transitive => exact edited_of_mutate (.transitive transitive) done
  | setDescription name text => exact edited_of_mutate (.description text) done
  | exclude name rule => exact edited_of_mutate (.exclude rule) done
  | addArtifact name binding => exact edited_of_mutate (.addArtifact binding) done
  | removeArtifacts name producer => exact edited_of_mutate (.removeArtifacts producer) done
  | add name written action =>
    obtain ⟨declared, -, changed⟩ := Outcome.bind_eq_ok_iff.1 done
    exact edited_of_mutate (.declareAll declared) changed

/-- An edit that succeeds, or conventions that are remembered or forgotten. -/
inductive Editing (before : Graph) : Graph → Prop
  | edit {target : String} {after : Graph} (edited : Edited target before after) :
      Editing before after
  | note (conventions : List String) : Editing before { before with conventions }

/-- Some edits, and conventions remembered or forgotten between them. -/
abbrev Editings : Graph → Graph → Prop := ReflTransGen Editing

/-- What an edit does takes a step at most. -/
theorem Edited.steps {target : String} (edited : Edited target graph after) :
    Steps graph after := by
  cases edited with
  | kept => exact .refl
  | create fresh open_ => exact .single (.create fresh open_)
  | extend found known new apart changeable =>
    exact .single (.extend found known new apart changeable)
  | change changes found changeable => exact .single (.change changes found changeable)

/-- Editing takes steps. -/
theorem Editings.steps (editings : Editings graph after) : Steps graph after := by
  induction editings with
  | refl => exact .refl
  | tail _ editing ih =>
    cases editing with
    | edit edited => exact ih.trans edited.steps
    | note conventions => exact ih.tail (.note conventions)

/-- An edit does no more than it may do to its configuration, and nothing if it fails. -/
theorem edited_edit (graph : Graph) (edit : Edit) :
    Edited edit.target graph (graph.edit edit).2 := by
  unfold Graph.edit
  split
  next done => exact edited_of_apply done
  · exact .kept

/-- Edits are made up to the first that fails. -/
theorem editings_editAll (graph : Graph) (edits : List Edit) :
    Editings graph (graph.editAll edits).2 := by
  induction edits generalizing graph with
  | nil => exact .refl
  | cons edit rest ih =>
    unfold editAll
    split
    next changed done => exact .head (.edit (edited_of_apply done)) (ih changed)
    · exact .refl

/-- Edits take steps up to the first that fails. -/
theorem steps_editAll (graph : Graph) (edits : List Edit) :
    Steps graph (graph.editAll edits).2 :=
  (editings_editAll graph edits).steps

/-- To settle a convention is to forget it at most. -/
theorem editings_settle (name : String) (changed : Changed) :
    Editings changed.2 (Convention.settle name changed).2 := by
  obtain ⟨outcome, graph⟩ := changed
  cases outcome with
  | ok => exact .refl
  | error error => exact .single (.note _)

/-- Applying a convention is editing. -/
theorem editings_convention (graph : Graph) (convention : Convention) :
    Editings graph (convention.apply graph).2 := by
  have remembered (graph : Graph) (name : String) :
      Editing graph (Convention.remember name graph) := .note (name :: graph.conventions)
  induction convention generalizing graph with
  | plain name edits =>
    unfold Convention.apply
    split
    · exact .refl
    · have edited := editings_editAll (Convention.remember name graph) (edits graph)
      exact .head (remembered graph name) (edited.trans (editings_settle name _))
  | upon base name edits ih =>
    unfold Convention.apply
    split
    · exact .refl
    · refine .head (remembered graph name) (ReflTransGen.trans ?_ (editings_settle name _))
      have before := ih (Convention.remember name graph)
      split
      next changed applied =>
        rw [applied] at before
        exact before.trans (editings_editAll _ _)
      · exact before

/-- Applying a manifest is editing. -/
theorem editings_manifest (graph : Graph) (manifest : Manifest) :
    Editings graph (manifest.apply graph).2 := by
  unfold Manifest.apply
  split
  · exact editings_editAll _ _
  · exact .refl

end Graph

end BuildPath
