import BuildPath.Proofs.Declaration.Values
import BuildPath.Proofs.Graph.Collecting
import BuildPath.Proofs.Graph.Editing

/-!
# Edits made again

Which edits can be made again without any effect. What an edit asks for is there as soon as the edit
is done (`Edit.established_of_apply`); a later edit does not take it away, since edits only add to a
graph and its configurations, unless it sets the same attribute differently
(`Edit.Established.kept`); and where it is there, the edit changes nothing
(`Edit.Established.apply_eq`). The last of these rests on two tests: an edge that is there is found
before the cycle and the freeze are looked for, and a dependency that is declared is not declared
again. Of edits in a row, all of which agree, therefore each can be made again after the last.
-/

namespace BuildPath

/-- A dependency that is declared is so among more declarations. -/
theorem Declared.any_isResolvedAs_of_subset {fewer more : List Declared} (grown : fewer ⊆ more)
    {dependency : Dependency} (present : fewer.any (·.isResolvedAs dependency) = true) :
    more.any (·.isResolvedAs dependency) = true := by
  obtain ⟨declaration, member, same⟩ := List.any_eq_true.1 present
  exact List.any_eq_true.2 ⟨declaration, grown member, same⟩

namespace Configuration

/-- A configuration before and after an edit. The declarations and rules that it has stay, and so do
its attributes, except for one that the edit sets. -/
structure Grown (edit : Edit) (before after : Configuration) : Prop where
  observed : after.observed = before.observed
  visible : after.visible = before.visible ∨ edit = .setVisible before.name after.visible
  transitive : after.transitive = before.transitive ∨
    edit = .setTransitive before.name after.transitive
  description : after.description = before.description ∨
    ∃ text, after.description = some text ∧ edit = .setDescription before.name text
  declared : before.declared ⊆ after.declared
  excludes : before.excludes ⊆ after.excludes

variable {configuration later : Configuration} {edit : Edit}

/-- An edit may leave a configuration as it is. -/
theorem Grown.refl (edit : Edit) (configuration : Configuration) :
    Grown edit configuration configuration :=
  ⟨rfl, .inl rfl, .inl rfl, .inl rfl, List.Subset.refl _, List.Subset.refl _⟩

/-- A declaration that is there stays when another one is declared. -/
theorem subset_declare (configuration : Configuration) (declaration : Declared) :
    configuration.declared ⊆ (configuration.declare declaration).declared := by
  cases declaration with
  | resolved dependency =>
    rw [declare]
    split
    · exact List.Subset.refl _
    · exact List.subset_append_left _ _
  | deferred value => exact List.subset_append_left _ _

/-- Declarations that are there stay when others are declared. -/
theorem subset_declareAll (configuration : Configuration) (declarations : List Declared) :
    configuration.declared ⊆ (configuration.declareAll declarations).declared := by
  induction declarations generalizing configuration with
  | nil => exact List.Subset.refl _
  | cons first rest ih => exact List.Subset.trans (configuration.subset_declare first) (ih _)

/-- A configuration has grown when more is declared in it. -/
theorem grown_declareAll (edit : Edit) (configuration : Configuration)
    (declarations : List Declared) :
    Grown edit configuration (configuration.declareAll declarations) := by
  have declared := configuration.subset_declareAll declarations
  rw [declareAll_eq]
  exact { Grown.refl edit configuration with declared }

/-- A dependency that is declared is among the declarations. -/
theorem isResolvedAs_declare (configuration : Configuration) (dependency : Dependency) :
    (configuration.declare (.resolved dependency)).declared.any (·.isResolvedAs dependency) =
      true := by
  rw [declare]
  split
  next present => exact present
  · exact List.any_eq_true.2 ⟨_, List.mem_append_right _ List.mem_cons_self, beq_self_eq_true _⟩

/-- Dependencies that are declared are among the declarations. -/
theorem isResolvedAs_declareAll (configuration : Configuration) (dependencies : List Dependency) :
    ∀ dependency ∈ dependencies, (configuration.declareAll
      (dependencies.map .resolved)).declared.any (·.isResolvedAs dependency) = true := by
  induction dependencies generalizing configuration with
  | nil => exact nofun
  | cons first rest ih =>
    refine List.forall_mem_cons.2 ⟨?_, ih _⟩
    change ((configuration.declare (.resolved first)).declareAll _).declared.any _ = true
    exact Declared.any_isResolvedAs_of_subset (subset_declareAll _ _)
      (isResolvedAs_declare configuration first)

/-- Dependencies that are all declared are not declared again. -/
theorem declareAll_of_isResolvedAs {dependencies : List Dependency}
    (present : ∀ dependency ∈ dependencies,
      configuration.declared.any (·.isResolvedAs dependency) = true) :
    configuration.declareAll (dependencies.map .resolved) = configuration := by
  induction dependencies with
  | nil => rfl
  | cons first rest ih =>
    obtain ⟨here, others⟩ := List.forall_mem_cons.1 present
    have same : configuration.declare (.resolved first) = configuration := if_pos here
    rw [List.map_cons]
    change (configuration.declare (.resolved first)).declareAll _ = _
    rw [same, ih others]

/-- A rule that is there is not added again. -/
theorem exclude_of_mem {rule : ExcludeRule} (present : rule ∈ configuration.excludes) :
    configuration.exclude rule = configuration := by
  rw [exclude, Ordered.insert_of_mem present]

/-- What an edit asks of a configuration that it is about, and finds there. -/
inductive Shows (project : DeclaringProject) (configuration : Configuration) : Edit → Prop
  | visible : Shows project configuration (.setVisible configuration.name configuration.visible)
  | transitive :
    Shows project configuration (.setTransitive configuration.name configuration.transitive)
  | description {text : String} (described : configuration.description = some text) :
    Shows project configuration (.setDescription configuration.name text)
  | exclude {rule : ExcludeRule} (present : rule ∈ configuration.excludes) :
    Shows project configuration (.exclude configuration.name rule)
  | declared {written : Notation} {dependencies : List Dependency}
    (recorded : List.Forall₂ (Notation.Recorded project none) written.leaves
      (dependencies.map .resolved))
    (present : ∀ dependency ∈ dependencies,
      configuration.declared.any (·.isResolvedAs dependency) = true) :
    Shows project configuration (.add configuration.name written none)

end Configuration

namespace Edit

/-- Edits that do not set one attribute of one configuration to different values. -/
structure Agrees (first second : Edit) : Prop where
  visible : ∀ name one other,
    first = .setVisible name one → second = .setVisible name other → one = other
  transitive : ∀ name one other,
    first = .setTransitive name one → second = .setTransitive name other → one = other
  description : ∀ name one other,
    first = .setDescription name one → second = .setDescription name other → one = other

/-- Edits of the kinds that manifests consist of. All of them can be made again; what an edit
declares has to be known for that. -/
inductive Repeatable : Edit → Prop
  | ensure (name : String) : Repeatable (.ensure name)
  | extend (child parent : String) : Repeatable (.extend child parent)
  | setVisible (name : String) (visible : Bool) : Repeatable (.setVisible name visible)
  | setTransitive (name : String) (transitive : Bool) : Repeatable (.setTransitive name transitive)
  | setDescription (name text : String) : Repeatable (.setDescription name text)
  | exclude (name : String) (rule : ExcludeRule) : Repeatable (.exclude name rule)
  | add (name : String) {written : Notation} (direct : ∀ leaf ∈ written.leaves, leaf.Direct) :
    Repeatable (.add name written none)

/-- What an edit asks for is there, and where it is about something in a configuration, that one
takes changes. -/
inductive Established (graph : Graph) : Edit → Prop
  | ensure {name : String} (known : graph.contains name = true) : Established graph (.ensure name)
  | extend {child parent : String} (children : graph.contains child = true)
    (parents : graph.contains parent = true)
    (edge : Inheritance.Extends graph.inheritances child parent) :
    Established graph (.extend child parent)
  | shown {configuration : Configuration} {edit : Edit}
    (found : graph.find? configuration.name = some configuration)
    (changeable : graph.isMutable configuration = true)
    (shows : configuration.Shows graph.project edit) : Established graph edit

end Edit

namespace Graph

/-- A graph before and after an edit. What is in it stays, and what is in its configurations. -/
structure Grown (edit : Edit) (before after : Graph) : Prop where
  frozen : after.frozen = before.frozen
  project : after.project = before.project
  inheritances : before.inheritances ⊆ after.inheritances
  found : ∀ name configuration, before.find? name = some configuration →
    ∃ later, after.find? name = some later ∧ Configuration.Grown edit configuration later

variable {graph after : Graph} {name : String} {edit : Edit}

/-- An edit may leave a graph as it is. -/
theorem Grown.refl (edit : Edit) (graph : Graph) : Grown edit graph graph :=
  ⟨rfl, rfl, List.Subset.refl _, fun _ configuration found => ⟨configuration, found, .refl _ _⟩⟩

/-- A name that is known stays known. -/
theorem Grown.contains (grown : Grown edit graph after) (known : graph.contains name = true) :
    after.contains name = true := by
  obtain ⟨configuration, found⟩ := Option.isSome_iff_exists.1 known
  obtain ⟨later, found, -⟩ := grown.found name configuration found
  exact Option.isSome_iff_exists.2 ⟨later, found⟩

/-- A graph with one more configuration has grown. -/
theorem grown_of_create (done : graph.create name = .ok after) : Grown edit graph after := by
  obtain ⟨-, -, rfl⟩ := create_eq_ok_iff.1 done
  refine ⟨rfl, rfl, List.Subset.refl _, fun other configuration found => ?_⟩
  refine ⟨configuration, ?_, .refl _ _⟩
  rw [find?_create, found]
  rfl

/-- A graph in which a configuration has grown has grown. -/
theorem grown_of_mutate {change : Configuration → Configuration}
    (changes : Configuration.Change change)
    (grown : ∀ configuration, configuration.name = name →
      Configuration.Grown edit configuration (change configuration))
    (done : graph.mutate name change = .ok after) : Grown edit graph after := by
  obtain ⟨-, -, -, rfl⟩ := mutate_eq_ok_iff.1 done
  refine ⟨rfl, rfl, List.Subset.refl _, fun other configuration found => ?_⟩
  rw [find?_modify changes.name_eq, found]
  split
  next same => exact ⟨_, rfl, grown configuration ((mem_of_find? found).2.trans same)⟩
  · exact ⟨configuration, rfl, .refl _ _⟩

/-- A graph has grown by an edit that succeeds. -/
theorem grown_of_apply (done : edit.apply graph = .ok after) : Grown edit graph after := by
  cases edit with
  | create name => exact grown_of_create done
  | ensure name =>
    rcases ensure_eq_ok_iff.1 done with ⟨-, rfl⟩ | created
    · exact .refl _ _
    · exact grown_of_create created
  | extend child parent =>
    obtain ⟨inheriting, -, -, ⟨-, rfl⟩ | ⟨-, -, -, rfl⟩⟩ := extend_eq_ok_iff.1 done
    · exact .refl _ _
    · exact ⟨rfl, rfl, List.subset_append_left _ _,
        fun _ configuration found => ⟨configuration, found, .refl _ _⟩⟩
  | setVisible name visible =>
    refine grown_of_mutate (.visible visible) (fun configuration named => ?_) done
    exact { Configuration.Grown.refl _ configuration with visible := .inr (by rw [named]) }
  | setTransitive name transitive =>
    refine grown_of_mutate (.transitive transitive) (fun configuration named => ?_) done
    exact { Configuration.Grown.refl _ configuration with transitive := .inr (by rw [named]) }
  | setDescription name text =>
    refine grown_of_mutate (.description text) (fun configuration named => ?_) done
    exact { Configuration.Grown.refl _ configuration with
      description := .inr ⟨text, rfl, by rw [named]⟩ }
  | exclude name rule =>
    refine grown_of_mutate (.exclude rule) (fun configuration named => ?_) done
    exact { Configuration.Grown.refl _ configuration with
      excludes := fun present member => Ordered.mem_insert.2 (.inl member) }
  | addArtifact name binding =>
    exact grown_of_mutate (.addArtifact binding)
      (fun configuration _ => ⟨rfl, .inl rfl, .inl rfl, .inl rfl, fun _ => id, fun _ => id⟩) done
  | removeArtifacts name producer =>
    exact grown_of_mutate (.removeArtifacts producer)
      (fun configuration _ => ⟨rfl, .inl rfl, .inl rfl, .inl rfl, fun _ => id, fun _ => id⟩) done
  | add name written action =>
    obtain ⟨given, -, changed⟩ := Outcome.bind_eq_ok_iff.1 done
    exact grown_of_mutate (.declareAll given)
      (fun configuration _ => configuration.grown_declareAll _ given) changed

/-- A configuration takes changes after an edit if it did before. -/
theorem Grown.isMutable (grown : Grown edit graph after) {configuration later : Configuration}
    (here : Configuration.Grown edit configuration later) :
    after.isMutable later = graph.isMutable configuration := by
  rw [Graph.isMutable, Graph.isMutable, grown.frozen, here.observed]

/-- In a well-formed graph, a change that would leave its configuration as it is changes nothing. -/
theorem WellFormed.modify_of_fixed (formed : graph.WellFormed) {configuration : Configuration}
    (found : graph.find? name = some configuration)
    {change : Configuration → Configuration} (fixed : change configuration = configuration) :
    graph.modify name change = graph := by
  have same : graph.configurations.map (fun other =>
      if other.name == name then configuration else other) = graph.configurations := by
    refine (List.map_congr_left fun other member => ?_).trans (List.map_id' _)
    split
    next named =>
      rw [formed.find?_eq_some_iff.2 ⟨member, eq_of_beq named⟩, Option.some.injEq] at found
      exact found.symm
    · rfl
  rw [formed.modify_eq found, fixed, same]

end Graph

namespace Configuration

variable {project : DeclaringProject} {configuration later : Configuration} {first second : Edit}

/-- What an edit finds in a configuration is still there after another edit that agrees. -/
theorem Shows.kept (shows : configuration.Shows project first)
    (grown : Grown second configuration later) (named : later.name = configuration.name)
    (agrees : first.Agrees second) : later.Shows project first := by
  cases shows with
  | visible =>
    have same : later.visible = configuration.visible :=
      grown.visible.elim id fun set => (agrees.visible _ _ _ rfl set).symm
    rw [← named, ← same]
    exact .visible
  | transitive =>
    have same : later.transitive = configuration.transitive :=
      grown.transitive.elim id fun set => (agrees.transitive _ _ _ rfl set).symm
    rw [← named, ← same]
    exact .transitive
  | description described =>
    rw [← named]
    refine .description ?_
    rcases grown.description with same | ⟨text, shown, set⟩
    · rw [same, described]
    · rw [shown, agrees.description _ _ _ rfl set]
  | exclude present =>
    rw [← named]
    exact .exclude (grown.excludes present)
  | declared recorded present =>
    rw [← named]
    exact .declared recorded fun dependency member =>
      Declared.any_isResolvedAs_of_subset grown.declared (present dependency member)

end Configuration

namespace Edit

variable {graph after : Graph} {edit first second : Edit}

/-- What a change makes of a configuration is there once the change is made. -/
theorem established_of_mutate {name : String} {change : Configuration → Configuration}
    (changes : Configuration.Change change)
    (shows : ∀ configuration, configuration.name = name →
      (change configuration).Shows graph.project edit)
    (done : graph.mutate name change = .ok after) : edit.Established after := by
  obtain ⟨configuration, found, changeable, rfl⟩ := Graph.mutate_eq_ok_iff.1 done
  have named := (Graph.mem_of_find? found).2
  refine .shown ?_ ?_ (shows configuration named)
  · rw [changes.name_eq, named, Graph.find?_modify changes.name_eq, if_pos rfl, found]
    rfl
  · rw [← changeable, Graph.isMutable, Graph.isMutable, changes.observed_eq]
    rfl

/-- What an edit asks for is there once it is done. -/
theorem established_of_apply (repeatable : edit.Repeatable) (done : edit.apply graph = .ok after) :
    edit.Established after := by
  cases repeatable with
  | ensure name =>
    rcases Graph.ensure_eq_ok_iff.1 done with ⟨known, rfl⟩ | created
    · exact .ensure known
    · obtain ⟨fresh, -, rfl⟩ := Graph.create_eq_ok_iff.1 created
      refine .ensure ?_
      rw [Graph.contains, Graph.find?_create, if_pos (beq_self_eq_true name), Option.isSome_or]
      exact Bool.or_true _
  | extend child parent =>
    obtain ⟨inheriting, found, parents, ⟨edge, rfl⟩ | ⟨-, -, -, rfl⟩⟩ :=
      Graph.extend_eq_ok_iff.1 done
    · exact .extend (Option.isSome_iff_exists.2 ⟨_, found⟩) parents edge
    · exact .extend (Option.isSome_iff_exists.2 ⟨_, found⟩) parents
        (List.mem_append_right _ List.mem_cons_self)
  | setVisible name visible =>
    exact established_of_mutate (.visible visible) (fun _ named => named ▸ .visible) done
  | setTransitive name transitive =>
    exact established_of_mutate (.transitive transitive) (fun _ named => named ▸ .transitive) done
  | setDescription name text =>
    refine established_of_mutate (.description text) (fun configuration named => ?_) done
    exact named ▸ .description rfl
  | exclude name rule =>
    refine established_of_mutate (.exclude rule) (fun configuration named => ?_) done
    exact named ▸ .exclude (Ordered.mem_insert.2 (.inr rfl))
  | add name direct =>
    obtain ⟨given, configuration, recorded, found, changeable, same⟩ := Graph.add_eq_ok_iff.1 done
    obtain ⟨dependencies, -, rfl⟩ := (Notation.forall₂_recorded_iff direct).1 recorded
    refine established_of_mutate (.declareAll (dependencies.map .resolved))
      (fun configuration named => ?_)
      (Graph.mutate_eq_ok_iff.2 ⟨configuration, found, changeable, same⟩)
    have renamed := Configuration.Change.name_eq (.declareAll (dependencies.map .resolved))
      configuration
    rw [← named, ← renamed]
    exact .declared recorded (configuration.isResolvedAs_declareAll dependencies)

/-- What an edit asks for is still there after another edit that agrees. -/
theorem Established.kept (established : first.Established graph) (agrees : first.Agrees second)
    (done : second.apply graph = .ok after) : first.Established after := by
  have grown := Graph.grown_of_apply done
  cases established with
  | ensure known => exact .ensure (grown.contains known)
  | extend children parents edge =>
    exact .extend (grown.contains children) (grown.contains parents) (grown.inheritances edge)
  | @shown configuration _ found changeable shows =>
    obtain ⟨later, found, here⟩ := grown.found _ configuration found
    have named := (Graph.mem_of_find? found).2
    rw [← grown.isMutable here] at changeable
    rw [← grown.project] at shows
    exact .shown (named.symm ▸ found) changeable (shows.kept here named agrees)

/-- An edit changes nothing where what it asks for is there. -/
theorem Established.apply_eq (established : edit.Established graph) (formed : graph.WellFormed) :
    edit.apply graph = .ok graph := by
  cases established with
  | ensure known => exact if_pos known
  | extend children parents edge =>
    obtain ⟨inheriting, found⟩ := Option.isSome_iff_exists.1 children
    exact Graph.extend_eq_ok_iff.2 ⟨inheriting, found, parents, .inl ⟨edge, rfl⟩⟩
  | @shown configuration _ found changeable shows =>
    have unchanged {change : Configuration → Configuration}
        (fixed : change configuration = configuration) :
        graph.mutate configuration.name change = .ok graph :=
      Graph.mutate_eq_ok_iff.2
        ⟨configuration, found, changeable, (formed.modify_of_fixed found fixed).symm⟩
    cases shows with
    | visible => exact unchanged rfl
    | transitive => exact unchanged rfl
    | description described => exact unchanged (by rw [← described])
    | exclude present => exact unchanged (Configuration.exclude_of_mem present)
    | declared recorded present =>
      refine Graph.add_eq_ok_iff.2 ⟨_, configuration, recorded, found, changeable, ?_⟩
      have fixed := Configuration.declareAll_of_isResolvedAs present
      exact (formed.modify_of_fixed found fixed).symm

end Edit

namespace Graph

variable {graph after : Graph} {edits : List Edit}

/-- What an edit asks for is still there after others that agree. -/
theorem established_editAll {edit : Edit} (established : edit.Established graph)
    (agree : ∀ other ∈ edits, edit.Agrees other)
    (done : graph.editAll edits = (.ok (), after)) : edit.Established after := by
  induction edits generalizing graph with
  | nil =>
    cases done
    exact established
  | cons first rest ih =>
    obtain ⟨here, others⟩ := List.forall_mem_cons.1 agree
    obtain ⟨changed, applied, done⟩ := editAll_cons_eq_ok_iff.1 done
    exact ih (established.kept here applied) others done

/-- What edits that agree ask for is there once all of them are done. -/
theorem forall_established (repeatable : ∀ edit ∈ edits, edit.Repeatable)
    (agree : ∀ edit ∈ edits, ∀ other ∈ edits, edit.Agrees other)
    (done : graph.editAll edits = (.ok (), after)) : ∀ edit ∈ edits, edit.Established after := by
  induction edits generalizing graph with
  | nil => exact nofun
  | cons first rest ih =>
    obtain ⟨here, others⟩ := List.forall_mem_cons.1 repeatable
    obtain ⟨agreeing, agree⟩ := List.forall_mem_cons.1 agree
    obtain ⟨changed, applied, done⟩ := editAll_cons_eq_ok_iff.1 done
    refine List.forall_mem_cons.2 ⟨?_, ih others (fun edit member other present =>
      agree edit member other (List.mem_cons_of_mem _ present)) done⟩
    exact established_editAll (Edit.established_of_apply here applied)
      (List.forall_mem_cons.1 agreeing).2 done

/-- Edits change nothing where what they ask for is there. -/
theorem editAll_of_established (formed : graph.WellFormed)
    (established : ∀ edit ∈ edits, edit.Established graph) :
    graph.editAll edits = (.ok (), graph) := by
  induction edits with
  | nil => rfl
  | cons first rest ih =>
    obtain ⟨here, others⟩ := List.forall_mem_cons.1 established
    exact editAll_cons_eq_ok_iff.2 ⟨graph, here.apply_eq formed, ih others⟩

end Graph

end BuildPath
