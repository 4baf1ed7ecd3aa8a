import BuildPath.Classpath.Resolver
import BuildPath.Proofs.Graph.Convention
import BuildPath.Proofs.Graph.Lookup
import BuildPath.Proofs.Path.Canonical

/-!
# What projects publish

What edits make of the artifacts of a configuration (`Graph.artifactsOf_editAll`), and so what the
convention of libraries publishes. A dependency on a project resolves to a file of the same name in
the same place, unless it is on the root project: that has no name of its own, and the convention
takes that of its directory where the dependency takes the path itself
(`Convention.publishes_resolved_iff`).
-/

namespace BuildPath

variable {graph after : Graph} {name : String}

/-- The artifacts that a configuration publishes itself. -/
def Graph.artifactsOf (graph : Graph) (name : String) : List ArtifactBinding :=
  (graph.find? name).elim [] Configuration.artifacts

/-- What an edit makes of the artifacts of a configuration. -/
def Edit.publish (name : String) (artifacts : List ArtifactBinding) : Edit → List ArtifactBinding
  | .addArtifact target binding =>
    if name = target then Ordered.insert artifacts binding else artifacts
  | .removeArtifacts target producer =>
    if name = target then artifacts.filter fun binding => !binding.isProducedBy producer
    else artifacts
  | _ => artifacts

namespace Graph

/-- A configuration that is created publishes nothing. -/
theorem artifactsOf_create {created : String} (done : graph.create created = .ok after) :
    after.artifactsOf name = graph.artifactsOf name := by
  obtain ⟨-, -, rfl⟩ := create_eq_ok_iff.1 done
  rw [artifactsOf, find?_create, artifactsOf]
  cases graph.find? name with
  | none => by_cases same : created == name <;> simp [same, Configuration.named]
  | some configuration => rfl

/-- A change of a configuration changes its artifacts alone. -/
theorem artifactsOf_mutate {target : String} {change : Configuration → Configuration}
    (publish : List ArtifactBinding → List ArtifactBinding)
    (changes : Configuration.Change change)
    (publishes : ∀ configuration, (change configuration).artifacts =
      publish configuration.artifacts)
    (done : graph.mutate target change = .ok after) :
    after.artifactsOf name =
      if name = target then publish (graph.artifactsOf name) else graph.artifactsOf name := by
  obtain ⟨configuration, found, -, rfl⟩ := mutate_eq_ok_iff.1 done
  rw [artifactsOf, find?_modify changes.name_eq, artifactsOf]
  split
  next same =>
    subst same
    rw [found]
    exact publishes configuration
  · rfl

/-- What an edit that succeeds makes of the artifacts of a configuration. -/
theorem artifactsOf_apply {edit : Edit} (done : edit.apply graph = .ok after) :
    after.artifactsOf name = edit.publish name (graph.artifactsOf name) := by
  have kept {target : String} {change : Configuration → Configuration}
      (changes : Configuration.Change change)
      (keeps : ∀ configuration, (change configuration).artifacts = configuration.artifacts)
      (done : graph.mutate target change = .ok after) :
      after.artifactsOf name = graph.artifactsOf name := by
    rw [artifactsOf_mutate id changes keeps done]
    exact ite_self _
  cases edit with
  | create created => exact artifactsOf_create done
  | ensure created =>
    rcases ensure_eq_ok_iff.1 done with ⟨-, rfl⟩ | created
    · rfl
    · exact artifactsOf_create created
  | extend child parent =>
    obtain ⟨-, -, -, ⟨-, rfl⟩ | ⟨-, -, -, rfl⟩⟩ := extend_eq_ok_iff.1 done <;> rfl
  | setVisible target visible => exact kept (.visible visible) (fun _ => rfl) done
  | setTransitive target transitive => exact kept (.transitive transitive) (fun _ => rfl) done
  | setDescription target text => exact kept (.description text) (fun _ => rfl) done
  | exclude target rule => exact kept (.exclude rule) (fun _ => rfl) done
  | addArtifact target binding =>
    exact artifactsOf_mutate (Ordered.insert · binding) (.addArtifact binding) (fun _ => rfl) done
  | removeArtifacts target producer =>
    exact artifactsOf_mutate (List.filter fun binding => !binding.isProducedBy producer)
      (.removeArtifacts producer) (fun _ => rfl) done
  | add target written action =>
    obtain ⟨declared, -, changed⟩ := Outcome.bind_eq_ok_iff.1 done
    refine kept (.declareAll declared) (fun configuration => ?_) changed
    rw [Configuration.declareAll_eq]

/-- What edits that all succeed make of the artifacts of a configuration. -/
theorem artifactsOf_editAll {edits : List Edit} (done : graph.editAll edits = (.ok (), after)) :
    after.artifactsOf name = edits.foldl (Edit.publish name) (graph.artifactsOf name) := by
  induction edits generalizing graph with
  | nil =>
    cases done
    rfl
  | cons edit rest ih =>
    obtain ⟨changed, first, later⟩ := editAll_cons_eq_ok_iff.1 done
    rw [ih later, artifactsOf_apply first, List.foldl_cons]

end Graph

namespace Convention

/-- The convention of libraries publishes the jar of the project besides what was published. -/
theorem artifactsOf_apply_java (absent : java.name ∉ graph.conventions)
    (applied : java.apply graph = (.ok (), after)) :
    after.artifactsOf archives =
      Ordered.insert (graph.artifactsOf archives) ⟨archive graph "jar", some jarTask⟩ := by
  have edited := (apply_plain_eq_ok_iff absent).1 applied
  exact Graph.artifactsOf_editAll edited

/-- The convention of web applications publishes the war of the project, and nothing that the task
for the jar builds. -/
theorem artifactsOf_apply_war (absent : war.name ∉ graph.conventions)
    (applied : war.apply graph = (.ok (), after)) :
    ∃ published : List ArtifactBinding, after.artifactsOf archives =
      Ordered.insert (published.filter fun binding => !binding.isProducedBy jarTask)
        ⟨archive graph "war", some warTask⟩ := by
  obtain ⟨middle, begins, edited⟩ := (apply_upon_eq_ok_iff absent).1 applied
  have begun := (Graph.editings_convention (remember war.name graph) java).steps
  rw [begins] at begun
  have same : archive middle "war" = archive graph "war" := begun.archive_eq "war"
  refine ⟨middle.artifactsOf archives, ?_⟩
  rw [← same]
  exact Graph.artifactsOf_editAll edited

/-- The convention of libraries can be applied to a graph without configurations. -/
theorem apply_java_new (settings : Settings) (project : DeclaringProject) :
    (java.apply (Graph.new settings project)).1 = .ok () := by
  -- No edit depends on what the artifact is, so that all of them can be carried out.
  simp [java, apply, remember, settle, Graph.new, Graph.editAll, Edit.apply, Graph.ensure,
    Graph.create, Graph.contains, Graph.find?, Graph.get, Graph.mutate, Graph.modify,
    Graph.isMutable, Graph.setDescription, Graph.addArtifact, Graph.extend, Configuration.named,
    Configuration.addArtifact, Inheritance.hierarchy, Inheritance.reach, Inheritance.parents,
    compile, runtime, archives, default, bind, Except.bind, pure, Except.pure]

end Convention

namespace Layout

/-- The directory for the archives of a project. -/
def archiveDirectory (settings : Settings) (path : String) : Path :=
  (segments path).foldl (· / ·) settings.root / "build/libs"

/-- A project's archive lies in its directory for archives. -/
theorem projectPath_eq (settings : Settings) (details : ProjectDependency) :
    (ofSettings settings).projectPath details =
      (archiveDirectory settings details.path /
        Path.mk (details.projectName ++ ".jar")).normalize := by
  have root : settings.projectDirectory.normalize = settings.root.normalize := by
    rw [Settings.projectDirectory, Settings.resolve, Path.normalize_normalize]
    exact Path.normalize_append_empty settings.root
  have directory := Path.normalize_foldl_congr root (segments details.path)
  exact Path.normalize_append_congr (Path.normalize_append_congr directory rfl) rfl

end Layout

/-- A path has no last segment only if it is of nothing but colons. -/
theorem all_of_lastSegment? {path : String} (nameless : lastSegment? path = none) :
    path.toList.all (· == ':') = true := by
  rw [lastSegment?, Option.map_eq_none_iff, List.getLast?_eq_none_iff, List.filter_eq_nil_iff]
    at nameless
  have colons : ∀ character ∈ path.toList, character = ':' := by
    rw [← Text.join_split ':' path.toList]
    refine Text.forall_mem_join rfl fun segment member character inside => ?_
    have empty : segment = [] := by simpa using nameless segment member
    rw [empty] at inside
    contradiction
  simpa using colons

/-- A project with an absolute path is the one at that path, which has a segment unless it is the
root project. -/
theorem Notation.path_of_parse_project {reference : ProjectReference} {context : DeclaringProject}
    {details : ProjectDependency} (absolute : DeclaringProject.isAbsolute reference.path = true)
    (parsed : (Notation.project reference).parse context = .done (.project details)) :
    details.path = reference.path ∧
      (lastSegment? reference.path = none ↔ reference.path = ":") := by
  rw [parse, parseAll, declare, ProjectReference.parse] at parsed
  split at parsed
  · contradiction
  next accepted =>
    cases parsed
    refine ⟨if_pos absolute, fun segmentless => ?_, fun root => ?_⟩
    · by_contra other
      exact accepted (by simp [all_of_lastSegment? segmentless, other])
    · rw [root]
      rfl

namespace Convention

/-- The archive that is published lies there as well. -/
theorem normalize_jar {settings : Settings} {path : String}
    (rooted : graph.settings.root = (Layout.segments path).foldl (· / ·) settings.root) :
    (archive graph "jar").file.normalize =
      (Layout.archiveDirectory settings path /
        Path.mk (projectName graph ++ ".jar")).normalize := by
  have named : projectName graph ++ "." ++ "jar" = projectName graph ++ ".jar" :=
    String.append_assoc
  rw [archive, Artifact.archive, Artifact.ofFile, named]
  refine Path.normalize_append_congr ?_ rfl
  rw [Settings.resolve, Path.normalize_normalize, rooted]
  rfl

/-- An archive has a plain name if what it is named after has no slash. -/
theorem plain_jar (whole : '/' ∉ name.toList) : Path.Plain (name ++ ".jar") := by
  refine @Path.plain_of_mem _ 'j' ?_ (by simp) (by decide)
  rw [String.toList_append, List.mem_append, not_or]
  exact ⟨whole, by decide⟩

/-- The project at the root is named after its directory, by a text without a slash. -/
theorem projectName_of_root (nameless : lastSegment? graph.project.path = none) :
    projectName graph = graph.settings.root.normalize.fileName.getD "project" ∧
      '/' ∉ (projectName graph).toList := by
  have named : projectName graph = graph.settings.root.normalize.fileName.getD "project" := by
    rw [projectName, nameless, Option.none_or, Settings.projectDirectory, Settings.resolve]
    exact congrArg (·.fileName.getD "project") (Path.normalize_append_empty graph.settings.root)
  refine ⟨named, ?_⟩
  rw [named]
  cases directory : graph.settings.root.normalize.fileName with
  | none => decide
  | some name => exact (Path.plain_of_fileName directory).whole

variable {settings : Settings} {reference : ProjectReference} {context : DeclaringProject}
  {details : ProjectDependency}

/-- Where projects publish and where dependencies on them look. The convention of libraries
publishes a jar for a project, besides what was published before, and a dependency on the project
resolves to that file, if the graph is that of the project and its root lies below the common one as
the path says. For the root project this is so only if the common root has the path for its name:
the archive is named after the directory there and the file after the path. -/
theorem publishes_resolved_iff (absolute : DeclaringProject.isAbsolute reference.path = true)
    (parsed : (Notation.project reference).parse context = .done (.project details))
    (located : graph.project = .ofPath reference.path)
    (rooted : graph.settings.root = (Layout.segments reference.path).foldl (· / ·) settings.root)
    (absent : java.name ∉ graph.conventions) :
    (java.apply (Graph.new graph.settings graph.project)).1 = .ok () ∧
    ∀ after, java.apply graph = (.ok (), after) → ∃ file artifact,
      (∀ tree excludes, (Layout.ofSettings settings).resolve tree (.project details) excludes =
        .ok [file]) ∧
      after.artifactsOf archives =
        Ordered.insert (graph.artifactsOf archives) ⟨artifact, some jarTask⟩ ∧
      artifact.extension = "jar" ∧
      (artifact.file.normalize = file.normalize ↔
        reference.path ≠ ":" ∨ settings.root.normalize.fileName = some ":") := by
  obtain ⟨path, nameless⟩ := Notation.path_of_parse_project absolute parsed
  have project : graph.project.path = reference.path := by
    rw [located]
    exact if_pos absolute
  refine ⟨apply_java_new _ _, fun after applied => ⟨_, archive graph "jar", fun _ _ => rfl,
    artifactsOf_apply_java absent applied, rfl, ?_⟩⟩
  rw [normalize_jar rooted, Layout.projectPath_eq, Path.normalize_normalize, path]
  cases segment : lastSegment? reference.path with
  | some last =>
    have here : projectName graph = last := by simp [projectName, project, segment]
    have there : details.projectName = last := by
      simp [ProjectDependency.projectName, path, segment]
    rw [here, there]
    refine iff_of_true rfl (.inl fun root => ?_)
    rw [nameless.2 root] at segment
    contradiction
  | none =>
    have root : reference.path = ":" := nameless.1 segment
    have there : details.projectName = ":" := by
      rw [ProjectDependency.projectName, path, segment, root]
      rfl
    have nothing : lastSegment? graph.project.path = none := by rw [project, segment]
    obtain ⟨here, whole⟩ := projectName_of_root nothing
    have base : graph.settings.root = settings.root := by
      rw [rooted, root]
      rfl
    rw [there, Path.normalize_append_plain_iff (plain_jar whole) (plain_jar (by decide)),
      String.append_left_inj, here, base, root]
    cases settings.root.normalize.fileName <;> simp

/-- A project below the root, and what is published there. -/
theorem publishes_resolved_below :
    (Notation.project ⟨":libs::core", none⟩).parse (.ofPath "app") =
      .done (.project (.ofPath ":libs::core" none)) ∧
    ∃ after artifact,
      java.apply (Graph.new { root := ⟨"../work/libs/core"⟩ } (.ofPath ":libs::core")) =
        (.ok (), after) ∧
      after.artifactsOf archives = [⟨artifact, some jarTask⟩] ∧
      (Layout.ofSettings { root := ⟨"../work"⟩ }).resolve ⟨[], []⟩
        (.project (.ofPath ":libs::core" none)) [] =
          .ok [⟨"../work/libs/core/build/libs/core.jar"⟩] ∧
      artifact.file.normalize = ⟨"../work/libs/core/build/libs/core.jar"⟩ := by
  have parsed : (Notation.project ⟨":libs::core", none⟩).parse (.ofPath "app") =
      .done (.project (.ofPath ":libs::core" none)) := by rfl
  have rooted :
      (Graph.new { root := ⟨"../work/libs/core"⟩ } (.ofPath ":libs::core")).settings.root =
        (Layout.segments ":libs::core").foldl (· / ·)
          ({ root := ⟨"../work"⟩ } : Settings).root := by
    rfl
  obtain ⟨applied, published⟩ := publishes_resolved_iff (by rfl) parsed (by rfl) rooted (by decide)
  obtain ⟨file, artifact, resolved, bound, -, same⟩ := published _ (Prod.ext applied rfl)
  have found := resolved ⟨[], []⟩ []
  cases found
  refine ⟨parsed, _, artifact, Prod.ext applied rfl, bound, by rfl, ?_⟩
  rw [same.2 (.inl (by decide))]
  rfl

/-- The root project publishes a file that no dependency on it resolves to. -/
theorem publishes_resolved_apart :
    (Notation.project ⟨":", none⟩).parse .root = .done (.project (.ofPath ":" none)) ∧
    ∃ after artifact,
      java.apply (Graph.new { root := ⟨"/work"⟩ } .root) = (.ok (), after) ∧
      after.artifactsOf archives = [⟨artifact, some jarTask⟩] ∧
      (Layout.ofSettings { root := ⟨"/work"⟩ }).resolve ⟨[], []⟩ (.project (.ofPath ":" none)) [] =
        .ok [⟨"/work/build/libs/:.jar"⟩] ∧
      artifact.file.normalize = ⟨"/work/build/libs/work.jar"⟩ := by
  have applied := apply_java_new { root := ⟨"/work"⟩ } .root
  exact ⟨by rfl, _, _, Prod.ext applied rfl, artifactsOf_apply_java (by decide)
    (Prod.ext applied rfl), by rfl, by rfl⟩

end Convention

end BuildPath
