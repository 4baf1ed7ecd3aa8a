import BuildPath.Graph.Edit

/-!
# Conventions

A convention is a named list of edits that is carried out on a graph once, after those of the
convention that it builds upon. Here are the conventions of projects in Java and of web
applications: what is compiled against, what is run with, what is published, and for a web
application what its container provides.
-/

namespace BuildPath

/-- Named edits for the project of a graph. -/
inductive Convention
  | plain (name : String) (edits : Graph → List Edit)
  /-- A convention that is carried out after another one. -/
  | upon (base : Convention) (name : String) (edits : Graph → List Edit)

namespace Convention

/-- The name under which a graph remembers that a convention was applied. -/
def name : Convention → String
  | .plain name _ => name
  | .upon _ name _ => name

/-- The graph that remembers a convention as applied. -/
def remember (name : String) (graph : Graph) : Graph :=
  { graph with conventions := name :: graph.conventions }

/-- What is left of a convention that was remembered before it was carried out: if it failed, it is
forgotten, but what it did until then stays. -/
def settle (name : String) : Changed → Changed
  | (.ok _, graph) => (.ok (), graph)
  | (.error error, graph) =>
    (.error error, { graph with conventions := graph.conventions.erase name })

/-- Applies a convention unless it was applied before. -/
def apply (graph : Graph) : Convention → Changed
  | .plain name edits =>
    if graph.conventions.contains name then (.ok (), graph)
    else settle name ((remember name graph).editAll (edits graph))
  | .upon base name edits =>
    if graph.conventions.contains name then (.ok (), graph)
    else
      settle name
        (match base.apply (remember name graph) with
        | (.ok _, changed) => changed.editAll (edits changed)
        | failed => failed)

/-- The configuration of what a project is compiled against. -/
def compile : String := "compile"

/-- The configuration of what a project is run with. -/
def runtime : String := "runtime"

/-- The configuration that publishes the archive of a project. -/
def archives : String := "archives"

/-- The configuration that other projects use. -/
def default : String := "default"

/-- The configuration of what a container provides for compiling. -/
def providedCompile : String := "providedCompile"

/-- The configuration of what a container provides for running. -/
def providedRuntime : String := "providedRuntime"

/-- The task that builds the archive of a library. -/
def jarTask : String := "jar"

/-- The task that builds the archive of a web application. -/
def warTask : String := "war"

/-- The name of the project of a graph: the last segment of its path, or else the name of its
directory. -/
def projectName (graph : Graph) : String :=
  ((lastSegment? graph.project.path).or graph.settings.projectDirectory.fileName).getD "project"

/-- The archive that the project of a graph publishes. -/
def archive (graph : Graph) (extension : String) : Artifact :=
  .archive (projectName graph) extension (graph.settings.resolve ⟨"build/libs"⟩)

/-- Libraries and programs: `compile`, `runtime` on top of it, `archives` with the jar, and
`default` on top of `runtime`. -/
def java : Convention :=
  .plain "java" fun graph => [
    .ensure compile,
    .setDescription compile "Compile classpath for source set 'main'.",
    .ensure runtime,
    .extend runtime compile,
    .setDescription runtime "Runtime classpath for source set 'main'.",
    .ensure archives,
    .setDescription archives "Configuration for the default artifacts.",
    .addArtifact archives ⟨archive graph "jar", some jarTask⟩,
    .ensure default,
    .extend default runtime,
    .setDescription default "Configuration for the default artifacts and their dependencies."]

/-- Web applications: a library whose jar gives way to a war, and two configurations for what the
container provides, below `compile` and `runtime`. -/
def war : Convention :=
  .upon java "war" fun graph => [
    .create providedCompile,
    .setVisible providedCompile false,
    .setDescription providedCompile
      "Additional compile classpath for libraries that should not be part of the WAR archive.",
    .create providedRuntime,
    .setVisible providedRuntime false,
    .extend providedRuntime providedCompile,
    .setDescription providedRuntime
      "Additional runtime classpath for libraries that should not be part of the WAR archive.",
    .extend compile providedCompile,
    .extend runtime providedRuntime,
    .removeArtifacts archives jarTask,
    .addArtifact archives ⟨archive graph "war", some warTask⟩]

end Convention

end BuildPath
