import BuildPath.Classpath.View
import BuildPath.Graph.Convention

/-!
# Web archives

What it takes to assemble the archive of a web application: the classpath of its libraries, which
are those that run with it less those that its container provides, and the directory of its pages.
-/

namespace BuildPath

/-- The contents of a web archive, and the archive itself. -/
structure WebArchive where
  classpath : LazyValue Classpath
  pages : LazyValue Path
  artifact : Artifact

namespace WebArchive

/-- The files that a web archive packages. -/
def libraries : View :=
  .minus (.configuration Convention.runtime) (.configuration Convention.providedRuntime)

/-- The web archive of a graph. The graph has to tell what the container provides. -/
def ofGraph (graph : Graph) (resolver : Resolver) : Outcome WebArchive := do
  let _ ← graph.get Convention.providedRuntime
  return {
    classpath := libraries.compose graph.settings resolver
    pages := ⟨"web application directory", fun _ =>
      .done [graph.settings.resolve graph.settings.webAppDirectory]⟩
    artifact := Convention.archive graph "war" }

end WebArchive

end BuildPath
