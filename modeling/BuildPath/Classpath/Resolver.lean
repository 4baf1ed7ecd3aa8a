import BuildPath.Dependency.Basic
import BuildPath.Settings

/-!
# Resolvers

A resolver turns one dependency into files. Finding versions and transitive dependencies is the
business of others; the resolver here only knows where files conventionally lie, and looks nothing
up except for what file sets ask.
-/

namespace BuildPath

/-- The files of a dependency in a tree, under the exclude rules of the configuration that is
resolved. -/
abbrev Resolver := FileTree → Dependency → List ExcludeRule → Outcome (List Path)

/-- The conventional places of files: modules in a repository, by group, name and version; projects
below the root, with their archives in the build directory. -/
structure Layout where
  root : Path
  repository : Path

namespace Layout

/-- The layout of a project. -/
def ofSettings (settings : Settings) : Layout :=
  ⟨settings.projectDirectory, settings.resolve settings.repository⟩

/-- The name of the file of a module. -/
def fileName (details : ModuleDependency) : String :=
  details.name ++ details.version.elim "" ("-" ++ ·) ++ details.classifier.elim "" ("-" ++ ·) ++
    "." ++ details.extension.getD "jar"

/-- The directories that lead from the repository to the file of a module. -/
def directories (details : ModuleDependency) : List String :=
  (details.group.elim [] fun group => (Text.split '.' group.toList).map String.ofList) ++
    [details.name] ++ details.version.toList

/-- The file of a module, as its parts spell it: none of them is checked or normalized. -/
def modulePath (layout : Layout) (details : ModuleDependency) : Path :=
  (directories details).foldl (· / ·) layout.repository / fileName details

/-- The segments of a project path. -/
def segments (path : String) : List String :=
  ((Text.split ':' path.toList).filter fun segment => !segment.isEmpty).map String.ofList

/-- The archive that a project publishes. -/
def projectPath (layout : Layout) (details : ProjectDependency) : Path :=
  ((segments details.path).foldl (· / ·) layout.root / "build/libs" /
    (details.projectName ++ ".jar")).normalize

/-- The files of a dependency. An excluded module has none. -/
def resolve (layout : Layout) : Resolver := fun tree dependency excludes =>
  match dependency with
  | .externalModule details =>
    if excludes.any (·.excludes details.group details.name) then .ok []
    else .ok [layout.modulePath details]
  | .project details => .ok [layout.projectPath details]
  | .files details => details.files.resolve tree layout.root

end Layout

end BuildPath
