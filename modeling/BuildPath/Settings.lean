import BuildPath.Path.Normal

/-!
# Settings of a graph

Where the project and its files are, and whether reading a configuration closes it to changes.
-/

namespace BuildPath

/-- What is shared by everything declared in one graph. -/
structure Settings where
  /-- The directory of the project. -/
  root : Path := ⟨"."⟩
  /-- The local repository of modules, relative to the root. -/
  repository : Path := ⟨".repository"⟩
  /-- The sources of the web application, relative to the root. -/
  webAppDirectory : Path := ⟨"src/main/webapp"⟩
  /-- Whether a configuration whose effective view was read refuses changes. -/
  freezeOnRead : Bool := true

/-- A path of the project, normalized. -/
def Settings.resolve (settings : Settings) (path : Path) : Path :=
  (settings.root / path).normalize

/-- The directory of the project, normalized. -/
def Settings.projectDirectory (settings : Settings) : Path :=
  settings.resolve ⟨""⟩

end BuildPath
