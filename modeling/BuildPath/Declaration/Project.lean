/-!
# The declaring project

Project paths are segments with a colon before each; the path of the root project is a colon alone.
A path without a colon at its start is relative to the project that declares it.
-/

namespace BuildPath

/-- The project in which declarations are made, by its absolute path. -/
structure DeclaringProject where
  path : String
  deriving DecidableEq, Repr

namespace DeclaringProject

/-- Whether a path is absolute. -/
def isAbsolute (path : String) : Bool :=
  path.toList.head? == some ':'

/-- The project at a path, which is taken from the root if it is relative. -/
def ofPath (path : String) : DeclaringProject :=
  ⟨if isAbsolute path then path else ":" ++ path⟩

/-- The root project. -/
def root : DeclaringProject := ⟨":"⟩

/-- The absolute path of a project that is named in this one. -/
def absolute (project : DeclaringProject) (path : String) : String :=
  if isAbsolute path then path
  else if project.path == ":" then ":" ++ path
  else project.path ++ ":" ++ path

end DeclaringProject

end BuildPath
