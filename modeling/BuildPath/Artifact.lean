import BuildPath.Path.Basic

/-!
# Artifacts

A published file, and the task that builds it. Artifacts are told apart by their producers as well:
before its producer has run, an artifact can look like another one.
-/

namespace BuildPath

/-- A file that a configuration publishes. -/
structure Artifact where
  name : String
  extension : String
  /-- The type of the artifact, its extension unless another one is given. -/
  type : String
  classifier : Option String
  file : Path
  deriving BEq

/-- An artifact and the task that builds it, if there is one. -/
structure ArtifactBinding where
  artifact : Artifact
  producer : Option String
  deriving BEq

namespace Artifact

/-- The artifact in a file, without a classifier. -/
def ofFile (name extension : String) (file : Path) : Artifact :=
  ⟨name, extension, extension, none, file⟩

/-- The archive in a directory that is named after its name and extension. -/
def archive (name extension : String) (directory : Path) : Artifact :=
  ofFile name extension (directory / (name ++ "." ++ extension))

end Artifact

/-- Whether a task builds the artifact. -/
def ArtifactBinding.isProducedBy (binding : ArtifactBinding) (producer : String) : Bool :=
  binding.producer == some producer

end BuildPath
