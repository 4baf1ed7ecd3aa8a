/-!
# Kinds of dependencies

The kind tells which action may be applied to a dependency.
-/

namespace BuildPath

/-- The kind of a dependency, or of the dependencies that an action is declared for. -/
inductive Kind
  /-- Every kind. Only actions are declared for it. -/
  | any
  | externalModule
  | project
  | files
  deriving DecidableEq, Repr

namespace Kind

/-- The name of a kind in messages. -/
def label : Kind → String
  | .any => "any"
  | .externalModule => "external module"
  | .project => "project"
  | .files => "file collection"

/-- Whether what is declared for the first kind may be applied to the second. -/
def accepts (declared found : Kind) : Bool :=
  declared == .any || declared == found

/-- An action is accepted by its own kind and, if declared for any kind, by all. -/
theorem accepts_iff {declared found : Kind} :
    declared.accepts found = true ↔ declared = .any ∨ declared = found := by
  simp [accepts]

end Kind

end BuildPath
