import BuildPath.Path.Basic

/-!
# Normalized paths

A path is normalized by its text alone: every `.` disappears and every `..` takes back the name
before it. Two files count as the same classpath entry when their normalized paths are equal.
-/

namespace BuildPath.Path

/-- Follows one component from a position given by the components that lead to it, last first. A
`..` takes back a name; it stays at the root of an absolute path and is kept where a relative path
has no name left to take back. -/
def follow (absolute : Bool) (trail : List Component) : Component → List Component
  | .root => trail
  | .current => trail
  | .name text => .name text :: trail
  | .parent =>
    match trail with
    | .name _ :: rest => rest
    | _ => if absolute then trail else .parent :: trail

/-- The components that remain after following all of them from the start, in order. -/
def reduced (absolute : Bool) (components : List Component) : List Component :=
  (components.foldl (follow absolute) []).reverse

/-- The text of reduced components: after a slash for an absolute path, and `.` for none at all. -/
def written (absolute : Bool) (components : List Component) : List Char :=
  let body := Text.join '/' (components.map fun component => component.text.toList)
  if absolute then '/' :: body
  else if components.isEmpty then ['.']
  else body

/-- The path with every `.` removed and every `..` taken back as far as the text allows. -/
def normalize (path : Path) : Path :=
  ⟨String.ofList (written path.isAbsolute (reduced path.isAbsolute path.components))⟩

end BuildPath.Path
