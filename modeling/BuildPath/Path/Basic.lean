import BuildPath.Text.Split
import BuildPath.Text.Quoted

/-!
# Paths

A path is a text, kept exactly as written, that names a file by its components. Two paths are equal
when their components are: repeated slashes, a trailing slash and a `.` anywhere but at the start
make no difference. Nothing here looks at a file system.
-/

namespace BuildPath

/-- A path as written. Equality is by components, not by text. -/
structure Path where
  text : String

namespace Path

/-- A step of a path. -/
inductive Component
  /-- The root directory, as the first component of an absolute path. -/
  | root
  /-- A leading `.` of a relative path. -/
  | current
  /-- A `..`. -/
  | parent
  /-- Any other non-empty text without a slash. -/
  | name (text : String)
  deriving DecidableEq, Repr

/-- The component that a piece between slashes stands for. Empty pieces and `.` stand for none. -/
def Component.ofPiece? (piece : List Char) : Option Component :=
  if piece = [] || piece = ['.'] then none
  else if piece = ['.', '.'] then some .parent
  else some (.name (String.ofList piece))

/-- The text of a component. -/
def Component.text : Component → String
  | .root => "/"
  | .current => "."
  | .parent => ".."
  | .name text => text

/-- Whether the path starts at the root directory. -/
def isAbsolute (path : Path) : Bool :=
  path.text.toList.head? == some '/'

/-- The component that is read from the start of the path alone: the root, a `.`, or none. -/
def leading (path : Path) (pieces : List (List Char)) : List Component :=
  if path.isAbsolute then [.root]
  else if pieces.head? = some ['.'] then [.current]
  else []

/-- The components of a path, in order. -/
def components (path : Path) : List Component :=
  let pieces := Text.split '/' path.text.toList
  path.leading pieces ++ pieces.filterMap Component.ofPiece?

instance : BEq Path where
  beq left right := left.components == right.components

/-- Paths are equal exactly when their components are. -/
theorem beq_iff {left right : Path} :
    (left == right) = true ↔ left.components = right.components := by
  change (left.components == right.components) = true ↔ _
  exact beq_iff_eq

instance : EquivBEq Path where
  rfl := beq_iff.2 rfl
  symm same := beq_iff.2 (beq_iff.1 same).symm
  trans first second := beq_iff.2 ((beq_iff.1 first).trans (beq_iff.1 second))

/-- Whether the path asks for a directory: it ends with a slash, or its last piece is a `.`. -/
def asksForDirectory (path : Path) : Bool :=
  match (Text.split '/' path.text.toList).getLast? with
  | some piece => piece.isEmpty || piece = ['.']
  | none => false

/-- Places an addition below a base by writing it after the base and a slash. An absolute addition
replaces the base; a base that is empty or ends with a slash gets no further one. -/
def append (base addition : Path) : Path :=
  if addition.isAbsolute then addition
  else if base.text.isEmpty || base.text.toList.getLast? == some '/' then
    ⟨base.text ++ addition.text⟩
  else ⟨base.text ++ "/" ++ addition.text⟩

instance : HDiv Path Path Path where
  hDiv := append

instance : HDiv Path String Path where
  hDiv base addition := base.append ⟨addition⟩

/-- The last component, if it is a name. -/
def fileName (path : Path) : Option String :=
  match path.components.getLast? with
  | some (.name text) => some text
  | _ => none

/-- Where a component sorts among those of other kinds. -/
def Component.rank : Component → Nat
  | .root => 0
  | .current => 1
  | .parent => 2
  | .name _ => 3

/-- The order of components: by kind, and names by their characters. -/
def Component.before (left right : Component) : Bool :=
  match left, right with
  | .name left, .name right => left < right
  | left, right => left.rank < right.rank

/-- Whether one list of components sorts before another or is equal to it. -/
def componentsLe : List Component → List Component → Bool
  | [], _ => true
  | _ :: _, [] => false
  | left :: lefts, right :: rights =>
    left.before right || (left == right && componentsLe lefts rights)

/-- The order of paths: component by component, so that a directory's files stand together. -/
def le (left right : Path) : Bool :=
  componentsLe left.components right.components

/-- The path in quotes, as error messages show it. -/
def shown (path : Path) : String :=
  Text.quoted path.text

end Path

end BuildPath
