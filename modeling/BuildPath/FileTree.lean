import BuildPath.Path.Basic

/-!
# File trees

The files that can be seen at one moment: everything below one directory, in which the working
directory lies at some depth. The directories above it, up to the root, are there as well, but
nothing is known of what else they hold.
-/

namespace BuildPath

/-- What stands at a place. -/
inductive FileNode
  | directory
  | file (content : String)
  deriving DecidableEq, Repr

/-- The files and directories below a directory, each under the names that lead to it, and the names
that lead to the working directory. -/
structure FileTree where
  home : List String
  nodes : List (List String × FileNode)
  deriving Repr

/-- A place that a path can lead to. -/
inductive Place
  /-- The place that these names lead to. -/
  | inside (names : List String)
  /-- A directory above all known ones, up to the root. -/
  | outside
  deriving DecidableEq, Repr

namespace FileTree

/-- What stands at the place that names lead to. -/
def node? (tree : FileTree) (names : List String) : Option FileNode :=
  if names.isEmpty then some .directory else tree.nodes.lookup names

/-- Puts something at a place where nothing stands yet. -/
def place (tree : FileTree) (names : List String) (node : FileNode) : FileTree :=
  match tree.node? names with
  | some _ => tree
  | none => { tree with nodes := tree.nodes ++ [(names, node)] }

/-- Puts something at a place together with the directories that lead to it. -/
def insert (tree : FileTree) (names : List String) (node : FileNode) : FileTree :=
  let above := (List.range (names.length - 1)).map fun count => names.take (count + 1)
  (above.foldl (fun built names => built.place names .directory) tree).place names node

/-- The tree that holds nothing but the working directory. -/
def new (home : List String) : FileTree :=
  insert ⟨home, []⟩ home .directory

/-- Puts something below the working directory. -/
def add (tree : FileTree) (names : List String) (node : FileNode) : FileTree :=
  tree.insert (tree.home ++ names) node

/-- Whether a directory stands at a place. -/
def holdsDirectory (tree : FileTree) : Place → Bool
  | .inside names => tree.node? names == some .directory
  | .outside => true

/-- The place one component further. Only a directory leads on, and a name only to what stands
there. -/
def step (tree : FileTree) (place : Place) (component : Path.Component) : Option Place :=
  if !tree.holdsDirectory place then none
  else
    match component, place with
    | .root, _ => some .outside
    | .current, place => some place
    | .parent, .inside names =>
      if names.isEmpty then some .outside else some (.inside names.dropLast)
    | .parent, .outside => some .outside
    | .name text, .inside names =>
      let further := names ++ [text]
      if (tree.node? further).isSome then some (.inside further) else none
    | .name _, .outside => none

/-- Whether a path is short enough to be looked up: it has at most 4095 bytes. -/
def fits (path : Path) : Bool :=
  path.text.utf8ByteSize ≤ 4095

/-- The place that a path leads to, if it exists. The empty path and one that is too long lead
nowhere, and a path that ends with a slash or a `.` only to a directory. -/
def locate (tree : FileTree) (path : Path) : Option Place :=
  if path.text.isEmpty || !fits path then none
  else
    match path.components.foldlM tree.step (.inside tree.home) with
    | none => none
    | some place =>
      if path.asksForDirectory && !tree.holdsDirectory place then none
      else some place

/-- Whether something stands where the path leads. -/
def contains (tree : FileTree) (path : Path) : Bool :=
  (tree.locate path).isSome

/-- Whether the path leads to a directory. -/
def isDirectory (tree : FileTree) (path : Path) : Bool :=
  match tree.locate path with
  | some place => tree.holdsDirectory place
  | none => false

/-- The content of the file that the path leads to. -/
def read? (tree : FileTree) (path : Path) : Option String :=
  match tree.locate path with
  | some (.inside names) =>
    match tree.node? names with
    | some (.file content) => some content
    | _ => none
  | _ => none

/-- Everything below the path, at any depth, under the names that lead to it from there. -/
def below (tree : FileTree) (path : Path) : List (List String × FileNode) :=
  match tree.locate path with
  | some (.inside names) =>
    tree.nodes.filterMap fun node =>
      if names.isPrefixOf node.1 && names.length < node.1.length then
        some (node.1.drop names.length, node.2)
      else none
  | _ => []

end FileTree

end BuildPath
