import BuildPath.Error
import BuildPath.FileTree
import BuildPath.Glob.Matching
import BuildPath.Ordered

/-!
# Glob expansion

The files of a tree that a pattern stands for. The pattern is read once as a whole, so that a
malformed one is refused, and then component by component: a component without wildcards is looked
up, any other one is compared with the names that stand in the directory reached so far. Only
directories lead on, and only directories answer to a pattern that ends with a slash or with `**`.
A directory whose entries have to be compared but whose path is too long fails the whole expansion.
-/

namespace BuildPath.Glob

/-- The names of the special entries of every directory. -/
def isSpecial (name : String) : Bool :=
  name == "." || name == ".."

/-- The path of an entry. Entries of the working directory are written without it. -/
def entry (directory : Path) (name : String) : Path :=
  if directory == ⟨"."⟩ then ⟨name⟩ else directory / name

/-- The special entries that a pattern matches. It has to start with a dot to match any. -/
def specials (pattern : Pattern) : List String :=
  if pattern.tokens.head? = some (.exactly '.') then [".", ".."].filter pattern.accepts else []

/-- A path that was reached, and whether it is known to lead to a directory. -/
structure Found where
  path : Path
  directory : Bool

/-- A path that is looked up. -/
def Found.lookup (tree : FileTree) (path : Path) : Found :=
  ⟨path, tree.isDirectory path⟩

/-- What stands below a path that was read. It is known for what it is, even where its own path is
too long to be looked up. -/
def Found.below (path : Path) (names : List String) (node : FileNode) : Found :=
  ⟨names.foldl entry path, node == .directory⟩

/-- What was found on the way, and the directories that had to be read for it. -/
structure Reached where
  found : List Found
  read : List Path

/-- The entries of the place at a path that one component stands for. A component without wildcards
names its entry; any other one needs a directory to look into. -/
def entries (tree : FileTree) (pattern : Pattern) (place : Found) : Reached :=
  match pattern.literal? with
  | some name =>
    let named := Found.lookup tree (entry place.path name)
    let stands := if isSpecial name then place.directory else tree.contains named.path
    ⟨if stands then [named] else [], []⟩
  | none =>
    if place.directory then
      let matching := (tree.below place.path).filterMap fun
        | ([name], node) =>
          if pattern.accepts name then some (Found.below place.path [name] node) else none
        | _ => none
      let special := (specials pattern).map fun name => Found.lookup tree (place.path.append ⟨name⟩)
      ⟨matching ++ special, [place.path]⟩
    else ⟨[], []⟩

/-- Everything below a path, at any depth, whose last name is accepted. All directories below are
read for it. -/
def descendants (tree : FileTree) (accepts : String → Bool) (place : Found) : Reached :=
  if place.directory then
    let below := tree.below place.path
    let accepted := below.filter fun (names, _) => names.getLast?.any accepts
    let inner := (below.map (Found.below place.path).uncurry).filter Found.directory
    ⟨accepted.map (Found.below place.path).uncurry, place.path :: inner.map Found.path⟩
  else ⟨[], []⟩

/-- What one step leads to from all that was found, each path once. -/
def Reached.advance (reached : Reached) (step : Found → Reached) : Reached :=
  let steps := reached.found.map step
  ⟨Ordered.distinctBy (·.path.text) (steps.flatMap Reached.found),
    reached.read ++ steps.flatMap Reached.read⟩

/-- The directories among what was found. -/
def Reached.directories (reached : Reached) : Reached :=
  { reached with found := reached.found.filter Found.directory }

/-- What the remaining components stand for, starting at what was found so far, in some order. A
`**` goes on with everything below, compares its last name with the next component, and as the last
component stands for all directories below. -/
def expandFrom (tree : FileTree) (directoryOnly : Bool) : List Pattern → Reached → Reached
  | [], reached => if directoryOnly then reached.directories else reached
  | pattern :: rest, reached =>
    if !pattern.isRecursive then
      expandFrom tree directoryOnly rest (reached.advance (entries tree pattern))
    else
      match rest with
      | [] => (reached.advance (descendants tree fun _ => true)).directories
      | next :: more =>
        if next.isRecursive then expandFrom tree directoryOnly (next :: more) reached
        else
          expandFrom tree directoryOnly more (reached.advance (descendants tree next.accepts))

/-- The components of a pattern: its pieces between slashes, without the root and without the empty
piece after a final slash. A pattern that is only a root has one empty component. -/
def componentTexts (pattern : String) : List String :=
  let characters := pattern.toList
  let relative := if characters.head? = some '/' then characters.tail else characters
  if relative.isEmpty then [""]
  else
    let pieces := Text.split '/' relative
    (if pieces.getLast? = some [] then pieces.dropLast else pieces).map String.ofList

/-- The first directory, in the order of paths, that is too long to be read. -/
def unreadable? (read : List Path) : Option Path :=
  ((read.filter fun path => !FileTree.fits path).mergeSort Path.le).head?

/-- The patterns of the components. A component is read as a pattern of its own, so a class that
holds a slash is refused. -/
def components (pattern : String) : Except Fault (List Pattern) := do
  let _ ← Pattern.parse pattern
  (componentTexts pattern).mapM Pattern.parse

/-- The paths that a pattern stands for. -/
def expand (tree : FileTree) (pattern : String) : Outcome (List Path) := do
  let patterns ← (components pattern).mapError .pattern
  let start := Found.lookup tree (if pattern.toList.head? = some '/' then ⟨"/"⟩ else ⟨"."⟩)
  let reached := expandFrom tree (pattern.toList.getLast? == some '/') patterns ⟨[start], []⟩
  match unreadable? reached.read with
  | some directory => .error (.unreadableDirectory directory.text)
  | none => .ok (reached.found.map Found.path)

end BuildPath.Glob
