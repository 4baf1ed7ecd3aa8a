import BuildPath.Error
import BuildPath.Glob.Expansion
import BuildPath.Ordered
import BuildPath.Path.Normal

/-!
# File sets

Files declared by path or by glob pattern, in order. Declaring them looks at no file; resolving
them against a directory and a tree gives normalized paths in the order of declaration, the matches
of one pattern sorted, each file once.
-/

namespace BuildPath

/-- An entry of a file set. -/
inductive FileEntry
  /-- A file that belongs to the set whether it exists or not. -/
  | path (file : Path)
  /-- The files that match a pattern when the set is resolved. -/
  | glob (pattern : String)
  deriving BEq

/-- Files in the order of their declaration, relative to a base directory if there is one. -/
structure FileSet where
  base : Option Path
  entries : List FileEntry
  deriving BEq

namespace FileEntry

/-- The path or pattern as written. -/
def display : FileEntry → String
  | .path file => file.text
  | .glob pattern => pattern

/-- The entry as error messages show it. -/
def shown : FileEntry → String
  | .path file => Text.variant "Path" file.shown
  | .glob pattern => Text.variant "Glob" (Text.quoted pattern)

/-- The files of an entry in a directory. -/
def resolve (tree : FileTree) (directory : Path) : FileEntry → Outcome (List Path)
  | .path file => .ok [(directory / file).normalize]
  | .glob pattern => do
    let found ← Glob.expand tree (directory / pattern).text
    return (found.map Path.normalize).mergeSort Path.le

end FileEntry

namespace FileSet

/-- A set without entries. -/
def empty : FileSet := ⟨none, []⟩

/-- The set of these files. -/
def ofPaths (paths : List Path) : FileSet :=
  ⟨none, paths.map .path⟩

/-- The same entries in another base directory. -/
def withBase (files : FileSet) (base : Path) : FileSet :=
  { files with base := some base }

/-- The set with one more entry. -/
def push (files : FileSet) (entry : FileEntry) : FileSet :=
  { files with entries := files.entries ++ [entry] }

/-- The set as it stands in messages: its entries as written. -/
def display (files : FileSet) : String :=
  "files(" ++ Text.commaSeparated (files.entries.map FileEntry.display) ++ ")"

/-- The set as error messages quote it. -/
def shown (files : FileSet) : String :=
  Text.record "FileSet"
    [("base", Text.optional Path.shown files.base),
      ("entries", Text.bracketed (files.entries.map FileEntry.shown))]

/-- The directory that the entries are relative to. -/
def directory (files : FileSet) (root : Path) : Path :=
  match files.base with
  | some base => root / base
  | none => root

/-- The files of the set, each once, at its first mention. -/
def resolve (files : FileSet) (tree : FileTree) (root : Path) : Outcome (List Path) := do
  let resolved ← files.entries.mapM (·.resolve tree (files.directory root))
  return Ordered.distinctBy Path.components resolved.flatten

end FileSet

end BuildPath
