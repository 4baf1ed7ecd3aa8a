import BuildPath.Dependency.Exclude
import BuildPath.FileSet
import BuildPath.Json.Decode
import BuildPath.Settings

/-!
# Records in manifests

The JSON forms of exclude rules, file sets and settings.
-/

namespace BuildPath

open Json

/-- A path as JSON. -/
def Path.decode : Decoder Path := fun depth document =>
  Path.mk <$> Decoder.text depth document

/-- A rule as a record of group and module, either of which may be missing or null. -/
def ExcludeRule.decode : Decoder ExcludeRule := fun depth document => do
  let given ← record ["group", "module"] depth document
  return ⟨← given.get "group" (.optional .text) none, ← given.get "module" (.optional .text) none⟩

/-- A rule with both of its fields. -/
def ExcludeRule.json (rule : ExcludeRule) : Json :=
  .object [("group", rule.group.elim .null .string), ("module", rule.name.elim .null .string)]

/-- An entry of a file set as an object with one key, which tells a path from a pattern. -/
def FileEntry.decode : Decoder FileEntry
  | _ + 1, .object [(some "path", .string text)] => text.map fun text => .path ⟨text⟩
  | _ + 1, .object [(some "glob", .string text)] => text.map .glob
  | _, _ => none

/-- An entry with the key of its form. -/
def FileEntry.json : FileEntry → Json
  | .path file => .object [("path", .string file.text)]
  | .glob pattern => .object [("glob", .string pattern)]

/-- A file set as a record of its base, which may be missing, and its entries, which may not. -/
def FileSet.decode : Decoder FileSet := fun depth document => do
  let given ← record ["base", "entries"] depth document
  return ⟨← given.get "base" (.optional Path.decode) none,
    ← given.require "entries" (.list FileEntry.decode)⟩

/-- A file set, with its base if it has one. -/
def FileSet.json (files : FileSet) : Json :=
  .object (files.base.elim [] (fun base => [("base", .string base.text)]) ++
    [("entries", .array (files.entries.map FileEntry.json))])

/-- Settings as a record of which any field may be missing. -/
def Settings.decode : Decoder Settings := fun depth document => do
  let given ← record ["root", "repository", "webAppDir", "freezeOnRead"] depth document
  let usual : Settings := {}
  return {
    root := ← given.get "root" Path.decode usual.root
    repository := ← given.get "repository" Path.decode usual.repository
    webAppDirectory := ← given.get "webAppDir" Path.decode usual.webAppDirectory
    freezeOnRead := ← given.get "freezeOnRead" .truth usual.freezeOnRead }

end BuildPath
