import BuildPath.Declaration.Notation
import BuildPath.Json.Basic

/-!
# Notations as JSON values

A text is a coordinate notation, an array a bundle, and an object is told apart by its keys: one
with `project` refers to a project, one with `files` lists files and patterns, and one with `name`
gives the parts of a module. A null counts as a missing key, except for `files`. Anything else is
refused, the innermost refused value quoted.
-/

namespace BuildPath.Notation

/-- Whether an entry of a file list is a pattern. -/
def isPattern (entry : String) : Bool :=
  entry.toList.any fun character => character == '*' || character == '?' || character == '['

/-- An entry of a file list. -/
def fileEntry (entry : String) : FileEntry :=
  if isPattern entry then .glob entry else .path ⟨entry⟩

/-- The text under a key, if there is one. A value other than a text or null refuses the object. -/
def textMember (members : List (String × Json)) (key : String) : Outcome (Option String) :=
  match Json.member? members key with
  | none | some .null => .ok none
  | some (.string text) => .ok (some text)
  | some _ => .error (.unsupported (Json.object members).shown)

/-- The entries of a file list. -/
def fileEntries (members : List (String × Json)) : List Json → Outcome (List FileEntry)
  | [] => .ok []
  | .string entry :: rest => do return fileEntry entry :: (← fileEntries members rest)
  | _ => .error (.unsupported (Json.object members).shown)

/-- The notation that an object stands for. -/
def ofMembers (members : List (String × Json)) : Outcome Notation := do
  if let some path ← textMember members "project" then
    return .project ⟨path, ← textMember members "configuration"⟩
  match Json.member? members "files" with
  | some (.array entries) =>
    let base ← textMember members "base"
    return .files ⟨base.map Path.mk, ← fileEntries members entries⟩
  | some _ => .error (.unsupported (Json.object members).shown)
  | none =>
    match ← textMember members "name" with
    | some name =>
      return .parts ⟨← textMember members "group", name, ← textMember members "version",
        ← textMember members "classifier", ← textMember members "extension"⟩
    | none => .error (.unsupported (Json.object members).shown)

mutual

/-- The notation that a value stands for. -/
def ofJson : Json → Outcome Notation
  | .string text => .ok (.coordinates text)
  | .array items => .bundle <$> ofJsonEach items
  | .object members => ofMembers members
  | value => .error (.unsupported value.shown)

/-- The notations that the items of an array stand for. -/
def ofJsonEach : List Json → Outcome (List Notation)
  | [] => .ok []
  | item :: items => do return (← ofJson item) :: (← ofJsonEach items)

end

end BuildPath.Notation
