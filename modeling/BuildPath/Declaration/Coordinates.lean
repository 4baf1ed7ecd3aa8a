import BuildPath.Dependency.Basic
import BuildPath.Text.Blank

/-!
# Module coordinates

The text form of a module, `group:name:version[:classifier][@extension]`. Only the name has to be
given; any other segment may be left empty. White space around the text is ignored and inside it
refused.
-/

namespace BuildPath.Coordinates

/-- The text before the last `@` and, if there is one, the text after it. -/
def splitExtension (text : List Char) : List Char × Option (List Char) :=
  let reversed := text.reverse
  match reversed.dropWhile (· != '@') with
  | [] => (text, none)
  | _ :: before => (before.reverse, some (reversed.takeWhile (· != '@')).reverse)

/-- Three or four segments, the fourth empty if it is missing. -/
def fourSegments (segments : List (List Char)) :
    Except Malformation (List Char × List Char × List Char × List Char) :=
  match segments with
  | [group, name, version] => .ok (group, name, version, [])
  | [group, name, version, classifier] => .ok (group, name, version, classifier)
  | segments => .error (if segments.length < 3 then .tooFewSegments else .tooManySegments)

/-- A segment as a part of a module, absent if it is empty. -/
def part? (segment : List Char) : Option String :=
  if segment.isEmpty then none else some (String.ofList segment)

/-- Whether a character may not stand in an extension. -/
def isStray (character : Char) : Bool :=
  character == ':' || Text.isBlank character

/-- The module with these coordinates, or what is wrong with them. The first fault in this order
counts: the number of segments, white space in them, the extension, the name. -/
def module? (text : List Char) : Except Malformation ModuleDependency := do
  let (coordinates, extension) := splitExtension (Text.trim text)
  let segments := Text.split ':' coordinates
  let (group, name, version, classifier) ← fourSegments segments
  if segments.any (·.any Text.isBlank) then .error .blankInSegment
  else if (extension.getD []).any isStray then .error .strayInExtension
  else if name.isEmpty then .error .missingModuleName
  else
    .ok (.ofCoordinates (part? group) (String.ofList name) (part? version) (part? classifier)
      (part? (extension.getD [])))

/-- The module with these coordinates. A malformed text is quoted as it was given, untrimmed. -/
def parse (text : String) : Outcome ModuleDependency :=
  (module? text.toList).mapError (.malformed (Text.quoted text))

end BuildPath.Coordinates
