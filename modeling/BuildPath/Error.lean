import BuildPath.Dependency.Kind
import BuildPath.Glob.Pattern

/-!
# Failures

Every way in which declaring, reading or resolving can fail, by its cause. The wording of all of
them is in `Error.message`.
-/

namespace BuildPath

/-- What is wrong with the text or the parts of a dependency declaration. -/
inductive Malformation
  | tooFewSegments
  | tooManySegments
  | blankInSegment
  | strayInExtension
  | missingModuleName
  | missingProjectPath
  deriving DecidableEq, Repr

/-- What is said about a malformation. -/
def Malformation.message : Malformation → String
  | .tooFewSegments => "expected at least 'group:name:version'"
  | .tooManySegments => "expected at most 'group:name:version:classifier'"
  | .blankInSegment => "segments cannot contain whitespace"
  | .strayInExtension => "extension cannot contain ':' or whitespace"
  | .missingModuleName => "module name is required"
  | .missingProjectPath => "project path is required"

/-- Why an operation failed. -/
inductive Error
  /-- A declaration, shown in quoted form, of the right shape but with unusable parts. -/
  | malformed (shown : String) (malformation : Malformation)
  /-- A value, shown in quoted form, that has no shape of a declaration. -/
  | unsupported (shown : String)
  /-- An action for one kind of dependency met a dependency of another, shown as text. -/
  | actionMismatch (expected found : Kind) (dependency : String)
  /-- An inheritance that would close a cycle. -/
  | cyclicInheritance (child parent : String)
  /-- No value where at least one is needed. -/
  | missingValue (description : String)
  /-- Several values where one is needed. -/
  | tooManyValues (description : String) (count : Nat)
  | duplicateConfiguration (name : String)
  | unknownConfiguration (name : String)
  /-- A change to a configuration that was read, or to any one in a frozen graph. -/
  | frozen (name : String)
  /-- A glob pattern that cannot be read. -/
  | pattern (fault : Glob.Fault)
  /-- A directory that a glob pattern leads to by a path that is too long. -/
  | unreadableDirectory (path : String)
  /-- A source of values that failed for a reason of its own. -/
  | provider (reason : String)
  /-- A manifest whose text has not the form of one. -/
  | manifest
  /-- A manifest file that is not there. -/
  | unreadable
  /-- A read of a configuration from within the evaluation of its own declarations, nested too
  deeply. -/
  | circularRead (name : String)
  deriving DecidableEq, Repr

/-- The text of a failure. -/
def Error.message : Error → String
  | .malformed shown malformation =>
    "Malformed dependency notation " ++ shown ++ ": " ++ malformation.message
  | .unsupported shown => "Unsupported dependency notation " ++ shown
  | .actionMismatch expected found dependency =>
    "Configuring action for " ++ expected.label ++ " cannot be applied to " ++ found.label ++
      " dependency " ++ dependency
  | .cyclicInheritance child parent =>
    "Configuration '" ++ child ++ "' cannot extend from '" ++ parent ++
      "', it would create a cycle"
  | .missingValue description => "No value present for " ++ description
  | .tooManyValues description count =>
    "Expected a single value from " ++ description ++ s!", got {count}"
  | .duplicateConfiguration name => "Configuration with name '" ++ name ++ "' already exists"
  | .unknownConfiguration name => "Configuration with name '" ++ name ++ "' not found"
  | .frozen name => "Cannot change configuration '" ++ name ++ "' after it has been observed"
  | .pattern fault =>
    "Couldn't expand file set.\nCouldn't compile glob pattern.\n" ++ fault.message
  | .unreadableDirectory path =>
    "Couldn't expand file set.\nCouldn't run glob.\nattempting to read `" ++ path ++
      "` resulted in an error: File name too long (os error 36)"
  | .provider reason => "Provider failed.\n" ++ reason
  | .manifest => "Couldn't parse manifest."
  | .unreadable => "Couldn't read manifest."
  | .circularRead name =>
    "Configuration '" ++ name ++ "' is read by its own declarations"

/-- The outcome of an operation that may fail. -/
abbrev Outcome := Except Error

end BuildPath
