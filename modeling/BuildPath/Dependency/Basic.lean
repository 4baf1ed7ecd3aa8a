import BuildPath.Dependency.Exclude
import BuildPath.FileSet

/-!
# Dependencies

What a configuration depends on, after its declaration was understood: a module published
elsewhere, another project of the build, or files.
-/

namespace BuildPath

/-- A module published elsewhere, identified by its coordinates. -/
structure ModuleDependency where
  group : Option String
  name : String
  version : Option String
  classifier : Option String
  extension : Option String
  transitive : Bool
  excludes : List ExcludeRule
  reason : Option String
  deriving DecidableEq, Repr

/-- What another project of the build publishes. -/
structure ProjectDependency where
  path : String
  configuration : Option String
  transitive : Bool
  excludes : List ExcludeRule
  reason : Option String
  deriving DecidableEq, Repr

/-- Files that belong to no module. -/
structure FileDependency where
  files : FileSet
  reason : Option String
  deriving BEq

/-- A dependency of any kind. -/
inductive Dependency
  | externalModule (details : ModuleDependency)
  | project (details : ProjectDependency)
  | files (details : FileDependency)
  deriving BEq

namespace ModuleDependency

/-- The module with these coordinates, transitive and with nothing excluded. -/
def ofCoordinates (group : Option String) (name : String)
    (version classifier extension : Option String) : ModuleDependency :=
  ⟨group, name, version, classifier, extension, true, [], none⟩

/-- The coordinates in one text, with empty segments for what is absent. -/
def display (details : ModuleDependency) : String :=
  details.group.getD "" ++ ":" ++ details.name ++ ":" ++ details.version.getD "" ++
    (details.classifier.elim "" (":" ++ ·)) ++ (details.extension.elim "" ("@" ++ ·))

/-- The module with one more rule, unless it has an equal one. -/
def exclude (details : ModuleDependency) (rule : ExcludeRule) : ModuleDependency :=
  { details with excludes := Ordered.insert details.excludes rule }

/-- The module as error messages quote it. -/
def shown (details : ModuleDependency) : String :=
  Text.record "ExternalModuleDependency"
    [("group", Text.optional Text.quoted details.group),
      ("name", Text.quoted details.name),
      ("version", Text.optional Text.quoted details.version),
      ("classifier", Text.optional Text.quoted details.classifier),
      ("extension", Text.optional Text.quoted details.extension),
      ("transitive", Text.truth details.transitive),
      ("excludes", Text.bracketed (details.excludes.map ExcludeRule.shown)),
      ("reason", Text.optional Text.quoted details.reason)]

end ModuleDependency

/-- The last segment of a project path that is not empty. -/
def lastSegment? (path : String) : Option String :=
  (((Text.split ':' path.toList).filter fun segment => !segment.isEmpty).getLast?).map
    String.ofList

namespace ProjectDependency

/-- The configuration of another project that is used unless another one is named. -/
def defaultTarget : String := "default"

/-- The dependency on the project at an absolute path. -/
def ofPath (path : String) (configuration : Option String) : ProjectDependency :=
  ⟨path, configuration, true, [], none⟩

/-- The configuration of the project whose artifacts are used. -/
def target (details : ProjectDependency) : String :=
  details.configuration.getD defaultTarget

/-- The name of the project: the last segment of its path. -/
def projectName (details : ProjectDependency) : String :=
  (lastSegment? details.path).getD details.path

/-- The project in messages, with the configuration if one was named. -/
def display (details : ProjectDependency) : String :=
  "project('" ++ details.path ++ "'" ++
    details.configuration.elim "" (fun name => ", '" ++ name ++ "'") ++ ")"

/-- The project with one more rule, unless it has an equal one. -/
def exclude (details : ProjectDependency) (rule : ExcludeRule) : ProjectDependency :=
  { details with excludes := Ordered.insert details.excludes rule }

/-- The project as error messages quote it. -/
def shown (details : ProjectDependency) : String :=
  Text.record "ProjectDependency"
    [("path", Text.quoted details.path),
      ("configuration", Text.optional Text.quoted details.configuration),
      ("transitive", Text.truth details.transitive),
      ("excludes", Text.bracketed (details.excludes.map ExcludeRule.shown)),
      ("reason", Text.optional Text.quoted details.reason)]

end ProjectDependency

/-- The files as error messages quote them. -/
def FileDependency.shown (details : FileDependency) : String :=
  Text.record "FileCollectionDependency"
    [("files", details.files.shown), ("reason", Text.optional Text.quoted details.reason)]

namespace Dependency

/-- The kind of a dependency, never `Kind.any`. -/
def kind : Dependency → Kind
  | .externalModule _ => .externalModule
  | .project _ => .project
  | .files _ => .files

/-- Why the dependency was declared, if that was said. -/
def reason : Dependency → Option String
  | .externalModule details => details.reason
  | .project details => details.reason
  | .files details => details.reason

/-- The dependency in messages. -/
def display : Dependency → String
  | .externalModule details => details.display
  | .project details => details.display
  | .files details => details.files.display

/-- The dependency as error messages quote it. -/
def shown : Dependency → String
  | .externalModule details => Text.variant "ExternalModule" details.shown
  | .project details => Text.variant "Project" details.shown
  | .files details => Text.variant "Files" details.shown

end Dependency

end BuildPath
