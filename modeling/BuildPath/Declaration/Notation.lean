import BuildPath.Lazy.Value

/-!
# Notations

The ways to write a dependency down. Some are understood at once; a lazy notation only when it is
evaluated, and a bundle element by element.
-/

namespace BuildPath

/-- The parts of a module, written separately. Empty parts count as absent. -/
structure ModuleParts where
  group : Option String
  name : String
  version : Option String
  classifier : Option String
  extension : Option String
  deriving DecidableEq, Repr

/-- A project by its path, and the configuration of it that is meant. -/
structure ProjectReference where
  path : String
  configuration : Option String
  deriving DecidableEq, Repr

/-- A module from a catalog, which is trusted to have checked it. -/
structure CatalogModule where
  group : String
  name : String
  version : Option String
  deriving DecidableEq, Repr

/-- A dependency, or several, as written down. -/
inductive Notation
  /-- `group:name:version[:classifier][@extension]` -/
  | coordinates (text : String)
  | parts (given : ModuleParts)
  | project (reference : ProjectReference)
  | files (set : FileSet)
  | catalog (entry : CatalogModule)
  /-- A dependency that was built already. -/
  | dependency (built : Dependency)
  /-- Notations that are known when they are evaluated. -/
  | deferred (source : LazyValue Notation)
  /-- Several notations as one. -/
  | bundle (items : List Notation)

instance : Nameable Notation := ⟨"kasane::notation::Notation"⟩

/-- The parts as error messages quote them. -/
def ModuleParts.shown (parts : ModuleParts) : String :=
  Text.record "ModuleCoordinates"
    [("group", Text.optional Text.quoted parts.group),
      ("name", Text.quoted parts.name),
      ("version", Text.optional Text.quoted parts.version),
      ("classifier", Text.optional Text.quoted parts.classifier),
      ("extension", Text.optional Text.quoted parts.extension)]

/-- The reference as error messages quote it. -/
def ProjectReference.shown (reference : ProjectReference) : String :=
  Text.record "ProjectRef"
    [("path", Text.quoted reference.path),
      ("configuration", Text.optional Text.quoted reference.configuration)]

/-- The catalog module as error messages quote it. -/
def CatalogModule.shown (entry : CatalogModule) : String :=
  Text.record "CatalogModule"
    [("group", Text.quoted entry.group), ("name", Text.quoted entry.name),
      ("version", Text.optional Text.quoted entry.version)]

namespace Notation

mutual

/-- The notation as error messages quote it. A lazy notation is not evaluated for it. -/
def shown : Notation → String
  | .coordinates text => Text.variant "Coordinates" (Text.quoted text)
  | .parts given => Text.variant "Module" given.shown
  | .project reference => Text.variant "Project" reference.shown
  | .files set => Text.variant "Files" set.shown
  | .catalog entry => Text.variant "Catalog" entry.shown
  | .dependency built => Text.variant "Dependency" built.shown
  | .deferred source => Text.variant "Lazy" source.shown
  | .bundle items => Text.variant "Bundle" (Text.bracketed (shownEach items))

/-- The notations of a bundle, each as it is quoted. -/
def shownEach : List Notation → List String
  | [] => []
  | item :: items => item.shown :: shownEach items

end

/-- A lazy value of dependencies as a notation. -/
def ofLazyDependency (value : LazyValue Dependency) : Notation :=
  .deferred (value.map .dependency)

/-- A lazy value of bundles as a notation. -/
def ofLazyBundle (value : LazyValue (List Notation)) : Notation :=
  .deferred (value.map .bundle)

end Notation

end BuildPath
