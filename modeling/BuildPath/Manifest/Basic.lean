import BuildPath.Graph.Edit
import BuildPath.Manifest.Fields
import BuildPath.Manifest.Value

/-!
# Manifests

A graph written down as a JSON document: settings, and for every configuration its attributes, its
parents, its exclude rules and the notations of its dependencies. Applying a manifest reads all
notations first, and then creates configurations, links them and fills them, so that the order in
the document does not matter.
-/

namespace BuildPath

/-- What a manifest says of one configuration. -/
structure ConfigurationManifest where
  visible : Option Bool
  transitive : Option Bool
  description : Option String
  extendsFrom : List String
  dependencies : List Json
  exclude : List ExcludeRule

/-- A manifest. The configurations are in the order of their names. -/
structure Manifest where
  settings : Option Settings
  configurations : List (String × ConfigurationManifest)

namespace ConfigurationManifest

open Json

/-- A configuration as a record of which any field may be missing. -/
def decode : Decoder ConfigurationManifest := fun depth document => do
  let given ← record
    ["visible", "transitive", "description", "extendsFrom", "dependencies", "exclude"] depth
    document
  return {
    visible := ← given.get "visible" (.optional .truth) none
    transitive := ← given.get "transitive" (.optional .truth) none
    description := ← given.get "description" (.optional .text) none
    extendsFrom := ← given.get "extendsFrom" (.list .text) []
    dependencies := ← given.get "dependencies" (.list .json) []
    exclude := ← given.get "exclude" (.list ExcludeRule.decode) [] }

end ConfigurationManifest

namespace Manifest

open Json

/-- A manifest as a record of settings and configurations, either of which may be missing. -/
def decode : Decoder Manifest := fun depth document => do
  let given ← record ["settings", "configurations"] depth document
  return {
    settings := ← given.get "settings" (.optional Settings.decode) none
    configurations := ←
      given.get "configurations" (.dictionary ConfigurationManifest.decode) [] }

/-- Reads the text of a manifest. -/
def parse (text : String) : Outcome Manifest :=
  match decode? decode text with
  | some manifest => .ok manifest
  | none => .error .manifest

/-- Reads a manifest from a file. -/
def load (tree : FileTree) (path : Path) : Outcome Manifest :=
  match tree.read? path with
  | some text => parse text
  | none => .error .unreadable

/-- The notations of every configuration. -/
def notations (manifest : Manifest) : Outcome (List (String × List Notation)) :=
  manifest.configurations.mapM fun (name, configuration) => do
    return (name, ← Notation.ofJsonEach configuration.dependencies)

/-- The edits that create a configuration and set what the manifest says of it. -/
def attributeEdits (name : String) (configuration : ConfigurationManifest) : List Edit :=
  [.ensure name] ++ configuration.visible.toList.map (.setVisible name) ++
    configuration.transitive.toList.map (.setTransitive name) ++
    configuration.description.toList.map (.setDescription name) ++
    configuration.exclude.map (.exclude name)

/-- The edits that link a configuration to its parents. -/
def inheritanceEdits (name : String) (configuration : ConfigurationManifest) : List Edit :=
  configuration.extendsFrom.map (.extend name)

/-- The edit that fills a configuration, if there is anything to fill it with. -/
def declarationEdits (name : String) (written : List Notation) : List Edit :=
  if written.isEmpty then [] else [.add name (.bundle written) none]

/-- The edits of a manifest whose notations are these. -/
def edits (manifest : Manifest) (notations : List (String × List Notation)) : List Edit :=
  manifest.configurations.flatMap (fun (name, given) => attributeEdits name given) ++
    manifest.configurations.flatMap (fun (name, given) => inheritanceEdits name given) ++
    notations.flatMap (fun (name, written) => declarationEdits name written)

/-- Declares everything of a manifest in a graph. A value that is no notation is noticed before
anything is done. -/
def apply (manifest : Manifest) (graph : Graph) : Changed :=
  match manifest.notations with
  | .ok notations => graph.editAll (manifest.edits notations)
  | .error error => (.error error, graph)

/-- A graph of the root project with what a manifest declares. -/
def toGraph (manifest : Manifest) : Outcome Graph :=
  match manifest.apply (.new (manifest.settings.getD {}) .root) with
  | (.ok _, graph) => .ok graph
  | (.error error, _) => .error error

end Manifest

end BuildPath
