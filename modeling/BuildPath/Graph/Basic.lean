import BuildPath.Graph.Configuration
import BuildPath.Graph.Hierarchy
import BuildPath.Settings

/-!
# Configuration graphs

The configurations of a project, in the order of their creation, and the inheritance between them.
Each operation here either fails and changes nothing or yields the changed graph. A configuration
can be changed as long as neither the graph was frozen nor an effective view that includes it was
read; `Graph.observe` is what such a read leaves behind.
-/

namespace BuildPath

/-- The configurations of one project. -/
structure Graph where
  settings : Settings
  project : DeclaringProject
  configurations : List Configuration := []
  /-- Who inherits from whom, in the order in which that was said. -/
  inheritances : List Inheritance := []
  /-- The names of the conventions that were applied. -/
  conventions : List String := []
  frozen : Bool := false

namespace Graph

/-- A graph without configurations. -/
def new (settings : Settings) (project : DeclaringProject) : Graph := { settings, project }

/-- The names of the configurations, in the order of creation. -/
def names (graph : Graph) : List String :=
  graph.configurations.map Configuration.name

/-- The configuration of a name, if there is one. -/
def find? (graph : Graph) (name : String) : Option Configuration :=
  graph.configurations.find? fun configuration => configuration.name == name

/-- Whether there is a configuration of a name. -/
def contains (graph : Graph) (name : String) : Bool :=
  (graph.find? name).isSome

/-- The configuration of a name. -/
def get (graph : Graph) (name : String) : Outcome Configuration :=
  match graph.find? name with
  | some configuration => .ok configuration
  | none => .error (.unknownConfiguration name)

/-- Whether a configuration takes changes. -/
def isMutable (graph : Graph) (configuration : Configuration) : Bool :=
  !graph.frozen && !configuration.observed

/-- The graph with the configurations of a name changed. -/
def modify (graph : Graph) (name : String) (change : Configuration → Configuration) : Graph :=
  { graph with
    configurations := graph.configurations.map fun configuration =>
      if configuration.name == name then change configuration else configuration }

/-- Changes a configuration that takes changes. -/
def mutate (graph : Graph) (name : String) (change : Configuration → Configuration) :
    Outcome Graph := do
  let configuration ← graph.get name
  if graph.isMutable configuration then return graph.modify name change
  else .error (.frozen name)

/-- Creates a configuration. That its name is taken is noticed before that the graph is frozen. -/
def create (graph : Graph) (name : String) : Outcome Graph :=
  if graph.contains name then .error (.duplicateConfiguration name)
  else if graph.frozen then .error (.frozen name)
  else .ok { graph with configurations := graph.configurations ++ [.named name] }

/-- Creates a configuration unless there is one of that name. -/
def ensure (graph : Graph) (name : String) : Outcome Graph :=
  if graph.contains name then .ok graph else graph.create name

/-- The parents of a configuration, in the order in which they were added. -/
def parents (graph : Graph) (name : String) : Outcome (List String) := do
  let _ ← graph.get name
  return Inheritance.parents graph.inheritances name

/-- A configuration and all that it inherits from, depth first. -/
def hierarchy (graph : Graph) (name : String) : Outcome (List String) := do
  let _ ← graph.get name
  return Inheritance.hierarchy graph.inheritances name

/-- Lets one configuration inherit from another. To say it again changes nothing; a cycle is refused
whether or not the child takes changes. -/
def extend (graph : Graph) (child parent : String) : Outcome Graph := do
  let inheriting ← graph.get child
  let _ ← graph.get parent
  if graph.inheritances.contains ⟨child, parent⟩ then .ok graph
  else if (Inheritance.hierarchy graph.inheritances parent).contains child then
    .error (.cyclicInheritance child parent)
  else if !graph.isMutable inheriting then .error (.frozen child)
  else .ok { graph with inheritances := graph.inheritances ++ [⟨child, parent⟩] }

/-- The configurations of a hierarchy, in its order. -/
def lineage (graph : Graph) (name : String) : Outcome (List Configuration) := do
  let reached ← graph.hierarchy name
  return reached.filterMap graph.find?

/-- Everything of one sort that a configuration and those it inherits from hold, in the order of the
hierarchy. -/
def collect {Item : Type} (graph : Graph) (name : String) (items : Configuration → List Item) :
    Outcome (List Item) := do
  let configurations ← graph.lineage name
  return configurations.flatMap items

/-- The artifacts that a configuration publishes, inherited ones included. -/
def effectiveArtifacts (graph : Graph) (name : String) : Outcome (List ArtifactBinding) :=
  Ordered.distinct <$> graph.collect name Configuration.artifacts

/-- The rules of a configuration, inherited ones included. -/
def effectiveExcludes (graph : Graph) (name : String) : Outcome (List ExcludeRule) :=
  Ordered.distinct <$> graph.collect name Configuration.excludes

/-- The graph after an effective view of a configuration was read: unless reading is without
consequences, its whole hierarchy is observed. -/
def observe (graph : Graph) (name : String) : Graph :=
  if graph.settings.freezeOnRead then
    let reached := Inheritance.hierarchy graph.inheritances name
    { graph with
      configurations := graph.configurations.map fun configuration =>
        if reached.contains configuration.name then { configuration with observed := true }
        else configuration }
  else graph

/-- The graph that takes no more changes. -/
def freeze (graph : Graph) : Graph :=
  { graph with frozen := true }

/-- The declarations that a call of a collector adds: those of the notation, with the action on
each. -/
def declarations (graph : Graph) (written : Notation) (action : Option Action) :
    Outcome (List Declared) := do
  let declared ← written.declare graph.project
  match action with
  | none => return declared
  | some action => declared.mapM (Declared.configure action)

/-- Declares dependencies in a configuration, all of the notation or none. -/
def add (graph : Graph) (name : String) (written : Notation) (action : Option Action) :
    Outcome Graph := do
  let declared ← graph.declarations written action
  graph.mutate name (·.declareAll declared)

/-- Publishes an artifact. -/
def addArtifact (graph : Graph) (name : String) (binding : ArtifactBinding) : Outcome Graph :=
  graph.mutate name (·.addArtifact binding)

/-- Takes back the artifacts that a task builds. -/
def removeArtifacts (graph : Graph) (name producer : String) : Outcome Graph :=
  graph.mutate name (·.removeArtifacts producer)

/-- Adds an exclude rule. -/
def exclude (graph : Graph) (name : String) (rule : ExcludeRule) : Outcome Graph :=
  graph.mutate name (·.exclude rule)

/-- Shows or hides a configuration. -/
def setVisible (graph : Graph) (name : String) (visible : Bool) : Outcome Graph :=
  graph.mutate name fun configuration => { configuration with visible }

/-- Says whether the dependencies of a configuration bring in their own. -/
def setTransitive (graph : Graph) (name : String) (transitive : Bool) : Outcome Graph :=
  graph.mutate name fun configuration => { configuration with transitive }

/-- Describes a configuration. -/
def setDescription (graph : Graph) (name description : String) : Outcome Graph :=
  graph.mutate name fun configuration => { configuration with description := some description }

end Graph

end BuildPath
