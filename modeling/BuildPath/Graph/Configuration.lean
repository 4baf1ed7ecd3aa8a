import BuildPath.Artifact
import BuildPath.Declaration.Declared

/-!
# Configurations

A named collection of declarations, published artifacts and exclude rules. Everything here concerns
one configuration alone; what it inherits is a matter of the graph that holds it. A configuration
that was observed, that is, read through an effective view, takes no more changes.
-/

namespace BuildPath

/-- A configuration. The declarations, artifacts and rules are its own, in the order in which they
were added. -/
structure Configuration where
  name : String
  visible : Bool := true
  transitive : Bool := true
  description : Option String := none
  declared : List Declared := []
  artifacts : List ArtifactBinding := []
  excludes : List ExcludeRule := []
  observed : Bool := false

namespace Configuration

/-- A configuration without contents. -/
def named (name : String) : Configuration := { name }

/-- The configuration with one more declaration. A resolved dependency that is declared already is
not declared again; a deferred declaration always is. -/
def declare (configuration : Configuration) (declaration : Declared) : Configuration :=
  match declaration with
  | .resolved dependency =>
    if configuration.declared.any (·.isResolvedAs dependency) then configuration
    else { configuration with declared := configuration.declared ++ [declaration] }
  | .deferred _ => { configuration with declared := configuration.declared ++ [declaration] }

/-- The configuration with more declarations, in order. -/
def declareAll (configuration : Configuration) (declarations : List Declared) : Configuration :=
  declarations.foldl declare configuration

/-- The configuration with one more artifact, unless it publishes an equal one already. -/
def addArtifact (configuration : Configuration) (binding : ArtifactBinding) : Configuration :=
  { configuration with artifacts := Ordered.insert configuration.artifacts binding }

/-- The configuration without the artifacts that a task builds. -/
def removeArtifacts (configuration : Configuration) (producer : String) : Configuration :=
  { configuration with
    artifacts := configuration.artifacts.filter fun binding => !binding.isProducedBy producer }

/-- The number of artifacts that a task builds. -/
def countArtifacts (configuration : Configuration) (producer : String) : Nat :=
  configuration.artifacts.countP (·.isProducedBy producer)

/-- The configuration with one more rule, unless it has an equal one. -/
def exclude (configuration : Configuration) (rule : ExcludeRule) : Configuration :=
  { configuration with excludes := Ordered.insert configuration.excludes rule }

end Configuration

end BuildPath
