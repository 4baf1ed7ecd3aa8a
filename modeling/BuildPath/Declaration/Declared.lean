import BuildPath.Declaration.Coordinates
import BuildPath.Declaration.Notation
import BuildPath.Declaration.Project
import BuildPath.Dependency.Action

/-!
# Declared dependencies

What becomes of a notation. Declaring one (`Notation.declare`) evaluates nothing: every notation
outside of lazy ones is understood at once, so that what is malformed fails here and fails the whole
bundle, and every lazy one is recorded as it is. Parsing one (`Notation.parseAll`) declares it and
then evaluates what was declared, in order; the notations that a lazy one yields are parsed in
turn, one after the other.
-/

namespace BuildPath

/-- A dependency as recorded: understood already, or waiting for its evaluation. -/
inductive Declared
  | resolved (dependency : Dependency)
  | deferred (value : LazyValue Dependency)

namespace Declared

/-- The dependencies that a declaration stands for. -/
def evaluate : Declared → Computation (List Dependency)
  | .resolved dependency => return [dependency]
  | .deferred value => value.evaluate

/-- The declaration with an action on it: at once on what is resolved, and otherwise on every
dependency that the evaluation yields. -/
def configure (action : Action) : Declared → Outcome Declared
  | .resolved dependency => .resolved <$> action.apply dependency
  | .deferred value =>
    .ok (.deferred (value.tryMap fun dependency => .ofOutcome (action.apply dependency)))

/-- Whether the declaration is this dependency, resolved. -/
def isResolvedAs (dependency : Dependency) : Declared → Bool
  | .resolved existing => existing == dependency
  | .deferred _ => false

end Declared

namespace ModuleParts

/-- A part that was given and is not empty. -/
def nonEmpty (part : Option String) : Option String :=
  part.filter fun text => !text.isEmpty

/-- The module with these parts. Its name may not be blank. -/
def parse (parts : ModuleParts) : Outcome ModuleDependency :=
  if (Text.trim parts.name.toList).isEmpty then
    .error (.malformed parts.shown .missingModuleName)
  else
    .ok (.ofCoordinates (nonEmpty parts.group) parts.name (nonEmpty parts.version)
      (nonEmpty parts.classifier) (nonEmpty parts.extension))

end ModuleParts

/-- The project that is meant in a declaring project. A path of nothing but colons is refused unless
it is that of the root project. -/
def ProjectReference.parse (reference : ProjectReference) (project : DeclaringProject) :
    Outcome ProjectDependency :=
  if reference.path.toList.all (· == ':') && reference.path != ":" then
    .error (.malformed reference.shown .missingProjectPath)
  else .ok (.ofPath (project.absolute reference.path) reference.configuration)

/-- The module of a catalog, as it stands there. -/
def CatalogModule.dependency (entry : CatalogModule) : ModuleDependency :=
  .ofCoordinates (some entry.group) entry.name entry.version none none

namespace Notation

/-- The dependencies that declarations stand for, in order. -/
def evaluateAll (declared : List Declared) : Computation (List Dependency) :=
  Computation.concatMap Declared.evaluate declared

mutual

/-- Understands a notation without evaluating anything. -/
def declare (project : DeclaringProject) : Notation → Outcome (List Declared)
  | .coordinates text => do return [.resolved (.externalModule (← Coordinates.parse text))]
  | .parts given => do return [.resolved (.externalModule (← given.parse))]
  | .project reference => do return [.resolved (.project (← reference.parse project))]
  | .files set => .ok [.resolved (.files ⟨set, none⟩)]
  | .catalog entry => .ok [.resolved (.externalModule entry.dependency)]
  | .dependency built => .ok [.resolved built]
  | .deferred ⟨label, produce⟩ =>
    .ok [.deferred ⟨label, fun reported => parseProduced project (produce reported)⟩]
  | .bundle items => declareEach project items

/-- Understands the notations of a bundle, in order. -/
def declareEach (project : DeclaringProject) : List Notation → Outcome (List Declared)
  | [] => .ok []
  | item :: items => do
    let first ← declare project item
    let rest ← declareEach project items
    return first ++ rest

/-- Parses the notations that a computation yields, once it has yielded all of them. -/
def parseProduced (project : DeclaringProject) :
    Computation (List Notation) → Computation (List Dependency)
  | .done items => parseEach project items
  | .failed error => .failed error
  | .ask request resume => .ask request fun answer => parseProduced project (resume answer)

/-- Parses notations one after the other, each declared and evaluated before the next. -/
def parseEach (project : DeclaringProject) : List Notation → Computation (List Dependency)
  | [] => .done []
  | item :: items => do
    let declared ← declare project item
    let first ← evaluateAll declared
    let rest ← parseEach project items
    return first ++ rest

end

/-- All dependencies that a notation stands for, lazy ones evaluated. -/
def parseAll (project : DeclaringProject) (written : Notation) :
    Computation (List Dependency) := do
  let declared ← declare project written
  evaluateAll declared

/-- The one dependency that a notation stands for. -/
def parse (project : DeclaringProject) (written : Notation) : Computation Dependency := do
  match ← parseAll project written with
  | [only] => return only
  | [] => .failed (.missingValue written.shown)
  | several => .failed (.tooManyValues written.shown several.length)

end Notation

end BuildPath
