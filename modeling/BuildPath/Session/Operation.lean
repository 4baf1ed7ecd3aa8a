import BuildPath.Manifest.Basic
import BuildPath.Session.Basic
import BuildPath.Session.WebArchive

/-!
# Operations of a session

Everything that can be done in a session, as data, so that whole runs of a session can be spoken of
(`Session.run`). An operation that fails may have done a part of its work, and the run goes on after
it.
-/

namespace BuildPath

/-- Something that can be done in a session. -/
inductive Operation
  | edit (single : Edit)
  /-- Takes back the artifacts that a task builds, and tells how many they were. -/
  | removeArtifacts (name producer : String)
  | readDependencies (name : String)
  | readArtifacts (name : String)
  | readExcludes (name : String)
  | freeze
  | applyConvention (convention : Convention)
  | applyManifest (manifest : Manifest)
  | setVariable (name value : String)
  /-- Composes the classpath of a view and keeps it under a name. -/
  | compose (identifier : String) (view : View) (resolver : Resolver)
  /-- Evaluates a classpath that was kept. -/
  | evaluate (identifier : String)
  /-- Describes the web archive and keeps its classpath under a name. -/
  | package (identifier : String) (resolver : Resolver)

namespace Operation

/-- What an operation answers when it succeeds. -/
abbrev Answer : Operation → Type
  | .removeArtifacts .. => Nat
  | .readDependencies _ => List Dependency
  | .readArtifacts _ => List ArtifactBinding
  | .readExcludes _ => List ExcludeRule
  | .compose .. => LazyValue Classpath
  | .evaluate _ => Option Classpath
  | .package .. => WebArchive
  | _ => Unit

/-- Keeps a classpath under a name. -/
def keep (identifier : String) (classpath : LazyValue Classpath) : Event Unit :=
  modify fun session =>
    { session with classpaths := (identifier, classpath) :: session.classpaths }

/-- Carries out an operation. -/
def perform : (operation : Operation) → Event operation.Answer
  | .edit single => Session.change (·.edit single)
  | .removeArtifacts name producer => do
    let before ← Session.ask (·.get name)
    Session.change (·.edit (.removeArtifacts name producer))
    return before.countArtifacts producer
  | .readDependencies name => Session.readDependencies name
  | .readArtifacts name => Session.readArtifacts name
  | .readExcludes name => Session.readExcludes name
  | .freeze => Session.change fun graph => (.ok (), graph.freeze)
  | .applyConvention convention => Session.change convention.apply
  | .applyManifest manifest => Session.change manifest.apply
  | .setVariable name value =>
    modify fun session => { session with assigned := (name, value) :: session.assigned }
  | .compose identifier view resolver => do
    let classpath := view.compose (← get).graph.settings resolver
    keep identifier classpath
    return classpath
  | .evaluate identifier => do
    match (← get).classpaths.lookup identifier with
    | none => return none
    | some classpath => return some (← Session.evaluate classpath.evaluateOne)
  | .package identifier resolver => do
    let archive ← Session.ask fun graph => WebArchive.ofGraph graph resolver
    keep identifier archive.classpath
    return archive

end Operation

/-- The session after some operations, whether they succeeded or failed. -/
def Session.run (session : Session) (operations : List Operation) : Session :=
  operations.foldl (fun session operation => (operation.perform.perform session).2) session

end BuildPath
