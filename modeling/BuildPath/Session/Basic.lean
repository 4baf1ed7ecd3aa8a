import BuildPath.Classpath.View
import BuildPath.Graph.Edit

/-!
# Sessions

A session is a graph with everything that evaluating lazy values can see or leave behind: the files,
the variables, the runs of counted sources, and the classpaths that were composed. Reading the
effective dependencies of a configuration evaluates its lazy declarations, which may themselves read
other configurations. A chain of such reads that is longer than the number of configurations reads
some configuration from within itself and need not end; where it does not, the stack is used up some
time. How many reads more there is room for is a number of the session (`Session.room`). The next
one fails; what keeps within the room comes to the same with more of it.
-/

namespace BuildPath

/-- A graph and what evaluation sees of the world. -/
structure Session where
  graph : Graph
  tree : FileTree
  /-- What the variables hold, the latest assignment first. -/
  assigned : List (String × String) := []
  /-- The sources that were run, the latest first. -/
  runs : List Nat := []
  /-- The composed classpaths, under the names given to them, the latest first. -/
  classpaths : List (String × LazyValue Classpath) := []
  /-- How much deeper reads can be nested than there are configurations. -/
  room : Nat

/-- Something that happens in a session. What it did before failing stays done. -/
abbrev Event := ExceptT Error (StateM Session)

namespace Session

/-- A session at its start. -/
def start (graph : Graph) (tree : FileTree) (room : Nat := 1000) : Session := { graph, tree, room }

/-- How deep reads can be nested. -/
def depth (session : Session) : Nat := session.graph.configurations.length + session.room

/-- A question to the graph. -/
def ask {Value : Type} (question : Graph → Outcome Value) : Event Value := do
  match question (← get).graph with
  | .ok value => return value
  | .error error => throw error

/-- A change to the graph. -/
def change (change : Graph → Changed) : Event Unit := do
  let session ← get
  let (outcome, graph) := change session.graph
  set { session with graph }
  match outcome with
  | .ok _ => return ()
  | .error error => throw error

/-- Counts a run of a source. -/
def countRun (source : Nat) : Event Unit :=
  modify fun session => { session with runs := source :: session.runs }

/-- Observes the hierarchy of a configuration. -/
def observe (name : String) : Event Unit :=
  modify fun session => { session with graph := session.graph.observe name }

/-- The effective exclude rules of a configuration, which is thereby observed. -/
def readExcludes (name : String) : Event (List ExcludeRule) := do
  let rules ← ask (·.effectiveExcludes name)
  observe name
  return rules

/-- The effective artifacts of a configuration, which is thereby observed. -/
def readArtifacts (name : String) : Event (List ArtifactBinding) := do
  let bindings ← ask (·.effectiveArtifacts name)
  observe name
  return bindings

/-- The answers to requests, where dependencies are read in a given way. -/
def answer (readDependencies : String → Event (List Dependency)) :
    (asked : Request) → Event asked.Answer
  | .run source => countRun source
  | .runs source => return (← get).runs.count source
  | .assigned name => return (← get).assigned.lookup name
  | .dependencies name => readDependencies name
  | .excludes name => readExcludes name
  | .files => return (← get).tree

/-- The effective dependencies of a configuration, which is thereby observed: those of all
declarations of its hierarchy, evaluated in order, each dependency once. Reads from within
declarations may be nested up to a depth. -/
def readDependenciesWithin (depth : Nat) (name : String) : Event (List Dependency) := do
  let declared ← ask (·.collect name Configuration.declared)
  match depth with
  | 0 => throw (.circularRead name)
  | depth + 1 =>
    let found ←
      (Notation.evaluateAll declared).runWith (answer (readDependenciesWithin depth))
    observe name
    return Ordered.distinct found

/-- The effective dependencies of a configuration. -/
def readDependencies (name : String) : Event (List Dependency) := do
  readDependenciesWithin (← get).depth name

/-- Runs a computation in the session. -/
def evaluate {Value : Type} (computation : Computation Value) : Event Value :=
  computation.runWith (answer readDependencies)

end Session

/-- Lets something happen: what came of it, and the session that it left. -/
def Event.perform {Value : Type} (event : Event Value) (session : Session) :
    Outcome Value × Session :=
  event.run.run session

end BuildPath
