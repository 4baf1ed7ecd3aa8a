import BuildPath.Graph.Basic

/-!
# Edits

The single operations that change a graph, as data. A list of edits is carried out in order up to
the first one that fails; the edits before it stay done.
-/

namespace BuildPath

/-- A change to a graph. -/
inductive Edit
  | create (name : String)
  /-- Creates a configuration unless it is there. -/
  | ensure (name : String)
  | extend (child parent : String)
  | setVisible (name : String) (visible : Bool)
  | setTransitive (name : String) (transitive : Bool)
  | setDescription (name description : String)
  | exclude (name : String) (rule : ExcludeRule)
  | addArtifact (name : String) (binding : ArtifactBinding)
  | removeArtifacts (name producer : String)
  /-- Declares dependencies, with an action on each if one is given. -/
  | add (name : String) (written : Notation) (action : Option Action)

/-- Carries out an edit, or fails and changes nothing. -/
def Edit.apply (graph : Graph) : Edit → Outcome Graph
  | .create name => graph.create name
  | .ensure name => graph.ensure name
  | .extend child parent => graph.extend child parent
  | .setVisible name visible => graph.setVisible name visible
  | .setTransitive name transitive => graph.setTransitive name transitive
  | .setDescription name description => graph.setDescription name description
  | .exclude name rule => graph.exclude name rule
  | .addArtifact name binding => graph.addArtifact name binding
  | .removeArtifacts name producer => graph.removeArtifacts name producer
  | .add name written action => graph.add name written action

/-- What came of changing a graph, and the graph that this left. -/
abbrev Changed := Outcome Unit × Graph

namespace Graph

/-- The graph after one edit, unchanged if that failed. -/
def edit (graph : Graph) (edit : Edit) : Changed :=
  match edit.apply graph with
  | .ok changed => (.ok (), changed)
  | .error error => (.error error, graph)

/-- The graph after the edits up to the first that failed. -/
def editAll (graph : Graph) : List Edit → Changed
  | [] => (.ok (), graph)
  | first :: rest =>
    match first.apply graph with
    | .ok changed => changed.editAll rest
    | .error error => (.error error, graph)

/-- Edits one after the other are the edits of both lists, unless the first ones fail. -/
theorem editAll_append (graph : Graph) (first second : List Edit) :
    graph.editAll (first ++ second) =
      match graph.editAll first with
      | (.ok _, changed) => changed.editAll second
      | (.error error, changed) => (.error error, changed) := by
  induction first generalizing graph with
  | nil => rfl
  | cons edit rest ih =>
    simp only [List.cons_append, editAll]
    cases edit.apply graph with
    | ok changed => exact ih changed
    | error error => rfl

end Graph

end BuildPath
