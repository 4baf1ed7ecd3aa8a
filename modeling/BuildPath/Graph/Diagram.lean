import BuildPath.Graph.Basic

/-!
# Diagrams

The inheritance of a graph as a Mermaid diagram that is read from bottom to top: a node for each
configuration, numbered in the order of creation, and an arrow from each child to its parent.
-/

namespace BuildPath.Graph

/-- A name inside a quoted node label. -/
def nodeLabel (name : String) : String :=
  name.toList.foldl (fun shown character =>
    if character == '"' then shown ++ "\\\"" else shown.push character) ""

/-- The line of a node. -/
def nodeLine (index : Nat) (name : String) : String :=
  s!"    {index}[\"" ++ nodeLabel name ++ "\"]\n"

/-- The line of an arrow. -/
def arrowLine (names : List String) (inheritance : Inheritance) : String :=
  let child := names.idxOf inheritance.child
  let parent := names.idxOf inheritance.parent
  s!"    {child} --> {parent}\n"

/-- The diagram of a graph. -/
def diagram (graph : Graph) : String :=
  let nodes := graph.names.zipIdx.map fun (name, index) => nodeLine index name
  let arrows := graph.inheritances.map (arrowLine graph.names)
  "graph BT\n" ++ String.join (nodes ++ arrows)

end BuildPath.Graph
