/-!
# Hierarchies

Inheritance is a list of edges from child to parent, in the order in which they were added. The
hierarchy of a name is everything that can be reached from it, depth first, parents in that order,
each name once. It ends on every list of edges, cyclic ones included: each step either takes a name
that was met before off the stack or uses up the edges of a new one.
-/

namespace BuildPath

/-- An inheritance of one configuration from another. -/
structure Inheritance where
  child : String
  parent : String
  deriving DecidableEq, Repr

namespace Inheritance

/-- The parents of a name, in the order of the edges. -/
def parents (edges : List Inheritance) (name : String) : List String :=
  (edges.filter fun edge => edge.child == name).map Inheritance.parent

/-- The edges whose child was not visited yet. -/
def unused (edges : List Inheritance) (visited : List String) : List Inheritance :=
  edges.filter fun edge => !visited.contains edge.child

/-- Visiting a new name uses up exactly its edges. -/
theorem length_unused_cons {edges : List Inheritance} {visited : List String} {name : String}
    (new : visited.contains name = false) :
    (unused edges (name :: visited)).length + (parents edges name).length =
      (unused edges visited).length := by
  induction edges with
  | nil => rfl
  | cons edge edges ih =>
    simp only [unused, parents, List.length_map, List.contains_cons] at ih ⊢
    by_cases same : edge.child = name
    · simp only [same, List.filter_cons, beq_self_eq_true, Bool.true_or,
        Bool.not_true, Bool.false_eq_true, if_false, if_true, new, Bool.not_false,
        List.length_cons]
      omega
    · have differs : (edge.child == name) = false := by simpa using same
      cases seen : visited.contains edge.child <;>
        simp only [List.filter_cons, differs, seen, Bool.false_or,
          Bool.not_false, Bool.not_true, Bool.false_eq_true, if_true, if_false,
          List.length_cons] <;>
        omega

/-- The names met from here on: those on the stack, top first, and all that they lead to, without
those visited before. -/
def reach (edges : List Inheritance) (visited : List String) (stack : List String) :
    List String :=
  match stack with
  | [] => []
  | name :: rest =>
    if _ : visited.contains name then reach edges visited rest
    else
      let next := (parents edges name).filter fun parent => !(name :: visited).contains parent
      name :: reach edges (name :: visited) (next ++ rest)
termination_by stack.length + (unused edges visited).length
decreasing_by
  · simp
  · have new : visited.contains name = false := Bool.eq_false_iff.2 ‹_›
    have used := @length_unused_cons edges visited name new
    have fewer := List.length_filter_le (fun parent => !(name :: visited).contains parent)
      (parents edges name)
    simp only [List.length_append, List.length_cons]
    omega

/-- A name followed by everything that it inherits from, nearest parents first. -/
def hierarchy (edges : List Inheritance) (name : String) : List String :=
  reach edges [] [name]

end Inheritance

end BuildPath
