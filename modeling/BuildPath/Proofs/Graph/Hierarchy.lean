import BuildPath.Graph.Hierarchy
import Mathlib.Logic.Relation

/-!
# What a hierarchy reaches

The traversal that lists a hierarchy agrees with reachability along edges: it starts with the name
itself (`head?_hierarchy`), mentions no name twice (`nodup_hierarchy`) and mentions exactly the
names that edges lead to (`mem_hierarchy_iff`), whether or not the edges have cycles. It looks at
nothing but the parents of the names that it mentions (`hierarchy_congr`).

An edge from a name to one that does not lead back to it closes no cycle
(`Acyclic.concat`), which is why a test of reachability before each edge keeps cycles out.
-/

namespace BuildPath.Inheritance

open Relation

/-- One edge of a list leads from a child to a parent. -/
def Extends (edges : List Inheritance) (child parent : String) : Prop :=
  ⟨child, parent⟩ ∈ edges

/-- No name inherits from itself, however indirectly. -/
def Acyclic (edges : List Inheritance) : Prop :=
  ∀ name, ¬TransGen (Extends edges) name name

variable {edges : List Inheritance}

/-- The parents of a name are those that an edge leads to. -/
@[simp] theorem mem_parents {name parent : String} :
    parent ∈ parents edges name ↔ Extends edges name parent := by
  constructor
  · intro member
    obtain ⟨⟨child, _⟩, edge, rfl⟩ := List.mem_map.1 member
    obtain ⟨edge, same⟩ := List.mem_filter.1 edge
    rw [Extends, ← eq_of_beq same]
    exact edge
  · intro edge
    exact List.mem_map.2 ⟨⟨name, parent⟩, List.mem_filter.2 ⟨edge, beq_self_eq_true name⟩, rfl⟩

/-- The parents by more edges come after those by the edges before. -/
theorem parents_append (edges more : List Inheritance) (name : String) :
    parents (edges ++ more) name = parents edges name ++ parents more name := by
  rw [parents, List.filter_append, List.map_append]
  rfl

/-- The parents by edges of one child are all of them or none. -/
theorem parents_map_mk (child : String) (listed : List String) (name : String) :
    parents (listed.map (mk child)) name = if child = name then listed else [] := by
  by_cases same : child = name <;> simp [parents, List.filter_map, Function.comp_def, same]

/-- One more edge leads to one more parent of its child. -/
theorem parents_concat (edges : List Inheritance) (edge : Inheritance) (name : String) :
    parents (edges ++ [edge]) name =
      parents edges name ++ if edge.child = name then [edge.parent] else [] :=
  (parents_append edges [edge] name).trans
    (congrArg _ (parents_map_mk edge.child [edge.parent] name))

/-- An edge from one name is not among those of another one. -/
theorem parents_concat_of_ne {child parent name : String} (apart : child ≠ name) :
    parents (edges ++ [⟨child, parent⟩]) name = parents edges name := by
  rw [parents_concat, if_neg apart, List.append_nil]

/-- The traversal ends with an empty stack. -/
@[simp] theorem reach_nil (visited : List String) : reach edges visited [] = [] := by
  rw [reach]

/-- A name that was visited is passed over. -/
theorem reach_cons_of_mem {visited stack : List String} {name : String} (met : name ∈ visited) :
    reach edges visited (name :: stack) = reach edges visited stack := by
  rw [reach, dif_pos (List.contains_iff_mem.2 met)]

/-- A new name is mentioned, and its parents go onto the stack, but those visited. -/
theorem reach_cons_of_not_mem {visited stack : List String} {name : String}
    (new : name ∉ visited) :
    reach edges visited (name :: stack) =
      name :: reach edges (name :: visited)
        ((parents edges name).filter (fun parent => !(name :: visited).contains parent) ++
          stack) := by
  rw [reach, dif_neg (mt List.contains_iff_mem.1 new)]

/-- Names mentioned are new. -/
theorem not_mem_visited_of_mem_reach {visited stack : List String} {name : String}
    (member : name ∈ reach edges visited stack) : name ∉ visited := by
  induction visited, stack using reach.induct edges with
  | case1 visited => simp at member
  | case2 visited first rest met ih =>
    rw [reach_cons_of_mem (List.contains_iff_mem.1 met)] at member
    exact ih member
  | case3 visited first rest new _ ih =>
    have new : first ∉ visited := mt List.contains_iff_mem.2 new
    rw [reach_cons_of_not_mem new] at member
    rcases List.mem_cons.1 member with rfl | later
    · exact new
    · exact fun before => ih later (List.mem_cons_of_mem _ before)

/-- No name is mentioned twice. -/
theorem nodup_reach (visited stack : List String) : (reach edges visited stack).Nodup := by
  induction visited, stack using reach.induct edges with
  | case1 visited => simp
  | case2 visited first rest met ih =>
    rw [reach_cons_of_mem (List.contains_iff_mem.1 met)]
    exact ih
  | case3 visited first rest new _ ih =>
    rw [reach_cons_of_not_mem (mt List.contains_iff_mem.2 new)]
    refine List.nodup_cons.2 ⟨fun later => ?_, ih⟩
    exact not_mem_visited_of_mem_reach later List.mem_cons_self

/-- What is mentioned can be reached from the stack. -/
theorem reachable_of_mem_reach {visited stack : List String} {name : String}
    (member : name ∈ reach edges visited stack) :
    ∃ start ∈ stack, ReflTransGen (Extends edges) start name := by
  induction visited, stack using reach.induct edges with
  | case1 visited => simp at member
  | case2 visited first rest met ih =>
    rw [reach_cons_of_mem (List.contains_iff_mem.1 met)] at member
    obtain ⟨start, waiting, path⟩ := ih member
    exact ⟨start, List.mem_cons_of_mem _ waiting, path⟩
  | case3 visited first rest new _ ih =>
    rw [reach_cons_of_not_mem (mt List.contains_iff_mem.2 new)] at member
    rcases List.mem_cons.1 member with rfl | later
    · exact ⟨name, List.mem_cons_self, .refl⟩
    · obtain ⟨start, waiting, path⟩ := ih later
      rcases List.mem_append.1 waiting with above | waiting
      · have edge := mem_parents.1 (List.mem_filter.1 above).1
        exact ⟨first, List.mem_cons_self, path.head edge⟩
      · exact ⟨start, List.mem_cons_of_mem _ waiting, path⟩

/-- Everything on the stack was visited or is mentioned. -/
theorem mem_reach_of_mem_stack {visited stack : List String} {name : String}
    (waiting : name ∈ stack) (new : name ∉ visited) : name ∈ reach edges visited stack := by
  induction visited, stack using reach.induct edges with
  | case1 visited => simp at waiting
  | case2 visited first rest met ih =>
    have met := List.contains_iff_mem.1 met
    rw [reach_cons_of_mem met]
    rcases List.mem_cons.1 waiting with rfl | waiting
    · exact absurd met new
    · exact ih waiting new
  | case3 visited first rest unmet _ ih =>
    rw [reach_cons_of_not_mem (mt List.contains_iff_mem.2 unmet)]
    by_cases same : name = first
    · exact same ▸ List.mem_cons_self
    · refine List.mem_cons_of_mem _ (ih ?_ (by simp [same, new]))
      rcases List.mem_cons.1 waiting with first | waiting
      · exact absurd first same
      · exact List.mem_append_right _ waiting

/-- Parents of what is mentioned were visited or are mentioned. -/
theorem mem_reach_of_extends {visited stack : List String} {name parent : String}
    (member : name ∈ reach edges visited stack) (edge : Extends edges name parent)
    (new : parent ∉ visited) : parent ∈ reach edges visited stack := by
  induction visited, stack using reach.induct edges with
  | case1 visited => simp at member
  | case2 visited first rest met ih =>
    rw [reach_cons_of_mem (List.contains_iff_mem.1 met)] at member ⊢
    exact ih member new
  | case3 visited first rest unmet _ ih =>
    rw [reach_cons_of_not_mem (mt List.contains_iff_mem.2 unmet)] at member ⊢
    by_cases same : parent = first
    · exact same ▸ List.mem_cons_self
    have newer : parent ∉ first :: visited := by simp [same, new]
    refine List.mem_cons_of_mem _ ?_
    rcases List.mem_cons.1 member with rfl | later
    · -- The parents of the name just met are on the stack.
      refine mem_reach_of_mem_stack (List.mem_append_left _ (List.mem_filter.2 ?_)) newer
      exact ⟨mem_parents.2 edge, by simpa using newer⟩
    · exact ih later newer

/-- A hierarchy mentions exactly what can be reached. -/
@[simp] theorem mem_hierarchy_iff {start name : String} :
    name ∈ hierarchy edges start ↔ ReflTransGen (Extends edges) start name := by
  constructor
  · intro member
    obtain ⟨first, waiting, path⟩ := reachable_of_mem_reach member
    rwa [List.mem_singleton.1 waiting] at path
  · intro path
    induction path with
    | refl => exact mem_reach_of_mem_stack (List.mem_singleton_self _) List.not_mem_nil
    | tail _ edge ih => exact mem_reach_of_extends ih edge List.not_mem_nil

/-- A name without parents is its own hierarchy. -/
theorem hierarchy_of_parents_eq_nil {name : String} (orphan : parents edges name = []) :
    hierarchy edges name = [name] := by
  rw [hierarchy, reach_cons_of_not_mem List.not_mem_nil, orphan]
  exact congrArg (name :: ·) (reach_nil _)

/-- A hierarchy mentions no name twice. -/
theorem nodup_hierarchy (start : String) : (hierarchy edges start).Nodup :=
  nodup_reach [] [start]

/-- A hierarchy starts with the name whose hierarchy it is. -/
theorem head?_hierarchy (start : String) : (hierarchy edges start).head? = some start := by
  rw [hierarchy, reach_cons_of_not_mem List.not_mem_nil, List.head?_cons]

/-- The traversal looks at nothing but the parents of the names that it meets. -/
theorem reach_congr {others : List Inheritance} {within : String → Prop}
    (agree : ∀ name, within name → parents others name = parents edges name)
    (closed : ∀ name parent, within name → Extends edges name parent → within parent)
    (visited stack : List String) (inside : ∀ name ∈ stack, within name) :
    reach others visited stack = reach edges visited stack := by
  induction visited, stack using reach.induct edges with
  | case1 visited => simp
  | case2 visited first rest met ih =>
    have met := List.contains_iff_mem.1 met
    rw [reach_cons_of_mem met, reach_cons_of_mem met]
    exact ih fun name waiting => inside name (List.mem_cons_of_mem _ waiting)
  | case3 visited first rest unmet _ ih =>
    have unmet : first ∉ visited := mt List.contains_iff_mem.2 unmet
    have here := inside first List.mem_cons_self
    rw [reach_cons_of_not_mem unmet, reach_cons_of_not_mem unmet, agree first here, ih]
    intro name waiting
    rcases List.mem_append.1 waiting with above | waiting
    · exact closed first name here (mem_parents.1 (List.mem_filter.1 above).1)
    · exact inside name (List.mem_cons_of_mem _ waiting)

/-- Two lists of edges give the same hierarchy if they give the same parents to all names in a set
that holds the start and that no edge leaves. -/
theorem hierarchy_congr {others : List Inheritance} {within : String → Prop}
    (agree : ∀ name, within name → parents others name = parents edges name)
    (closed : ∀ name parent, within name → Extends edges name parent → within parent)
    {start : String} (inside : within start) : hierarchy others start = hierarchy edges start :=
  reach_congr agree closed [] [start] (by simpa using inside)

/-- One more edge leads to nothing new but by way of itself. -/
theorem transGen_concat {child parent first last : String}
    (path : TransGen (Extends (edges ++ [⟨child, parent⟩])) first last) :
    TransGen (Extends edges) first last ∨
      ReflTransGen (Extends edges) first child ∧ ReflTransGen (Extends edges) parent last := by
  have classify {lower upper : String}
      (edge : Extends (edges ++ [⟨child, parent⟩]) lower upper) :
      Extends edges lower upper ∨ lower = child ∧ upper = parent := by
    rcases List.mem_append.1 edge with old | new
    · exact .inl old
    · exact .inr (by simpa using new)
  induction path with
  | single edge =>
    rcases classify edge with old | ⟨rfl, rfl⟩
    · exact .inl (.single old)
    · exact .inr ⟨.refl, .refl⟩
  | tail _ edge ih =>
    rcases classify edge with old | ⟨rfl, rfl⟩
    · rcases ih with path | ⟨before, after⟩
      · exact .inl (path.tail old)
      · exact .inr ⟨before, after.tail old⟩
    · rcases ih with path | ⟨before, _⟩
      · exact .inr ⟨path.to_reflTransGen, .refl⟩
      · exact .inr ⟨before, .refl⟩

/-- Without edges nothing inherits from itself. -/
theorem acyclic_nil : Acyclic [] := by
  intro name cycle
  obtain ⟨parent, edge, -⟩ := TransGen.head'_iff.1 cycle
  exact List.not_mem_nil edge

/-- An edge to a name that does not lead back closes no cycle. -/
theorem Acyclic.concat {child parent : String} (acyclic : Acyclic edges)
    (apart : ¬ReflTransGen (Extends edges) parent child) :
    Acyclic (edges ++ [⟨child, parent⟩]) := by
  intro name cycle
  rcases transGen_concat cycle with old | ⟨before, after⟩
  · exact acyclic name old
  · exact apart (after.trans before)

/-- An edge closes a cycle exactly when it leads to a name that leads back. -/
theorem acyclic_concat_iff {child parent : String} (acyclic : Acyclic edges) :
    Acyclic (edges ++ [⟨child, parent⟩]) ↔ ¬ReflTransGen (Extends edges) parent child := by
  refine ⟨fun open_ path => open_ child ?_, acyclic.concat⟩
  have edge : Extends (edges ++ [⟨child, parent⟩]) child parent :=
    List.mem_append_right _ (List.mem_singleton_self _)
  exact .head' edge (ReflTransGen.mono (fun _ _ => List.mem_append_left _) _ _ path)

end BuildPath.Inheritance
