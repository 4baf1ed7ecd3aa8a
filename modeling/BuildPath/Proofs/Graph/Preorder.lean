import BuildPath.Proofs.Graph.Effective
import Mathlib.Logic.Function.Iterate

/-!
# Hierarchies in preorder

A hierarchy is listed with a stack: a name is taken off, and if it is new, it is listed and its
parents go onto the stack, the first on top. This ends on all edges, cyclic ones included, after at
most one name more than there are edges was taken off (`Traversal.iterate_step`). What it lists is
the preorder of a recursive search that passes over the names it met before (`preorder`): the stack
holds, in order, what remains to be searched (`reach_eq_preorder`).
-/

namespace BuildPath

namespace Inheritance

/-- The more names were visited, the fewer edges are unused. -/
theorem length_unused_append_le (edges : List Inheritance) (more visited : List String) :
    (unused edges (more ++ visited)).length ≤ (unused edges visited).length := by
  refine (List.monotone_filter_right edges fun edge fresh => ?_).length_le
  simp only [List.contains_append, Bool.not_eq_true', Bool.or_eq_false_iff] at fresh
  simpa using fresh.2

/-- The names met when each of some names is searched in turn: the name itself and then, before the
next one, whatever its parents lead to. Names that were met before are passed over. -/
def preorder (edges : List Inheritance) (visited names : List String) : List String :=
  match names with
  | [] => []
  | name :: rest =>
    if _ : visited.contains name then preorder edges visited rest
    else
      let above := preorder edges (name :: visited) (parents edges name)
      name :: above ++ preorder edges (above.reverse ++ name :: visited) rest
termination_by names.length + (unused edges visited).length
decreasing_by
  · simp
  · have new : visited.contains name = false := Bool.eq_false_iff.2 ‹_›
    have used := @length_unused_cons edges visited name new
    simp only [List.length_cons]
    omega
  · have new : visited.contains name = false := Bool.eq_false_iff.2 ‹_›
    have used := @length_unused_cons edges visited name new
    refine Nat.lt_of_le_of_lt (Nat.add_le_add_left (length_unused_append_le _ _ _) _) ?_
    simp only [List.length_cons]
    omega

variable {edges : List Inheritance} {visited names rest : List String} {name : String}

/-- Nothing is met when nothing is searched. -/
@[simp] theorem preorder_nil (visited : List String) : preorder edges visited [] = [] := by
  rw [preorder]

/-- A name that was met before is passed over. -/
theorem preorder_cons_of_mem (met : name ∈ visited) :
    preorder edges visited (name :: rest) = preorder edges visited rest := by
  rw [preorder, dif_pos (List.contains_iff_mem.2 met)]

/-- A new name is met, then what its parents lead to, then what the others lead to besides. -/
theorem preorder_cons_of_not_mem (new : name ∉ visited) :
    preorder edges visited (name :: rest) =
      name :: preorder edges (name :: visited) (parents edges name) ++
        preorder edges ((preorder edges (name :: visited) (parents edges name)).reverse ++
          name :: visited) rest := by
  rw [preorder, dif_neg (mt List.contains_iff_mem.1 new)]

/-- Names are searched one after the other. -/
theorem preorder_append (visited names more : List String) :
    preorder edges visited (names ++ more) = preorder edges visited names ++
      preorder edges ((preorder edges visited names).reverse ++ visited) more := by
  induction names generalizing visited with
  | nil => simp
  | cons name rest ih =>
    by_cases met : name ∈ visited
    · rw [List.cons_append, preorder_cons_of_mem met, preorder_cons_of_mem met, ih]
    · rw [List.cons_append, preorder_cons_of_not_mem met, preorder_cons_of_not_mem met, ih]
      simp only [List.cons_append, List.append_assoc, List.reverse_append, List.reverse_cons,
        List.nil_append]

/-- Names that were met before may be left out of a search. -/
theorem preorder_filter {keeps : String → Bool}
    (met : ∀ name ∈ names, keeps name = false → name ∈ visited) :
    preorder edges visited (names.filter keeps) = preorder edges visited names := by
  induction names generalizing visited with
  | nil => rfl
  | cons name rest ih =>
    obtain ⟨here, later⟩ := List.forall_mem_cons.1 met
    by_cases seen : name ∈ visited
    · rw [preorder_cons_of_mem seen, List.filter_cons]
      split
      · rw [preorder_cons_of_mem seen, ih later]
      · exact ih later
    · have kept : keeps name = true := by
        by_contra dropped
        exact seen (here (Bool.eq_false_iff.2 dropped))
      rw [List.filter_cons_of_pos kept, preorder_cons_of_not_mem seen,
        preorder_cons_of_not_mem seen, ih fun name among dropped =>
          List.mem_append_right _ (List.mem_cons_of_mem _ (later name among dropped))]

/-- The stack holds what remains to be searched. -/
theorem reach_eq_preorder (visited stack : List String) :
    reach edges visited stack = preorder edges visited stack := by
  induction visited, stack using reach.induct edges with
  | case1 visited => simp
  | case2 visited name rest met ih =>
    have met := List.contains_iff_mem.1 met
    rw [reach_cons_of_mem met, preorder_cons_of_mem met, ih]
  | case3 visited name rest unmet _ ih =>
    have new : name ∉ visited := mt List.contains_iff_mem.2 unmet
    rw [reach_cons_of_not_mem new, preorder_cons_of_not_mem new, ih, preorder_append,
      preorder_filter, List.cons_append]
    intro parent _ dropped
    exact List.contains_iff_mem.1 (Bool.not_eq_false' _ ▸ dropped)

/-- A traversal under way: the names that were listed so far, and those on the stack, top first. -/
structure Traversal where
  listed : List String
  stack : List String

namespace Traversal

/-- Takes the top name off the stack. If it is new, it is listed, and its parents go onto the stack
in its place, but those listed already. -/
def step (edges : List Inheritance) (traversal : Traversal) : Traversal :=
  match traversal.stack with
  | [] => traversal
  | name :: rest =>
    if traversal.listed.contains name then ⟨traversal.listed, rest⟩
    else
      let listed := traversal.listed ++ [name]
      ⟨listed, ((parents edges name).filter fun parent => !listed.contains parent) ++ rest⟩

/-- The traversal that lists a hierarchy, before its first step. -/
def start (name : String) : Traversal := ⟨[], [name]⟩

/-- What a traversal comes to list. -/
def listing (edges : List Inheritance) (traversal : Traversal) : List String :=
  traversal.listed ++ reach edges traversal.listed.reverse traversal.stack

/-- How many steps a traversal may still take. -/
def remaining (edges : List Inheritance) (traversal : Traversal) : Nat :=
  traversal.stack.length + (unused edges traversal.listed.reverse).length

variable {traversal : Traversal} {listed : List String}

/-- A name that was listed is taken off the stack, and that is all. -/
theorem step_cons_of_mem (met : name ∈ listed) :
    step edges ⟨listed, name :: rest⟩ = ⟨listed, rest⟩ :=
  if_pos (List.contains_iff_mem.2 met)

/-- A new name is listed, and its parents take its place, but those listed. -/
theorem step_cons_of_not_mem (new : name ∉ listed) :
    step edges ⟨listed, name :: rest⟩ = ⟨listed ++ [name], ((parents edges name).filter
      fun parent => !(name :: listed.reverse).contains parent) ++ rest⟩ := by
  simp [step, new, or_comm]

/-- With an empty stack the traversal has ended. -/
theorem eq_of_stack_eq_nil (empty : traversal.stack = []) :
    traversal = ⟨traversal.listing edges, []⟩ ∧ traversal.step edges = traversal := by
  obtain ⟨listed, stack⟩ := traversal
  cases empty
  simp [listing, step]

/-- A step makes no difference to what a traversal comes to list. -/
theorem listing_step : (traversal.step edges).listing edges = traversal.listing edges := by
  obtain ⟨listed, stack⟩ := traversal
  cases stack with
  | nil => rfl
  | cons name rest =>
    by_cases met : name ∈ listed
    · rw [step_cons_of_mem met, listing, listing, reach_cons_of_mem (List.mem_reverse.2 met)]
    · rw [step_cons_of_not_mem met, listing, listing,
        reach_cons_of_not_mem (mt List.mem_reverse.1 met), List.reverse_append, List.append_assoc]
      rfl

/-- Each name taken off the stack leaves fewer steps: a listed one shortens the stack, and a new one
uses up the edges that put its parents there. -/
theorem remaining_step_lt (waiting : traversal.stack ≠ []) :
    (traversal.step edges).remaining edges < traversal.remaining edges := by
  obtain ⟨listed, stack⟩ := traversal
  cases stack with
  | nil => contradiction
  | cons name rest =>
    by_cases met : name ∈ listed
    · simp [step_cons_of_mem met, remaining]
    · have used := @length_unused_cons edges listed.reverse name (by simpa using met)
      have fewer := List.length_filter_le
        (fun parent => !(name :: listed.reverse).contains parent) (parents edges name)
      simp only [step_cons_of_not_mem met, remaining, List.reverse_append, List.reverse_singleton,
        List.singleton_append, List.length_append, List.length_cons]
      omega

/-- A traversal ends, with what it comes to list, once no step remains. -/
theorem iterate_step {count : Nat} (enough : traversal.remaining edges ≤ count) :
    (step edges)^[count] traversal = ⟨traversal.listing edges, []⟩ := by
  induction count generalizing traversal with
  | zero =>
    have empty : traversal.stack = [] := by
      rw [← List.length_eq_zero_iff]
      exact Nat.eq_zero_of_add_eq_zero_right (Nat.le_zero.1 enough)
    exact (eq_of_stack_eq_nil empty).1
  | succ count ih =>
    by_cases empty : traversal.stack = []
    · obtain ⟨ended, stays⟩ := @eq_of_stack_eq_nil edges traversal empty
      rw [Function.iterate_fixed stays]
      exact ended
    · have fewer := @remaining_step_lt edges traversal empty
      rw [Function.iterate_succ_apply, ih (by omega), listing_step]

end Traversal

end Inheritance

/-- The traversal of a hierarchy, whatever the edges of the graph are. A known name has a hierarchy.
The traversal has an empty stack after at most one step more than there are edges. It lists the name
first, and everything that edges lead to once, and nothing else, in the preorder of the recursive
search that follows parents in the order of their edges and passes over names met before. -/
theorem Graph.hierarchy_in_preorder (graph : Graph) (start : String) :
    graph.hierarchy start =
      (if graph.contains start then .ok (Inheritance.hierarchy graph.inheritances start)
      else .error (.unknownConfiguration start)) ∧
    (Inheritance.Traversal.step graph.inheritances)^[graph.inheritances.length + 1]
      (.start start) = ⟨Inheritance.hierarchy graph.inheritances start, []⟩ ∧
    (Inheritance.hierarchy graph.inheritances start).head? = some start ∧
    (Inheritance.hierarchy graph.inheritances start).Nodup ∧
    (∀ name, name ∈ Inheritance.hierarchy graph.inheritances start ↔
      Relation.ReflTransGen (Inheritance.Extends graph.inheritances) start name) ∧
    Inheritance.hierarchy graph.inheritances start =
      Inheritance.preorder graph.inheritances [] [start] := by
  refine ⟨?_, ?_, Inheritance.head?_hierarchy start, Inheritance.nodup_hierarchy start,
    fun name => Inheritance.mem_hierarchy_iff, Inheritance.reach_eq_preorder [] [start]⟩
  · unfold hierarchy get contains
    cases graph.find? start <;> rfl
  · -- All edges are unused at first.
    have unvisited : Inheritance.unused graph.inheritances [] = graph.inheritances := by
      simp [Inheritance.unused]
    refine (Inheritance.Traversal.iterate_step ?_).trans rfl
    simp [Inheritance.Traversal.remaining, Inheritance.Traversal.start, unvisited, Nat.add_comm]

example : Inheritance.hierarchy [⟨"app", "lib"⟩, ⟨"app", "base"⟩, ⟨"lib", "base"⟩, ⟨"base", "app"⟩]
    "app" = ["app", "lib", "base"] := by cbv

end BuildPath
