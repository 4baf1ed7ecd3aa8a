import BuildPath.Proofs.FirstMention
import BuildPath.Proofs.Graph.Editing
import BuildPath.Proofs.Graph.WellFormed

/-!
# Links in a row

Links are tested one at a time, each against those that were there when its turn came. Where every
child takes changes, this comes to one condition on all of them together: the links are made exactly
if their ends are known and no cycle is closed in the end (`Graph.editAll_links_eq_ok_iff`). What is
then there is each link at its first mention, and so the parents of a name are those that were asked
for, each at its first mention (`Inheritance.firstMentions_parents`).
-/

namespace BuildPath

open Relation

namespace Inheritance

/-- The edit that makes a link. -/
def edit (link : Inheritance) : Edit := .extend link.child link.parent

variable {links kept : List Inheritance}

/-- Some of the links close no more cycles than all of them. -/
theorem Acyclic.mono (acyclic : Acyclic links) (fewer : kept ⊆ links) : Acyclic kept := by
  intro name cycle
  exact acyclic name (TransGen.mono (fun _ _ edge => fewer edge) name name cycle)

/-- Links at their first mentions lead to the parents at their first mentions. -/
theorem firstMentions_parents (mentions : Ordered.FirstMentions links kept) (name : String) :
    Ordered.FirstMentions (parents links name) (parents kept name) := by
  have mentioned {links : List Inheritance} {link : Inheritance} :
      (parents links link.child).contains link.parent = links.contains link := by
    rw [Bool.eq_iff_iff, List.contains_iff_mem, List.contains_iff_mem, mem_parents, Extends]
  induction mentions with
  | nothing => exact .nothing
  | @first links kept link prior new ih =>
    rw [parents_concat, parents_concat]
    by_cases same : link.child = name
    · subst same
      rw [if_pos rfl]
      exact .first ih (mentioned.trans new)
    · simpa [same] using ih
  | @again links kept link prior again ih =>
    rw [parents_concat]
    by_cases same : link.child = name
    · subst same
      rw [if_pos rfl]
      exact .again ih (mentioned.trans again)
    · simpa [same] using ih

end Inheritance

namespace Graph

variable {graph after : Graph}

/-- A link between known configurations of which the child takes changes is made exactly if it
closes no cycle. -/
theorem apply_link_eq_ok_iff {link : Inheritance}
    (acyclic : Inheritance.Acyclic graph.inheritances)
    (changeable : ∀ configuration, graph.find? link.child = some configuration →
      graph.isMutable configuration = true) :
    link.edit.apply graph = .ok after ↔
      (graph.contains link.child = true ∧ graph.contains link.parent = true) ∧
        Inheritance.Acyclic (graph.inheritances ++ [link]) ∧
        after = { graph with inheritances := Ordered.insert graph.inheritances link } := by
  refine extend_eq_ok_iff.trans ?_
  by_cases edge : link ∈ graph.inheritances
  · have same : Inheritance.Acyclic (graph.inheritances ++ [link]) := acyclic.mono (by simp [edge])
    have there : Inheritance.Extends graph.inheritances link.child link.parent := edge
    simp [there, same, Ordered.insert_of_mem edge, contains, Option.isSome_iff_exists, and_assoc]
  · have new : ¬Inheritance.Extends graph.inheritances link.child link.parent := edge
    rw [Inheritance.acyclic_concat_iff acyclic, Ordered.insert_of_not_mem edge]
    constructor
    · rintro ⟨inheriting, found, parent, ⟨impossible, -⟩ | ⟨-, apart, -, rfl⟩⟩
      · exact absurd impossible new
      · exact ⟨⟨by simp [contains, found], parent⟩, apart, rfl⟩
    · rintro ⟨⟨child, parent⟩, apart, rfl⟩
      obtain ⟨inheriting, found⟩ := Option.isSome_iff_exists.1 child
      exact ⟨inheriting, found, parent, .inr ⟨new, apart, changeable _ found, rfl⟩⟩

/-- Links are made in a row exactly if their ends are known and they close no cycle together, where
every child takes changes. Each is then there, at its first mention. -/
theorem editAll_links_eq_ok_iff {links : List Inheritance}
    (acyclic : Inheritance.Acyclic graph.inheritances)
    (changeable : ∀ link ∈ links, ∀ configuration, graph.find? link.child = some configuration →
      graph.isMutable configuration = true) :
    graph.editAll (links.map Inheritance.edit) = (.ok (), after) ↔
      (∀ link ∈ links, graph.contains link.child = true ∧ graph.contains link.parent = true) ∧
        Inheritance.Acyclic (graph.inheritances ++ links) ∧
        after = { graph with inheritances := links.foldl Ordered.insert graph.inheritances } := by
  induction links generalizing graph with
  | nil => simp [editAll, acyclic, @eq_comm _ after]
  | cons link links ih =>
    obtain ⟨here, later⟩ := List.forall_mem_cons.1 changeable
    have onward (open_ : Inheritance.Acyclic (graph.inheritances ++ [link])) :=
      @ih { graph with inheritances := Ordered.insert graph.inheritances link }
        (open_.mono fun other member => by simpa [Ordered.mem_insert] using member) later
    -- The condition on all links does not depend on how many of them are there already.
    have together : Inheritance.Acyclic (Ordered.insert graph.inheritances link ++ links) ↔
        Inheritance.Acyclic (graph.inheritances ++ link :: links) := by
      constructor <;> refine fun all => all.mono fun other member => ?_
      · simpa [Ordered.mem_insert, or_assoc] using member
      · simpa [Ordered.mem_insert, or_assoc] using member
    rw [List.map_cons, editAll_cons_eq_ok_iff, List.forall_mem_cons, List.foldl_cons, ← together]
    simp only [apply_link_eq_ok_iff acyclic here]
    constructor
    · rintro ⟨_, ⟨ends, open_, rfl⟩, done⟩
      obtain ⟨others, all⟩ := (onward open_).1 done
      exact ⟨⟨ends, others⟩, all⟩
    · rintro ⟨⟨ends, others⟩, all, rfl⟩
      have open_ : Inheritance.Acyclic (graph.inheritances ++ [link]) :=
        (together.1 all).mono (by simp)
      exact ⟨_, ⟨ends, open_, rfl⟩, (onward open_).2 ⟨others, all, rfl⟩⟩

end Graph

end BuildPath
