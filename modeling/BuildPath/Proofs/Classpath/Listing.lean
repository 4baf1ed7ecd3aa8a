import BuildPath.FileSet
import BuildPath.Proofs.FirstMention
import BuildPath.Proofs.Lazy.Computation
import BuildPath.Proofs.Path.Normal

/-!
# Listings of files

A listing holds normalized paths, each once. Paths are compared by their components, but among
normalized ones that is to compare them outright, so that first mentions are a listing
(`Path.Listing.distinctBy`) that holds what was mentioned (`Path.mem_distinctBy_iff`). What a file
set resolves to is a listing.
-/

namespace BuildPath

namespace Path

/-- Paths as a classpath lists them. -/
structure Listing (files : List Path) : Prop where
  distinct : Ordered.Distinct files
  normal : ∀ path ∈ files, path.Normal

variable {files paths : List Path} {path : Path}

/-- Whether a normalized path is among normalized paths can be told by components. -/
theorem contains_iff_mem (normal : ∀ path ∈ files, path.Normal) (here : path.Normal) :
    files.contains path = true ↔ path ∈ files := by
  rw [List.contains_iff_exists_mem_beq]
  constructor
  · rintro ⟨other, member, same⟩
    rw [eq_of_beq_of_normal same here (normal other member)]
    exact member
  · intro member
    exact ⟨path, member, BEq.rfl⟩

/-- The first mentions of paths, by their components. -/
theorem firstMentions_iff : Ordered.FirstMentions paths files ↔
    files = Ordered.distinctBy components paths :=
  Ordered.firstMentions_iff beq_eq

/-- The first mentions of normalized paths hold exactly these. -/
theorem mem_iff_of_firstMentions (mentions : Ordered.FirstMentions paths files)
    (normal : ∀ path ∈ paths, path.Normal) : path ∈ files ↔ path ∈ paths := by
  constructor
  · intro member
    exact mentions.sublist.subset member
  · intro member
    have kept : ∀ path ∈ files, path.Normal := fun path member =>
      normal path (mentions.sublist.subset member)
    rw [← contains_iff_mem kept (normal path member), mentions.contains_eq]
    exact (contains_iff_mem normal (normal path member)).2 member

namespace Listing

/-- The first mentions of normalized paths are a listing. -/
theorem distinctBy (normal : ∀ path ∈ paths, path.Normal) :
    Listing (Ordered.distinctBy components paths) := by
  have mentions : Ordered.FirstMentions paths (Ordered.distinctBy components paths) :=
    firstMentions_iff.2 rfl
  exact ⟨mentions.distinct, fun path member => normal path (mentions.sublist.subset member)⟩

/-- A selection from a listing is a listing. -/
theorem filter (listing : Listing files) (keeps : Path → Bool) : Listing (files.filter keeps) :=
  ⟨listing.distinct.filter keeps, fun path member =>
    listing.normal path (List.mem_filter.1 member).1⟩

/-- What remains of a listing without the paths of another one. -/
theorem mem_filter_not_contains_iff {removed : List Path} (listing : Listing files)
    (other : Listing removed) :
    path ∈ files.filter (fun path => !(removed.map components).contains path.components) ↔
      path ∈ files ∧ path ∉ removed := by
  rw [List.mem_filter]
  refine and_congr_right fun member => ?_
  rw [Ordered.contains_map_key beq_eq, Bool.not_eq_true', ← Bool.not_eq_true,
    contains_iff_mem other.normal (listing.normal path member)]

end Listing

end Path

/-- An entry of a file set resolves to normalized paths. -/
theorem FileEntry.normal_of_resolve {entry : FileEntry} {tree : FileTree} {directory : Path}
    {files : List Path} (resolved : entry.resolve tree directory = .ok files) :
    ∀ path ∈ files, path.Normal := by
  cases entry with
  | path file =>
    cases resolved
    rintro path member
    rw [List.mem_singleton.1 member]
    exact Path.normal_normalize _
  | glob pattern =>
    obtain ⟨found, -, sorted⟩ := Outcome.bind_eq_ok_iff.1 resolved
    cases sorted
    intro path member
    obtain ⟨written, -, rfl⟩ := List.mem_map.1 (List.mem_mergeSort.1 member)
    exact Path.normal_normalize written

namespace FileSet

variable {set : FileSet} {tree : FileTree} {root : Path} {files : List Path}
  (resolved : set.resolve tree root = .ok files)
include resolved

/-- A file set resolves to a listing. -/
theorem listing_of_resolve : Path.Listing files := by
  obtain ⟨parts, found, listed⟩ := Outcome.bind_eq_ok_iff.1 resolved
  cases listed
  refine Path.Listing.distinctBy fun path member => ?_
  obtain ⟨part, present, member⟩ := List.mem_flatten.1 member
  obtain ⟨entry, -, resolved⟩ := Outcome.exists_of_mem_mapM_eq_ok found part present
  exact FileEntry.normal_of_resolve resolved path member

/-- A file of a set is found by an entry. -/
theorem exists_entry_of_mem {file : Path} (member : file ∈ files) :
    ∃ entry ∈ set.entries, ∃ part,
      entry.resolve tree (set.directory root) = .ok part ∧ file ∈ part := by
  obtain ⟨parts, found, listed⟩ := Outcome.bind_eq_ok_iff.1 resolved
  cases listed
  have among := (Ordered.distinctFrom_sublist [] parts.flatten).subset member
  obtain ⟨part, present, inside⟩ := List.mem_flatten.1 among
  obtain ⟨entry, given, resolves⟩ := Outcome.exists_of_mem_mapM_eq_ok found part present
  exact ⟨entry, given, part, resolves, inside⟩

/-- Every entry of a set finds its part of the files. -/
theorem exists_part_of_entry {entry : FileEntry} (given : entry ∈ set.entries) :
    ∃ part, entry.resolve tree (set.directory root) = .ok part ∧ ∀ file ∈ part, file ∈ files := by
  obtain ⟨parts, found, listed⟩ := Outcome.bind_eq_ok_iff.1 resolved
  cases listed
  obtain ⟨part, present, resolves⟩ := Outcome.exists_mem_of_mapM_eq_ok found entry given
  refine ⟨part, resolves, fun file member => ?_⟩
  refine (Path.mem_iff_of_firstMentions (Path.firstMentions_iff.2 rfl) ?_).2
    (List.mem_flatten.2 ⟨part, present, member⟩)
  intro path among
  obtain ⟨other, there, inside⟩ := List.mem_flatten.1 among
  obtain ⟨entry, -, resolves⟩ := Outcome.exists_of_mem_mapM_eq_ok found other there
  exact FileEntry.normal_of_resolve resolves path inside

end FileSet

end BuildPath
