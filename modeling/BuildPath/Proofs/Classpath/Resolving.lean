import BuildPath.Classpath.Resolver
import BuildPath.Proofs.Classpath.Listing
import BuildPath.Proofs.Equality
import BuildPath.Proofs.Path.Append

/-!
# Resolving equal dependencies

Equal dependencies may be written differently, and still they resolve to the same files
(`Layout.mem_of_resolve`), with one exception: patterns are expanded in their base directory by its
text, so that two file collections are equal and yet find different files by a pattern when their
bases are spelled differently (`Dependency.Respelled`). Exclude rules take files away only: with
fewer of them nothing is lost.
-/

namespace BuildPath

/-- A file that a file collection finds by a pattern, in a base directory that is spelled
differently in another collection. -/
def Dependency.Respelled (tree : FileTree) (root : Path) (left right : Dependency) (file : Path) :
    Prop :=
  ∃ details twin pattern found, left = .files details ∧ right = .files twin ∧
    details.files.base ≠ twin.files.base ∧ .glob pattern ∈ details.files.entries ∧
    (FileEntry.glob pattern).resolve tree (details.files.directory root) = .ok found ∧ file ∈ found

variable {tree : FileTree}

/-- A file that is found by a pattern is normalized. -/
theorem Dependency.Respelled.normal {root file : Path} {left right : Dependency}
    (respelled : left.Respelled tree root right file) : file.Normal := by
  obtain ⟨details, twin, pattern, found, -, -, -, -, expands, among⟩ := respelled
  exact FileEntry.normal_of_resolve expands file among

/-- Equal entries in equal directories resolve alike, patterns if the directories are spelled
alike. -/
theorem FileEntry.resolve_congr {left right : FileEntry} {directory other : Path}
    (same : (left == right) = true) (directories : (directory == other) = true)
    (spelled : ∀ pattern, left = .glob pattern → directory = other) :
    left.resolve tree directory = right.resolve tree other := by
  rw [FileEntry.beq_iff_key] at same
  cases left with
  | path file =>
    cases right with
    | glob pattern => simp [key] at same
    | path again =>
      have files : (file == again) = true := Path.beq_iff.2 (Sum.inl.inj same)
      exact congrArg (fun path => Except.ok [path])
        (Path.normalize_congr (Path.append_congr directories files))
  | glob pattern =>
    cases right with
    | path again => simp [key] at same
    | glob again => rw [spelled pattern rfl, Sum.inr.inj same]

/-- Equal file sets are relative to equal directories. -/
theorem FileSet.directory_congr {left right : FileSet} (same : (left == right) = true)
    (root : Path) : (left.directory root == right.directory root) = true := by
  have bases := congrArg Prod.fst ((FileSet.beq_iff_key _ _).1 same)
  unfold directory
  cases here : left.base with
  | none =>
    cases there : right.base with
    | none => exact BEq.rfl
    | some base => simp [key, here, there] at bases
  | some base =>
    cases there : right.base with
    | none => simp [key, here, there] at bases
    | some other =>
      simp only [key, here, there, Option.map_some, Option.some.injEq] at bases
      exact Path.append_congr BEq.rfl (Path.beq_iff.2 bases)

/-- A file of a set is one of an equal set, or it is found by a pattern and the base directories are
spelled differently. -/
theorem FileSet.mem_of_resolve {left right : FileSet} {root : Path} {files found : List Path}
    (same : (left == right) = true) (resolved : left.resolve tree root = .ok files)
    (again : right.resolve tree root = .ok found) {file : Path} (member : file ∈ files) :
    file ∈ found ∨ left.base ≠ right.base ∧ ∃ pattern matched, .glob pattern ∈ left.entries ∧
      (FileEntry.glob pattern).resolve tree (left.directory root) = .ok matched ∧
        file ∈ matched := by
  obtain ⟨entry, given, part, resolves, among⟩ := exists_entry_of_mem resolved member
  obtain ⟨twin, paired, alike⟩ : ∃ twin ∈ right.entries, (entry == twin) = true := by
    have keys : left.entries.map FileEntry.key = right.entries.map FileEntry.key :=
      congrArg Prod.snd ((FileSet.beq_iff_key _ _).1 same)
    have keyed := List.mem_map_of_mem (f := FileEntry.key) given
    rw [keys] at keyed
    obtain ⟨twin, paired, equal⟩ := List.mem_map.1 keyed
    exact ⟨twin, paired, (FileEntry.beq_iff_key _ _).2 equal.symm⟩
  have shared (equal : entry.resolve tree (left.directory root) =
      twin.resolve tree (right.directory root)) : file ∈ found := by
    obtain ⟨other, there, within⟩ := exists_part_of_entry again paired
    cases resolves.symm.trans (equal.trans there)
    exact within file among
  have directories := FileSet.directory_congr same root
  by_cases bases : left.base = right.base
  · refine .inl (shared (FileEntry.resolve_congr alike directories fun _ _ => ?_))
    rw [directory, directory, bases]
  · cases entry with
    | path file => exact .inl (shared (FileEntry.resolve_congr alike directories nofun))
    | glob pattern => exact .inr ⟨bases, pattern, part, given, resolves, among⟩

namespace Layout

variable {layout : Layout} {dependency other : Dependency} {excludes others : List ExcludeRule}
  {files found : List Path}

/-- A module that has a file is not excluded. -/
theorem not_excludes_of_resolve {details : ModuleDependency} {file : Path}
    (resolved : layout.resolve tree (.externalModule details) excludes = .ok files)
    (member : file ∈ files) :
    ∀ rule ∈ excludes, rule.excludes details.group details.name = false := by
  rw [resolve] at resolved
  split at resolved
  · cases resolved
    exact absurd member List.not_mem_nil
  next kept =>
    rw [Bool.not_eq_true, List.any_eq_false] at kept
    exact fun rule given => Bool.eq_false_iff.2 (kept rule given)

/-- A module that is not excluded has one file. -/
theorem resolve_of_not_excludes {details : ModuleDependency}
    (kept : ∀ rule ∈ excludes, rule.excludes details.group details.name = false) :
    layout.resolve tree (.externalModule details) excludes = .ok [layout.modulePath details] := by
  have none_applies : excludes.any (·.excludes details.group details.name) = false :=
    List.any_eq_false.2 fun rule given => Bool.eq_false_iff.1 (kept rule given)
  simp only [resolve, none_applies, Bool.false_eq_true, if_false]

/-- A file of a dependency is one of an equal dependency under fewer rules, unless that is spelled
differently. -/
theorem mem_of_resolve (same : (dependency == other) = true)
    (fewer : ∀ rule ∈ others, rule ∈ excludes)
    (resolved : layout.resolve tree dependency excludes = .ok files)
    (again : layout.resolve tree other others = .ok found) {file : Path} (member : file ∈ files) :
    file ∈ found ∨ dependency.Respelled tree layout.root other file := by
  have keys := (Dependency.beq_iff_key _ _).1 same
  cases dependency with
  | externalModule details =>
    cases other with
    | project _ => simp [Dependency.key] at keys
    | files _ => simp [Dependency.key] at keys
    | externalModule again =>
      cases Sum.inl.inj keys
      have kept := not_excludes_of_resolve resolved member
      rw [resolve_of_not_excludes kept] at resolved
      rw [resolve_of_not_excludes fun rule given => kept rule (fewer rule given)] at again
      cases resolved
      cases again
      exact .inl member
  | project details =>
    cases other with
    | externalModule _ => simp [Dependency.key] at keys
    | files _ => simp [Dependency.key] at keys
    | project again =>
      cases Sum.inl.inj (Sum.inr.inj keys)
      cases resolved
      cases again
      exact .inl member
  | files details =>
    cases other with
    | externalModule _ => simp [Dependency.key] at keys
    | project _ => simp [Dependency.key] at keys
    | files twin =>
      have sets : (details.files == twin.files) = true :=
        (FileSet.beq_iff_key _ _).2 (congrArg Prod.fst (Sum.inr.inj (Sum.inr.inj keys)))
      refine (FileSet.mem_of_resolve sets resolved again member).imp_right ?_
      rintro ⟨differ, pattern, matched, entry, expands, among⟩
      exact ⟨details, twin, pattern, matched, rfl, rfl, differ, entry, expands, among⟩

end Layout

end BuildPath
