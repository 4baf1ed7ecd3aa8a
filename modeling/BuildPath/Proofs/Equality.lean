import BuildPath.Artifact
import BuildPath.Dependency.Basic

/-!
# Equality of dependencies and artifacts

Dependencies and artifacts are compared with `==`, which compares the paths in them by components.
Each of them has a key in which every path is replaced by its components; two are equal exactly when
their keys are, so that `==` is an equivalence and the first mentions of a list of them make sense.
-/

namespace BuildPath

section Lifting

variable {Value Key : Type} [BEq Value] {key : Value → Key}

/-- Optional values are equal when their keys are. -/
theorem option_beq_iff_key (values : ∀ left right : Value, left == right ↔ key left = key right)
    (left right : Option Value) : left == right ↔ left.map key = right.map key := by
  cases left with
  | none => cases right <;> simp
  | some left =>
    cases right with
    | none => simp
    | some right => simpa using values left right

/-- Lists of values are equal when those of their keys are. -/
theorem list_beq_iff_key (values : ∀ left right : Value, left == right ↔ key left = key right)
    (left right : List Value) : left == right ↔ left.map key = right.map key := by
  induction left generalizing right with
  | nil => cases right <;> simp
  | cons first rest ih =>
    cases right with
    | nil => simp
    | cons other others =>
      rw [List.cons_beq_cons, Bool.and_eq_true, values, ih, List.map_cons, List.map_cons,
        List.cons.injEq]

end Lifting

/-- An entry with the components of its path. -/
def FileEntry.key : FileEntry → List Path.Component ⊕ String
  | .path file => .inl file.components
  | .glob pattern => .inr pattern

/-- Entries are equal when their keys are. -/
theorem FileEntry.beq_iff_key (left right : FileEntry) : left == right ↔ left.key = right.key := by
  cases left with
  | path file =>
    cases right with
    | path other =>
      rw [key, key, Sum.inl.injEq]
      exact Path.beq_iff
    | glob pattern => exact iff_of_false Bool.false_ne_true (by simp [key])
  | glob pattern =>
    cases right with
    | path other => exact iff_of_false Bool.false_ne_true (by simp [key])
    | glob other =>
      rw [key, key, Sum.inr.injEq]
      exact beq_iff_eq (a := pattern)

/-- A file set with the components of its paths. -/
def FileSet.key (files : FileSet) :
    Option (List Path.Component) × List (List Path.Component ⊕ String) :=
  (files.base.map Path.components, files.entries.map FileEntry.key)

/-- File sets are equal when their keys are. -/
theorem FileSet.beq_iff_key (left right : FileSet) : left == right ↔ left.key = right.key := by
  change (left.base == right.base && left.entries == right.entries) = true ↔ _
  rw [Bool.and_eq_true, option_beq_iff_key fun _ _ => Path.beq_iff,
    list_beq_iff_key FileEntry.beq_iff_key, key, key, Prod.mk.injEq]

/-- A file dependency with the components of its paths. -/
def FileDependency.key (details : FileDependency) :
    (Option (List Path.Component) × List (List Path.Component ⊕ String)) × Option String :=
  (details.files.key, details.reason)

/-- File dependencies are equal when their keys are. -/
theorem FileDependency.beq_iff_key (left right : FileDependency) :
    left == right ↔ left.key = right.key := by
  change (left.files == right.files && left.reason == right.reason) = true ↔ _
  simp only [Bool.and_eq_true, FileSet.beq_iff_key, beq_iff_eq, key, Prod.ext_iff]

/-- A dependency with the components of its paths. -/
def Dependency.key : Dependency → ModuleDependency ⊕ ProjectDependency ⊕
    (Option (List Path.Component) × List (List Path.Component ⊕ String)) × Option String
  | .externalModule details => .inl details
  | .project details => .inr (.inl details)
  | .files details => .inr (.inr details.key)

/-- Dependencies are equal when their keys are. -/
theorem Dependency.beq_iff_key (left right : Dependency) :
    left == right ↔ left.key = right.key := by
  cases left with
  | externalModule details =>
    cases right with
    | externalModule other =>
      rw [key, key, Sum.inl.injEq]
      exact beq_iff_eq (a := details)
    | project _ => exact iff_of_false Bool.false_ne_true (by simp [key])
    | files _ => exact iff_of_false Bool.false_ne_true (by simp [key])
  | project details =>
    cases right with
    | externalModule _ => exact iff_of_false Bool.false_ne_true (by simp [key])
    | project other =>
      rw [key, key, Sum.inr.injEq, Sum.inl.injEq]
      exact beq_iff_eq (a := details)
    | files _ => exact iff_of_false Bool.false_ne_true (by simp [key])
  | files details =>
    cases right with
    | externalModule _ => exact iff_of_false Bool.false_ne_true (by simp [key])
    | project _ => exact iff_of_false Bool.false_ne_true (by simp [key])
    | files other =>
      rw [key, key, Sum.inr.injEq, Sum.inr.injEq]
      exact FileDependency.beq_iff_key details other

instance : EquivBEq Dependency := equivBEq_of_iff_apply_eq _ Dependency.beq_iff_key

/-- An artifact with the components of its path. -/
def Artifact.key (artifact : Artifact) :
    String × String × String × Option String × List Path.Component :=
  (artifact.name, artifact.extension, artifact.type, artifact.classifier, artifact.file.components)

/-- Artifacts are equal when their keys are. -/
theorem Artifact.beq_iff_key (left right : Artifact) : left == right ↔ left.key = right.key := by
  change (left.name == right.name && (left.extension == right.extension &&
    (left.type == right.type && (left.classifier == right.classifier &&
      left.file == right.file)))) = true ↔ _
  simp only [Bool.and_eq_true, beq_iff_eq, Path.beq_iff, key, Prod.mk.injEq]

/-- A binding with the components of its path. -/
def ArtifactBinding.key (binding : ArtifactBinding) :
    (String × String × String × Option String × List Path.Component) × Option String :=
  (binding.artifact.key, binding.producer)

/-- Bindings are equal when their keys are. -/
theorem ArtifactBinding.beq_iff_key (left right : ArtifactBinding) :
    left == right ↔ left.key = right.key := by
  change (left.artifact == right.artifact && left.producer == right.producer) = true ↔ _
  simp only [Bool.and_eq_true, Artifact.beq_iff_key, beq_iff_eq, key, Prod.ext_iff]

/-- Equal bindings are of the same task. -/
theorem ArtifactBinding.producer_eq_of_beq {left right : ArtifactBinding}
    (same : (left == right) = true) : left.producer = right.producer :=
  congrArg Prod.snd ((beq_iff_key left right).1 same)

instance : EquivBEq ArtifactBinding := equivBEq_of_iff_apply_eq _ ArtifactBinding.beq_iff_key

end BuildPath
