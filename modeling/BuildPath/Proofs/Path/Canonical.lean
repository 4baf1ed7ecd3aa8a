import BuildPath.Proofs.Path.Append

/-!
# Canonical paths

A normalized path is written in a canonical way: names below the root, or else as many `..` as are
needed and names below them, or a lone `.`. These are exactly the texts that normalizing leaves as
they are (`Path.normal_iff_canonical`), and every path has one of them
(`Path.normalization_is_canonical`).
-/

namespace BuildPath.Path

/-- A name that a file can have in its directory. -/
structure Plain (name : String) : Prop where
  filled : name ≠ ""
  whole : '/' ∉ name.toList
  notCurrent : name ≠ "."
  notParent : name ≠ ".."

/-- What makes a name plain. -/
theorem plain_iff {name : String} :
    Plain name ↔ name ≠ "" ∧ '/' ∉ name.toList ∧ name ≠ "." ∧ name ≠ ".." :=
  ⟨fun ⟨filled, whole, current, parent⟩ => ⟨filled, whole, current, parent⟩,
    fun ⟨filled, whole, current, parent⟩ => ⟨filled, whole, current, parent⟩⟩

instance (name : String) : Decidable (Plain name) := decidable_of_iff' _ plain_iff

/-- A name without slashes is plain if it is more than dots. -/
theorem plain_of_mem {name : String} {character : Char} (whole : '/' ∉ name.toList)
    (member : character ∈ name.toList) (undotted : character ≠ '.') : Plain name := by
  refine ⟨?_, whole, ?_, ?_⟩ <;> rintro rfl <;> simp_all

/-- The canonical texts of paths, absolute or not. -/
inductive Canonical : Bool → String → Prop
  /-- The root, and names below it. -/
  | absolute {names : List String} (plain : ∀ name ∈ names, Plain name) :
      Canonical true ("/" ++ "/".intercalate names)
  /-- The current directory. -/
  | current : Canonical false "."
  /-- Some `..` and some names below them, and at least one of both. -/
  | relative {climbs : Nat} {names : List String} (plain : ∀ name ∈ names, Plain name)
      (given : 0 < climbs ∨ names ≠ []) :
      Canonical false ("/".intercalate (List.replicate climbs ".." ++ names))

/-- The names that stand between slashes are the plain ones. -/
theorem inner_name_iff {name : String} : (Component.name name).Inner ↔ Plain name := by
  have filled : name.toList = [] ↔ name = "" := @String.toList_inj name ""
  have current : name.toList = ['.'] ↔ name = "." := @String.toList_inj name "."
  have parent : name.toList = ['.', '.'] ↔ name = ".." := @String.toList_inj name ".."
  constructor
  · rintro ⟨stands, clean⟩
    rw [Component.text, Component.ofPiece?] at stands
    split at stands
    · contradiction
    next apart =>
      split at stands
      · simp at stands
      next higher =>
        simp only [Bool.or_eq_true, decide_eq_true_eq, not_or] at apart
        exact ⟨mt filled.2 apart.1, clean, mt current.2 apart.2, mt parent.2 higher⟩
  · rintro ⟨given, whole, notCurrent, notParent⟩
    refine ⟨?_, whole⟩
    rw [Component.text, Component.ofPiece?, if_neg, if_neg (mt parent.1 notParent),
      String.ofList_toList]
    simp only [Bool.or_eq_true, decide_eq_true_eq, not_or]
    exact ⟨mt filled.1 given, mt current.1 notCurrent⟩

variable {absolute : Bool} {path : Path}

/-- What ends a path is a plain name, unless the path leads upwards there. -/
theorem plain_of_fileName {name : String} (ends : path.fileName = some name) : Plain name := by
  unfold fileName at ends
  split at ends
  next text last =>
    cases ends
    exact inner_name_iff.1 (inner_of_mem_components (List.mem_of_getLast? last))
  · contradiction

/-- Some `..`, and names below them. -/
def climbing (climbs : Nat) (names : List String) : List Component :=
  List.replicate climbs .parent ++ names.map .name

/-- A trail, from its start: as many `..` as there are, none below the root, and names. -/
theorem Trail.exists_climbs {trail : List Component} (followed : Trail absolute trail) :
    ∃ climbs names, trail.reverse = climbing climbs names ∧ (∀ name ∈ names, Plain name) ∧
      (absolute = true → climbs = 0) := by
  induction followed with
  | start => exact ⟨0, [], rfl, nofun, fun _ => rfl⟩
  | @name trail text prior inner ih =>
    obtain ⟨climbs, names, below, plain, rooted⟩ := ih
    refine ⟨climbs, names ++ [text], ?_, ?_, rooted⟩
    · rw [List.reverse_cons, below, climbing, climbing, List.map_append, List.append_assoc]
      rfl
    · rw [List.forall_mem_append, List.forall_mem_singleton]
      exact ⟨plain, inner_name_iff.1 inner⟩
  | @parent trail relative parents =>
    refine ⟨trail.length + 1, [], ?_, nofun, by simp [relative]⟩
    rw [climbing, List.map_nil, List.append_nil, List.reverse_eq_iff, List.reverse_replicate]
    exact List.eq_replicate_iff.2 ⟨rfl, List.forall_mem_cons.2 ⟨rfl, parents⟩⟩

/-- Names below as many `..` as there are, none below the root, make a trail. -/
theorem trail_of_climbs {climbs : Nat} {names : List String} (plain : ∀ name ∈ names, Plain name)
    (rooted : absolute = true → climbs = 0) : Trail absolute (climbing climbs names).reverse := by
  induction names using List.reverseRecOn with
  | nil =>
    rw [climbing, List.map_nil, List.append_nil, List.reverse_replicate]
    cases climbs with
    | zero => exact .start
    | succ climbs =>
      have relative : absolute = false := Bool.eq_false_iff.2 fun rooting => by
        simpa using rooted rooting
      exact .parent relative fun component member => List.eq_of_mem_replicate member
  | append_singleton names last ih =>
    rw [List.forall_mem_append, List.forall_mem_singleton] at plain
    rw [climbing, List.map_append, ← List.append_assoc, List.reverse_append]
    exact (ih plain.1).name (inner_name_iff.2 plain.2)

/-- Texts with slashes between them. -/
theorem ofList_join (texts : List String) :
    String.ofList (Text.join '/' (texts.map String.toList)) = "/".intercalate texts := by
  rw [← String.toList_inj, String.toList_ofList, String.toList_intercalate]
  induction texts with
  | nil => rfl
  | cons first rest ih =>
    cases rest with
    | nil => simp [Text.join]
    | cons next more =>
      rw [List.map_cons, List.map_cons, Text.join, ← List.map_cons, ih, List.map_cons,
        List.intercalate_cons_cons, List.append_assoc]
      rfl

/-- What is written of names below some `..`. -/
theorem written_climbs (absolute : Bool) (climbs : Nat) (names : List String) :
    String.ofList (written absolute (climbing climbs names)) =
      if absolute then "/" ++ "/".intercalate (List.replicate climbs ".." ++ names)
      else if climbs = 0 ∧ names = [] then "."
      else "/".intercalate (List.replicate climbs ".." ++ names) := by
  have texts : (climbing climbs names).map (fun component => component.text.toList) =
      (List.replicate climbs ".." ++ names).map String.toList := by
    simp [climbing, Component.text, Function.comp_def]
  rw [written, texts, ← ofList_join]
  cases absolute with
  | true =>
    rw [if_pos rfl, if_pos rfl, ← String.toList_inj, String.toList_append]
    simp
  | false =>
    rw [if_neg Bool.false_ne_true, if_neg Bool.false_ne_true]
    by_cases nothing : climbs = 0 ∧ names = []
    · obtain ⟨rfl, rfl⟩ := nothing
      rfl
    · rw [if_neg nothing, if_neg]
      simpa [climbing] using nothing

/-- What is written of a trail is canonical. -/
theorem Trail.canonical {trail : List Component} (followed : Trail absolute trail) :
    Canonical absolute (String.ofList (written absolute trail.reverse)) := by
  obtain ⟨climbs, names, below, plain, rooted⟩ := followed.exists_climbs
  rw [below, written_climbs]
  cases absolute with
  | true =>
    rw [if_pos rfl, rooted rfl]
    exact .absolute plain
  | false =>
    rw [if_neg Bool.false_ne_true]
    split
    · exact .current
    next something =>
      refine .relative plain ?_
      rcases Nat.eq_zero_or_pos climbs with level | higher
      · exact .inr fun empty => something ⟨level, empty⟩
      · exact .inl higher

/-- A canonical text is written of a trail. -/
theorem Canonical.exists_trail {text : String} (canonical : Canonical absolute text) :
    ∃ trail, Trail absolute trail ∧ text = String.ofList (written absolute trail.reverse) := by
  cases canonical with
  | @absolute names plain =>
    refine ⟨(climbing 0 names).reverse, trail_of_climbs plain fun _ => rfl, ?_⟩
    rw [List.reverse_reverse, written_climbs, if_pos rfl]
    rfl
  | current => exact ⟨[], .start, rfl⟩
  | @relative climbs names plain given =>
    refine ⟨(climbing climbs names).reverse, trail_of_climbs plain nofun, ?_⟩
    rw [List.reverse_reverse, written_climbs, if_neg Bool.false_ne_true, if_neg]
    rintro ⟨rfl, rfl⟩
    simp at given

/-- A path is its own normal form when it is written in the canonical way. -/
theorem normal_iff_canonical : path.Normal ↔ Canonical path.isAbsolute path.text := by
  constructor
  · intro normal
    rw [← congrArg text normal]
    exact path.isTrail.canonical
  · intro canonical
    obtain ⟨trail, followed, spelled⟩ := canonical.exists_trail
    have leads : path.trail = trail := by
      conv_lhs => rw [show path = ⟨path.text⟩ from rfl, spelled]
      exact trail_written followed
    rw [Normal, normalize_eq, leads, ← spelled]

/-- A name is followed to where it stands in the directory. -/
theorem trail_append_plain {name : String} (plain : Plain name) :
    (path / Path.mk name).trail = .name name :: path.trail := by
  have stands : Component.ofPiece? name.toList = some (.name name) :=
    (inner_name_iff.2 plain).spelled
  rw [trail_append (isAbsolute_of_piece plain.whole), below_of_piece plain.whole, stands]
  rfl

/-- A `..` after a name takes it back. -/
theorem normalize_append_parent {name : String} (plain : Plain name) :
    (path / name / "..").normalize = path.normalize := by
  change (path / Path.mk name / Path.mk "..").normalize = path.normalize
  rw [normalize_eq_iff, isAbsolute_append, isAbsolute_append, isAbsolute_of_piece plain.whole,
    trail_append rfl, trail_append_plain plain]
  exact ⟨by simp [isAbsolute], rfl⟩

/-- Names are followed one after the other, each to where it stands below the others. -/
theorem trail_foldl_plain {names : List String} (plain : ∀ name ∈ names, Plain name) :
    (names.foldl (· / ·) path).isAbsolute = path.isAbsolute ∧
      (names.foldl (· / ·) path).trail = (names.map .name).reverse ++ path.trail := by
  induction names generalizing path with
  | nil => exact ⟨rfl, rfl⟩
  | cons name rest ih =>
    obtain ⟨here, later⟩ := List.forall_mem_cons.1 plain
    obtain ⟨absolute, leads⟩ := @ih (path / Path.mk name) later
    rw [isAbsolute_append, isAbsolute_of_piece here.whole, Bool.or_false] at absolute
    rw [trail_append_plain here] at leads
    exact ⟨absolute, leads.trans (by simp)⟩

/-- Names below one directory lead to the same place only if they are the same. -/
theorem normalize_foldl_plain_iff {names others : List String} (plain : ∀ name ∈ names, Plain name)
    (plains : ∀ name ∈ others, Plain name) :
    (names.foldl (· / ·) path).normalize = (others.foldl (· / ·) path).normalize ↔
      names = others := by
  obtain ⟨absolute, leads⟩ := @trail_foldl_plain path _ plain
  obtain ⟨also, there⟩ := @trail_foldl_plain path _ plains
  have injective : Function.Injective Component.name := fun _ _ => Component.name.inj
  rw [normalize_eq_iff, absolute, also, leads, there, List.append_left_inj, List.reverse_inj,
    (List.map_injective_iff.2 injective).eq_iff]
  exact and_iff_right rfl

/-- Names in one directory lead to the same place only if they are the same. -/
theorem normalize_append_plain_iff {name other : String} (plain : Plain name)
    (others : Plain other) :
    (path / Path.mk name).normalize = (path / Path.mk other).normalize ↔ name = other := by
  have same := @normalize_foldl_plain_iff path [name] [other] (List.forall_mem_singleton.2 plain)
    (List.forall_mem_singleton.2 others)
  exact same.trans List.singleton_inj

/-- A `..` at the root stays there. -/
theorem normalize_append_parent_of_root (rooted : path.normalize.text = "/") :
    (path / "..").normalize = path.normalize := by
  have root : path.normalize = ⟨"/"⟩ := congrArg Path.mk rooted
  change (path / Path.mk "..").normalize = path.normalize
  rw [normalize_append, root]
  rfl

/-- Lexical normalization. Every path is given a canonical text, the only one among equal paths, and
what has one is left as it is. A path below a base may be normalized at once or after each of both,
where an absolute path replaces the base. A `..` takes back the name before it, and nothing at the
root. -/
theorem normalization_is_canonical (path : Path) :
    Canonical path.isAbsolute path.normalize.text ∧
    path.normalize.normalize = path.normalize ∧
    (∀ other : Path, (path.normalize == other.normalize) = true →
      path.normalize.text = other.normalize.text) ∧
    (∀ addition : Path,
      (path / addition).normalize = (path.normalize / addition.normalize).normalize ∧
      (addition.isAbsolute = true → path / addition = addition)) ∧
    (Canonical path.isAbsolute path.text → path.normalize = path) ∧
    (∀ other : Path, (path == other) = true → path.normalize = other.normalize) ∧
    (∀ name, Plain name → (path / name / "..").normalize = path.normalize) ∧
    (path.normalize.text = "/" → (path / "..").normalize = path.normalize) := by
  refine ⟨path.isTrail.canonical, normalize_normalize path, fun other same => ?_,
    fun addition => ⟨normalize_append path addition, fun absolute => if_pos absolute⟩,
    normal_iff_canonical.2, fun other same => normalize_congr same,
    fun name plain => normalize_append_parent plain, normalize_append_parent_of_root⟩
  rw [eq_of_beq_of_normal same (normal_normalize path) (normal_normalize other)]

example : (Path.mk "../a/./b/../../c//").normalize.text = "../c" := by decide +kernel

end BuildPath.Path
