import BuildPath.Path.Normal
import Mathlib.Data.List.Basic

/-!
# Normal forms of paths

What remains when every component of a path was followed is a trail: names, before them, in a
relative path, any number of `..`. Following the components of a trail gives the same trail, and the
text of a trail has its components; so a normalized path is its own normal form
(`Path.normalize_normalize`), and of the paths that are equal by components only one is normalized
(`Path.eq_of_beq_of_normal`).
-/

namespace BuildPath.Path

namespace Component

/-- A component that stands between slashes, spelled by its text. -/
structure Inner (component : Component) : Prop where
  spelled : ofPiece? component.text.toList = some component
  clean : '/' ∉ component.text.toList

/-- The component that a piece stands for is spelled by it. -/
theorem text_of_ofPiece? {piece : List Char} {component : Component}
    (stands : ofPiece? piece = some component) : component.text.toList = piece := by
  unfold ofPiece? at stands
  split at stands
  · contradiction
  · split at stands
    next climbs =>
      cases stands
      exact climbs.symm
    · cases stands
      exact String.toList_ofList

/-- What a piece without a slash stands for is spelled by it. -/
theorem inner_of_ofPiece? {piece : List Char} {component : Component}
    (stands : ofPiece? piece = some component) (clean : '/' ∉ piece) : component.Inner := by
  have spelled := text_of_ofPiece? stands
  refine ⟨?_, ?_⟩
  · rw [spelled, stands]
  · rw [spelled]
    exact clean

/-- No piece stands for the root. -/
theorem ofPiece?_ne_root (piece : List Char) : ofPiece? piece ≠ some .root := by
  unfold ofPiece?
  split
  · exact nofun
  · split <;> exact nofun

/-- A `..` stands between slashes. -/
theorem inner_parent : Inner .parent := ⟨rfl, by decide⟩

/-- A piece that stands for a component is neither empty nor a `.`. -/
theorem Inner.text_ne {component : Component} (inner : component.Inner) :
    component.text.toList ≠ [] ∧ component.text.toList ≠ ['.'] := by
  have spelled := inner.spelled
  unfold ofPiece? at spelled
  split at spelled
  · contradiction
  next apart => simpa using apart

end Component

/-- Components that were followed, the last first: names, and below them the `..` that a relative
path starts with. -/
inductive Trail (absolute : Bool) : List Component → Prop
  | start : Trail absolute []
  | name {trail : List Component} {text : String} (prior : Trail absolute trail)
      (inner : (Component.name text).Inner) : Trail absolute (.name text :: trail)
  | parent {trail : List Component} (relative : absolute = false)
      (climbing : ∀ component ∈ trail, component = .parent) : Trail absolute (.parent :: trail)

/-- Where a path leads: the components that remain after following all of them, the last first. -/
def trail (path : Path) : List Component :=
  path.components.foldl (follow path.isAbsolute) []

variable {absolute : Bool} {trail components : List Component}

namespace Trail

/-- Everything in a trail stands between slashes. -/
theorem inner (followed : Trail absolute trail) : ∀ component ∈ trail, component.Inner := by
  induction followed with
  | start => exact nofun
  | name prior here ih => exact List.forall_mem_cons.2 ⟨here, ih⟩
  | parent relative climbing =>
    refine List.forall_mem_cons.2 ⟨Component.inner_parent, fun component member => ?_⟩
    rw [climbing component member]
    exact Component.inner_parent

/-- Following one more component makes a trail of a trail. -/
theorem follow (followed : Trail absolute trail) {component : Component}
    (names : ∀ text, component = .name text → component.Inner) :
    Trail absolute (Path.follow absolute trail component) := by
  cases component with
  | root => exact followed
  | current => exact followed
  | name text => exact followed.name (names text rfl)
  | parent =>
    cases followed with
    | start =>
      cases absolute with
      | true => exact .start
      | false => exact .parent rfl nofun
    | name prior inner => exact prior
    | parent relative climbing =>
      subst relative
      exact .parent rfl (List.forall_mem_cons.2 ⟨rfl, climbing⟩)

/-- Following any components makes a trail. -/
theorem foldl (followed : Trail absolute trail)
    (names : ∀ text, Component.name text ∈ components → (Component.name text).Inner) :
    Trail absolute (components.foldl (Path.follow absolute) trail) := by
  induction components generalizing trail with
  | nil => exact followed
  | cons first rest ih =>
    refine ih (followed.follow ?_) fun text member => names text (List.mem_cons_of_mem _ member)
    rintro text rfl
    exact names text List.mem_cons_self

/-- The components of a trail lead to it. -/
theorem foldl_reverse (followed : Trail absolute trail) :
    trail.reverse.foldl (Path.follow absolute) [] = trail := by
  induction trail with
  | nil => rfl
  | cons last rest ih =>
    rw [List.reverse_cons, List.foldl_append, List.foldl_cons, List.foldl_nil]
    cases followed with
    | name prior inner =>
      rw [ih prior]
      rfl
    | parent relative climbing =>
      subst relative
      cases rest with
      | nil => rfl
      | cons next others =>
        obtain ⟨rfl, below⟩ := List.forall_mem_cons.1 climbing
        rw [ih (.parent rfl below)]
        rfl

end Trail

/-- Paths are compared by their components. -/
theorem beq_eq (left right : Path) : (left == right) = (left.components == right.components) := rfl

/-- The components of a path: the one that only its start has, and those between slashes. -/
theorem components_eq (path : Path) :
    path.components = path.leading (Text.split '/' path.text.toList) ++
      (Text.split '/' path.text.toList).filterMap Component.ofPiece? := rfl

/-- The components of a path start with the root when the path is absolute. -/
theorem isAbsolute_iff {path : Path} :
    path.isAbsolute = true ↔ path.components.head? = some .root := by
  rw [components_eq, leading]
  cases path.isAbsolute with
  | true => exact iff_of_true rfl rfl
  | false =>
    refine iff_of_false Bool.false_ne_true fun starts => ?_
    rw [if_neg Bool.false_ne_true] at starts
    split at starts
    · simp at starts
    · obtain ⟨piece, -, root⟩ := List.mem_filterMap.1 (List.mem_of_head? starts)
      exact Component.ofPiece?_ne_root piece root

/-- Every name in a path stands between slashes. -/
theorem inner_of_mem_components {path : Path} {text : String}
    (member : Component.name text ∈ path.components) : (Component.name text).Inner := by
  rcases List.mem_append.1 member with leads | follows
  · unfold leading at leads
    split at leads
    · simp at leads
    · split at leads <;> simp at leads
  · obtain ⟨piece, cut, stands⟩ := List.mem_filterMap.1 follows
    exact Component.inner_of_ofPiece? stands (Text.separator_not_mem_of_mem_split cut)

/-- The pieces of joined components are their texts, and stand for them. -/
theorem filterMap_split_join (inner : ∀ component ∈ components, component.Inner) :
    (Text.split '/' (Text.join '/' (components.map fun component =>
      component.text.toList))).filterMap Component.ofPiece? = components := by
  cases components with
  | nil => rfl
  | cons first rest =>
    rw [Text.split_join (by simp)]
    · rw [List.filterMap_map]
      have spelled : ∀ component ∈ first :: rest,
          (Component.ofPiece? ∘ fun component => component.text.toList) component =
            some component := fun component member => (inner component member).spelled
      exact (List.filterMap_congr spelled).trans List.filterMap_some
    · intro piece member
      obtain ⟨component, present, rfl⟩ := List.mem_map.1 member
      exact (inner component present).clean

/-- The components of a path that is written with a slash before them. -/
theorem components_written_absolute (inner : ∀ component ∈ components, component.Inner) :
    (Path.mk (String.ofList (written true components))).components = .root :: components := by
  rw [components_eq, leading, isAbsolute, written]
  simp only [if_true, String.toList_ofList, List.head?_cons, BEq.rfl, Text.split]
  rw [List.filterMap_cons_none rfl, filterMap_split_join inner, List.singleton_append]

/-- Joined components start with the text of the first. -/
theorem exists_join_cons (first : Component) (rest : List Component) :
    ∃ others, Text.join '/' ((first :: rest).map fun component => component.text.toList) =
      first.text.toList ++ others := by
  cases rest with
  | nil => exact ⟨[], (List.append_nil _).symm⟩
  | cons next more => exact ⟨_, rfl⟩

/-- The components of a path that is written without a slash before them. -/
theorem components_written_relative (inner : ∀ component ∈ components, component.Inner)
    (nonempty : components ≠ []) :
    (Path.mk (String.ofList (written false components))).components = components := by
  obtain ⟨first, rest, rfl⟩ := List.exists_cons_of_ne_nil nonempty
  obtain ⟨here, -⟩ := List.forall_mem_cons.1 inner
  obtain ⟨filled, apart⟩ := here.text_ne
  obtain ⟨others, starts⟩ := exists_join_cons first rest
  have relative : (Path.mk (String.ofList (written false (first :: rest)))).isAbsolute = false := by
    unfold isAbsolute written
    simp only [Bool.false_eq_true, if_false, List.isEmpty_cons, String.toList_ofList]
    rw [starts, List.head?_append_of_ne_nil _ filled, beq_eq_false_iff_ne]
    exact fun slash => here.clean (List.mem_of_head? slash)
  have plain : (Text.split '/' (Text.join '/' ((first :: rest).map fun component =>
      component.text.toList))).head? ≠ some ['.'] := by
    rw [Text.split_join (by simp)]
    · simpa using apart
    · intro piece member
      obtain ⟨component, present, rfl⟩ := List.mem_map.1 member
      exact (inner component present).clean
  rw [components_eq, leading, relative, if_neg Bool.false_ne_true, written,
    if_neg Bool.false_ne_true, List.isEmpty_cons, if_neg Bool.false_ne_true, String.toList_ofList,
    if_neg plain, List.nil_append, filterMap_split_join inner]

/-- A path leads along a trail. -/
theorem isTrail (path : Path) : Trail path.isAbsolute path.trail :=
  Trail.start.foldl fun _ member => inner_of_mem_components member

/-- What normalizing a path writes is its trail. -/
theorem normalize_eq (path : Path) :
    path.normalize = ⟨String.ofList (written path.isAbsolute path.trail.reverse)⟩ := rfl

/-- The component that is written before a trail, or instead of one, and is no part of it. -/
def opening (absolute : Bool) (trail : List Component) : List Component :=
  if absolute then [.root] else if trail.isEmpty then [.current] else []

/-- The components of what is written of a trail. -/
theorem components_written (followed : Trail absolute trail) :
    (Path.mk (String.ofList (written absolute trail.reverse))).components =
      opening absolute trail ++ trail.reverse := by
  have inner : ∀ component ∈ trail.reverse, component.Inner := fun component member =>
    followed.inner component (List.mem_reverse.1 member)
  cases absolute with
  | true => exact components_written_absolute inner
  | false =>
    cases trail with
    | nil => rfl
    | cons last rest => exact components_written_relative inner (by simp)

/-- What is written of a trail is as absolute as the trail. -/
theorem isAbsolute_written (followed : Trail absolute trail) :
    (Path.mk (String.ofList (written absolute trail.reverse))).isAbsolute = absolute := by
  rw [Bool.eq_iff_iff, isAbsolute_iff, components_written followed]
  cases absolute with
  | true => exact iff_of_true rfl rfl
  | false =>
    refine iff_of_false (fun starts => ?_) Bool.false_ne_true
    rcases List.mem_append.1 (List.mem_of_head? starts) with opens | follows
    · cases trail <;> simp [opening] at opens
    · have inner := followed.inner .root (List.mem_reverse.1 follows)
      exact absurd inner.clean (by decide)

/-- What is written of a trail leads along it. -/
theorem trail_written (followed : Trail absolute trail) :
    (Path.mk (String.ofList (written absolute trail.reverse))).trail = trail := by
  have still : (opening absolute trail).foldl (follow absolute) [] = [] := by
    cases absolute <;> cases trail <;> rfl
  rw [Path.trail, isAbsolute_written followed, components_written followed, List.foldl_append,
    still, followed.foldl_reverse]

/-- A path is normalized to one that is absolute if it is. -/
@[simp] theorem isAbsolute_normalize (path : Path) :
    path.normalize.isAbsolute = path.isAbsolute :=
  isAbsolute_written path.isTrail

/-- A path is normalized to one that leads to the same place. -/
@[simp] theorem trail_normalize (path : Path) : path.normalize.trail = path.trail :=
  trail_written path.isTrail

/-- The components of a normalized path. -/
theorem components_normalize (path : Path) :
    path.normalize.components = opening path.isAbsolute path.trail ++ path.trail.reverse :=
  components_written path.isTrail

/-- Paths have one normal form when they lead to the same place. -/
theorem normalize_eq_iff {left right : Path} : left.normalize = right.normalize ↔
    left.isAbsolute = right.isAbsolute ∧ left.trail = right.trail := by
  constructor
  · intro same
    rw [← isAbsolute_normalize left, ← trail_normalize left, same, isAbsolute_normalize,
      trail_normalize]
    exact ⟨rfl, rfl⟩
  · rintro ⟨absolute, trail⟩
    rw [normalize_eq, normalize_eq, absolute, trail]

/-- To normalize twice is to normalize once. -/
@[simp] theorem normalize_normalize (path : Path) : path.normalize.normalize = path.normalize :=
  normalize_eq_iff.2 ⟨isAbsolute_normalize path, trail_normalize path⟩

/-- Equal paths have one normal form. -/
theorem normalize_congr {left right : Path} (same : (left == right) = true) :
    left.normalize = right.normalize := by
  have components := beq_iff.1 same
  have absolute : left.isAbsolute = right.isAbsolute := by
    rw [Bool.eq_iff_iff, isAbsolute_iff, isAbsolute_iff, components]
  rw [normalize, normalize, absolute, components]

/-- A path that is its own normal form. -/
def Normal (path : Path) : Prop := path.normalize = path

/-- A normalized path is its own normal form. -/
theorem normal_normalize (path : Path) : path.normalize.Normal := normalize_normalize path

/-- Equal paths that are normalized are one path. -/
theorem eq_of_beq_of_normal {left right : Path} (same : (left == right) = true)
    (normal : left.Normal) (other : right.Normal) : left = right := by
  rw [← normal, ← other]
  exact normalize_congr same

end BuildPath.Path
