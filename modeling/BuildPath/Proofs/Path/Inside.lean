import BuildPath.Proofs.Path.Canonical

/-!
# Paths inside directories

A path lies inside a directory when it starts with the components of the directory and goes on by
names alone. Of normalized paths this is a matter of where they lead (`Path.inside_normalize_iff`),
and what leads downwards from there stays inside (`Path.Inside.append`).
-/

namespace BuildPath.Path

/-- The components of a path without the `.` that may be the first of them. -/
def steps (path : Path) : List Component :=
  path.components.filter (· != .current)

/-- A path lies inside a directory when its components are those of the directory and then names.
What is relative lies inside the current directory, which has no component but a `.`. -/
def Inside (path directory : Path) : Prop :=
  ∃ names : List String, path.steps = directory.steps ++ names.map .name

variable {path directory base addition : Path}

/-- Whether a path lies inside a directory can be told by its further components. -/
theorem inside_iff : path.Inside directory ↔ path.steps = directory.steps ++
    (path.steps.drop directory.steps.length).map fun component => .name component.text := by
  constructor
  · rintro ⟨names, same⟩
    rw [same, List.drop_left, List.map_map]
    rfl
  · intro same
    refine ⟨(path.steps.drop directory.steps.length).map Component.text, ?_⟩
    rw [List.map_map]
    exact same

instance (path directory : Path) : Decidable (path.Inside directory) :=
  decidable_of_iff' _ inside_iff

/-- Neither the root nor a `.` remains of a path. -/
theorem ne_of_mem_trail {component : Component} (member : component ∈ path.trail) :
    component ≠ .root ∧ component ≠ .current := by
  have spelled := (path.isTrail.inner component member).spelled
  constructor
  · rintro rfl
    exact Component.ofPiece?_ne_root _ spelled
  · rintro rfl
    exact Component.ofPiece?_ne_current _ spelled

/-- The components of a normalized path, without a lone `.`, are where it leads. -/
theorem steps_normalize (path : Path) :
    path.normalize.steps = (if path.isAbsolute then [.root] else []) ++ path.trail.reverse := by
  have kept : path.trail.reverse.filter (· != .current) = path.trail.reverse :=
    List.filter_eq_self.2 fun component member => by
      simpa using (ne_of_mem_trail (List.mem_reverse.1 member)).2
  rw [steps, components_normalize, List.filter_append, kept, opening]
  congr 1
  split
  · rfl
  · split <;> rfl

/-- A normalized path lies inside a normalized directory when it leads there and on by names. -/
theorem inside_normalize_iff : path.normalize.Inside directory.normalize ↔
    path.isAbsolute = directory.isAbsolute ∧ ∃ names : List String,
      path.trail.reverse = directory.trail.reverse ++ names.map .name := by
  have inner (path : Path) : Component.root ∉ path.trail.reverse := fun member =>
    (ne_of_mem_trail (List.mem_reverse.1 member)).1 rfl
  rw [Inside, steps_normalize, steps_normalize]
  cases here : path.isAbsolute <;> cases there : directory.isAbsolute
  · simp
  · refine iff_of_false ?_ nofun
    rintro ⟨names, same⟩
    have listed : path.trail.reverse = .root :: (directory.trail.reverse ++ names.map .name) := same
    exact inner path (listed ▸ List.mem_cons_self)
  · refine iff_of_false ?_ nofun
    rintro ⟨names, same⟩
    have member : Component.root ∈ directory.trail.reverse ++ names.map .name := by
      rw [← List.nil_append directory.trail.reverse]
      exact same ▸ List.mem_cons_self
    rcases List.mem_append.1 member with among | among
    · exact inner directory among
    · simp at among
  · simp

/-- Names are followed one after the other. -/
theorem foldl_follow_names (absolute : Bool) (start : List Component) (names : List String) :
    (names.map .name).foldl (follow absolute) start = (names.map .name).reverse ++ start := by
  induction names generalizing start with
  | nil => rfl
  | cons name names ih =>
    rw [List.map_cons, List.foldl_cons, ih, List.reverse_cons, List.append_assoc]
    rfl

/-- A normalized path lies inside itself. -/
theorem inside_refl (path : Path) : path.normalize.Inside path.normalize :=
  ⟨[], (List.append_nil _).symm⟩

/-- A path that leads downwards: it is relative, and no `..` remains of it. -/
def Descends (path : Path) : Prop :=
  path.isAbsolute = false ∧ .parent ∉ path.normalize.components

instance (path : Path) : Decidable path.Descends :=
  inferInstanceAs (Decidable (_ ∧ _))

/-- A path leads downwards when it leads along names. -/
theorem descends_iff : path.Descends ↔
    path.isAbsolute = false ∧ ∃ names : List String, path.trail.reverse = names.map .name := by
  refine and_congr_right fun relative => ?_
  rw [components_normalize, relative, List.mem_append, not_or]
  constructor
  · rintro ⟨-, level⟩
    obtain ⟨climbs, names, below, -⟩ := path.isTrail.exists_climbs
    cases climbs with
    | zero => exact ⟨names, below⟩
    | succ climbs => simp [below, climbing] at level
  · rintro ⟨names, below⟩
    refine ⟨?_, by simp [below]⟩
    cases path.trail <;> simp [opening]

/-- Below a path that lies inside a directory is inside as well. -/
theorem Inside.append (inside : base.normalize.Inside directory.normalize)
    (descends : addition.Descends) : (base / addition).normalize.Inside directory.normalize := by
  obtain ⟨relative, names, named⟩ := descends_iff.1 descends
  obtain ⟨absolute, above, leads⟩ := inside_normalize_iff.1 inside
  refine inside_normalize_iff.2 ⟨by simp [relative, absolute], above ++ names, ?_⟩
  rw [trail_append_eq relative, named, foldl_follow_names, List.reverse_append,
    List.reverse_reverse, leads, List.map_append, List.append_assoc]

/-- The paths that lead downwards are those that stay inside of every directory. -/
theorem descends_iff_forall_inside : addition.Descends ↔
    ∀ base : Path, (base / addition).normalize.Inside base.normalize := by
  constructor
  · intro descends base
    exact (inside_refl base).append descends
  · intro inside
    -- Nothing but names stays inside of the current directory.
    obtain ⟨absolute, names, leads⟩ := inside_normalize_iff.1 (inside ⟨""⟩)
    have relative : addition.isAbsolute = false := by
      rw [isAbsolute_append] at absolute
      exact absolute
    have followed := addition.isTrail
    rw [relative] at followed
    refine descends_iff.2 ⟨relative, names, ?_⟩
    rw [trail_append_eq relative] at leads
    rw [← followed.foldl_reverse]
    exact leads

/-- A piece leads downwards unless it is a `..`. -/
theorem descends_of_piece {text : String} (whole : '/' ∉ text.toList) (level : text ≠ "..") :
    (Path.mk text).Descends := by
  have relative := isAbsolute_of_piece whole
  have parent : text.toList = ['.', '.'] ↔ text = ".." := @String.toList_inj text ".."
  refine descends_iff.2 ⟨relative, ?_⟩
  rw [trail_eq_foldl_below, below_of_piece whole, Component.ofPiece?]
  split
  · exact ⟨[], rfl⟩
  · rw [if_neg (mt parent.1 level), String.ofList_toList]
    exact ⟨[text], rfl⟩

/-- Whether a path leads downwards can be told from its normal form. -/
theorem descends_congr (same : path.normalize = base.normalize) :
    path.Descends ↔ base.Descends := by
  rw [Descends, Descends, same, (normalize_eq_iff.1 same).1]

/-- What leads downwards may be placed below what does. -/
theorem Descends.append (above : base.Descends) (descends : addition.Descends) :
    (base / addition).Descends := by
  refine descends_iff_forall_inside.2 fun start => ?_
  rw [← normalize_append_assoc]
  exact (descends_iff_forall_inside.1 above start).append descends

/-- Pieces that lead downwards may be placed below each other. -/
theorem Descends.foldl {pieces : List String} (above : base.Descends)
    (descends : ∀ piece ∈ pieces, (Path.mk piece).Descends) :
    (pieces.foldl (· / ·) base).Descends := by
  induction pieces generalizing base with
  | nil => exact above
  | cons piece pieces ih =>
    rw [List.forall_mem_cons] at descends
    exact ih (above.append descends.1) descends.2

end BuildPath.Path
