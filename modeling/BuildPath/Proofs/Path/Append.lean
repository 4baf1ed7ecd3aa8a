import BuildPath.Proofs.Path.Normal
import Mathlib.Data.List.Induction

/-!
# Placing paths below others

The components of a path below a base are those of the base followed by those of the addition, but
for a `.` at its start (`Path.components_append`). So equal paths placed below equal bases are equal
(`Path.append_congr`), however all of them are written. The addition is followed from where the base
leads (`Path.trail_append`), and it makes no difference whether base and addition were normalized
before (`Path.normalize_append`).
-/

namespace BuildPath.Path

/-- The components that stand between slashes. -/
def below (path : Path) : List Component :=
  (Text.split '/' path.text.toList).filterMap Component.ofPiece?

/-- A text without a slash is no absolute path. -/
theorem isAbsolute_of_piece {text : String} (whole : '/' ∉ text.toList) :
    (Path.mk text).isAbsolute = false := by
  rw [isAbsolute, beq_eq_false_iff_ne]
  exact fun starts => whole (List.mem_of_head? starts)

/-- A text without a slash is one piece. -/
theorem below_of_piece {text : String} (whole : '/' ∉ text.toList) :
    (Path.mk text).below = (Component.ofPiece? text.toList).toList := by
  rw [below, Text.split_of_not_mem whole]
  cases stands : Component.ofPiece? text.toList <;> simp [stands]

/-- No piece stands for a `.`. -/
theorem Component.ofPiece?_ne_current (piece : List Char) : ofPiece? piece ≠ some .current := by
  unfold ofPiece?
  split
  · exact nofun
  · split <;> exact nofun

variable {path base other addition more : Path} {front rest : List Char}

/-- The components between slashes are all but the one that only the start of a path has. -/
theorem below_eq (path : Path) : path.below =
    path.components.filter fun component => component != .root && component != .current := by
  have leads : (path.leading (Text.split '/' path.text.toList)).filter
      (fun component => component != .root && component != .current) = [] := by
    unfold leading
    split
    · rfl
    · split <;> rfl
  rw [components_eq, List.filter_append, leads, List.nil_append, below]
  refine (List.filter_eq_self.2 fun component member => ?_).symm
  obtain ⟨piece, -, stands⟩ := List.mem_filterMap.1 member
  have plain : component ≠ .root ∧ component ≠ .current := by
    constructor
    · rintro rfl
      exact Component.ofPiece?_ne_root piece stands
    · rintro rfl
      exact Component.ofPiece?_ne_current piece stands
  simpa using plain

/-- Only an empty path has no components. -/
theorem components_eq_nil_iff : path.components = [] ↔ path.text.toList = [] := by
  constructor
  · intro nothing
    rw [components_eq, List.append_eq_nil_iff, List.filterMap_eq_nil_iff] at nothing
    obtain ⟨leads, follows⟩ := nothing
    have relative : path.isAbsolute = false := by
      refine Bool.eq_false_iff.2 fun absolute => ?_
      rw [leading, if_pos absolute] at leads
      contradiction
    have joined := Text.join_split '/' path.text.toList
    rw [leading, relative, if_neg Bool.false_ne_true] at leads
    cases pieces : Text.split '/' path.text.toList with
    | nil => exact absurd pieces (Text.split_ne_nil _ _)
    | cons piece others =>
      rw [pieces] at leads follows joined
      -- The first piece stands for nothing and is no `.`, so that it is empty.
      have silent := follows piece List.mem_cons_self
      have void : piece = [] := by
        by_contra filled
        rw [Component.ofPiece?] at silent
        split at silent
        next stands =>
          have dot : piece = ['.'] := by simpa [filled] using stands
          rw [dot] at leads
          contradiction
        · split at silent <;> contradiction
      subst void
      cases others with
      | nil => exact joined.symm
      | cons next rest =>
        rw [isAbsolute, ← joined] at relative
        contradiction
  · intro empty
    rw [components_eq, leading, isAbsolute, empty]
    rfl

/-- What is written after a slash adds what stands between its slashes. -/
theorem components_of_slash (spelled : path.text.toList = front ++ '/' :: rest)
    (before : base.text.toList = front ++ ['/']) :
    path.components = base.components ++ (Text.split '/' rest).filterMap Component.ofPiece? := by
  have leads : path.leading (Text.split '/' path.text.toList) =
      base.leading (Text.split '/' base.text.toList) := by
    have absolute : path.isAbsolute = base.isAbsolute := by
      rw [isAbsolute, isAbsolute, spelled, before]
      cases front <;> rfl
    have pieces := Text.split_ne_nil '/' front
    rw [leading, leading, absolute, spelled, before, Text.split_append_separator,
      Text.split_append_separator, List.head?_append_of_ne_nil _ pieces,
      List.head?_append_of_ne_nil _ pieces]
  rw [components_eq, components_eq, leads, spelled, before, Text.split_append_separator,
    Text.split_append_separator, List.filterMap_append, List.filterMap_append]
  simp [Text.split, Component.ofPiece?]

/-- A slash at the end of a path makes no difference. -/
theorem components_of_trailing (spelled : path.text.toList = front ++ ['/'])
    (before : base.text.toList = front) (filled : front ≠ []) :
    path.components = base.components := by
  have leads : path.leading (Text.split '/' path.text.toList) =
      base.leading (Text.split '/' base.text.toList) := by
    have absolute : path.isAbsolute = base.isAbsolute := by
      rw [isAbsolute, isAbsolute, spelled, before, List.head?_append_of_ne_nil _ filled]
    rw [leading, leading, absolute, spelled, before, Text.split_append_separator,
      List.head?_append_of_ne_nil _ (Text.split_ne_nil '/' front)]
  rw [components_eq, components_eq, leads, spelled, before, Text.split_append_separator,
    List.filterMap_append]
  simp [Text.split, Component.ofPiece?]

/-- An absolute addition replaces the base. -/
theorem append_of_isAbsolute (absolute : addition.isAbsolute = true) :
    base / addition = addition :=
  if_pos absolute

/-- What is below an empty base stands alone. -/
theorem empty_append (addition : Path) : Path.mk "" / addition = addition := by
  change append _ addition = addition
  rw [append]
  split
  · rfl
  · exact congrArg Path.mk String.empty_append

/-- A relative addition is written after what the base starts with and a slash, unless the base is
empty. -/
theorem toList_append (relative : addition.isAbsolute = false) :
    base.text.toList = [] ∧ (base / addition).text = addition.text ∨
    ∃ front, (base.text.toList = front ∧ front ≠ [] ∨ base.text.toList = front ++ ['/']) ∧
      (base / addition).text.toList = front ++ '/' :: addition.text.toList := by
  change _ ∧ (base.append addition).text = _ ∨
    ∃ front, _ ∧ (base.append addition).text.toList = _
  rw [append, if_neg (by simp [relative])]
  by_cases empty : base.text = ""
  · refine .inl ⟨by rw [empty]; rfl, ?_⟩
    rw [empty]
    exact String.empty_append
  · have filled : base.text.isEmpty = false := by
      rw [Bool.eq_false_iff]
      exact mt String.isEmpty_iff.1 empty
    rw [filled, Bool.false_or]
    refine .inr ?_
    split
    next ends =>
      obtain ⟨front, spelled⟩ := List.getLast?_eq_some_iff.1 (eq_of_beq ends)
      refine ⟨front, .inr spelled, ?_⟩
      rw [String.toList_append, spelled, List.append_assoc]
      rfl
    · refine ⟨base.text.toList, .inl ⟨rfl, mt (@String.toList_inj base.text "").1 empty⟩, ?_⟩
      rw [String.toList_append, String.toList_append, List.append_assoc]
      rfl

/-- The components of an addition follow those of a base that is not empty, unless the addition is
absolute. -/
theorem components_append (base addition : Path) : (base / addition).components =
    if addition.isAbsolute || base.components.isEmpty then addition.components
    else base.components ++ addition.below := by
  cases absolute : addition.isAbsolute with
  | true => rw [append_of_isAbsolute absolute, Bool.true_or, if_pos rfl]
  | false =>
    rw [Bool.false_or]
    rcases @toList_append base addition absolute with ⟨empty, same⟩ | ⟨front, spelled, same⟩
    · rw [components_eq_nil_iff.2 empty]
      exact congrArg (fun text => (Path.mk text).components) same
    · have filled : base.components.isEmpty = false := by
        rw [List.isEmpty_eq_false_iff, ne_eq, components_eq_nil_iff]
        rcases spelled with ⟨spelled, filled⟩ | spelled
        · rw [spelled]
          exact filled
        · simp [spelled]
      rw [filled, if_neg Bool.false_ne_true]
      rcases spelled with ⟨spelled, filled⟩ | spelled
      · have trailing : (Path.mk (base.text ++ "/")).text.toList = front ++ ['/'] := by
          rw [String.toList_append, spelled]
          rfl
        rw [components_of_slash same trailing, components_of_trailing trailing spelled filled]
        rfl
      · exact components_of_slash same spelled

/-- Equal paths below equal bases are equal. -/
theorem append_congr (bases : (base == other) = true) (additions : (addition == more) = true) :
    (base / addition == other / more) = true := by
  rw [beq_iff] at bases additions ⊢
  have absolute : addition.isAbsolute = more.isAbsolute := by
    rw [Bool.eq_iff_iff, isAbsolute_iff, isAbsolute_iff, additions]
  rw [components_append, components_append, below_eq, below_eq, absolute, bases, additions]

/-! ## Where a joined path leads -/

/-- A path below a base is absolute when one of both is. -/
@[simp] theorem isAbsolute_append (base addition : Path) :
    (base / addition).isAbsolute = (base.isAbsolute || addition.isAbsolute) := by
  cases absolute : addition.isAbsolute with
  | true =>
    rw [Bool.or_true, isAbsolute_iff, components_append, absolute, Bool.true_or, if_pos rfl,
      ← isAbsolute_iff, absolute]
  | false =>
    rw [Bool.or_false, Bool.eq_iff_iff, isAbsolute_iff, isAbsolute_iff, components_append,
      absolute, Bool.false_or]
    cases empty : base.components with
    | nil =>
      refine iff_of_false (fun starts => ?_) nofun
      rw [List.isEmpty_nil, if_pos rfl, ← isAbsolute_iff, absolute] at starts
      contradiction
    | cons first rest => rfl

/-- The root and a `.` lead nowhere. -/
theorem foldl_follow_filter (absolute : Bool) (start components : List Component) :
    (components.filter fun component => component != .root && component != .current).foldl
      (follow absolute) start = components.foldl (follow absolute) start := by
  rw [List.foldl_filter]
  congr 1
  funext trail component
  cases component <;> rfl

/-- A path leads where the components between its slashes do. -/
theorem trail_eq_foldl_below (path : Path) :
    path.trail = path.below.foldl (follow path.isAbsolute) [] := by
  rw [below_eq, foldl_follow_filter, trail]

/-- The addition is followed from where the base leads. -/
theorem trail_append (relative : addition.isAbsolute = false) :
    (base / addition).trail = addition.below.foldl (follow base.isAbsolute) base.trail := by
  have absolute : (base / addition).isAbsolute = base.isAbsolute := by
    rw [isAbsolute_append, relative, Bool.or_false]
  rw [trail, absolute, components_append, relative, Bool.false_or]
  cases given : base.components with
  | nil =>
    have still : base.trail = [] := by rw [trail, given, List.foldl_nil]
    rw [List.isEmpty_nil, if_pos rfl, still, below_eq, foldl_follow_filter]
  | cons first rest =>
    rw [List.isEmpty_cons, if_neg Bool.false_ne_true, List.foldl_append, ← given]
    rfl

/-- To follow what remains of a relative path and one more component is to follow the component
afterwards: what a `..` takes back was only just entered. -/
theorem foldl_reverse_follow (absolute : Bool) (start trail : List Component)
    (component : Component) :
    (follow false trail component).reverse.foldl (follow absolute) start =
      follow absolute (trail.reverse.foldl (follow absolute) start) component := by
  cases component with
  | root => rfl
  | current => rfl
  | name text => simp [follow]
  | parent =>
    cases trail with
    | nil => rfl
    | cons last rest => cases last <;> simp [follow]

/-- Components lead, from anywhere, where that leads which remains of them. -/
theorem foldl_follow_eq (absolute : Bool) (start components : List Component) :
    components.foldl (follow absolute) start =
      (components.foldl (follow false) []).reverse.foldl (follow absolute) start := by
  induction components using List.reverseRecOn with
  | nil => rfl
  | append_singleton components last ih =>
    rw [List.foldl_append, List.foldl_append, List.foldl_cons, List.foldl_nil, List.foldl_cons,
      List.foldl_nil, foldl_reverse_follow, ih]

/-- What remains of the addition is followed from where the base leads. -/
theorem trail_append_eq (relative : addition.isAbsolute = false) :
    (base / addition).trail =
      addition.trail.reverse.foldl (follow base.isAbsolute) base.trail := by
  rw [trail_append relative, foldl_follow_eq, trail_eq_foldl_below addition, relative]

/-- A path below a base may be normalized at once, or after each of both. -/
theorem normalize_append (base addition : Path) :
    (base / addition).normalize = (base.normalize / addition.normalize).normalize := by
  cases absolute : addition.isAbsolute with
  | true =>
    rw [append_of_isAbsolute absolute, append_of_isAbsolute (by simp [absolute]),
      normalize_normalize]
  | false =>
    have relative : addition.normalize.isAbsolute = false := by simp [absolute]
    rw [normalize_eq_iff, trail_append_eq absolute, trail_append_eq relative]
    simp

/-- Paths with one normal form have one below bases with one normal form. -/
theorem normalize_append_congr (bases : base.normalize = other.normalize)
    (additions : addition.normalize = more.normalize) :
    (base / addition).normalize = (other / more).normalize := by
  rw [normalize_append, bases, additions, ← normalize_append]

/-- It makes no difference whether an addition is placed below another one before or after that is
placed below the base. -/
theorem normalize_append_assoc (base addition more : Path) :
    (base / addition / more).normalize = (base / (addition / more)).normalize := by
  cases replaced : more.isAbsolute with
  | true => rw [append_of_isAbsolute replaced, append_of_isAbsolute replaced,
      append_of_isAbsolute replaced]
  | false =>
    cases absolute : addition.isAbsolute with
    | true =>
      have both : (addition / more).isAbsolute = true := by simp [absolute]
      rw [append_of_isAbsolute absolute, append_of_isAbsolute both]
    | false =>
      have together : (addition / more).trail =
          (addition.below ++ more.below).foldl (follow false) [] := by
        rw [trail_append replaced, absolute, trail_eq_foldl_below, absolute, List.foldl_append]
      have relative : (addition / more).isAbsolute = false := by simp [absolute, replaced]
      rw [normalize_eq_iff, trail_append replaced, trail_append absolute,
        trail_append_eq relative, together, ← foldl_follow_eq, List.foldl_append]
      simp [absolute, replaced]

/-- What is below the current directory of a base is below the base. -/
theorem normalize_append_empty (base : Path) : (base / Path.mk "").normalize = base.normalize := by
  rw [normalize_eq_iff, isAbsolute_append, trail_append rfl]
  exact ⟨Bool.or_false _, rfl⟩

/-- Pieces may be placed below a base one after the other, or all at once. -/
theorem normalize_foldl_append (base : Path) (pieces : List String) :
    (pieces.foldl (· / ·) base).normalize =
      (base / pieces.foldl (· / ·) (Path.mk "")).normalize := by
  induction pieces using List.reverseRecOn with
  | nil => exact (normalize_append_empty base).symm
  | append_singleton pieces last ih =>
    rw [List.foldl_append, List.foldl_append]
    exact (normalize_append_congr ih rfl).trans (normalize_append_assoc base _ ⟨last⟩)

/-- Pieces are followed from where the base leads. -/
theorem trail_foldl_append {pieces : List (List Char)} (whole : ∀ piece ∈ pieces, '/' ∉ piece) :
    ((pieces.map String.ofList).foldl (· / ·) base).isAbsolute = base.isAbsolute ∧
      ((pieces.map String.ofList).foldl (· / ·) base).trail =
        (pieces.filterMap Component.ofPiece?).foldl (follow base.isAbsolute) base.trail := by
  induction pieces generalizing base with
  | nil => exact ⟨rfl, rfl⟩
  | cons piece pieces ih =>
    rw [List.forall_mem_cons] at whole
    have clean : '/' ∉ (String.ofList piece).toList := by
      rw [String.toList_ofList]
      exact whole.1
    have relative := isAbsolute_of_piece clean
    obtain ⟨absolute, leads⟩ := @ih (base / Path.mk (String.ofList piece)) whole.2
    have same : (base / Path.mk (String.ofList piece)).isAbsolute = base.isAbsolute := by
      simp [relative]
    rw [same, trail_append relative, below_of_piece clean, String.toList_ofList] at leads
    refine ⟨absolute.trans same, leads.trans ?_⟩
    cases stands : Component.ofPiece? piece <;> simp [stands]

/-- Pieces below bases with one normal form have one. -/
theorem normalize_foldl_congr (bases : base.normalize = other.normalize) (pieces : List String) :
    (pieces.foldl (· / ·) base).normalize = (pieces.foldl (· / ·) other).normalize := by
  rw [normalize_foldl_append, normalize_foldl_append other]
  exact normalize_append_congr bases rfl

end BuildPath.Path
