/-!
# Separated text

Cutting a text at every occurrence of a separator, and putting the pieces back together. The two
undo each other: joining the pieces gives the text back (`join_split`), and pieces that do not hold
the separator are found again (`split_join`).
-/

namespace BuildPath.Text

/-- The pieces between the occurrences of `separator`, at least one, none of which holds it. -/
def split (separator : Char) : List Char → List (List Char)
  | [] => [[]]
  | character :: rest =>
    if character == separator then [] :: split separator rest
    else
      match split separator rest with
      | [] => [[character]]
      | piece :: pieces => (character :: piece) :: pieces

/-- The pieces with `separator` between them. -/
def join (separator : Char) : List (List Char) → List Char
  | [] => []
  | [piece] => piece
  | piece :: next :: pieces => piece ++ separator :: join separator (next :: pieces)

/-- A text has at least one piece. -/
theorem split_ne_nil (separator : Char) (text : List Char) : split separator text ≠ [] := by
  cases text with
  | nil => simp [split]
  | cons character rest =>
    simp only [split]
    split
    · simp
    · split <;> simp

/-- The pieces of a text put back together are the text. -/
theorem join_split (separator : Char) (text : List Char) :
    join separator (split separator text) = text := by
  induction text with
  | nil => rfl
  | cons character rest ih =>
    simp only [split]
    split
    next same =>
      have equal : character = separator := by simpa using same
      cases pieces : split separator rest with
      | nil => exact absurd pieces (split_ne_nil separator rest)
      | cons piece more => rw [join, List.nil_append, ← pieces, ih, equal]
    next =>
      cases pieces : split separator rest with
      | nil => exact absurd pieces (split_ne_nil separator rest)
      | cons piece more =>
        rw [pieces] at ih
        cases more with
        | nil => simpa [join] using ih
        | cons next more => simpa [join] using ih

/-- No piece holds the separator. -/
theorem separator_not_mem_of_mem_split {separator : Char} {text piece : List Char}
    (member : piece ∈ split separator text) : separator ∉ piece := by
  induction text generalizing piece with
  | nil =>
    simp only [split, List.mem_singleton] at member
    simp [member]
  | cons character rest ih =>
    simp only [split] at member
    split at member
    next =>
      rcases List.mem_cons.1 member with rfl | member
      · simp
      · exact ih member
    next different =>
      have differs : character ≠ separator := by simpa using different
      cases pieces : split separator rest with
      | nil => exact absurd pieces (split_ne_nil separator rest)
      | cons first more =>
        rw [pieces] at member ih
        rcases List.mem_cons.1 member with rfl | member
        · have clean := ih (List.mem_cons_self ..)
          simp only [List.mem_cons, not_or]
          exact ⟨fun equal => differs equal.symm, clean⟩
        · exact ih (List.mem_cons_of_mem _ member)

/-- Text before the first separator is the first piece. -/
theorem split_append_cons {separator : Char} {piece : List Char} (clean : separator ∉ piece)
    (rest : List Char) :
    split separator (piece ++ separator :: rest) = piece :: split separator rest := by
  induction piece with
  | nil => simp [split]
  | cons character piece ih =>
    simp only [List.mem_cons, not_or] at clean
    have differs : (character == separator) = false := by
      simpa using fun equal : character = separator => clean.1 equal.symm
    simp [split, differs, ih clean.2]

/-- A separator ends one piece and starts the next one. -/
theorem split_append_separator (separator : Char) (text rest : List Char) :
    split separator (text ++ separator :: rest) = split separator text ++ split separator rest := by
  induction text with
  | nil => simp [split]
  | cons character text ih =>
    rw [List.cons_append, split, split, ih]
    split
    · rfl
    next =>
      cases pieces : split separator text with
      | nil => exact absurd pieces (split_ne_nil separator text)
      | cons piece more => rfl

/-- A text without the separator is one piece. -/
theorem split_of_not_mem {separator : Char} {piece : List Char} (clean : separator ∉ piece) :
    split separator piece = [piece] := by
  induction piece with
  | nil => rfl
  | cons character piece ih =>
    simp only [List.mem_cons, not_or] at clean
    have differs : (character == separator) = false := by
      simpa using fun equal : character = separator => clean.1 equal.symm
    simp [split, differs, ih clean.2]

/-- Pieces without the separator are found again in their joined text. -/
theorem split_join {separator : Char} {pieces : List (List Char)} (nonempty : pieces ≠ [])
    (clean : ∀ piece ∈ pieces, separator ∉ piece) :
    split separator (join separator pieces) = pieces := by
  induction pieces with
  | nil => exact absurd rfl nonempty
  | cons piece pieces ih =>
    cases pieces with
    | nil => exact split_of_not_mem (clean piece (List.mem_cons_self ..))
    | cons next more =>
      rw [join, split_append_cons (clean piece (List.mem_cons_self ..)),
        ih (by simp) fun member => fun inside => clean member (List.mem_cons_of_mem _ inside)]

variable {separator : Char} {pieces : List (List Char)}

/-- What is true of the separator and of every character of some pieces is true of every character
of the pieces put together. -/
theorem forall_mem_join {property : Char → Prop} (between : property separator)
    (within : ∀ piece ∈ pieces, ∀ character ∈ piece, property character) :
    ∀ character ∈ join separator pieces, property character := by
  induction pieces with
  | nil => exact nofun
  | cons piece pieces ih =>
    obtain ⟨here, later⟩ := List.forall_mem_cons.1 within
    cases pieces with
    | nil => exact here
    | cons next more =>
      rw [join, List.forall_mem_append, List.forall_mem_cons]
      exact ⟨here, between, ih later⟩

/-- The characters of a piece are among those of the pieces put together. -/
theorem subset_join {piece : List Char} (member : piece ∈ pieces) :
    piece ⊆ join separator pieces := by
  induction pieces with
  | nil => contradiction
  | cons first pieces ih =>
    cases pieces with
    | nil =>
      rw [List.mem_singleton.1 member]
      exact List.Subset.refl first
    | cons next more =>
      rw [join]
      rcases List.mem_cons.1 member with rfl | later
      · exact List.subset_append_left _ _
      · exact fun character inside =>
          List.mem_append_right _ (List.mem_cons_of_mem _ (ih later inside))

/-- The characters of a piece are among those of the text. -/
theorem subset_of_mem_split {text piece : List Char} (member : piece ∈ split separator text) :
    piece ⊆ text := by
  have among := @subset_join separator _ _ member
  rwa [join_split] at among

section Unique

variable {Item : Type} {separator : Item} {front other back more : List Item}

/-- A sequence is cut at its first separator in one way only. -/
theorem append_first_inj (clean : separator ∉ front) (too : separator ∉ other) :
    front ++ separator :: back = other ++ separator :: more ↔ front = other ∧ back = more := by
  constructor
  · intro same
    induction front generalizing other with
    | nil =>
      cases other with
      | nil => exact ⟨rfl, (List.cons.inj same).2⟩
      | cons first rest => exact absurd ((List.cons.inj same).1 ▸ List.mem_cons_self) too
    | cons first rest ih =>
      cases other with
      | nil => exact absurd ((List.cons.inj same).1 ▸ List.mem_cons_self) clean
      | cons next others =>
        obtain ⟨rfl, later⟩ := List.cons.inj same
        obtain ⟨rfl, rfl⟩ := ih (mt (List.mem_cons_of_mem first) clean)
          (mt (List.mem_cons_of_mem first) too) later
        exact ⟨rfl, rfl⟩
  · rintro ⟨rfl, rfl⟩
    rfl

/-- A sequence is cut at its last separator in one way only. -/
theorem append_last_inj (clean : separator ∉ back) (too : separator ∉ more) :
    front ++ separator :: back = other ++ separator :: more ↔ front = other ∧ back = more := by
  have backwards := @append_first_inj _ separator back.reverse more.reverse front.reverse
    other.reverse (mt List.mem_reverse.1 clean) (mt List.mem_reverse.1 too)
  rw [← List.reverse_inj]
  simpa [and_comm] using backwards

/-- Sequences that each have a separator behind them, and none inside, can be told apart when they
are put together. -/
theorem flatMap_terminated_inj {pieces others : List (List Item)}
    (clean : ∀ piece ∈ pieces, separator ∉ piece) (too : ∀ piece ∈ others, separator ∉ piece) :
    pieces.flatMap (· ++ [separator]) = others.flatMap (· ++ [separator]) ↔ pieces = others := by
  refine ⟨fun same => ?_, congrArg _⟩
  induction pieces generalizing others with
  | nil =>
    cases others with
    | nil => rfl
    | cons next others => simp at same
  | cons piece pieces ih =>
    cases others with
    | nil => simp at same
    | cons next others =>
      obtain ⟨here, later⟩ := List.forall_mem_cons.1 clean
      obtain ⟨there, beyond⟩ := List.forall_mem_cons.1 too
      rw [List.flatMap_cons, List.flatMap_cons, List.append_assoc, List.append_assoc,
        List.singleton_append, List.singleton_append, append_first_inj here there] at same
      obtain ⟨rfl, same⟩ := same
      rw [ih later beyond same]

/-- Items that are spelled with equally many digits can be told apart when they are put together. -/
theorem flatMap_inj_of_length {Digit : Type} {spell : Item → List Digit} {left right : List Item}
    (alike : left.length = right.length)
    (even : ∀ item other, (spell item).length = (spell other).length)
    (apart : ∀ item ∈ left, ∀ other ∈ right, spell item = spell other → item = other)
    (same : left.flatMap spell = right.flatMap spell) : left = right := by
  induction left generalizing right with
  | nil => exact (List.length_eq_zero_iff.1 alike.symm).symm
  | cons item left ih =>
    cases right with
    | nil => contradiction
    | cons other right =>
      obtain ⟨here, later⟩ := List.append_inj same (even item other)
      rw [apart item List.mem_cons_self other List.mem_cons_self here,
        ih (Nat.succ.inj alike) (fun item member other among =>
          apart item (List.mem_cons_of_mem _ member) other (List.mem_cons_of_mem _ among)) later]

end Unique

end BuildPath.Text
