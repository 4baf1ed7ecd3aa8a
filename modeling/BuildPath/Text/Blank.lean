/-!
# White space

The characters that count as white space everywhere in this library, and the text left after
removing them from both ends, which is all that is removed (`exists_surroundings`).
-/

namespace BuildPath.Text

/-- The 25 characters with the Unicode property `White_Space`. -/
def isBlank (character : Char) : Bool :=
  let code := character.toNat
  (0x9 ≤ code && code ≤ 0xD) || code == 0x20 || code == 0x85 || code == 0xA0 ||
    code == 0x1680 || (0x2000 ≤ code && code ≤ 0x200A) || code == 0x2028 || code == 0x2029 ||
    code == 0x202F || code == 0x205F || code == 0x3000

/-- The text without the white space at its start. -/
def trimStart (text : List Char) : List Char :=
  text.dropWhile isBlank

/-- The text without the white space at its end. -/
def trimEnd (text : List Char) : List Char :=
  (trimStart text.reverse).reverse

/-- The text without the white space at either end. -/
def trim (text : List Char) : List Char :=
  trimEnd (trimStart text)

variable {before core after : List Char}

/-- White space before a text that starts with something else is removed. -/
theorem trimStart_append (blank : ∀ character ∈ before, isBlank character = true)
    (starts : ∀ character ∈ core.head?, isBlank character = false) :
    trimStart (before ++ core) = core := by
  rw [trimStart, List.dropWhile_append_of_pos blank]
  cases core with
  | nil => rfl
  | cons first rest => exact List.dropWhile_cons_of_neg (by simp [starts first rfl])

/-- White space around a text that holds none is removed. -/
theorem trim_surrounded (blank : ∀ character ∈ before ++ after, isBlank character = true)
    (clean : ∀ character ∈ core, isBlank character = false) :
    trim (before ++ core ++ after) = core := by
  cases core with
  | nil =>
    rw [List.append_nil, trim, ← List.append_nil (before ++ after),
      trimStart_append blank (by simp)]
    rfl
  | cons first rest =>
    obtain ⟨blankBefore, blankAfter⟩ := List.forall_mem_append.1 blank
    have ends : ∀ character ∈ (first :: rest).reverse.head?, isBlank character = false :=
      fun character last => clean character (List.mem_reverse.1 (List.mem_of_mem_head? last))
    rw [trim, List.append_assoc, trimStart_append blankBefore, trimEnd, List.reverse_append,
      trimStart_append (by simpa using blankAfter) ends, List.reverse_reverse]
    simpa using (List.forall_mem_cons.1 clean).1

/-- A text that holds no white space is left as it is. -/
theorem trim_of_clean (clean : ∀ character ∈ core, isBlank character = false) :
    trim core = core := by
  have around : trim ([] ++ core ++ []) = core := trim_surrounded nofun clean
  simpa using around

/-- Nothing but white space is removed from around a text. -/
theorem exists_surroundings (text : List Char) : ∃ before after,
    text = before ++ trim text ++ after ∧
      ∀ character ∈ before ++ after, isBlank character = true := by
  refine ⟨text.takeWhile isBlank, ((trimStart text).reverse.takeWhile isBlank).reverse, ?_, ?_⟩
  · unfold trim trimEnd trimStart
    rw [List.append_assoc, ← List.reverse_append, List.takeWhile_append_dropWhile,
      List.reverse_reverse, List.takeWhile_append_dropWhile]
  · have taken : ∀ text : List Char, ∀ character ∈ text.takeWhile isBlank,
        isBlank character = true := fun text => List.all_eq_true.1 List.all_takeWhile
    rw [List.forall_mem_append]
    exact ⟨taken text, fun character member => taken _ character (List.mem_reverse.1 member)⟩

end BuildPath.Text
