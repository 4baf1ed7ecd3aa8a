import BuildPath.Glob.Matching
import BuildPath.Proofs.Outcome

/-!
# Patterns without wildcards

A text without wildcards is read as the pattern of its characters (`Pattern.parse_of_literal`), and
a pattern that matches one text alone was read from that text (`Pattern.eq_of_literal?`).
-/

namespace BuildPath.Glob

/-- Whether a character stands for others in a pattern. The closing bracket of a class does not: it
stands for itself where no class was opened. -/
def isWildcard (character : Char) : Bool :=
  character == '*' || character == '?' || character == '['

/-- Whether a text holds wildcards. -/
def isWild (text : String) : Bool :=
  text.toList.any isWildcard

variable {position : Nat} {fresh : Bool} {text characters : List Char} {character : Char}
  {tokens : List Token}

/-- A class is no single character. -/
theorem character?_of_characterClass {token : Token}
    (found : characterClass text = some (token, characters)) : token.character? = none := by
  unfold characterClass at found
  split at found
  · obtain ⟨⟨body, after⟩, -, same⟩ := Option.map_eq_some_iff.1 found
    cases same
    rfl
  · obtain ⟨⟨body, after⟩, -, same⟩ := Option.map_eq_some_iff.1 found
    cases same
    rfl

/-- A character that is no wildcard is read as itself. -/
theorem tokensFrom_cons (plain : isWildcard character = false) :
    tokensFrom position fresh (character :: text) =
      (.exactly character :: ·) <$> tokensFrom (position + 1) (character == '/') text := by
  obtain ⟨⟨star, mark⟩, bracket⟩ : (character ≠ '*' ∧ character ≠ '?') ∧ character ≠ '[' := by
    simpa [isWildcard] using plain
  rw [tokensFrom]
  · rfl
  · exact mark
  · exact fun _ same => absurd same star
  · exact fun _ same => absurd same star
  · exact star
  · exact bracket

/-- A wildcard is not read as a single character. -/
theorem exists_of_tokensFrom_wildcard (wild : isWildcard character = true)
    (read : tokensFrom position fresh (character :: text) = .ok tokens) :
    ∃ token later, tokens = token :: later ∧ token.character? = none := by
  have first {token : Token} {rest : Except Fault (List Token)} (other : token.character? = none)
      (read : (do return token :: (← rest)) = Except.ok tokens) :
      ∃ token later, tokens = token :: later ∧ token.character? = none := by
    obtain ⟨later, -, done⟩ := Outcome.bind_eq_ok_iff.1 read
    cases done
    exact ⟨token, later, rfl, other⟩
  unfold tokensFrom at read
  split at read
  next same => cases same
  next rest same => exact first rfl read
  next => cases read
  next rest same =>
    split at read
    · cases read
    · split at read
      · cases read
        exact ⟨_, _, rfl, rfl⟩
      · exact first rfl read
      · cases read
  next rest same => exact first rfl read
  next rest same =>
    split at read
    · cases read
    next found => exact first (character?_of_characterClass found) read
  next mark _ _ star bracket same =>
    cases same
    simp only [isWildcard, Bool.or_eq_true, beq_iff_eq] at wild
    rcases wild with (wild | wild) | wild
    · exact (star wild).elim
    · exact (mark wild).elim
    · exact (bracket wild).elim

/-- Characters that are no wildcards are read one by one. -/
theorem tokensFrom_of_literal (literal : ∀ character ∈ text, isWildcard character = false) :
    tokensFrom position fresh text = .ok (text.map .exactly) := by
  induction text generalizing position fresh with
  | nil =>
    rw [tokensFrom]
    rfl
  | cons character rest ih =>
    rw [List.forall_mem_cons] at literal
    rw [tokensFrom_cons literal.1, ih literal.2]
    rfl

/-- Characters that are read one by one are those of the text. -/
theorem eq_of_tokensFrom (read : tokensFrom position fresh text = .ok (characters.map .exactly)) :
    text = characters := by
  induction text generalizing position fresh characters with
  | nil =>
    rw [tokensFrom] at read
    exact (List.map_eq_nil_iff.1 (Except.ok.inj read).symm).symm
  | cons first rest ih =>
    cases wild : isWildcard first with
    | true =>
      obtain ⟨token, later, same, other⟩ := exists_of_tokensFrom_wildcard wild read
      obtain ⟨character, characters, -, rfl, -⟩ := List.map_eq_cons_iff.1 same
      contradiction
    | false =>
      rw [tokensFrom_cons wild] at read
      obtain ⟨later, after, same⟩ := Outcome.map_eq_ok_iff.1 read
      obtain ⟨character, characters, rfl, equal, rfl⟩ := List.map_eq_cons_iff.1 same.symm
      cases equal
      rw [ih after]

/-- Tokens stand for single characters when they are these characters. -/
theorem mapM_character?_eq_some_iff :
    tokens.mapM Token.character? = some characters ↔ tokens = characters.map .exactly := by
  induction tokens generalizing characters with
  | nil => simp [@eq_comm _ _ characters]
  | cons token rest ih =>
    rw [List.mapM_cons, @eq_comm _ (token :: rest), List.map_eq_cons_iff]
    cases token <;>
      simp [Token.character?, Option.bind_eq_some_iff, ih, and_comm, @eq_comm _ rest,
        @eq_comm _ characters]

namespace Pattern

variable {pattern : Pattern} {text name : String}

/-- The pattern of the characters of a text. -/
def verbatim (text : String) : Pattern :=
  ⟨text.toList.map .exactly⟩

/-- A pattern matches one text alone when it is that of its characters. -/
theorem literal?_eq_some_iff : pattern.literal? = some name ↔ pattern = verbatim name := by
  obtain ⟨tokens⟩ := pattern
  rw [literal?, Option.map_eq_some_iff, verbatim, mk.injEq]
  constructor
  · rintro ⟨characters, found, rfl⟩
    rw [String.toList_ofList]
    exact mapM_character?_eq_some_iff.1 found
  · intro same
    exact ⟨name.toList, mapM_character?_eq_some_iff.2 same, String.ofList_toList⟩

/-- The characters of a text stand for no directories. -/
theorem isRecursive_verbatim (text : String) : (verbatim text).isRecursive = false := by
  simp [isRecursive, verbatim]

/-- A pattern that matches one text alone was read from it. -/
theorem eq_of_literal? (read : parse text = .ok pattern) (literal : pattern.literal? = some name) :
    name = text := by
  obtain ⟨tokens, found, rfl⟩ := Outcome.map_eq_ok_iff.1 read
  cases literal?_eq_some_iff.1 literal
  exact (String.toList_inj.1 (eq_of_tokensFrom found)).symm

/-- A text without wildcards is read as its characters. -/
theorem parse_of_literal (literal : isWild text = false) : parse text = .ok (verbatim text) := by
  have plain : ∀ character ∈ text.toList, isWildcard character = false := by
    simpa [isWild] using literal
  rw [parse, tokensFrom_of_literal plain]
  rfl

/-- Texts without wildcards are read as their characters. -/
theorem mapM_parse_of_literal {texts : List String}
    (literal : ∀ text ∈ texts, isWild text = false) :
    texts.mapM parse = .ok (texts.map verbatim) := by
  rw [Outcome.mapM_eq_ok_iff_forall₂, List.forall₂_map_right_iff, List.forall₂_same]
  exact fun text member => parse_of_literal (literal text member)

end Pattern

end BuildPath.Glob
