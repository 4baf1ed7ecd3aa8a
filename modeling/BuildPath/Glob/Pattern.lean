/-!
# Glob patterns

A pattern is a text in which `?` stands for one character, `*` for any characters, `[...]` and
`[!...]` for one character in or out of a class, and `**`, which has to be a whole component, for
any number of directories. There are no escapes. Reading a pattern (`Pattern.parse`) fails at a
position counted in characters.
-/

namespace BuildPath.Glob

/-- An item of a character class. -/
inductive Specifier
  | single (character : Char)
  | range (first last : Char)
  deriving DecidableEq, Repr

/-- Whether a character belongs to the item. A range holds both of its ends. -/
def Specifier.admits (character : Char) : Specifier → Bool
  | .single expected => character == expected
  | .range first last => first ≤ character && character ≤ last

/-- An element of a pattern. -/
inductive Token
  /-- `?` -/
  | anyCharacter
  /-- `*` -/
  | anySequence
  /-- `**` with the slash after it. -/
  | anyDirectories
  /-- `[...]` -/
  | oneOf (specifiers : List Specifier)
  /-- `[!...]` -/
  | noneOf (specifiers : List Specifier)
  | exactly (character : Char)
  deriving DecidableEq, Repr

/-- Why a text is no pattern. -/
inductive Malformation
  /-- More than two `*` in a row. -/
  | tooManyStars
  /-- A `**` with something other than a slash beside it. -/
  | partOfComponent
  /-- A `[` that no `]` closes. -/
  | openClass
  deriving DecidableEq, Repr

/-- What is said about a malformation. -/
def Malformation.message : Malformation → String
  | .tooManyStars => "wildcards are either regular `*` or recursive `**`"
  | .partOfComponent => "recursive wildcards must form a single path component"
  | .openClass => "invalid range pattern"

/-- A malformation and the number of characters before the place where it shows. -/
structure Fault where
  position : Nat
  malformation : Malformation
  deriving DecidableEq, Repr

/-- The text of a fault. -/
def Fault.message (fault : Fault) : String :=
  s!"Pattern syntax error near position {fault.position}: " ++ fault.malformation.message

/-- The items of a class. A `-` between two characters makes a range of them. -/
def specifiers : List Char → List Specifier
  | first :: '-' :: last :: rest => .range first last :: specifiers rest
  | character :: rest => .single character :: specifiers rest
  | [] => []

/-- The inside of a class, at least one character long, and the text after its closing bracket. The
first character never closes the class. -/
def classBody (text : List Char) : Option (List Char × List Char) :=
  match text with
  | [] => none
  | first :: rest =>
    match rest.dropWhile (· != ']') with
    | [] => none
    | _ :: after => some (first :: rest.takeWhile (· != ']'), after)

/-- A class, read after its opening bracket, and the text after it. -/
def characterClass (text : List Char) : Option (Token × List Char) :=
  match text with
  | '!' :: rest => (classBody rest).map fun (body, after) => (.noneOf (specifiers body), after)
  | _ => (classBody text).map fun (body, after) => (.oneOf (specifiers body), after)

/-- What follows a class is shorter than what follows its opening bracket. -/
theorem length_classBody {text body after : List Char}
    (found : classBody text = some (body, after)) : after.length < text.length := by
  cases text with
  | nil => simp [classBody] at found
  | cons first rest =>
    simp only [classBody] at found
    split at found
    next => simp at found
    next _ tail remaining =>
      simp only [Option.some.injEq, Prod.mk.injEq] at found
      have bound : (rest.dropWhile (· != ']')).length ≤ rest.length :=
        (List.dropWhile_suffix _).length_le
      rw [remaining] at bound
      simp only [List.length_cons] at bound ⊢
      rw [← found.2]
      omega

/-- What follows a class, negated or not, is shorter than what follows its opening bracket. -/
theorem length_characterClass {text after : List Char} {token : Token}
    (found : characterClass text = some (token, after)) : after.length < text.length := by
  unfold characterClass at found
  split at found
  next rest =>
    obtain ⟨⟨body, remaining⟩, inner, same⟩ := Option.map_eq_some_iff.1 found
    have shorter := length_classBody inner
    simp only [Prod.mk.injEq] at same
    simp only [List.length_cons, ← same.2]
    omega
  next =>
    obtain ⟨⟨body, remaining⟩, inner, same⟩ := Option.map_eq_some_iff.1 found
    have shorter := length_classBody inner
    simp only [Prod.mk.injEq] at same
    rw [← same.2]
    exact shorter

/-- The tokens of a text that stands at a position, `fresh` if at the start of a component. -/
def tokensFrom (position : Nat) (fresh : Bool) (text : List Char) : Except Fault (List Token) :=
  match text with
  | [] => .ok []
  | '?' :: rest => return .anyCharacter :: (← tokensFrom (position + 1) false rest)
  | '*' :: '*' :: '*' :: _ => .error ⟨position + 2, .tooManyStars⟩
  | '*' :: '*' :: rest =>
    if !fresh then .error ⟨position - 1, .partOfComponent⟩
    else
      match rest with
      | [] => .ok [.anyDirectories]
      | '/' :: rest => return .anyDirectories :: (← tokensFrom (position + 3) true rest)
      | _ => .error ⟨position + 2, .partOfComponent⟩
  | '*' :: rest => return .anySequence :: (← tokensFrom (position + 1) false rest)
  | '[' :: rest =>
    match found : characterClass rest with
    | none => .error ⟨position, .openClass⟩
    | some (token, after) =>
      return token :: (← tokensFrom (position + 1 + (rest.length - after.length)) false after)
  | character :: rest =>
    return .exactly character :: (← tokensFrom (position + 1) (character == '/') rest)
termination_by text.length
decreasing_by
  all_goals simp_wf
  · omega
  · have shorter := length_characterClass found
    omega

/-- The character that a token stands for, if it stands for a given one. -/
def Token.character? : Token → Option Char
  | .exactly character => some character
  | _ => none

/-- A pattern that was read from a text. -/
structure Pattern where
  tokens : List Token
  deriving DecidableEq, Repr

namespace Pattern

/-- Reads a pattern. -/
def parse (text : String) : Except Fault Pattern :=
  Pattern.mk <$> tokensFrom 0 true text.toList

/-- Whether the pattern stands for directories at any depth. -/
def isRecursive (pattern : Pattern) : Bool :=
  pattern.tokens.contains .anyDirectories

/-- The only text that the pattern matches, if it holds no wildcard at all. -/
def literal? (pattern : Pattern) : Option String :=
  (pattern.tokens.mapM Token.character?).map String.ofList

end Pattern

end BuildPath.Glob
