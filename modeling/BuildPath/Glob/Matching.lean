import BuildPath.Glob.Pattern

/-!
# Glob matching

What it means that a pattern matches a text, and how that is found out. `acceptedBy` is the meaning:
it tries every length for every `*`, one after the other. `verdicts` settles all ends of the text at
once, from the last token to the first, so that no end is looked at twice for the same token.
`verdicts_eq` says that the two agree.
-/

namespace BuildPath.Glob

/-- Whether a token that stands for one character admits it. -/
def Token.admits (character : Char) : Token → Bool
  | .anyCharacter => true
  | .oneOf specifiers => specifiers.any (·.admits character)
  | .noneOf specifiers => !specifiers.any (·.admits character)
  | .exactly expected => character == expected
  | .anySequence | .anyDirectories => false

/-- Whether some end of the text is accepted, the whole text and the empty one included. -/
def someEnd (accepts : List Char → Bool) : List Char → Bool
  | [] => accepts []
  | character :: rest => accepts (character :: rest) || someEnd accepts rest

/-- Whether what follows some slash of the text, or the empty end, is accepted. -/
def someComponentEnd (accepts : List Char → Bool) : List Char → Bool
  | [] => accepts []
  | character :: rest => (character == '/' && accepts rest) || someComponentEnd accepts rest

/-- Whether the tokens match the whole text. `*` also runs over slashes, and a final `**` over
everything. -/
def acceptedBy : List Token → List Char → Bool
  | [], text => text.isEmpty
  | .anySequence :: tokens, text => someEnd (acceptedBy tokens) text
  | .anyDirectories :: tokens, text =>
    acceptedBy tokens text || someComponentEnd (acceptedBy tokens) text
  | _ :: _, [] => false
  | token :: tokens, character :: rest => token.admits character && acceptedBy tokens rest

/-! ## All ends at once -/

/-- Which ends of a text are accepted, the whole text first and the empty one last. -/
def ends (accepts : List Char → Bool) : List Char → List Bool
  | [] => [accepts []]
  | character :: rest => accepts (character :: rest) :: ends accepts rest

/-- For each end of a text, whether it or a later one is accepted. -/
def sinceThen : List Bool → List Bool
  | [] => []
  | here :: later =>
    let further := sinceThen later
    (here || further.headD false) :: further

/-- For each end of a text, whether what follows one of its slashes, or the empty end, is
accepted. -/
def sinceSlash : List Char → List Bool → List Bool
  | character :: rest, _ :: later =>
    let further := sinceSlash rest later
    ((character == '/' && later.headD false) || further.headD false) :: further
  | _, accepted => accepted

/-- For each end of a text, whether a token that stands for one character admits the first one and
the end after it is accepted. -/
def oneFurther (token : Token) : List Char → List Bool → List Bool
  | character :: rest, _ :: later =>
    (token.admits character && later.headD false) :: oneFurther token rest later
  | _, _ => [false]

/-- Which ends of a text the tokens match. -/
def verdicts (text : List Char) : List Token → List Bool
  | [] => ends List.isEmpty text
  | .anySequence :: tokens => sinceThen (verdicts text tokens)
  | .anyDirectories :: tokens =>
    let accepted := verdicts text tokens
    List.zipWith (· || ·) accepted (sinceSlash text accepted)
  | token :: tokens => oneFurther token text (verdicts text tokens)

/-- The first end is the whole text. -/
theorem headD_ends (accepts : List Char → Bool) (text : List Char) :
    (ends accepts text).headD false = accepts text := by
  cases text <;> rfl

/-- To accept an end or a later one is to accept some end of it. -/
theorem sinceThen_ends (accepts : List Char → Bool) (text : List Char) :
    sinceThen (ends accepts text) = ends (someEnd accepts) text := by
  induction text with
  | nil => simp [ends, sinceThen, someEnd]
  | cons character rest ih => simp only [ends, sinceThen, ih, headD_ends, someEnd]

/-- To accept what follows a slash is to accept some end that starts a component. -/
theorem sinceSlash_ends (accepts : List Char → Bool) (text : List Char) :
    sinceSlash text (ends accepts text) = ends (someComponentEnd accepts) text := by
  induction text with
  | nil => rfl
  | cons character rest ih => simp only [ends, sinceSlash, ih, headD_ends, someComponentEnd]

/-- To admit a first character and accept the rest is to match one token more. -/
theorem oneFurther_ends (token : Token) (accepts : List Char → Bool) (text : List Char) :
    oneFurther token text (ends accepts text) =
      ends (fun
        | [] => false
        | character :: rest => token.admits character && accepts rest) text := by
  induction text with
  | nil => rfl
  | cons character rest ih => simp only [ends, oneFurther, ih, headD_ends]

/-- Two verdicts on every end are the verdicts of one or the other. -/
theorem zipWith_or_ends (first second : List Char → Bool) (text : List Char) :
    List.zipWith (· || ·) (ends first text) (ends second text) =
      ends (fun text => first text || second text) text := by
  induction text with
  | nil => rfl
  | cons character rest ih => simp only [ends, List.zipWith_cons_cons, ih]

/-- The verdicts are the meaning of the tokens, on every end of the text. -/
theorem verdicts_eq (text : List Char) (tokens : List Token) :
    verdicts text tokens = ends (acceptedBy tokens) text := by
  induction tokens with
  | nil => congr
  | cons token tokens ih =>
    cases token with
    | anySequence => rw [verdicts, ih, sinceThen_ends]; congr
    | anyDirectories =>
      rw [verdicts, ih, sinceSlash_ends, zipWith_or_ends]; congr
    | _ =>
      simp only [verdicts, ih, oneFurther_ends]
      congr
      funext text
      cases text <;> simp [acceptedBy]

/-- Whether the pattern matches the whole text. -/
def Pattern.accepts (pattern : Pattern) (text : String) : Bool :=
  (verdicts text.toList pattern.tokens).headD false

/-- A pattern accepts exactly the texts that its tokens match. -/
theorem Pattern.accepts_eq (pattern : Pattern) (text : String) :
    pattern.accepts text = acceptedBy pattern.tokens text.toList := by
  rw [accepts, verdicts_eq, headD_ends]

end BuildPath.Glob
