import BuildPath.Json.Document

/-!
# Reading documents

The syntax of JSON, strictly: no comments, no trailing commas, no control characters in strings, no
zeros before a number. Each reader takes the text that is left and gives back what it read and what
is left after it.
-/

namespace BuildPath.Json.Reader

/-- A unit of a string: a character, or the 16 bits of an escape. -/
inductive Piece
  | character (value : Char)
  | escape (code : Nat)

/-- The value of a hexadecimal digit. -/
def hexadecimal? (character : Char) : Option Nat :=
  if '0' ≤ character && character ≤ '9' then some (character.toNat - '0'.toNat)
  else if 'a' ≤ character && character ≤ 'f' then some (character.toNat - 'a'.toNat + 10)
  else if 'A' ≤ character && character ≤ 'F' then some (character.toNat - 'A'.toNat + 10)
  else none

/-- What a short escape stands for. -/
def shortEscape? (character : Char) : Option Char :=
  if character == '"' || character == '\\' || character == '/' then some character
  else if character == 'b' then some (Char.ofNat 8)
  else if character == 'f' then some (Char.ofNat 12)
  else if character == 'n' then some '\n'
  else if character == 'r' then some '\r'
  else if character == 't' then some '\t'
  else none

/-- The pieces of a string, read after its opening quote, and what follows its closing quote. -/
def pieces : List Char → Option (List Piece × List Char)
  | [] => none
  | '"' :: rest => some ([], rest)
  | '\\' :: 'u' :: a :: b :: c :: d :: rest => do
    let code := (← hexadecimal? a) * 4096 + (← hexadecimal? b) * 256 + (← hexadecimal? c) * 16 +
      (← hexadecimal? d)
    let (more, after) ← pieces rest
    return (.escape code :: more, after)
  | '\\' :: character :: rest => do
    let meant ← shortEscape? character
    let (more, after) ← pieces rest
    return (.character meant :: more, after)
  | character :: rest => do
    if character.toNat < 0x20 || character == '\\' then none
    let (more, after) ← pieces rest
    return (.character character :: more, after)

/-- The text that pieces spell. The two halves of a surrogate pair have to follow each other. -/
def spelled : List Piece → Option (List Char)
  | [] => some []
  | .character value :: rest => (value :: ·) <$> spelled rest
  | .escape code :: rest =>
    if code < 0xD800 || 0xE000 ≤ code then (Char.ofNat code :: ·) <$> spelled rest
    else if 0xDC00 ≤ code then none
    else
      match rest with
      | .escape low :: more =>
        if 0xDC00 ≤ low && low < 0xE000 then
          (Char.ofNat (0x10000 + (code - 0xD800) * 1024 + (low - 0xDC00)) :: ·) <$> spelled more
        else none
      | _ => none

/-- A string, read after its opening quote. -/
def stringBody (text : List Char) : Option (Option String × List Char) := do
  let (body, after) ← pieces text
  return ((spelled body).map String.ofList, after)

/-- The digits at the start of a text. -/
def leadingDigits (text : List Char) : List Nat :=
  (text.takeWhile Char.isDigit).map fun character => character.toNat - '0'.toNat

/-- A fraction, if a point follows. -/
def fraction (text : List Char) : Option (Option (List Nat) × List Char) :=
  match text with
  | '.' :: rest =>
    let digits := leadingDigits rest
    if digits.isEmpty then none else some (some digits, rest.drop digits.length)
  | _ => some (none, text)

/-- An exponent, if its mark follows. -/
def exponent (text : List Char) : Option (Option (Bool × List Nat) × List Char) :=
  match text with
  | mark :: rest =>
    if mark == 'e' || mark == 'E' then
      let (down, rest) :=
        match rest with
        | '+' :: rest => (false, rest)
        | '-' :: rest => (true, rest)
        | rest => (false, rest)
      let digits := leadingDigits rest
      if digits.isEmpty then none else some (some (down, digits), rest.drop digits.length)
    else some (none, text)
  | [] => some (none, text)

/-- A number. Its whole part has a digit, and no zero before others. -/
def numeral (text : List Char) : Option (Numeral × List Char) := do
  let (negative, text) :=
    match text with
    | '-' :: rest => (true, rest)
    | text => (false, text)
  let whole := leadingDigits text
  if whole.isEmpty || (whole.head? = some 0 && 1 < whole.length) then none
  let (fraction, text) ← fraction (text.drop whole.length)
  let (exponent, text) ← exponent text
  return (⟨negative, whole, fraction, exponent⟩, text)

/-- Whether a character may stand between the tokens of a document. -/
def isSpace (character : Char) : Bool :=
  character == ' ' || character == '\n' || character == '\t' || character == '\r'

/-- The text without the spaces at its start. -/
def skipSpaces (text : List Char) : List Char :=
  text.dropWhile isSpace

mutual

/-- A value after spaces, and what follows it. Each step takes at least one character, so the length
of the text is fuel enough. -/
def value (fuel : Nat) (text : List Char) : Option (Document × List Char) :=
  match fuel with
  | 0 => none
  | fuel + 1 =>
    match skipSpaces text with
    | 'n' :: 'u' :: 'l' :: 'l' :: rest => some (.null, rest)
    | 't' :: 'r' :: 'u' :: 'e' :: rest => some (.boolean true, rest)
    | 'f' :: 'a' :: 'l' :: 's' :: 'e' :: rest => some (.boolean false, rest)
    | '"' :: rest => (stringBody rest).map fun (text, after) => (.string text, after)
    | '[' :: rest =>
      match skipSpaces rest with
      | ']' :: after => some (.array [], after)
      | rest => (items fuel rest).map fun (items, after) => (.array items, after)
    | '\x7b' :: rest =>
      match skipSpaces rest with
      | '\x7d' :: after => some (.object [], after)
      | rest => (members fuel rest).map fun (members, after) => (.object members, after)
    | rest => (numeral rest).map fun (numeral, after) => (.number numeral.number?, after)

/-- The items of an array, at least one, and what follows its closing bracket. -/
def items (fuel : Nat) (text : List Char) : Option (List Document × List Char) :=
  match fuel with
  | 0 => none
  | fuel + 1 => do
    let (first, rest) ← value fuel text
    match skipSpaces rest with
    | ']' :: after => return ([first], after)
    | ',' :: rest =>
      let (more, after) ← items fuel rest
      return (first :: more, after)
    | _ => none

/-- The members of an object, at least one, and what follows its closing brace. -/
def members (fuel : Nat) (text : List Char) :
    Option (List (Option String × Document) × List Char) :=
  match fuel with
  | 0 => none
  | fuel + 1 =>
    match skipSpaces text with
    | '"' :: rest => do
      let (key, rest) ← stringBody rest
      match skipSpaces rest with
      | ':' :: rest =>
        let (first, rest) ← value fuel rest
        match skipSpaces rest with
        | '\x7d' :: after => return ([(key, first)], after)
        | ',' :: rest =>
          let (more, after) ← members fuel rest
          return ((key, first) :: more, after)
        | _ => none
      | _ => none
    | _ => none

end

end BuildPath.Json.Reader

namespace BuildPath.Json

/-- Reads a document, with nothing but spaces around it. -/
def Document.parse? (text : String) : Option Document := do
  let characters := text.toList
  let (document, rest) ← Reader.value (characters.length + 1) characters
  if (Reader.skipSpaces rest).isEmpty then some document else none

end BuildPath.Json
