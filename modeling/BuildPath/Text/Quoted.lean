import BuildPath.Text.Printable

/-!
# Quoted values

How a rejected value is shown inside an error message: texts in double quotes with everything
unprintable escaped, records and variants by name with their fields in order, lists in brackets.
The pieces are built from texts already shown, so each type of the library shows itself with them.
-/

namespace BuildPath.Text

/-- A code point in lower-case hexadecimal digits without leading zeros. -/
def hexadecimal (code : Nat) : String :=
  String.ofList (Nat.toDigits 16 code)

/-- A character as it stands between double quotes. A single quote is not escaped. -/
def escaped (character : Char) : String :=
  if character.toNat == 0 then "\\0"
  else if character == '\t' then "\\t"
  else if character == '\r' then "\\r"
  else if character == '\n' then "\\n"
  else if character == '"' then "\\\""
  else if character == '\\' then "\\\\"
  else if isPrintable character then character.toString
  else "\\u\x7b" ++ hexadecimal character.toNat ++ "\x7d"

/-- A text in double quotes. -/
def quoted (text : String) : String :=
  "\"" ++ text.toList.foldl (fun shown character => shown ++ escaped character) "" ++ "\""

/-- An optional value, shown by `render` if there is one. -/
def optional {Value : Type} (render : Value → String) : Option Value → String
  | none => "None"
  | some value => "Some(" ++ render value ++ ")"

/-- Shown values with a comma between them. -/
def commaSeparated (shown : List String) : String :=
  ", ".intercalate shown

/-- A list of shown values in brackets. -/
def bracketed (shown : List String) : String :=
  "[" ++ commaSeparated shown ++ "]"

/-- A variant with one shown value. -/
def variant (name shown : String) : String :=
  name ++ "(" ++ shown ++ ")"

/-- A record with its shown fields, at least one, in the order of declaration. -/
def record (name : String) (fields : List (String × String)) : String :=
  name ++ " \x7b " ++ commaSeparated (fields.map fun field => field.1 ++ ": " ++ field.2) ++ " \x7d"

/-- A truth value as a lower-case word. -/
def truth (value : Bool) : String :=
  if value then "true" else "false"

end BuildPath.Text
