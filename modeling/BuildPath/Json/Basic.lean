import BuildPath.Json.Number
import BuildPath.Text.Quoted

/-!
# JSON values

A value as far as its meaning goes: the members of an object stand in the order of their keys, each
key once. `Json.text` writes a value without spaces; `Json.shown` is the form in which error
messages quote it.
-/

namespace BuildPath

/-- A JSON value. -/
inductive Json
  | null
  | boolean (value : Bool)
  | number (value : Json.Number)
  | string (text : String)
  | array (items : List Json)
  | object (members : List (String × Json))

namespace Json

/-- The member of an object, or nothing. -/
def member? (members : List (String × Json)) (key : String) : Option Json :=
  members.lookup key

/-- The members with one more, at the place of its key; an earlier one of that key gives way. -/
def insertMember {Value : Type} (members : List (String × Value)) (member : String × Value) :
    List (String × Value) :=
  match members with
  | [] => [member]
  | other :: rest =>
    if member.1 == other.1 then member :: rest
    else if member.1 < other.1 then member :: other :: rest
    else other :: insertMember rest member

/-- The members in the order of their keys. Of those with the same key, the last one counts. -/
def sortMembers {Value : Type} (members : List (String × Value)) : List (String × Value) :=
  members.foldl insertMember []

/-- The object with these members. -/
def ofMembers (members : List (String × Json)) : Json :=
  .object (sortMembers members)

/-- A character between the quotes of a JSON string. -/
def escaped (character : Char) : String :=
  if character == '"' then "\\\""
  else if character == '\\' then "\\\\"
  else if character == '\n' then "\\n"
  else if character == '\r' then "\\r"
  else if character == '\t' then "\\t"
  else if character.toNat == 8 then "\\b"
  else if character.toNat == 12 then "\\f"
  else if character.toNat < 0x20 then
    "\\u00" ++ String.ofList
      [Nat.digitChar (character.toNat / 16), Nat.digitChar (character.toNat % 16)]
  else character.toString

/-- A text as a JSON string. -/
def quoted (text : String) : String :=
  "\"" ++ text.toList.foldl (fun shown character => shown ++ escaped character) "" ++ "\""

mutual

/-- The value without spaces. -/
def text : Json → String
  | .null => "null"
  | .boolean value => Text.truth value
  | .number value => value.text
  | .string value => quoted value
  | .array items => "[" ++ ",".intercalate (textEach items) ++ "]"
  | .object members => "\x7b" ++ ",".intercalate (textMembers members) ++ "\x7d"

/-- The items of an array, each written. -/
def textEach : List Json → List String
  | [] => []
  | item :: items => item.text :: textEach items

/-- The members of an object, each written. -/
def textMembers : List (String × Json) → List String
  | [] => []
  | (key, value) :: members => (quoted key ++ ":" ++ value.text) :: textMembers members

end

mutual

/-- The value as error messages quote it. -/
def shown : Json → String
  | .null => "Null"
  | .boolean value => Text.variant "Bool" (Text.truth value)
  | .number value => Text.variant "Number" value.text
  | .string value => Text.variant "String" (Text.quoted value)
  | .array items => "Array " ++ Text.bracketed (shownEach items)
  | .object members => "Object \x7b" ++ Text.commaSeparated (shownMembers members) ++ "\x7d"

/-- The items of an array, each as it is quoted. -/
def shownEach : List Json → List String
  | [] => []
  | item :: items => item.shown :: shownEach items

/-- The members of an object, each as it is quoted. -/
def shownMembers : List (String × Json) → List String
  | [] => []
  | (key, value) :: members => (Text.quoted key ++ ": " ++ value.shown) :: shownMembers members

end

end Json

end BuildPath
