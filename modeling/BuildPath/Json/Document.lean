import BuildPath.Json.Number

/-!
# JSON documents

A JSON text as it is written: members in the order of the text, repeated keys included, and a place
for every string and number even if what it spells is no text or no number. Such a string or number
is refused only where its value is used, so a part that nobody asks for may hold one.
-/

namespace BuildPath.Json

/-- A JSON text. A string is absent if its escapes spell half a surrogate pair, and a number if it
is out of range. -/
inductive Document
  | null
  | boolean (value : Bool)
  | number (value : Option Number)
  | string (text : Option String)
  | array (items : List Document)
  | object (members : List (Option String × Document))

end BuildPath.Json
