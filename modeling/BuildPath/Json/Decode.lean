import BuildPath.Json.Basic
import BuildPath.Json.Reader

/-!
# Decoding documents

What a document is taken for: a value, or a record with named fields. Arrays and objects may be
nested up to a depth; the depth left is an argument of everything here. A record is written as an
object, in which unknown keys count for nothing and known ones may not be repeated, or as an array
of its fields in order, of which the last ones may be missing but none added.
-/

namespace BuildPath.Json

/-- The depth to which arrays and objects may be nested. -/
def depthLimit : Nat := 127

mutual

/-- The value of a document. Of repeated keys the last one counts. -/
def Document.value? (depth : Nat) : Document → Option Json
  | .null => some .null
  | .boolean truth => some (.boolean truth)
  | .number given => given.map .number
  | .string given => given.map .string
  | .array items =>
    match depth with
    | 0 => none
    | depth + 1 => (valueEach? depth items).map .array
  | .object members =>
    match depth with
    | 0 => none
    | depth + 1 => (valueMembers? depth members).map ofMembers

/-- The values of the items of an array. -/
def valueEach? (depth : Nat) : List Document → Option (List Json)
  | [] => some []
  | item :: items => do return (← item.value? depth) :: (← valueEach? depth items)

/-- The values of the members of an object. -/
def valueMembers? (depth : Nat) : List (Option String × Document) → Option (List (String × Json))
  | [] => some []
  | (key, document) :: members => do
    return (← key, ← document.value? depth) :: (← valueMembers? depth members)

end

/-- A decoder is given the depth left and a document. -/
abbrev Decoder (Value : Type) := Nat → Document → Option Value

namespace Decoder

variable {Value : Type}

/-- A text. -/
def text : Decoder String
  | _, .string text => text
  | _, _ => none

/-- A truth value. -/
def truth : Decoder Bool
  | _, .boolean value => some value
  | _, _ => none

/-- A value of any form. -/
def json : Decoder Json :=
  Document.value?

/-- A value, or null for none. -/
def optional (decode : Decoder Value) : Decoder (Option Value)
  | _, .null => some none
  | depth, document => some <$> decode depth document

/-- An array of values. -/
def list (decode : Decoder Value) : Decoder (List Value)
  | depth + 1, .array items => items.mapM (decode depth)
  | _, _ => none

/-- A member of an object, whose key has to be a text. -/
def member (decode : Decoder Value) (depth : Nat) :
    Option String × Document → Option (String × Value)
  | (key, document) => do return (← key, ← decode depth document)

/-- An object with any keys. All of its values have to decode, also those that do not count because
their key is repeated. -/
def dictionary (decode : Decoder Value) : Decoder (List (String × Value))
  | depth + 1, .object members => sortMembers <$> members.mapM (member decode depth)
  | _, _ => none

end Decoder

/-- The fields of a record that were given, and the depth left for them. -/
structure Record where
  depth : Nat
  fields : List (String × Document)

/-- The fields of an object: those of the known keys, none of them repeated. -/
def knownFields (names : List String) :
    List (Option String × Document) → Option (List (String × Document))
  | [] => some []
  | (key, document) :: members => do
    let key ← key
    let rest ← knownFields names members
    if !names.contains key then some rest
    else if (rest.lookup key).isSome then none
    else some ((key, document) :: rest)

/-- A document as a record with these fields, in this order. -/
def record (names : List String) : Decoder Record
  | depth + 1, .object members => (knownFields names members).map (Record.mk depth)
  | depth + 1, .array items =>
    if names.length < items.length then none else some ⟨depth, names.zip items⟩
  | _, _ => none

/-- A field of a record, with the value that it has if it is missing. -/
def Record.get {Value : Type} (record : Record) (name : String) (decode : Decoder Value)
    (default : Value) : Option Value :=
  match record.fields.lookup name with
  | none => some default
  | some document => decode record.depth document

/-- A field of a record that may not be missing. -/
def Record.require {Value : Type} (record : Record) (name : String) (decode : Decoder Value) :
    Option Value :=
  (record.fields.lookup name).bind (decode record.depth)

/-- Reads a whole text with a decoder. -/
def decode? {Value : Type} (decode : Decoder Value) (text : String) : Option Value :=
  (Document.parse? text).bind (decode depthLimit)

end BuildPath.Json
