import Brookesia.Filesystem.Path

/-! # JSON values

Parsed JSON. An integer is one that fits 64 bits, signed or unsigned; any other number is a `double`. The
keys of an object are different from each other, in the order of the text. -/

namespace Brookesia.Data.Json

open Filesystem.Path

inductive JsonValue
  | null
  | bool (value : Bool)
  | int (value : ℤ)
  | double (value : ℚ)
  | string (value : Bytes)
  | array (items : List JsonValue)
  | object (members : List (Bytes × JsonValue))

abbrev JsonObject := List (Bytes × JsonValue)

/-- `object.find(key)`. -/
def find (object : JsonObject) (key : Bytes) : Option JsonValue := object.lookup key

/-- The member of a key, where one that is `null` counts as missing. -/
def findValue (object : JsonObject) (key : Bytes) : Option JsonValue :=
  match find object key with
  | some .null => none
  | value => value

end Brookesia.Data.Json
