import Brookesia.Describe.Types

/-! # Described values as JSON

`describe_to_json` and `describe_from_json`. Reading gives `none` for an exception; else it says whether it has succeeded, and what
the output is then, which held `w` before. A `long double` is taken to hold a `double` and the limits of the integer types exactly. -/

namespace Brookesia.Describe

open Filesystem.Path AppPackage.Manifest Data Data.Json

/-! ### Objects -/

def jsonObjectSet (object : JsonObject) (name : Bytes) (value : JsonValue) : JsonObject :=
  match object with
  | [] => [(name, value)]
  | member :: members =>
    if member.1 = name then (name, value) :: members else member :: jsonObjectSet members name value

def findJsonKeyFlexible (object : JsonObject) (targetKey : Bytes) : Option JsonValue :=
  match find object targetKey with
  | some value => some value
  | none => (object.find? fun member => toSnakeCase member.1 = targetKey).map (·.2)

/-! ### To JSON -/

mutual

def describeToJson : (t : CppType) → t.Val → JsonValue
  | .bool, v => .bool v
  | .integer _, v => .int v.1
  | .string, v => .string v
  | .monostate, _ => .null
  | .optional _, none => .null
  | .optional t, some x => describeToJson t x
  | .vector t, v => .array (List.map (fun x => describeToJson t x) v)
  | .list t, v => .array (List.map (fun x => describeToJson t x) v)
  | .queue t, v => .array (List.map (fun x => describeToJson t x) v)
  | .map k t, v =>
    .object ((v : SortedMap k.Val t.Val).entries.foldl
      (fun object e => jsonObjectSet object (k.text e.1) (describeToJson t e.2)) [])
  | .enum e, v =>
    match e.name? v with
    | some name => .string name
    | none => .int v.1
  | .struct members, v => .object (membersToJson members v [])
  | .variant alternatives, v => alternativeToJson alternatives v

def membersToJson : (members : Members) → members.Val → JsonObject → JsonObject
  | .nil, _, object => object
  | .cons name t rest, v, object => membersToJson rest v.2 (jsonObjectSet object name (describeToJson t v.1))

def alternativeToJson : (alternatives : Alternatives) → alternatives.Val → JsonValue
  | .last t, v => describeToJson t v
  | .cons t _, .inl v => describeToJson t v
  | .cons _ rest, .inr v => alternativeToJson rest v

end

/-! ### From JSON -/

abbrev Reading (α : Type) : Type := Option (Bool × α)

def readItems {α : Type} (read : JsonValue → Reading α) : List JsonValue → List α → Reading (List α)
  | [], value => some (true, value)
  | item :: items, value =>
    match read item with
    | none => none
    | some (false, _) => some (false, value)
    | some (true, x) => readItems read items (value ++ [x])

def readArray {α : Type} (read : JsonValue → Reading α) (j : JsonValue) (w : List α) : Reading (List α) :=
  match j with
  | .array items => readItems read items []
  | _ => some (false, w)

def readEntries {K V : Type} [LinearOrder K] (parse : Bytes → Option K) (read : JsonValue → Reading V) :
    JsonObject → SortedMap K V → Reading (SortedMap K V)
  | [], value => some (true, value)
  | member :: members, value =>
    match parse member.1 with
    | none => some (false, value)
    | some key =>
      match read member.2 with
      | none => none
      | some (false, _) => some (false, value)
      | some (true, x) => readEntries parse read members (value.insert (key, x))

def readMap {K V : Type} [LinearOrder K] (parse : Bytes → Option K) (read : JsonValue → Reading V) (j : JsonValue)
    (w : SortedMap K V) : Reading (SortedMap K V) :=
  match j with
  | .object members => readEntries parse read members .empty
  | _ => some (false, w)

def readOptional {α : Type} (read : JsonValue → Reading α) (j : JsonValue) (w : Option α) : Reading (Option α) :=
  match j with
  | .null => some (true, none)
  | j =>
    match read j with
    | none => none
    | some (false, _) => some (false, w)
    | some (true, x) => some (true, some x)

/-- Toward zero, as a conversion of a floating-point number. -/
def truncate (q : ℚ) : ℤ := q.num.tdiv q.den

def readInteger (t : IntType) (j : JsonValue) (w : t.Val) : Reading t.Val :=
  match j with
  | .int i => if t.width ≠ .w64 ∧ (i < t.min ∨ t.max < i) then some (false, w) else some (true, t.cast i)
  | .double q => if q < t.min ∨ t.max < q then some (false, w) else some (true, t.cast (truncate q))
  | _ => some (false, w)

def readEnumNumber (e : EnumType) (i : ℤ) (w : e.Val) : Reading e.Val :=
  (e.underlying.valueTo i).map fun number => e.describeNumberToEnum (e.underlying.cast number) w

def readEnum (e : EnumType) (j : JsonValue) (w : e.Val) : Reading e.Val :=
  match j with
  | .string name => some (e.describeStringToEnum name w)
  | .int i => readEnumNumber e i w
  -- `value_to` converts only what the integer type has exactly
  | .double q => if q.den = 1 then readEnumNumber e q.num w else none
  | _ => some (false, w)

def readBoth {α β : Type} (first : Reading α) (second : Reading β) : Reading (α × β) :=
  match first, second with
  | some (ok, x), some (ok', y) => some (ok && ok', (x, y))
  | _, _ => none

def readVariant {α : Type} (first : Option (Option α)) (w : α) : Reading α :=
  match first with
  | none => none
  | some none => some (false, w)
  | some (some v) => some (true, v)

/-- An alternative of a variant, and then the others if it cannot be read. -/
def readAlternative {α β : Type} (first : Reading α) (rest : Option (Option β)) : Option (Option (α ⊕ β)) :=
  match first with
  | none => none
  | some (true, v) => some (some (.inl v))
  | some (false, _) => rest.map (Option.map .inr)

def readLastAlternative {α : Type} (last : Reading α) : Option (Option α) :=
  last.map fun reading => if reading.1 then some reading.2 else none

mutual

def describeFromJson (initial : Initial) : (t : CppType) → JsonValue → t.Val → Reading t.Val
  | .bool, j, w =>
    match j with
    | .bool b => some (true, b)
    | _ => some (false, w)
  | .integer t, j, w => readInteger t j w
  | .string, j, w =>
    match j with
    | .string s => some (true, s)
    | _ => some (false, w)
  | .monostate, j, w =>
    match j with
    | .null => some (true, ())
    | _ => some (false, w)
  | .optional t, j, w => readOptional (fun j => describeFromJson initial t j (initial.declared t)) j w
  | .vector t, j, w => readArray (fun j => describeFromJson initial t j (initial.declared t)) j w
  | .list t, j, w => readArray (fun j => describeFromJson initial t j (initial.declared t)) j w
  | .queue t, j, w => readArray (fun j => describeFromJson initial t j (initial.declared t)) j w
  | .map k t, j, w =>
    readMap (k.parse (initial.declaredKey k)) (fun j => describeFromJson initial t j (initial.declared t)) j w
  | .enum e, j, w => readEnum e j w
  | .struct members, j, _ =>
    match j with
    | .object object => readMembers initial members object (initial.braces members)
    | _ => some (false, initial.braces members)
  | .variant alternatives, j, w => readVariant (readAlternatives initial alternatives j) w

def readMembers (initial : Initial) : (members : Members) → JsonObject → members.Val → Reading members.Val
  | .nil, _, _ => some (true, ())
  | .cons name t rest, object, w =>
    readBoth (match findJsonKeyFlexible object name with
        | none => some (true, w.1)
        | some j => describeFromJson initial t j w.1)
      (readMembers initial rest object w.2)

def readAlternatives (initial : Initial) : (alternatives : Alternatives) → JsonValue → Option (Option alternatives.Val)
  | .last t, j => readLastAlternative (describeFromJson initial t j (initial.declared t))
  | .cons t rest, j => readAlternative (describeFromJson initial t j (initial.declared t)) (readAlternatives initial rest j)

end

end Brookesia.Describe
