import Brookesia.Describe.Codec

/-! # Numbers that are read

A number of a JSON value is read into an integer, into a described enum, or as the key of a map. `Exact`: what is stored is that number,
so that a number outside the range of the type is refused. `Fits` is when it is so: 64-bit types take any integer without a test, a
double is truncated, `std::stoll` takes the beginning of a key, and a key and the number of an enum are converted without a test. -/

namespace Brookesia.Describe

open Filesystem.Path AppPackage.Manifest Data Data.Json List Option

/-- Where a number is read, and what the output was before. -/
inductive Place
  | integer (t : IntType) (j : JsonValue) (w : t.Val)
  | key (t : IntType) (s : Bytes) (w : t.Val)
  | enum (e : EnumType) (j : JsonValue) (w : e.Val)

def jsonNumber : JsonValue → Option ℚ
  | .int i => some i
  | .double q => some q
  | _ => none

/-- The number of which `s` is the whole decimal text. -/
def textNumber (s : Bytes) : Option ℤ :=
  let signed := readSign s
  if signed.2 ≠ [] ∧ ∀ c ∈ signed.2, isDigit c = true then
    some (if signed.1 then -(digitsValue signed.2 : ℤ) else digitsValue signed.2)
  else none

def Place.Exact : Place → Prop
  | .integer t j w => ∀ v, describeFromJson zeros (.integer t) j w = some (true, v) → jsonNumber j = some (v.1 : ℚ)
  | .key t s w => ∀ v, (KeyType.integer t).parse w s = some v → textNumber s = some v.1
  | .enum e j w => ∀ v, describeFromJson zeros (.enum e) j w = some (true, v) → ∀ q ∈ jsonNumber j, q = (v.1 : ℚ)

def IntType.Contains (t : IntType) (i : ℤ) : Prop := t.min ≤ i ∧ i ≤ t.max

/-- The number is in the range of the underlying type, is too large for the conversion to 64 bits, or is not taken for an enumerator. -/
def EnumType.Fits (e : EnumType) (i : ℤ) : Prop :=
  ∀ number ∈ e.underlying.valueTo i, e.Named (e.underlying.cast number) → e.underlying.Contains i

def Place.Fits : Place → Prop
  | .integer t (.int i) _ => t.width = .w64 → t.Contains i
  | .integer t (.double q) _ => t.min ≤ q → q ≤ t.max → q.den = 1
  | .key t s _ => ∀ i ∈ if t.signed then stoll s else stoull s, ∃ n ∈ textNumber s, t.Contains n
  | .enum e (.int i) _ => e.Fits i
  | .enum e (.double q) _ => q.den = 1 → e.Fits q.num
  | _ => True

variable {t : IntType} {e : EnumType} {i : ℤ} {q : ℚ} {s : Bytes}

end Brookesia.Describe
