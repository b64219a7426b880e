import Brookesia.Data.SortedMap
import Brookesia.Describe.Decimal

/-! # The types that can be described

`CppType` are the types of the describe helpers, without floating-point numbers, pointers, functions and spans, and `CppType.Val` their
values. A described enum is its underlying type with the enumerators that are described, a described struct the list of its public
members; `BOOST_DESCRIBE` gives an enumerator and a member the name it has in C++. Some of the enumerators may have the same value. -/

namespace Brookesia.Describe

open Filesystem.Path AppPackage.Manifest Data Data.Json

/-! ### Integers -/

inductive Width
  | w8 | w16 | w32 | w64
deriving DecidableEq

def Width.bits : Width → ℕ
  | .w8 => 8
  | .w16 => 16
  | .w32 => 32
  | .w64 => 64

structure IntType where
  width : Width
  signed : Bool
deriving DecidableEq

namespace IntType

/-- `std::numeric_limits<T>::min()`. -/
def min (t : IntType) : ℤ := if t.signed then -2 ^ (t.width.bits - 1) else 0

/-- `std::numeric_limits<T>::max()`. -/
def max (t : IntType) : ℤ := if t.signed then 2 ^ (t.width.bits - 1) - 1 else 2 ^ t.width.bits - 1

def Val (t : IntType) : Type := { i : ℤ // t.min ≤ i ∧ i ≤ t.max }

instance (t : IntType) : DecidableEq t.Val := inferInstanceAs (DecidableEq { i : ℤ // t.min ≤ i ∧ i ≤ t.max })

instance (t : IntType) : LinearOrder t.Val := inferInstanceAs (LinearOrder { i : ℤ // t.min ≤ i ∧ i ≤ t.max })

theorem max_eq (t : IntType) : t.max = t.min + 2 ^ t.width.bits - 1 := by
  obtain ⟨width, signed⟩ := t
  cases width <;> cases signed <;> rfl

/-- `static_cast<T>`. -/
def cast (t : IntType) (i : ℤ) : t.Val :=
  ⟨t.min + (i - t.min) % 2 ^ t.width.bits, by
    have hpos : (0 : ℤ) < 2 ^ t.width.bits := by positivity
    have hlow := Int.emod_nonneg (i - t.min) hpos.ne'
    have hhigh := Int.emod_lt_of_pos (i - t.min) hpos
    rw [max_eq]
    omega⟩

theorem cast_val {t : IntType} (v : t.Val) : t.cast v.1 = v := by
  obtain ⟨i, hlow, hhigh⟩ := v
  rw [max_eq] at hhigh
  refine Subtype.ext ?_
  show t.min + (i - t.min) % 2 ^ t.width.bits = i
  rw [Int.emod_eq_of_lt (by omega) (by omega)]
  omega

/-- `boost::json::value_to` of the 64-bit type with the sign of `t`; it throws where the number does not fit. -/
def valueTo (t : IntType) (i : ℤ) : Option ℤ :=
  if t.signed then if -2 ^ 63 ≤ i ∧ i < 2 ^ 63 then some i else none
  else if 0 ≤ i ∧ i < 2 ^ 64 then some i else none

theorem signed_bounds {t : IntType} (ht : t.signed = true) (v : t.Val) : -2 ^ 63 ≤ v.1 ∧ v.1 < 2 ^ 63 := by
  have hmin : -2 ^ 63 ≤ t.min := by
    unfold min
    rw [if_pos ht]
    cases t.width <;> decide
  have hmax : t.max < 2 ^ 63 := by
    unfold max
    rw [if_pos ht]
    cases t.width <;> decide
  exact ⟨hmin.trans v.2.1, v.2.2.trans_lt hmax⟩

theorem unsigned_bounds {t : IntType} (ht : t.signed = false) (v : t.Val) : 0 ≤ v.1 ∧ v.1 < 2 ^ 64 := by
  have hmin : 0 ≤ t.min := by
    unfold min
    rw [ht, if_neg Bool.false_ne_true]
  have hmax : t.max < 2 ^ 64 := by
    unfold max
    rw [ht]
    cases t.width <;> decide
  exact ⟨hmin.trans v.2.1, v.2.2.trans_lt hmax⟩

end IntType

/-! ### Enums and keys -/

structure EnumType where
  underlying : IntType
  enumerators : List (Bytes × underlying.Val)
  names : (enumerators.map Prod.fst).Nodup

namespace EnumType

abbrev Val (e : EnumType) : Type := e.underlying.Val

/-- The name that the loop over the enumerators keeps for a value: the last one. -/
def name? (e : EnumType) (v : e.Val) : Option Bytes := (e.enumerators.reverse.find? (·.2 = v)).map (·.1)

def describeEnumToString (e : EnumType) (v : e.Val) : Bytes := (e.name? v).getD (decimalText v.1)

def describeStringToEnum (e : EnumType) (name : Bytes) (w : e.Val) : Bool × e.Val :=
  match e.enumerators.reverse.find? (·.1 = name) with
  | none => (false, w)
  | some enumerator => (true, enumerator.2)

def describeNumberToEnum (e : EnumType) (number w : e.Val) : Bool × e.Val :=
  match e.enumerators.reverse.find? (·.2 = number) with
  | none => (false, w)
  | some enumerator => (true, enumerator.2)

def Named (e : EnumType) (v : e.Val) : Prop := ∃ enumerator ∈ e.enumerators, enumerator.2 = v

end EnumType

/-- The order of `std::string`, by its bytes. -/
abbrev bytesOrder : LinearOrder Bytes :=
  LinearOrder.lift' (List.map UInt8.toNat) (List.map_injective_iff.mpr fun _ _ => UInt8.toNat_inj.mp)

inductive KeyType
  | string
  | integer (t : IntType)
  | enum (e : EnumType)

namespace KeyType

def Val : KeyType → Type
  | .string => Bytes
  | .integer t => t.Val
  | .enum e => e.Val

instance : (k : KeyType) → LinearOrder k.Val
  | .string => bytesOrder
  | .integer t => inferInstanceAs (LinearOrder t.Val)
  | .enum e => inferInstanceAs (LinearOrder e.underlying.Val)

def text : (k : KeyType) → k.Val → Bytes
  | .string, s => s
  | .integer _, i => decimalText i.1
  | .enum e, v => e.describeEnumToString v

/-- The key of a JSON object, back; `none` where `describe_from_json` returns `false`. -/
def parse : (k : KeyType) → k.Val → Bytes → Option k.Val
  | .string, _, s => some s
  | .integer t, _, s => (if t.signed then stoll s else stoull s).map t.cast
  | .enum e, key, s => if (e.describeStringToEnum s key).1 then some (e.describeStringToEnum s key).2 else none

def Named : (k : KeyType) → k.Val → Prop
  | .string, _ => True
  | .integer _, _ => True
  | .enum e, v => e.Named v

end KeyType

/-! ### Types -/

mutual

inductive CppType
  | bool
  | integer (t : IntType)
  | string
  | monostate
  | optional (t : CppType)
  | vector (t : CppType)
  | list (t : CppType)
  | queue (t : CppType)
  | map (k : KeyType) (t : CppType)
  | enum (e : EnumType)
  | struct (members : Members)
  | variant (alternatives : Alternatives)

/-- The public members of a described struct. -/
inductive Members
  | nil
  | cons (name : Bytes) (t : CppType) (rest : Members)

/-- The alternatives of a variant, which has at least one. -/
inductive Alternatives
  | last (t : CppType)
  | cons (t : CppType) (rest : Alternatives)

end

mutual

def CppType.Val : CppType → Type
  | .bool => Bool
  | .integer t => t.Val
  | .string => Bytes
  | .monostate => Unit
  | .optional t => Option t.Val
  | .vector t => List t.Val
  | .list t => List t.Val
  | .queue t => List t.Val
  | .map k t => SortedMap k.Val t.Val
  | .enum e => e.Val
  | .struct members => members.Val
  | .variant alternatives => alternatives.Val

def Members.Val : Members → Type
  | .nil => Unit
  | .cons _ t rest => t.Val × rest.Val

def Alternatives.Val : Alternatives → Type
  | .last t => t.Val
  | .cons t rest => t.Val ⊕ rest.Val

end

def Members.names : Members → List Bytes
  | .nil => []
  | .cons name _ rest => name :: rest.names

/-- What a variable has that is declared without an initializer, and what `T{}` is. -/
structure Initial where
  declared : (t : CppType) → t.Val
  declaredKey : (k : KeyType) → k.Val
  braces : (members : Members) → members.Val

mutual

def CppType.zero : (t : CppType) → t.Val
  | .bool => false
  | .integer t => t.cast 0
  | .string => []
  | .monostate => ()
  | .optional _ => none
  | .vector _ => []
  | .list _ => []
  | .queue _ => []
  | .map _ _ => .empty
  | .enum e => e.underlying.cast 0
  | .struct members => members.zero
  | .variant alternatives => alternatives.zero

def Members.zero : (members : Members) → members.Val
  | .nil => ()
  | .cons _ t rest => (t.zero, rest.zero)

def Alternatives.zero : (alternatives : Alternatives) → alternatives.Val
  | .last t => t.zero
  | .cons t _ => .inl t.zero

end

def KeyType.zero : (k : KeyType) → k.Val
  | .string => []
  | .integer t => t.cast 0
  | .enum e => e.underlying.cast 0

def zeros : Initial := ⟨CppType.zero, KeyType.zero, Members.zero⟩

/-! ### Kinds of JSON values -/

inductive Kind
  | object | array | string | number | boolean | null
deriving DecidableEq

def kind : JsonValue → Kind
  | .null => .null
  | .bool _ => .boolean
  | .int _ => .number
  | .double _ => .number
  | .string _ => .string
  | .array _ => .array
  | .object _ => .object

mutual

/-- The kinds of JSON values that a value of the type can become, where enums have a name. -/
def CppType.kinds : CppType → List Kind
  | .bool => [.boolean]
  | .integer _ => [.number]
  | .string => [.string]
  | .monostate => [.null]
  | .optional t => .null :: t.kinds
  | .vector _ => [.array]
  | .list _ => [.array]
  | .queue _ => [.array]
  | .map _ _ => [.object]
  | .enum _ => [.string]
  | .struct _ => [.object]
  | .variant alternatives => alternatives.kinds

def Alternatives.kinds : Alternatives → List Kind
  | .last t => t.kinds
  | .cons t rest => t.kinds ++ rest.kinds

end

mutual

/-- The JSON of an optional value is never null, the alternatives of a variant have different kinds of JSON values, and the members
of a struct have different names. -/
def CppType.Distinct : CppType → Prop
  | .optional t => Kind.null ∉ t.kinds ∧ t.Distinct
  | .vector t => t.Distinct
  | .list t => t.Distinct
  | .queue t => t.Distinct
  | .map _ t => t.Distinct
  | .struct members => members.Distinct
  | .variant alternatives => alternatives.Distinct
  | _ => True

def Members.Distinct : Members → Prop
  | .nil => True
  | .cons name t rest => name ∉ rest.names ∧ t.Distinct ∧ rest.Distinct

def Alternatives.Distinct : Alternatives → Prop
  | .last t => t.Distinct
  | .cons t rest => t.Distinct ∧ (∀ k ∈ t.kinds, k ∉ rest.kinds) ∧ rest.Distinct

end

def EachItem {α : Type} (P : α → Prop) (items : List α) : Prop := ∀ x ∈ items, P x

mutual

def CppType.Named : (t : CppType) → t.Val → Prop
  | .optional _, none => True
  | .optional t, some x => t.Named x
  | .vector t, v => EachItem (fun x => t.Named x) v
  | .list t, v => EachItem (fun x => t.Named x) v
  | .queue t, v => EachItem (fun x => t.Named x) v
  | .map k t, v => ∀ e ∈ (v : SortedMap k.Val t.Val).entries, k.Named e.1 ∧ t.Named e.2
  | .enum e, v => e.Named v
  | .struct members, v => members.Named v
  | .variant alternatives, v => alternatives.Named v
  | _, _ => True

def Members.Named : (members : Members) → members.Val → Prop
  | .nil, _ => True
  | .cons _ t rest, v => t.Named v.1 ∧ rest.Named v.2

def Alternatives.Named : (alternatives : Alternatives) → alternatives.Val → Prop
  | .last t, v => t.Named v
  | .cons t _, .inl v => t.Named v
  | .cons _ rest, .inr v => rest.Named v

end

/-! ### Numbers that an enum takes -/

mutual

/-- The integer that a value is, itself or in an optional or a variant. -/
def CppType.number? : (t : CppType) → t.Val → Option ℤ
  | .integer _, v => some v.1
  | .optional _, none => none
  | .optional t, some x => t.number? x
  | .variant alternatives, v => alternatives.number? v
  | _, _ => none

def Alternatives.number? : (alternatives : Alternatives) → alternatives.Val → Option ℤ
  | .last t, v => t.number? v
  | .cons t _, .inl v => t.number? v
  | .cons _ rest, .inr v => rest.number? v

end

/-- The number is that of an enumerator, or it is too large for the conversion. -/
def EnumType.takesNumber (e : EnumType) (i : ℤ) : Bool :=
  match e.underlying.valueTo i with
  | none => true
  | some number => e.enumerators.any (·.2 = e.underlying.cast number)

mutual

/-- An enum of the type, itself or in an optional or a variant, takes the number. -/
def CppType.takesNumber : CppType → ℤ → Bool
  | .enum e, i => e.takesNumber i
  | .optional t, i => t.takesNumber i
  | .variant alternatives, i => alternatives.takesNumber i
  | _, _ => false

def Alternatives.takesNumber : Alternatives → ℤ → Bool
  | .last t, i => t.takesNumber i
  | .cons t rest, i => t.takesNumber i || rest.takesNumber i

end

mutual

/-- No variant in the value is a number that an enum of an earlier alternative takes. -/
def CppType.Unshadowed : (t : CppType) → t.Val → Prop
  | .optional _, none => True
  | .optional t, some x => t.Unshadowed x
  | .vector t, v => EachItem (fun x => t.Unshadowed x) v
  | .list t, v => EachItem (fun x => t.Unshadowed x) v
  | .queue t, v => EachItem (fun x => t.Unshadowed x) v
  | .map k t, v => ∀ e ∈ (v : SortedMap k.Val t.Val).entries, t.Unshadowed e.2
  | .struct members, v => members.Unshadowed v
  | .variant alternatives, v => alternatives.Unshadowed v
  | _, _ => True

def Members.Unshadowed : (members : Members) → members.Val → Prop
  | .nil, _ => True
  | .cons _ t rest, v => t.Unshadowed v.1 ∧ rest.Unshadowed v.2

def Alternatives.Unshadowed : (alternatives : Alternatives) → alternatives.Val → Prop
  | .last t, v => t.Unshadowed v
  | .cons t _, .inl v => t.Unshadowed v
  | .cons t rest, .inr v => (∀ i ∈ rest.number? v, t.takesNumber i = false) ∧ rest.Unshadowed v

end

end Brookesia.Describe
