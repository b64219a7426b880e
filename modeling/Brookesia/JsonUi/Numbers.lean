import Brookesia.AppPackage.Manifest

/-! # The numbers of expressions

`strtod` in the C locale: what it reads as a number, and what it leaves. The number is kept as it is written; `Doubles` has what a
`double` makes of it. -/

namespace Brookesia.JsonUi.Numbers

open Filesystem.Path (Bytes text)
open AppPackage.Manifest (isSpace isDigit isUpper toLower)

/-- `mantissa * 10 ^ exponent`, or with `2`. -/
inductive Magnitude
  | decimal (mantissa : ℕ) (exponent : ℤ)
  | hexadecimal (mantissa : ℕ) (exponent : ℤ)
  | infinity
  | nan
  deriving DecidableEq

structure Numeral where
  negative : Bool
  magnitude : Magnitude
  deriving DecidableEq

def isAlpha (c : UInt8) : Bool := 97 ≤ toLower c && toLower c ≤ 122

def isHexDigit (c : UInt8) : Bool := isDigit c || (97 ≤ toLower c && toLower c ≤ 102)

def digitValue (c : UInt8) : ℕ := if isDigit c then c.toNat - 48 else (toLower c).toNat - 87

def digitsValue (base : ℕ) (digits : Bytes) : ℕ := digits.foldl (fun value c => base * value + digitValue c) 0

def scanSign : Bytes → Bool × Bytes
  | 45 :: s => (true, s)
  | 43 :: s => (false, s)
  | s => (false, s)

def scanDigits (isDigit : UInt8 → Bool) (s : Bytes) : Bytes × Bytes × Bytes :=
  match s.dropWhile isDigit with
  | 46 :: rest => (s.takeWhile isDigit, rest.takeWhile isDigit, rest.dropWhile isDigit)
  | rest => (s.takeWhile isDigit, [], rest)

def scanExponent (marker : UInt8) : Bytes → ℤ × Bytes
  | [] => (0, [])
  | c :: rest =>
    let (negative, digits) := scanSign rest
    if toLower c ≠ marker ∨ digits.takeWhile isDigit = [] then (0, c :: rest)
    else
      let value : ℤ := digitsValue 10 (digits.takeWhile isDigit)
      (if negative then -value else value, digits.dropWhile isDigit)

def scanWord (word s : Bytes) : Option Bytes := if word.isPrefixOf (s.map toLower) then some (s.drop word.length) else none

/-- The characters in parentheses behind `nan`, if they are closed. -/
def scanPayload (s : Bytes) : Bytes :=
  match s with
  | 40 :: rest =>
    match rest.dropWhile fun c => isAlpha c || isDigit c || c = 95 with
    | 41 :: rest => rest
    | _ => s
  | _ => s

def scanDecimal (s : Bytes) : Option (Magnitude × Bytes) :=
  let (whole, fraction, rest) := scanDigits isDigit s
  if whole ++ fraction = [] then none
  else
    let (exponent, rest) := scanExponent 101 rest
    some (.decimal (digitsValue 10 (whole ++ fraction)) (exponent - fraction.length), rest)

/-- Without a digit behind it, `0x` is the number zero and an `x`. -/
def scanHexadecimal (s : Bytes) : Option (Magnitude × Bytes) :=
  match scanWord (text "0x") s with
  | none => none
  | some s =>
    let (whole, fraction, rest) := scanDigits isHexDigit s
    if whole ++ fraction = [] then none
    else
      let (exponent, rest) := scanExponent 112 rest
      some (.hexadecimal (digitsValue 16 (whole ++ fraction)) (exponent - 4 * fraction.length), rest)

def scanMagnitude (s : Bytes) : Option (Magnitude × Bytes) :=
  match scanWord (text "infinity") s with
  | some rest => some (.infinity, rest)
  | none =>
    match scanWord (text "inf") s with
    | some rest => some (.infinity, rest)
    | none =>
      match scanWord (text "nan") s with
      | some rest => some (.nan, scanPayload rest)
      | none => (scanHexadecimal s).or (scanDecimal s)

/-- What is read and what is left, or nothing where no number is read. -/
def strtod (s : Bytes) : Option (Numeral × Bytes) :=
  let (negative, s) := scanSign (s.dropWhile isSpace)
  (scanMagnitude s).map fun (magnitude, rest) => (⟨negative, magnitude⟩, rest)

/-- The `double` of the platform. -/
structure Doubles where
  Double : Type
  ofRat : ℚ → Double
  ofNumeral : Numeral → Double
  /-- `strtod` sets `errno`. -/
  outOfRange : Numeral → Bool
  add : Double → Double → Double
  sub : Double → Double → Double
  mul : Double → Double → Double
  div : Double → Double → Double
  neg : Double → Double
  eq : Double → Double → Bool
  lt : Double → Double → Bool
  le : Double → Double → Bool
  /-- Closer to zero than `0.000001`. -/
  nearZero : Double → Bool
  round : Double → Double
  toInt64 : Double → ℤ
  print : Double → Bytes

end Brookesia.JsonUi.Numbers
