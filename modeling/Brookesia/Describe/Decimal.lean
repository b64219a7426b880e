import Brookesia.AppPackage.Manifest

/-! # Decimal numbers as text

`std::to_string`, and `std::stoll` and `std::stoull`, which skip spaces, take a sign and the digits that follow, and throw when there
is no digit or the number does not fit 64 bits. -/

namespace Brookesia.Describe

open Filesystem.Path AppPackage.Manifest List

def minus : UInt8 := 45

def plus : UInt8 := 43

def digitText (d : ℕ) : UInt8 := UInt8.ofNat (48 + d)

def naturalText (n : ℕ) : Bytes := if n = 0 then [48] else (Nat.digits 10 n).reverse.map digitText

/-- `std::to_string`. -/
def decimalText (i : ℤ) : Bytes := if i < 0 then minus :: naturalText i.natAbs else naturalText i.natAbs

def digitsValue (digits : Bytes) : ℕ := digits.foldl (fun value c => 10 * value + (c.toNat - 48)) 0

def readSign : Bytes → Bool × Bytes
  | [] => (false, [])
  | c :: rest => if c = minus then (true, rest) else if c = plus then (false, rest) else (false, c :: rest)

def readDecimal (s : Bytes) : Option ℤ :=
  let signed := readSign (s.dropWhile isSpace)
  let digits := signed.2.takeWhile isDigit
  if digits = [] then none
  else some (if signed.1 then -(digitsValue digits : ℤ) else digitsValue digits)

def stoll (s : Bytes) : Option ℤ :=
  match readDecimal s with
  | none => none
  | some i => if -2 ^ 63 ≤ i ∧ i < 2 ^ 63 then some i else none

/-- `std::stoull`, where a negative number counts modulo 2 ^ 64. -/
def stoull (s : Bytes) : Option ℤ :=
  match readDecimal s with
  | none => none
  | some i => if i.natAbs < 2 ^ 64 then some (i % 2 ^ 64) else none

theorem digitText_toNat {d : ℕ} (hd : d < 10) : (digitText d).toNat = 48 + d := by
  unfold digitText
  rw [UInt8.toNat_ofNat']
  omega

theorem isDigit_iff {c : UInt8} : isDigit c = true ↔ 48 ≤ c.toNat ∧ c.toNat ≤ 57 := by
  unfold isDigit
  rw [Bool.and_eq_true, decide_eq_true_eq, decide_eq_true_eq, UInt8.le_iff_toNat_le, UInt8.le_iff_toNat_le]
  rfl

theorem isDigit_digitText {d : ℕ} (hd : d < 10) : isDigit (digitText d) = true := by
  have hnat := digitText_toNat hd
  refine isDigit_iff.mpr ⟨?_, ?_⟩
  · omega
  · omega

theorem digitsValue_digitText (digits : List ℕ) (h : ∀ d ∈ digits, d < 10) :
    digitsValue (digits.reverse.map digitText) = Nat.ofDigits 10 digits := by
  unfold digitsValue
  rw [foldl_map, foldl_reverse]
  induction digits with
  | nil => rfl
  | cons d digits ih =>
    have htail := ih fun d' hd' => h d' (mem_cons_of_mem _ hd')
    have hhead := digitText_toNat (h d mem_cons_self)
    rw [foldr_cons, htail, Nat.ofDigits_cons, hhead]
    omega

theorem naturalText_digits (n : ℕ) : (∀ c ∈ naturalText n, isDigit c = true) ∧ naturalText n ≠ [] ∧
    digitsValue (naturalText n) = n := by
  unfold naturalText
  split_ifs with hzero
  · subst hzero
    exact ⟨by decide +kernel, cons_ne_nil _ _, by decide +kernel⟩
  · have hsmall : ∀ d ∈ Nat.digits 10 n, d < 10 := fun d hd => Nat.digits_lt_base (by omega) hd
    refine ⟨fun c hc => ?_, fun hnil => ?_, ?_⟩
    · obtain ⟨d, hd, rfl⟩ := mem_map.mp hc
      exact isDigit_digitText (hsmall d (mem_reverse.mp hd))
    · rw [map_eq_nil_iff, reverse_eq_nil_iff, Nat.digits_eq_nil_iff_eq_zero] at hnil
      exact hzero hnil
    · rw [digitsValue_digitText _ hsmall, Nat.ofDigits_digits]

theorem not_space_of_digit {c : UInt8} (h : isDigit c = true) : isSpace c = false ∧ c ≠ minus ∧ c ≠ plus := by
  have hlow := (isDigit_iff.mp h).1
  refine ⟨?_, ?_, ?_⟩
  · unfold isSpace
    rw [Bool.or_eq_false_iff, Bool.and_eq_false_iff, decide_eq_false_iff_not, decide_eq_false_iff_not, decide_eq_false_iff_not,
      UInt8.le_iff_toNat_le, UInt8.le_iff_toNat_le]
    refine ⟨?_, .inr fun hle => ?_⟩
    · rintro rfl
      exact absurd hlow (by decide)
    · have hle : c.toNat ≤ 13 := hle
      omega
  · rintro rfl
    exact absurd hlow (by decide)
  · rintro rfl
    exact absurd hlow (by decide)

theorem readDecimal_naturalText (n : ℕ) (negative : Bool) :
    readDecimal (if negative then minus :: naturalText n else naturalText n) = some (if negative then -(n : ℤ) else n) := by
  obtain ⟨hdig, hne, hval⟩ := naturalText_digits n
  have htake : (naturalText n).takeWhile isDigit = naturalText n := takeWhile_eq_self_iff.mpr hdig
  obtain ⟨c, rest, hcons⟩ := exists_cons_of_ne_nil hne
  obtain ⟨hspace, hminus, hplus⟩ := not_space_of_digit (hdig c (hcons ▸ mem_cons_self))
  have hsign : readSign ((if negative then minus :: naturalText n else naturalText n).dropWhile isSpace) =
      (negative, naturalText n) := by
    cases negative with
    | true => rfl
    | false =>
      rw [if_neg Bool.false_ne_true, hcons, dropWhile_cons_of_neg (by rw [hspace]; exact Bool.false_ne_true)]
      unfold readSign
      dsimp only
      rw [if_neg hminus, if_neg hplus]
  unfold readDecimal
  rw [hsign]
  dsimp only
  rw [htake, if_neg hne, hval]

theorem readDecimal_decimalText (i : ℤ) : readDecimal (decimalText i) = some i := by
  unfold decimalText
  split_ifs with hnegative
  · have hread := readDecimal_naturalText i.natAbs true
    rw [if_pos rfl, if_pos rfl] at hread
    rw [hread]
    exact congrArg some (by omega)
  · have hread := readDecimal_naturalText i.natAbs false
    rw [if_neg Bool.false_ne_true, if_neg Bool.false_ne_true] at hread
    rw [hread]
    exact congrArg some (by omega)

theorem stoll_decimalText {i : ℤ} (hlow : -2 ^ 63 ≤ i) (hhigh : i < 2 ^ 63) : stoll (decimalText i) = some i := by
  unfold stoll
  rw [readDecimal_decimalText]
  exact if_pos ⟨hlow, hhigh⟩

theorem stoull_decimalText {i : ℤ} (hlow : 0 ≤ i) (hhigh : i < 2 ^ 64) : stoull (decimalText i) = some i := by
  unfold stoull
  rw [readDecimal_decimalText]
  dsimp only
  rw [if_pos (by omega), Int.emod_eq_of_lt hlow hhigh]

end Brookesia.Describe
