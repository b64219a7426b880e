import Mathlib

/-! # Comparisons

A comparison returns a negative number, zero or a positive one. Where it orders the members of a set, it orders the sequences of them
by the first place at which they differ. -/

namespace Brookesia.Data.Comparison

variable {α : Type} {cmp : α → α → ℤ} {S : Set α}

/-- The comparison is a total preorder of the set. -/
structure Orders (cmp : α → α → ℤ) (S : Set α) : Prop where
  swap : ∀ a ∈ S, ∀ b ∈ S, cmp b a = -cmp a b
  trans : ∀ a ∈ S, ∀ b ∈ S, ∀ c ∈ S, cmp a b ≤ 0 → cmp b c ≤ 0 → cmp a c ≤ 0

theorem Orders.refl (h : Orders cmp S) {a : α} (ha : a ∈ S) : cmp a a = 0 := by
  have hswap := h.swap a ha a ha
  omega

theorem Orders.trans_eq (h : Orders cmp S) {a b c : α} (ha : a ∈ S) (hb : b ∈ S) (hc : c ∈ S) (hab : cmp a b = 0)
    (hbc : cmp b c = 0) : cmp a c = 0 := by
  have hle := h.trans a ha b hb c hc hab.le hbc.le
  have hba := h.swap a ha b hb
  have hcb := h.swap b hb c hc
  have hca := h.swap a ha c hc
  have hge := h.trans c hc b hb a ha (by omega) (by omega)
  omega

/-- The comparison of `n` members of two sequences from the `i`-th on. -/
def lexicographic (cmp : α → α → ℤ) (f g : ℕ → α) (i : ℕ) : ℕ → ℤ
  | 0 => 0
  | n + 1 => if cmp (f i) (g i) ≠ 0 then cmp (f i) (g i) else lexicographic cmp f g (i + 1) n

theorem Orders.lexicographic (h : Orders cmp S) (i n : ℕ) :
    Orders (fun f g => lexicographic cmp f g i n) {f : ℕ → α | ∀ j, f j ∈ S} := by
  induction n generalizing i with
  | zero => exact ⟨fun _ _ _ _ => rfl, fun _ _ _ _ _ _ _ _ => le_refl 0⟩
  | succ n ih =>
    constructor
    · intro f hf g hg
      have hswap := h.swap _ (hf i) _ (hg i)
      have hrest := (ih (i + 1)).swap f hf g hg
      simp only [Comparison.lexicographic] at hrest ⊢
      split_ifs <;> omega
    · intro f hf g hg k hk
      have hgf := h.swap _ (hf i) _ (hg i)
      have hkg := h.swap _ (hg i) _ (hk i)
      have hkf := h.swap _ (hf i) _ (hk i)
      have hfk := h.trans _ (hf i) _ (hg i) _ (hk i)
      have hgf' := h.trans _ (hg i) _ (hk i) _ (hf i)
      have hkg' := h.trans _ (hk i) _ (hf i) _ (hg i)
      have hrest := (ih (i + 1)).trans f hf g hg k hk
      simp only [Comparison.lexicographic] at hrest ⊢
      split_ifs <;> omega

theorem lexicographic_add {f g : ℕ → α} {i n : ℕ} (k : ℕ) (h : ∀ j, i + n ≤ j → cmp (f j) (g j) = 0) :
    lexicographic cmp f g i (n + k) = lexicographic cmp f g i n := by
  induction n generalizing i with
  | zero =>
    rw [Nat.zero_add]
    induction k generalizing i with
    | zero => rfl
    | succ k ih =>
      unfold lexicographic
      rw [if_neg (not_not.mpr (h i (Nat.le_refl i)))]
      exact ih fun j hj => h j (by omega)
  | succ n ih =>
    rw [Nat.add_right_comm]
    unfold lexicographic
    rw [ih fun j hj => h j (by omega)]

theorem lexicographic_congr {cmp' : α → α → ℤ} {f g : ℕ → α} {i : ℕ} (n : ℕ)
    (h : ∀ j, i ≤ j → cmp (f j) (g j) = cmp' (f j) (g j)) : lexicographic cmp f g i n = lexicographic cmp' f g i n := by
  induction n generalizing i with
  | zero => rfl
  | succ n ih =>
    unfold lexicographic
    rw [h i (Nat.le_refl i), ih fun j hj => h j (by omega)]

end Brookesia.Data.Comparison
