import Mathlib

/-! # Counting the keys of a heap

A component keeps its objects under keys and a list of the keys that are in use; its counters count the objects in use
that have some property. What one step does to such a count, when it changes the object under one key or
takes the key out of use. -/

namespace Brookesia.Transition

open List

variable {κ α : Type*} [DecidableEq κ] {l : List κ} {k : κ}

theorem countP_erase_of_ne (hnd : l.Nodup) (hk : k ∈ l) {P Q : κ → Bool} (h : ∀ k' ≠ k, Q k' = P k') :
    (l.erase k).countP Q + (P k).toNat = l.countP P := by
  have hcongr : (l.erase k).countP Q = (l.erase k).countP P := by
    refine countP_congr fun k' hk' => ?_
    rw [h k' (ne_of_mem_of_not_mem hk' (Nodup.not_mem_erase hnd))]
  rw [hcongr, (perm_cons_erase hk).countP_eq P, countP_cons]
  cases P k <;> rfl

section heap

variable (P : α → Bool) (heap : κ → α) (x : α)

theorem countP_update (hnd : l.Nodup) (hk : k ∈ l) :
    l.countP (fun k' => P (Function.update heap k x k')) + (P (heap k)).toNat =
      l.countP (fun k' => P (heap k')) + (P x).toNat := by
  have h1 := countP_erase_of_ne hnd hk (fun k' _ => rfl : ∀ k' ≠ k, P (heap k') = P (heap k'))
  have h2 := countP_erase_of_ne hnd hk (fun k' hne => by rw [Function.update_of_ne hne] :
    ∀ k' ≠ k, P (heap k') = P (Function.update heap k x k'))
  rw [Function.update_self] at h2
  omega

theorem countP_update_of_notMem (hk : k ∉ l) :
    l.countP (fun k' => P (Function.update heap k x k')) = l.countP (fun k' => P (heap k')) := by
  refine countP_congr fun k' hk' => ?_
  rw [Function.update_of_ne (ne_of_mem_of_not_mem hk' hk)]

theorem countP_erase_update (hnd : l.Nodup) (hk : k ∈ l) :
    (l.erase k).countP (fun k' => P (Function.update heap k x k')) + (P (heap k)).toNat =
      l.countP (fun k' => P (heap k')) := by
  have hcongr : ∀ k' ≠ k, P (Function.update heap k x k') = P (heap k') := by
    intro k' hne
    rw [Function.update_of_ne hne]
  exact countP_erase_of_ne hnd hk hcongr

end heap

theorem split_at {l : List α} {x : α} {n : ℕ} (h : l[n]? = some x) :
    ∃ before after, l = before ++ x :: after ∧ l.eraseIdx n = before ++ after ∧ ∀ y, l.set n y = before ++ y :: after := by
  obtain ⟨hlt, rfl⟩ := List.getElem?_eq_some_iff.mp h
  refine ⟨l.take n, l.drop (n + 1), ?_, eraseIdx_eq_take_drop_succ .., fun y => ?_⟩
  · rw [getElem_cons_drop hlt, take_append_drop]
  · rw [set_eq_take_append_cons_drop, if_pos hlt]

theorem mem_eraseIdx_of_ne {l : List α} {x y : α} {n : ℕ} (h : l[n]? = some x) (hne : y ≠ x) :
    y ∈ l.eraseIdx n ↔ y ∈ l := by
  obtain ⟨before, after, hl, herase, -⟩ := split_at h
  rw [herase, hl, mem_append, mem_append, mem_cons]
  exact or_congr_right (or_iff_right hne).symm

end Brookesia.Transition
