import Mathlib

/-! # Parts of a list

The state of many parties as one list, of which a step replaces the part of one party.

* `Replaced x y l l'`: `l'` is `l` with `y` in the place of a part `x`.
* `replaced_set`, `perm_set`: the parts are the members of a list of lists, and one is set.
* `Replaced.flatMap`, `Replaced.perm`: what is computed from the parts changes by what is computed
  from the part.
* `exchange`: a part gives up some of what is computed from it and gets something else for it. -/

namespace Brookesia.Transition

open List

variable {α β : Type*} {x y l l' : List α}

/-- `l'` is `l` with `y` in the place of a part `x`. -/
def Replaced (x y l l' : List α) : Prop :=
  ∃ before after, l = before ++ x ++ after ∧ l' = before ++ y ++ after

theorem replaced_set {ls : List (List α)} {i : ℕ} (h : ls[i]? = some x) (y : List α) :
    Replaced x y ls.flatten (ls.set i y).flatten := by
  induction ls generalizing i with
  | nil => simp at h
  | cons z zs ih =>
    cases i with
    | zero =>
      simp only [List.getElem?_cons_zero, Option.some.injEq] at h
      subst h
      exact ⟨[], zs.flatten, by simp, by simp⟩
    | succ i =>
      obtain ⟨before, after, h1, h2⟩ := ih (by simpa using h)
      exact ⟨z ++ before, after, by simp [h1], by simp [h2]⟩

theorem Replaced.flatMap (h : Replaced x y l l') (f : α → List β) :
    Replaced (x.flatMap f) (y.flatMap f) (l.flatMap f) (l'.flatMap f) := by
  obtain ⟨before, after, rfl, rfl⟩ := h
  exact ⟨before.flatMap f, after.flatMap f, by simp, by simp⟩

theorem Replaced.perm (h : Replaced x y l l') {d e : List α} (hd : (d ++ y).Perm (e ++ x)) :
    (d ++ l').Perm (e ++ l) := by
  obtain ⟨before, after, rfl, rfl⟩ := h
  have key : ∀ u z : List α, (u ++ (before ++ z ++ after)).Perm (u ++ z ++ (before ++ after)) := by
    intro u z
    simp only [append_assoc]
    refine Perm.append_left u ?_
    rw [← append_assoc, ← append_assoc]
    exact Perm.append_right after perm_append_comm
  exact (key d y).trans ((Perm.append_right _ hd).trans (key e x).symm)

theorem perm_set {ls : List (List α)} {i : ℕ} (h : ls[i]? = some x) (y : List α) :
    (x ++ (ls.set i y).flatten).Perm (y ++ ls.flatten) :=
  (replaced_set h y).perm perm_append_comm

theorem exchange {ls : List (List α)} {i : ℕ} (h : ls[i]? = some x) {y : List α} (f : α → List β)
    {gone come rest : List β} (hx : (x.flatMap f).Perm (gone ++ rest))
    (hy : (y.flatMap f).Perm (come ++ rest)) :
    ∃ rest', (ls.flatten.flatMap f).Perm (gone ++ rest') ∧ ((ls.set i y).flatten.flatMap f).Perm (come ++ rest') := by
  obtain ⟨before, after, hl, hl'⟩ := (replaced_set h y).flatMap f
  have key : ∀ u z : List β, z.Perm (u ++ rest) → (before ++ z ++ after).Perm (u ++ (rest ++ (before ++ after))) := by
    intro u z hz
    have hmove : (before ++ z ++ after).Perm (z ++ (before ++ after)) := by
      rw [← append_assoc]
      exact Perm.append_right after perm_append_comm
    rw [← append_assoc]
    exact hmove.trans (Perm.append_right _ hz)
  rw [hl, hl']
  exact ⟨rest ++ (before ++ after), key gone _ hx, key come _ hy⟩

end Brookesia.Transition
