import Mathlib

/-! # Lists with keys

A list whose elements have different keys is a map in the order of its entries: lookup by `find?`, update by `replace`.
The counting lemmas say what a change of one element, or of all of them, does to something that each element holds. -/

namespace Brookesia.Transition

open List

variable {α β κ ι : Type*} [DecidableEq κ] {key : α → κ} {l : List α} {x y : α} {k : κ}

/-- `x` in place of the element with its key. -/
def replace (key : α → κ) (x : α) (l : List α) : List α :=
  l.map fun y => if key y = key x then x else y

theorem find?_key_mem (h : l.find? (key · == k) = some x) : x ∈ l ∧ key x = k :=
  ⟨mem_of_find?_eq_some h, by simpa using List.find?_some h⟩

omit [DecidableEq κ] in
theorem eq_of_key (hnd : (l.map key).Nodup) (hx : x ∈ l) (hy : y ∈ l) (hkey : key x = key y) : x = y :=
  inj_on_of_nodup_map hnd hx hy hkey

theorem find?_key (hnd : (l.map key).Nodup) (hx : x ∈ l) (hkey : key x = k) : l.find? (key · == k) = some x := by
  obtain ⟨y, hy⟩ : ∃ y, l.find? (key · == k) = some y := by
    refine Option.isSome_iff_exists.mp (List.find?_isSome.mpr ⟨x, hx, ?_⟩)
    exact beq_iff_eq.mpr hkey
  obtain ⟨hmem, hkey'⟩ := find?_key_mem hy
  rw [hy, eq_of_key hnd hmem hx (hkey'.trans hkey.symm)]

theorem find?_key_none (h : l.find? (key · == k) = none) : ∀ x ∈ l, key x ≠ k := by
  intro x hx hkey
  have hnot := List.find?_eq_none.mp h x hx
  exact hnot (beq_iff_eq.mpr hkey)

theorem mem_replace (hy : y ∈ replace key x l) : y = x ∨ y ∈ l ∧ key y ≠ key x := by
  obtain ⟨z, hz, rfl⟩ := mem_map.mp hy
  split
  · exact .inl rfl
  next hne => exact .inr ⟨hz, hne⟩

theorem mem_replace_self (hx : y ∈ l) (hkey : key y = key x) : x ∈ replace key x l :=
  mem_map.mpr ⟨y, hx, if_pos hkey⟩

theorem mem_replace_other (hy : y ∈ l) (hkey : key y ≠ key x) : y ∈ replace key x l :=
  mem_map.mpr ⟨y, hy, if_neg hkey⟩

/-- What the new element has in common with the old one stays. -/
theorem map_replace {g : α → β} (h : ∀ y ∈ l, key y = key x → g y = g x) : (replace key x l).map g = l.map g := by
  unfold replace
  rw [map_map]
  refine map_congr_left fun y hy => ?_
  show g (if key y = key x then x else y) = g y
  split
  next hkey => exact (h y hy hkey).symm
  · rfl

theorem keys_replace : (replace key x l).map key = l.map key :=
  map_replace fun _ _ h => h

theorem find?_replace_self (hnd : (l.map key).Nodup) (hy : y ∈ l) (hkey : key y = key x) :
    (replace key x l).find? (key · == key x) = some x := by
  refine find?_key ?_ (mem_replace_self hy hkey) rfl
  rw [keys_replace]
  exact hnd

theorem find?_replace_other (h : key x ≠ k) : (replace key x l).find? (key · == k) = l.find? (key · == k) := by
  induction l with
  | nil => rfl
  | cons y l ih =>
    have hcons : replace key x (y :: l) = (if key y = key x then x else y) :: replace key x l := rfl
    rw [hcons]
    by_cases hkey : key y = key x
    · have hx : (key x == k) = false := beq_eq_false_iff_ne.mpr h
      rw [if_pos hkey]
      simp only [List.find?_cons, hkey, hx, ih]
    · rw [if_neg hkey]
      simp only [List.find?_cons, ih]

/-! ### Registries -/

/-- The elements have different keys, which are below the next one, and different names, which are not empty. -/
structure Registry (key : α → ℕ) (name : α → String) (next : ℕ) (l : List α) : Prop where
  keys : (l.map key).Nodup
  names : (l.map name).Nodup
  new : ∀ x ∈ l, key x < next
  named : ∀ x ∈ l, name x ≠ ""

namespace Registry

variable {key : α → ℕ} {name : α → String} {next : ℕ}

theorem replace (h : Registry key name next l) (hy : y ∈ l) (hkey : key x = key y) (hname : name x = name y) :
    Registry key name next (Transition.replace key x l) := by
  have hkeys : (Transition.replace key x l).map key = l.map key := keys_replace
  have hnms : (Transition.replace key x l).map name = l.map name := by
    refine map_replace fun z hz hsame => ?_
    rw [eq_of_key h.keys hz hy (hsame.trans hkey), hname]
  refine ⟨hkeys ▸ h.keys, hnms ▸ h.names, fun z hz => ?_, fun z hz => ?_⟩
  · rcases mem_replace hz with rfl | ⟨hz, -⟩
    · exact hkey ▸ h.new y hy
    · exact h.new z hz
  · rcases mem_replace hz with rfl | ⟨hz, -⟩
    · exact hname ▸ h.named y hy
    · exact h.named z hz

theorem append (h : Registry key name next l) (hkey : key x = next) (hname : name x ≠ "")
    (hnone : ¬ l.any (name · == name x)) : Registry key name (next + 1) (l ++ [x]) := by
  refine ⟨?_, ?_, fun y hy => ?_, fun y hy => ?_⟩
  · rw [map_append]
    refine nodup_append.mpr ⟨h.keys, nodup_singleton _, ?_⟩
    intro k hk k' hk' heq
    obtain ⟨y, hy, rfl⟩ := mem_map.mp hk
    have hlt := h.new y hy
    rw [heq, mem_singleton.mp hk', hkey] at hlt
    exact Nat.lt_irrefl _ hlt
  · rw [map_append]
    refine nodup_append.mpr ⟨h.names, nodup_singleton _, ?_⟩
    intro n hn n' hn' heq
    obtain ⟨y, hy, rfl⟩ := mem_map.mp hn
    refine hnone (any_eq_true.mpr ⟨y, hy, beq_iff_eq.mpr ?_⟩)
    rw [heq, mem_singleton.mp hn']
  · rcases mem_append.mp hy with hy | hy
    · exact (h.new y hy).trans (Nat.lt_succ_self _)
    · rw [mem_singleton.mp hy, hkey]
      exact Nat.lt_succ_self _
  · rcases mem_append.mp hy with hy | hy
    · exact h.named y hy
    · rw [mem_singleton.mp hy]
      exact hname

theorem sublist {l' : List α} (h : Registry key name next l) (hsub : l'.Sublist l) : Registry key name next l' :=
  ⟨h.keys.sublist (hsub.map _), h.names.sublist (hsub.map _), fun x hx => h.new x (hsub.mem hx),
    fun x hx => h.named x (hsub.mem hx)⟩

theorem map (h : Registry key name next l) {f : α → α} (hkey : ∀ x, key (f x) = key x) (hname : ∀ x, name (f x) = name x) :
    Registry key name next (l.map f) := by
  refine ⟨?_, ?_, forall_mem_map.mpr fun x hx => ?_, forall_mem_map.mpr fun x hx => ?_⟩
  · rw [map_map, show key ∘ f = key from funext hkey]
    exact h.keys
  · rw [map_map, show name ∘ f = name from funext hname]
    exact h.names
  · rw [hkey]
    exact h.new x hx
  · rw [hname]
    exact h.named x hx

end Registry

section counting

variable [DecidableEq β]

theorem count_flatMap_map {f : α → α} {p q : α → List β} {b : β}
    (h : ∀ x ∈ l, (p (f x)).count b + (q x).count b = (p x).count b) :
    ((l.map f).flatMap p).count b + (l.flatMap q).count b = (l.flatMap p).count b := by
  induction l with
  | nil => rfl
  | cons x l ih =>
    have hx := h x mem_cons_self
    have hl := ih fun y hy => h y (mem_cons_of_mem _ hy)
    rw [map_cons, flatMap_cons, flatMap_cons, flatMap_cons, count_append, count_append, count_append]
    omega

theorem replace_of_notMem (h : key x ∉ l.map key) : replace key x l = l := by
  unfold replace
  conv_rhs => rw [← map_id l]
  refine map_congr_left fun y hy => if_neg fun hkey => h ?_
  exact mem_map.mpr ⟨y, hy, hkey⟩

theorem count_flatMap_replace (hnd : (l.map key).Nodup) (hy : y ∈ l) (hkey : key y = key x) {p : α → List β} (b : β) :
    ((replace key x l).flatMap p).count b + (p y).count b = (l.flatMap p).count b + (p x).count b := by
  induction l with
  | nil => cases hy
  | cons z l ih =>
    have hcons : replace key x (z :: l) = (if key z = key x then x else z) :: replace key x l := rfl
    obtain ⟨hz, hl⟩ := nodup_cons.mp hnd
    rw [hcons, flatMap_cons, flatMap_cons, count_append, count_append]
    rcases mem_cons.mp hy with rfl | hy
    · have hsame : replace key x l = l := replace_of_notMem (hkey ▸ hz)
      rw [if_pos hkey, hsame]
      omega
    · have hne : key z ≠ key x := by
        intro heq
        exact hz (mem_map.mpr ⟨y, hy, hkey.trans heq.symm⟩)
      have hrest := ih hl hy
      rw [if_neg hne]
      omega

theorem count_flatMap_filter (hnd : (l.map key).Nodup) (hy : y ∈ l) (hkey : key y = k) {p : α → List β} (b : β) :
    ((l.filter (key · != k)).flatMap p).count b + (p y).count b = (l.flatMap p).count b := by
  induction l with
  | nil => cases hy
  | cons z l ih =>
    obtain ⟨hz, hl⟩ := nodup_cons.mp hnd
    rw [flatMap_cons, count_append]
    rcases mem_cons.mp hy with rfl | hy
    · have hsame : l.filter (key · != k) = l := by
        refine filter_eq_self.mpr fun x hx => bne_iff_ne.mpr fun heq => hz ?_
        exact mem_map.mpr ⟨x, hx, heq.trans hkey.symm⟩
      rw [filter_cons_of_neg (by rw [hkey]; simp), hsame]
      omega
    · have hne : key z ≠ k := by
        rintro rfl
        exact hz (mem_map.mpr ⟨y, hy, hkey⟩)
      have hrest := ih hl hy
      rw [filter_cons_of_pos (by simpa using hne), flatMap_cons, count_append]
      omega

end counting

end Brookesia.Transition
