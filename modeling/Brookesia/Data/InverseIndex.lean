import Mathlib

/-! # Inverse indexes

An index has, under each key, the set of the values that were entered under it. A key comes with its first value and goes with its
last one: `Tidy` says that no key is left without values. -/

namespace Brookesia.Data.InverseIndex

open List

variable {K V : Type*} [DecidableEq K] [DecidableEq V] {index : List (K × List V)} {key k : K} {value v : V}

structure Tidy (index : List (K × List V)) : Prop where
  keys : (index.map Prod.fst).Nodup
  values : ∀ entry ∈ index, entry.2.Nodup
  nonempty : ∀ entry ∈ index, entry.2 ≠ []

/-- The values under `key`; none if the index does not have the key. -/
def valuesOf (key : K) : List (K × List V) → List V
  | [] => []
  | entry :: index => if entry.1 = key then entry.2 else valuesOf key index

/-- `index[key].insert(value)`. -/
def insert (key : K) (value : V) : List (K × List V) → List (K × List V)
  | [] => [(key, [value])]
  | entry :: index =>
    if entry.1 = key then (entry.1, entry.2.insert value) :: index else entry :: insert key value index

/-- `index[key].erase(value)`, and the key with it if that was the last value. -/
def erase (key : K) (value : V) : List (K × List V) → List (K × List V)
  | [] => []
  | entry :: index =>
    if entry.1 = key then
      if entry.2.erase value = [] then index else (entry.1, entry.2.erase value) :: index
    else entry :: erase key value index

omit [DecidableEq V] in
theorem valuesOf_of_notMem (h : key ∉ index.map Prod.fst) : valuesOf key index = [] := by
  induction index with
  | nil => rfl
  | cons entry index ih =>
    obtain ⟨hne, hrest⟩ : key ≠ entry.1 ∧ key ∉ index.map Prod.fst := ne_and_not_mem_of_not_mem_cons h
    unfold valuesOf
    rw [if_neg hne.symm, ih hrest]

omit [DecidableEq V] in
theorem valuesOf_of_mem (hkeys : (index.map Prod.fst).Nodup) {entry : K × List V} (h : entry ∈ index) :
    valuesOf entry.1 index = entry.2 := by
  induction index with
  | nil => cases h
  | cons first index ih =>
    obtain ⟨hfst, hrest⟩ := nodup_cons.mp hkeys
    unfold valuesOf
    rcases mem_cons.mp h with rfl | hmem
    · exact if_pos rfl
    · have hne : first.1 ≠ entry.1 := by
        intro heq
        exact hfst (heq ▸ mem_map_of_mem hmem)
      rw [if_neg hne, ih hrest hmem]

omit [DecidableEq V] in
theorem Tidy.mem_keys_iff (h : Tidy index) : key ∈ index.map Prod.fst ↔ valuesOf key index ≠ [] := by
  constructor
  · intro hmem
    obtain ⟨entry, hent, rfl⟩ := mem_map.mp hmem
    rw [valuesOf_of_mem h.keys hent]
    exact h.nonempty entry hent
  · intro hvals
    by_contra hnot
    exact hvals (valuesOf_of_notMem hnot)

omit [DecidableEq V] in
theorem Tidy.nodup_valuesOf (h : Tidy index) (key : K) : (valuesOf key index).Nodup := by
  by_cases hmem : key ∈ index.map Prod.fst
  · obtain ⟨entry, hent, rfl⟩ := mem_map.mp hmem
    rw [valuesOf_of_mem h.keys hent]
    exact h.values entry hent
  · rw [valuesOf_of_notMem hmem]
    exact nodup_nil

omit [DecidableEq K] [DecidableEq V] in
theorem Tidy.tail {entry : K × List V} (h : Tidy (entry :: index)) : Tidy index :=
  ⟨(nodup_cons.mp h.keys).2, fun e he => h.values e (mem_cons_of_mem _ he),
    fun e he => h.nonempty e (mem_cons_of_mem _ he)⟩

omit [DecidableEq K] [DecidableEq V] in
theorem Tidy.cons {entry : K × List V} (h : Tidy index) (hkey : entry.1 ∉ index.map Prod.fst)
    (hvals : entry.2.Nodup) (hne : entry.2 ≠ []) : Tidy (entry :: index) := by
  refine ⟨nodup_cons.mpr ⟨hkey, h.keys⟩, ?_, ?_⟩
  · exact forall_mem_cons.mpr ⟨hvals, h.values⟩
  · exact forall_mem_cons.mpr ⟨hne, h.nonempty⟩

omit [DecidableEq K] [DecidableEq V] in
theorem Tidy.nil : Tidy ([] : List (K × List V)) :=
  ⟨nodup_nil, fun _ h => absurd h not_mem_nil, fun _ h => absurd h not_mem_nil⟩

/-! ### `insert` -/

theorem mem_keys_insert : k ∈ (insert key value index).map Prod.fst ↔ k = key ∨ k ∈ index.map Prod.fst := by
  induction index with
  | nil => exact mem_singleton.trans (by simp)
  | cons entry index ih =>
    unfold insert
    split_ifs with hkey
    · subst hkey
      simp
    · rw [map_cons, map_cons, mem_cons, ih, mem_cons]
      tauto

theorem mem_valuesOf_insert :
    v ∈ valuesOf k (insert key value index) ↔ (k = key ∧ v = value) ∨ v ∈ valuesOf k index := by
  induction index with
  | nil =>
    unfold insert valuesOf
    split_ifs with hkey
    · subst hkey
      simp
    · have hkey' : k ≠ key := Ne.symm hkey
      simp [valuesOf, hkey']
  | cons entry index ih =>
    unfold insert
    by_cases hkey : entry.1 = key
    · rw [if_pos hkey]
      unfold valuesOf
      by_cases hk : entry.1 = k
      · have hkk : k = key := hk.symm.trans hkey
        rw [if_pos hk, if_pos hk, mem_insert_iff]
        simp only [hkk, true_and]
      · have hkk : k ≠ key := fun heq => hk (hkey.trans heq.symm)
        rw [if_neg hk, if_neg hk]
        simp only [hkk, false_and, false_or]
    · rw [if_neg hkey]
      unfold valuesOf
      by_cases hk : entry.1 = k
      · have hkk : k ≠ key := fun heq => hkey (hk.trans heq)
        rw [if_pos hk, if_pos hk]
        simp only [hkk, false_and, false_or]
      · rw [if_neg hk, if_neg hk]
        exact ih

theorem Tidy.insert (h : Tidy index) (key : K) (value : V) : Tidy (insert key value index) := by
  induction index with
  | nil => exact Tidy.nil.cons not_mem_nil (nodup_singleton value) (cons_ne_nil _ _)
  | cons entry index ih =>
    have hent : entry.1 ∉ index.map Prod.fst := (nodup_cons.mp h.keys).1
    unfold InverseIndex.insert
    split_ifs with hkey
    · refine h.tail.cons hent ?_ ?_
      · exact (h.values entry mem_cons_self).insert
      · exact ne_nil_of_mem mem_insert_self
    · refine (ih h.tail).cons ?_ (h.values entry mem_cons_self) (h.nonempty entry mem_cons_self)
      rw [mem_keys_insert]
      rintro (heq | hmem)
      · exact hkey heq
      · exact hent hmem

/-! ### `erase` -/

theorem keys_erase_sublist : ((erase key value index).map Prod.fst).Sublist (index.map Prod.fst) := by
  induction index with
  | nil => exact .slnil
  | cons entry index ih =>
    unfold erase
    split_ifs
    · exact sublist_cons_self _ _
    · exact Sublist.refl _
    · exact ih.cons_cons _

theorem Tidy.erase (h : Tidy index) (key : K) (value : V) : Tidy (erase key value index) := by
  induction index with
  | nil => exact h
  | cons entry index ih =>
    have hent : entry.1 ∉ index.map Prod.fst := (nodup_cons.mp h.keys).1
    unfold InverseIndex.erase
    split_ifs with hkey hlast
    · exact h.tail
    · exact h.tail.cons hent ((h.values entry mem_cons_self).erase value) hlast
    · refine (ih h.tail).cons ?_ (h.values entry mem_cons_self) (h.nonempty entry mem_cons_self)
      exact fun hmem => hent (keys_erase_sublist.subset hmem)

theorem mem_valuesOf_erase (h : Tidy index) :
    v ∈ valuesOf k (erase key value index) ↔ v ∈ valuesOf k index ∧ ¬ (k = key ∧ v = value) := by
  induction index with
  | nil => exact ⟨fun hmem => absurd hmem not_mem_nil, fun hmem => absurd hmem.1 not_mem_nil⟩
  | cons entry index ih =>
    have hent : entry.1 ∉ index.map Prod.fst := (nodup_cons.mp h.keys).1
    have hnd : entry.2.Nodup := h.values entry mem_cons_self
    unfold erase
    by_cases hkey : entry.1 = key
    · rw [if_pos hkey]
      by_cases hk : entry.1 = k
      · have hkk : k = key := hk.symm.trans hkey
        have hcons : valuesOf k (entry :: index) = entry.2 := by
          unfold valuesOf
          exact if_pos hk
        have hers : valuesOf k (if entry.2.erase value = [] then index else (entry.1, entry.2.erase value) :: index) =
            entry.2.erase value := by
          split_ifs with hlast
          · rw [hlast]
            exact valuesOf_of_notMem (hk ▸ hent)
          · unfold valuesOf
            exact if_pos hk
        rw [hers, hcons, hnd.mem_erase_iff]
        simp only [hkk, true_and]
        exact and_comm
      · have hkk : k ≠ key := fun heq => hk (hkey.trans heq.symm)
        have hcons : valuesOf k (entry :: index) = valuesOf k index := by
          rw [valuesOf, if_neg hk]
        have hers : valuesOf k (if entry.2.erase value = [] then index else (entry.1, entry.2.erase value) :: index) =
            valuesOf k index := by
          split_ifs
          · rfl
          · rw [valuesOf, if_neg hk]
        rw [hers, hcons]
        simp only [hkk, false_and, not_false_eq_true, and_true]
    · rw [if_neg hkey]
      unfold valuesOf
      by_cases hk : entry.1 = k
      · have hkk : k ≠ key := fun heq => hkey (hk.trans heq)
        rw [if_pos hk, if_pos hk]
        simp only [hkk, false_and, not_false_eq_true, and_true]
      · rw [if_neg hk, if_neg hk]
        exact ih h.tail

end Brookesia.Data.InverseIndex
