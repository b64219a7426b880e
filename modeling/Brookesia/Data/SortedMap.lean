import Mathlib

/-! # Ordered maps

A map whose keys are ordered is kept as its entries in the order of the keys, as an iteration meets them. `insert` sets the value of
a key (`map[key] = value`): the key stays where it is, or comes where its order puts it. -/

namespace Brookesia.Data

open List

@[ext] structure SortedMap (K V : Type) [LT K] where
  entries : List (K × V)
  sorted : entries.Pairwise fun a b => a.1 < b.1

namespace SortedMap

variable {K V : Type} [LinearOrder K] {key : K} {value : V} {entries : List (K × V)} {e : K × V}

def empty : SortedMap K V := ⟨[], .nil⟩

def insertEntry (key : K) (value : V) : List (K × V) → List (K × V)
  | [] => [(key, value)]
  | entry :: entries =>
    if key < entry.1 then (key, value) :: entry :: entries
    else if entry.1 < key then entry :: insertEntry key value entries
    else (entry.1, value) :: entries

theorem mem_insertEntry (h : e ∈ insertEntry key value entries) : e.1 = key ∨ e ∈ entries := by
  induction entries with
  | nil => exact .inl (congrArg Prod.fst (mem_singleton.mp h))
  | cons entry entries ih =>
    unfold insertEntry at h
    split_ifs at h with hbef hafter
    · rcases mem_cons.mp h with rfl | hold
      · exact .inl rfl
      · exact .inr hold
    · rcases mem_cons.mp h with rfl | hrest
      · exact .inr mem_cons_self
      · exact (ih hrest).imp_right (mem_cons_of_mem _)
    · rcases mem_cons.mp h with rfl | hold
      · exact .inl (le_antisymm (not_lt.mp hbef) (not_lt.mp hafter))
      · exact .inr (mem_cons_of_mem _ hold)

theorem sorted_insertEntry (h : entries.Pairwise fun a b => a.1 < b.1) (key : K) (value : V) :
    (insertEntry key value entries).Pairwise fun a b => a.1 < b.1 := by
  induction entries with
  | nil => exact pairwise_singleton _ _
  | cons entry entries ih =>
    obtain ⟨hhead, htail⟩ := pairwise_cons.mp h
    unfold insertEntry
    split_ifs with hbef hafter
    · refine pairwise_cons.mpr ⟨fun e he => ?_, h⟩
      rcases mem_cons.mp he with rfl | hrest
      · exact hbef
      · exact hbef.trans (hhead e hrest)
    · refine pairwise_cons.mpr ⟨fun e he => ?_, ih htail⟩
      rcases mem_insertEntry he with hkey | hold
      · exact hkey ▸ hafter
      · exact hhead e hold
    · exact pairwise_cons.mpr ⟨hhead, htail⟩

theorem insertEntry_of_lt (h : ∀ e ∈ entries, e.1 < key) : insertEntry key value entries = entries ++ [(key, value)] := by
  induction entries with
  | nil => rfl
  | cons entry entries ih =>
    have hafter : entry.1 < key := h entry mem_cons_self
    unfold insertEntry
    rw [if_neg hafter.not_gt, if_pos hafter, ih fun e he => h e (mem_cons_of_mem _ he)]
    rfl

def insert (m : SortedMap K V) (e : K × V) : SortedMap K V :=
  ⟨insertEntry e.1 e.2 m.entries, sorted_insertEntry m.sorted e.1 e.2⟩

theorem entries_foldl_insert (es : List (K × V)) (m : SortedMap K V) (h : (m.entries ++ es).Pairwise fun a b => a.1 < b.1) :
    (es.foldl insert m).entries = m.entries ++ es := by
  induction es generalizing m with
  | nil => exact (append_nil _).symm
  | cons e es ih =>
    have hlast : ∀ a ∈ m.entries, a.1 < e.1 := fun a ha => (pairwise_append.mp h).2.2 a ha e mem_cons_self
    have hents : (m.insert e).entries = m.entries ++ [e] := insertEntry_of_lt hlast
    have hsame : (m.insert e).entries ++ es = m.entries ++ e :: es := by
      rw [hents, append_assoc]
      rfl
    rw [foldl_cons, ih (m.insert e) (hsame ▸ h), hsame]

theorem foldl_insert_entries (m : SortedMap K V) : m.entries.foldl insert empty = m :=
  SortedMap.ext (entries_foldl_insert m.entries empty m.sorted)

/-! ### Lookups -/

def find? (m : SortedMap K V) (k : K) : Option V := (m.entries.find? (·.1 = k)).map Prod.snd

@[simp] theorem find?_empty (k : K) : (empty : SortedMap K V).find? k = none := rfl

theorem find?_insert (m : SortedMap K V) (e : K × V) (k : K) : (m.insert e).find? k = if k = e.1 then some e.2 else m.find? k := by
  show ((insertEntry e.1 e.2 m.entries).find? (·.1 = k)).map Prod.snd = if k = e.1 then some e.2 else (m.entries.find? (·.1 = k)).map Prod.snd
  induction m.entries with
  | nil => by_cases hk : k = e.1 <;> simp [insertEntry, hk, eq_comm]
  | cons entry entries ih =>
    unfold insertEntry
    by_cases hk : k = e.1
    · rw [if_pos hk] at ih ⊢
      split_ifs with hbef hafter
      · simp [hk]
      · rw [List.find?_cons_of_neg (by simpa [hk] using hafter.ne), ih]
      · simp [hk, le_antisymm (not_lt.mp hbef) (not_lt.mp hafter)]
    · rw [if_neg hk] at ih ⊢
      split_ifs with hbef hafter
      · rw [List.find?_cons_of_neg (by simpa using Ne.symm hk)]
      · simp only [List.find?_cons]
        split
        · rfl
        · exact ih
      · have hoth : ¬entry.1 = k := le_antisymm (not_lt.mp hbef) (not_lt.mp hafter) ▸ Ne.symm hk
        simp [hoth]

theorem find?_eq_some {m : SortedMap K V} : m.find? key = some value ↔ (key, value) ∈ m.entries := by
  unfold find?
  rw [Option.map_eq_some_iff]
  constructor
  · rintro ⟨entry, hfind, rfl⟩
    have hkey : entry.1 = key := by simpa using List.find?_some hfind
    exact hkey ▸ mem_of_find?_eq_some hfind
  · intro hmem
    obtain ⟨entry, hfind⟩ := Option.isSome_iff_exists.mp
      (List.find?_isSome (p := (·.1 = key)).mpr ⟨(key, value), hmem, decide_eq_true rfl⟩)
    have hkey : entry.1 = key := by simpa using List.find?_some hfind
    have hnd : (m.entries.map Prod.fst).Nodup := pairwise_map.mpr (m.sorted.imp ne_of_lt)
    exact ⟨entry, hfind, congrArg Prod.snd (inj_on_of_nodup_map hnd (mem_of_find?_eq_some hfind) hmem hkey)⟩

theorem ext_find? {m m' : SortedMap K V} (h : ∀ k, m.find? k = m'.find? k) : m = m' := by
  have hmem : ∀ e, e ∈ m.entries ↔ e ∈ m'.entries := fun e => by rw [← find?_eq_some, ← find?_eq_some, h]
  have hperm := (perm_ext_iff_of_nodup (m.sorted.imp fun hlt heq => hlt.ne (congrArg Prod.fst heq))
    (m'.sorted.imp fun hlt heq => hlt.ne (congrArg Prod.fst heq))).mpr hmem
  exact SortedMap.ext (hperm.eq_of_pairwise (fun _ _ _ _ hlt hgt => absurd hlt hgt.asymm) m.sorted m'.sorted)

end SortedMap

end Brookesia.Data
