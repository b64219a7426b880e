import Brookesia.Describe.Codec

/-! # Objects, enums, arrays and maps

What the reading of a container gives, from what the reading of its items gives. -/

namespace Brookesia.Describe

open Filesystem.Path AppPackage.Manifest Data Data.Json List Option

/-! ### Objects -/

theorem find_jsonObjectSet_self (object : JsonObject) (name : Bytes) (value : JsonValue) :
    find (jsonObjectSet object name value) name = some value := by
  induction object with
  | nil => exact lookup_cons_self
  | cons member members ih =>
    unfold jsonObjectSet
    split_ifs with hname
    · exact lookup_cons_self
    · unfold find at ih ⊢
      rw [lookup_cons, beq_false_of_ne (Ne.symm hname)]
      exact ih

theorem find_jsonObjectSet_of_ne {name other : Bytes} (hne : other ≠ name) (object : JsonObject) (value : JsonValue) :
    find (jsonObjectSet object name value) other = find object other := by
  induction object with
  | nil =>
    show List.lookup other [(name, value)] = none
    rw [lookup_cons, beq_false_of_ne hne]
    rfl
  | cons member members ih =>
    unfold jsonObjectSet
    unfold find at ih ⊢
    split_ifs with hname
    · rw [lookup_cons, lookup_cons, hname, beq_false_of_ne hne]
    · rw [lookup_cons, lookup_cons, ih]

theorem jsonObjectSet_of_notMem {object : JsonObject} {name : Bytes} (h : name ∉ object.map Prod.fst) (value : JsonValue) :
    jsonObjectSet object name value = object ++ [(name, value)] := by
  induction object with
  | nil => rfl
  | cons member members ih =>
    rw [map_cons, mem_cons, not_or] at h
    unfold jsonObjectSet
    rw [if_neg (Ne.symm h.1), ih h.2]
    rfl

theorem foldl_jsonObjectSet (members object : JsonObject) (h : ((object ++ members).map Prod.fst).Nodup) :
    members.foldl (fun object member => jsonObjectSet object member.1 member.2) object = object ++ members := by
  induction members generalizing object with
  | nil => exact (append_nil _).symm
  | cons member members ih =>
    have hnew : member.1 ∉ object.map Prod.fst := by
      rw [map_append, map_cons] at h
      intro hmem
      exact (nodup_append.mp h).2.2 member.1 hmem member.1 mem_cons_self rfl
    have hset : jsonObjectSet object member.1 member.2 = object ++ [member] := jsonObjectSet_of_notMem hnew member.2
    rw [foldl_cons, hset, ih (object ++ [member]) (by rwa [append_assoc]), append_assoc]
    rfl

theorem findJsonKeyFlexible_of_find {object : JsonObject} {name : Bytes} {value : JsonValue} (h : find object name = some value) :
    findJsonKeyFlexible object name = some value := by
  unfold findJsonKeyFlexible
  rw [h]

/-! ### Enums and keys -/

namespace EnumType

variable {e : EnumType} {v : e.Val}

theorem name?_of_named (h : e.Named v) : ∃ enumerator ∈ e.enumerators, enumerator.2 = v ∧ e.name? v = some enumerator.1 := by
  obtain ⟨enumerator, hmem, hval⟩ := h
  have hsome : (e.enumerators.reverse.find? (·.2 = v)).isSome = true :=
    List.find?_isSome.mpr ⟨enumerator, mem_reverse.mpr hmem, decide_eq_true hval⟩
  obtain ⟨last, hlast⟩ := isSome_iff_exists.mp hsome
  have hlastValue := List.find?_some hlast
  refine ⟨last, mem_reverse.mp (mem_of_find?_eq_some hlast), of_decide_eq_true hlastValue, ?_⟩
  unfold name?
  rw [hlast]
  rfl

theorem describeStringToEnum_name {enumerator : Bytes × e.underlying.Val} (h : enumerator ∈ e.enumerators) (w : e.Val) :
    e.describeStringToEnum enumerator.1 w = (true, enumerator.2) := by
  have hsome : (e.enumerators.reverse.find? (·.1 = enumerator.1)).isSome = true :=
    List.find?_isSome.mpr ⟨enumerator, mem_reverse.mpr h, decide_eq_true rfl⟩
  obtain ⟨found, hfnd⟩ := isSome_iff_exists.mp hsome
  have hname := List.find?_some hfnd
  have hsame : found = enumerator :=
    inj_on_of_nodup_map e.names (mem_reverse.mp (mem_of_find?_eq_some hfnd)) h (of_decide_eq_true hname)
  unfold describeStringToEnum
  rw [hfnd, hsame]

end EnumType

namespace KeyType

theorem parse_text : (k : KeyType) → (declared key : k.Val) → k.Named key → k.parse declared (k.text key) = some key
  | .string, _, _, _ => rfl
  | .integer t, _, key, _ => by
    show (if t.signed then stoll (decimalText key.1) else stoull (decimalText key.1)).map t.cast = some key
    split_ifs with hsigned
    · obtain ⟨hlow, hhigh⟩ := IntType.signed_bounds hsigned key
      rw [stoll_decimalText hlow hhigh]
      exact congrArg some (IntType.cast_val key)
    · obtain ⟨hlow, hhigh⟩ := IntType.unsigned_bounds (Bool.eq_false_iff.mpr hsigned) key
      rw [stoull_decimalText hlow hhigh]
      exact congrArg some (IntType.cast_val key)
  | .enum e, declared, key, hnamed => by
    obtain ⟨enumerator, hmem, hval, hname⟩ := EnumType.name?_of_named hnamed
    have htext : (KeyType.enum e).text key = enumerator.1 := by
      show (e.name? key).getD _ = _
      rw [hname]
      rfl
    have hread := EnumType.describeStringToEnum_name hmem declared
    show (if (e.describeStringToEnum ((KeyType.enum e).text key) declared).1 then _ else none) = _
    rw [htext, hread, if_pos rfl, hval]

end KeyType

/-! ### Arrays and maps -/

section Containers

variable {α : Type} {read : JsonValue → Reading α}

theorem readItems_eq {items : List JsonValue} {value r : List α} : readItems read items value = some (true, r) ↔
    ∃ xs, r = value ++ xs ∧ List.Forall₂ (fun item x => read item = some (true, x)) items xs := by
  induction items generalizing value with
  | nil =>
    constructor
    · intro h
      have hr : value = r := congrArg Prod.snd (some.inj h)
      exact ⟨[], hr ▸ (append_nil _).symm, .nil⟩
    · rintro ⟨xs, rfl, hxs⟩
      cases hxs
      rw [append_nil]
      rfl
  | cons item items ih =>
    unfold readItems
    rcases hread : read item with _ | ⟨ok, x⟩
    · refine ⟨fun h => absurd h.symm (some_ne_none _), ?_⟩
      rintro ⟨xs, -, hxs⟩
      obtain ⟨x, rest, hx, -, rfl⟩ := List.forall₂_cons_left_iff.mp hxs
      exact absurd (hread.symm.trans hx).symm (some_ne_none _)
    · cases ok with
      | false =>
        refine ⟨fun h => absurd (congrArg Prod.fst (some.inj h)) Bool.false_ne_true, ?_⟩
        rintro ⟨xs, -, hxs⟩
        obtain ⟨y, rest, hy, -, rfl⟩ := List.forall₂_cons_left_iff.mp hxs
        exact absurd (congrArg Prod.fst (some.inj (hread.symm.trans hy))) Bool.false_ne_true
      | true =>
        refine ih.trans ⟨?_, ?_⟩
        · rintro ⟨xs, rfl, hxs⟩
          exact ⟨x :: xs, append_assoc .., .cons hread hxs⟩
        · rintro ⟨xs, rfl, hxs⟩
          obtain ⟨y, rest, hy, hrest, rfl⟩ := List.forall₂_cons_left_iff.mp hxs
          have hsame : x = y := congrArg Prod.snd (some.inj (hread.symm.trans hy))
          exact ⟨rest, hsame ▸ append_cons value x rest, hrest⟩

theorem readArray_iff {write : α → JsonValue} {values w : List α} :
    readArray read (.array (values.map write)) w = some (true, values) ↔ ∀ v ∈ values, read (write v) = some (true, v) := by
  have hitems : readArray read (.array (values.map write)) w = some (true, values) ↔
      ∃ xs, values = [] ++ xs ∧ List.Forall₂ (fun item x => read item = some (true, x)) (values.map write) xs := readItems_eq
  refine hitems.trans ⟨?_, fun h => ⟨values, rfl, ?_⟩⟩
  · rintro ⟨xs, hsame, hxs⟩
    obtain rfl : values = xs := hsame
    exact List.forall₂_same.mp (List.forall₂_map_left_iff.mp hxs)
  · exact List.forall₂_map_left_iff.mpr (List.forall₂_same.mpr h)

variable {K : Type} [LinearOrder K] {parse : Bytes → Option K}

theorem readEntries_eq {members : JsonObject} {value r : SortedMap K α} :
    readEntries parse read members value = some (true, r) ↔ ∃ es : List (K × α), r = es.foldl SortedMap.insert value ∧
      List.Forall₂ (fun member e => parse member.1 = some e.1 ∧ read member.2 = some (true, e.2)) members es := by
  induction members generalizing value with
  | nil =>
    constructor
    · intro h
      exact ⟨[], (congrArg Prod.snd (some.inj h)).symm, .nil⟩
    · rintro ⟨es, rfl, hes⟩
      cases hes
      rfl
  | cons member members ih =>
    unfold readEntries
    rcases hparse : parse member.1 with _ | key
    · refine ⟨fun h => absurd (congrArg Prod.fst (some.inj h)) Bool.false_ne_true, ?_⟩
      rintro ⟨es, -, hes⟩
      obtain ⟨e, rest, ⟨he, -⟩, -, rfl⟩ := List.forall₂_cons_left_iff.mp hes
      exact absurd (hparse.symm.trans he).symm (some_ne_none _)
    · dsimp only
      rcases hread : read member.2 with _ | ⟨ok, x⟩
      · refine ⟨fun h => absurd h.symm (some_ne_none _), ?_⟩
        rintro ⟨es, -, hes⟩
        obtain ⟨e, rest, ⟨-, he⟩, -, rfl⟩ := List.forall₂_cons_left_iff.mp hes
        exact absurd (hread.symm.trans he).symm (some_ne_none _)
      · cases ok with
        | false =>
          refine ⟨fun h => absurd (congrArg Prod.fst (some.inj h)) Bool.false_ne_true, ?_⟩
          rintro ⟨es, -, hes⟩
          obtain ⟨e, rest, ⟨-, he⟩, -, rfl⟩ := List.forall₂_cons_left_iff.mp hes
          exact absurd (congrArg Prod.fst (some.inj (hread.symm.trans he))) Bool.false_ne_true
        | true =>
          refine ih.trans ⟨?_, ?_⟩
          · rintro ⟨es, rfl, hes⟩
            exact ⟨(key, x) :: es, rfl, .cons ⟨hparse, hread⟩ hes⟩
          · rintro ⟨es, rfl, hes⟩
            obtain ⟨e, rest, ⟨hkey, hval⟩, hrest, rfl⟩ := List.forall₂_cons_left_iff.mp hes
            have hx : x = e.2 := congrArg Prod.snd (some.inj (hread.symm.trans hval))
            have hsame : (key, x) = e := Prod.ext (some.inj (hparse.symm.trans hkey)) hx
            exact ⟨rest, hsame ▸ rfl, hrest⟩

theorem readMap_iff {text : K → Bytes} {write : α → JsonValue} {m w : SortedMap K α}
    (hparse : ∀ e ∈ m.entries, parse (text e.1) = some e.1) :
    readMap parse read (.object (m.entries.map fun e => (text e.1, write e.2))) w = some (true, m) ↔
      ∀ e ∈ m.entries, read (write e.2) = some (true, e.2) := by
  show readEntries parse read _ SortedMap.empty = _ ↔ _
  refine readEntries_eq.trans ⟨?_, fun h => ⟨m.entries, m.foldl_insert_entries.symm, ?_⟩⟩
  · rintro ⟨es, hm, hes⟩
    have hes := List.forall₂_map_left_iff.mp hes
    have hkeys : m.entries.map Prod.fst = es.map Prod.fst := by
      have hsame := ((List.forall₂_and_left _ _).mpr ⟨hparse, hes⟩).imp
        fun (e e' : K × α) h => (some.inj (h.1.symm.trans h.2.1) : e.1 = e'.1)
      have hmap := List.forall₂_map_left_iff.mpr (List.forall₂_map_right_iff.mpr hsame)
      rwa [List.forall₂_eq_eq_eq] at hmap
    have hsort : es.Pairwise fun a b => a.1 < b.1 := pairwise_map.mp (hkeys ▸ pairwise_map.mpr m.sorted)
    have hents : m.entries = es := (congrArg SortedMap.entries hm).trans (SortedMap.entries_foldl_insert es .empty hsort)
    rw [← hents] at hes
    exact fun e he => (List.forall₂_same.mp hes e he).2
  · exact List.forall₂_map_left_iff.mpr (List.forall₂_same.mpr fun e he => ⟨hparse e he, h e he⟩)

theorem foldl_entries {text : K → Bytes} {write : α → JsonValue} {m : SortedMap K α}
    (hparse : ∀ e ∈ m.entries, parse (text e.1) = some e.1) :
    m.entries.foldl (fun object e => jsonObjectSet object (text e.1) (write e.2)) [] =
      m.entries.map fun e => (text e.1, write e.2) := by
  have hnd : (([] ++ m.entries.map fun e : K × α => (text e.1, write e.2)).map Prod.fst).Nodup := by
    rw [nil_append, List.map_map]
    refine pairwise_map.mpr (m.sorted.imp_of_mem fun ha hb hlt hsame => ?_)
    have hkeys : some _ = some _ := (hparse _ ha).symm.trans ((congrArg parse hsame).trans (hparse _ hb))
    exact hlt.ne (some.inj hkeys)
  have hfold := foldl_jsonObjectSet _ _ hnd
  rw [foldl_map] at hfold
  exact hfold

end Containers

end Brookesia.Describe
