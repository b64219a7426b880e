import Brookesia.AppPackage.Manifest
import Brookesia.Data.Precedence

/-! # The keys of JSON UI objects

`find_key`, which finds a key in either of its spellings, and the operations on `boost::json::object`. Where no two keys of an object are
spellings of one field, and no key looks like the camelCase spelling of another field, what is found is the member of the field. -/

namespace Brookesia.JsonUi.Keys

open Filesystem.Path (Bytes text)
open Data Data.Json List Option
open AppPackage.Manifest (isUpper toLower)

abbrev Member := Bytes × JsonValue

/-! ### Spellings -/

def toUpper (c : UInt8) : UInt8 := if 97 ≤ c && c ≤ 122 then c - 32 else c

def underscore : UInt8 := 95

def normalizeObjectKey (key : Bytes) : Bytes :=
  key.foldl (fun normalized ch =>
    if isUpper ch then (if normalized = [] then normalized else normalized ++ [underscore]) ++ [toLower ch]
    else normalized ++ [ch]) []

/-- The key so far, and whether the next character becomes a capital. -/
def camelStep : Bytes × Bool → UInt8 → Bytes × Bool
  | (camel, uppercaseNext), ch =>
    if ch = underscore then (camel, true)
    else if uppercaseNext then (camel ++ [toUpper ch], false)
    else (camel ++ [ch], false)

def makeCamelCaseKey (key : Bytes) : Option Bytes :=
  if underscore ∉ key then none else some (key.foldl camelStep ([], false)).1

/-! ### Objects -/

def findKey (object : JsonObject) (key : Bytes) : Option Member :=
  (object.find? (·.1 == key)).or (((makeCamelCaseKey key).bind fun camel => object.find? (·.1 == camel)).or
      (object.find? fun m => normalizeObjectKey m.1 == key))

def findChildValue (object : JsonObject) (key : Bytes) : Option JsonValue := (findKey object key).map Prod.snd

def assign (object : JsonObject) (key : Bytes) (value : JsonValue) : JsonObject :=
  object.map fun m => if m.1 = key then (key, value) else m

def insertOrAssign (object : JsonObject) (key : Bytes) (value : JsonValue) : JsonObject :=
  if object.any (·.1 == key) then assign object key value else object ++ [(key, value)]

/-- The last member takes the place of the one that is erased. -/
def erase (object : JsonObject) (key : Bytes) : JsonObject :=
  match object.findIdx? (·.1 == key), object.getLast? with
  | some i, some last => (object.set i last).dropLast
  | _, _ => object

/-! ### Normal spellings -/

theorem isUpper_toLower (c : UInt8) : isUpper (toLower c) = false := by
  revert c
  decide +kernel

theorem not_isUpper_of_mem_normalizeObjectKey {key : Bytes} {c : UInt8} (h : c ∈ normalizeObjectKey key) : isUpper c = false := by
  have hfold : ∀ normalized : Bytes, (∀ c ∈ normalized, isUpper c = false) → ∀ c ∈ key.foldl (fun normalized ch =>
        if isUpper ch then (if normalized = [] then normalized else normalized ++ [underscore]) ++ [toLower ch]
        else normalized ++ [ch]) normalized, isUpper c = false := by
    clear h
    induction key with
    | nil => exact fun normalized h => h
    | cons ch key ih =>
      intro normalized h
      refine ih _ fun c hc => ?_
      dsimp only at hc
      split at hc
      · rcases mem_append.mp hc with hc | hc
        · split at hc
          · exact h c hc
          · rcases mem_append.mp hc with hc | hc
            · exact h c hc
            · rw [mem_singleton.mp hc]
              decide
        · rw [mem_singleton.mp hc]
          exact isUpper_toLower ch
      · next hupper =>
        rcases mem_append.mp hc with hc | hc
        · exact h c hc
        · rw [mem_singleton.mp hc]
          exact Bool.eq_false_iff.mpr hupper
  exact hfold [] (fun c hc => absurd hc not_mem_nil) c h

theorem normalizeObjectKey_of_lower {key : Bytes} (h : ∀ c ∈ key, isUpper c = false) : normalizeObjectKey key = key := by
  have hfold : ∀ normalized : Bytes, key.foldl (fun normalized ch =>
      if isUpper ch then (if normalized = [] then normalized else normalized ++ [underscore]) ++ [toLower ch]
      else normalized ++ [ch]) normalized = normalized ++ key := by
    induction key with
    | nil => exact fun normalized => (append_nil _).symm
    | cons ch key ih =>
      intro normalized
      obtain ⟨hch, hkey⟩ := forall_mem_cons.mp h
      rw [foldl_cons, ih hkey, if_neg (Bool.eq_false_iff.mp hch), append_assoc, singleton_append]
  exact hfold []

@[simp] theorem normalizeObjectKey_idem (key : Bytes) : normalizeObjectKey (normalizeObjectKey key) = normalizeObjectKey key :=
  normalizeObjectKey_of_lower fun _ => not_isUpper_of_mem_normalizeObjectKey

/-! ### Fields -/

def fieldOf (object : JsonObject) (name : Bytes) : Option JsonValue :=
  (object.find? fun m => normalizeObjectKey m.1 == name).map Prod.snd

def Spelled (object : JsonObject) : Prop := (object.map fun m => normalizeObjectKey m.1).Nodup

instance (object : JsonObject) : Decidable (Spelled object) := inferInstanceAs (Decidable (List.Nodup _))

def Coherent (names : Set Bytes) : Prop :=
  ∀ key ∈ names, ∀ camel ∈ names, makeCamelCaseKey (normalizeObjectKey key) = some camel →
    normalizeObjectKey camel = normalizeObjectKey key

variable {object : JsonObject} {m m' : Member} {name key : Bytes} {value : JsonValue} {names : Set Bytes}

theorem Spelled.eq (h : Spelled object) (hm : m ∈ object) (hm' : m' ∈ object)
    (heq : normalizeObjectKey m.1 = normalizeObjectKey m'.1) : m = m' := inj_on_of_nodup_map h hm hm' heq

theorem Spelled.find?_eq (h : Spelled object) (hm : m ∈ object) (hname : normalizeObjectKey m.1 = name) :
    (object.find? fun m => normalizeObjectKey m.1 == name) = some m := by
  cases hfind : object.find? fun m => normalizeObjectKey m.1 == name with
  | none => exact absurd (beq_iff_eq.mpr hname) (List.find?_eq_none.mp hfind m hm)
  | some m' =>
    have hname' := List.find?_some hfind
    have hname' : normalizeObjectKey m'.1 = name := beq_iff_eq.mp hname'
    rw [h.eq (mem_of_find?_eq_some hfind) hm (hname'.trans hname.symm)]

theorem fieldOf_eq_none : fieldOf object name = none ↔ ∀ m ∈ object, normalizeObjectKey m.1 ≠ name := by
  unfold fieldOf
  rw [map_eq_none_iff, List.find?_eq_none]
  exact forall₂_congr fun m _ => not_congr beq_iff_eq

theorem exists_of_fieldOf (h : fieldOf object name = some value) : ∃ key, (key, value) ∈ object ∧ normalizeObjectKey key = name := by
  obtain ⟨⟨key, v⟩, hfind, rfl⟩ := map_eq_some_iff.mp h
  have hname := List.find?_some hfind
  exact ⟨key, mem_of_find?_eq_some hfind, beq_iff_eq.mp hname⟩

theorem Spelled.fieldOf_eq_some (h : Spelled object) :
    fieldOf object name = some value ↔ ∃ key, (key, value) ∈ object ∧ normalizeObjectKey key = name := by
  constructor
  · exact exists_of_fieldOf
  · rintro ⟨key, hmem, hname⟩
    unfold fieldOf
    rw [h.find?_eq hmem hname]
    rfl

theorem Spelled.findKey_eq (h : Spelled object) (hname : normalizeObjectKey name = name)
    (hcamel : ∀ m ∈ object, makeCamelCaseKey name = some m.1 → normalizeObjectKey m.1 = name) :
    findKey object name = object.find? fun m => normalizeObjectKey m.1 == name := by
  unfold findKey
  cases hexact : object.find? (·.1 == name) with
  | some m =>
    have hkey := List.find?_some hexact
    have hkey : m.1 = name := beq_iff_eq.mp hkey
    rw [some_or]
    exact (h.find?_eq (mem_of_find?_eq_some hexact) (by rw [hkey, hname])).symm
  | none =>
    rw [none_or]
    cases hfind : (makeCamelCaseKey name).bind fun camel => object.find? (·.1 == camel) with
    | some m =>
      obtain ⟨camel, hspelling, hfind⟩ := bind_eq_some_iff.mp hfind
      have hkey := List.find?_some hfind
      have hkey : m.1 = camel := beq_iff_eq.mp hkey
      have hmem := mem_of_find?_eq_some hfind
      rw [some_or]
      exact (h.find?_eq hmem (hcamel m hmem (by rw [hspelling, hkey]))).symm
    | none => rw [none_or]

/-! ### The operations on objects -/

theorem assign_map_key (object : JsonObject) (key : Bytes) (value : JsonValue) :
    (assign object key value).map Prod.fst = object.map Prod.fst := by
  unfold assign
  rw [List.map_map]
  refine map_congr_left fun m _ => ?_
  show (if m.1 = key then (key, value) else m).1 = m.1
  split
  · next h => exact h.symm
  · rfl

theorem mem_assign_of_ne {k : Bytes} {v : JsonValue} (h : k ≠ key) : (k, v) ∈ assign object key value ↔ (k, v) ∈ object := by
  constructor
  · intro hmem
    obtain ⟨m, hm, heq⟩ := List.mem_map.mp hmem
    split at heq
    · exact absurd (congrArg Prod.fst heq).symm h
    · rwa [heq] at hm
  · exact fun hmem => List.mem_map.mpr ⟨(k, v), hmem, if_neg h⟩

theorem Spelled.assign (h : Spelled object) (key : Bytes) (value : JsonValue) : Spelled (assign object key value) := by
  have hkeys := congrArg (List.map normalizeObjectKey) (assign_map_key object key value)
  rw [List.map_map, List.map_map] at hkeys
  exact Eq.mpr (congrArg List.Nodup hkeys) h

theorem Spelled.fieldOf_assign (h : Spelled object) (hmem : key ∈ object.map Prod.fst) (value : JsonValue) (name : Bytes) :
    fieldOf (Keys.assign object key value) name = if normalizeObjectKey key = name then some value else fieldOf object name := by
  obtain ⟨m, hm, hkey⟩ := List.mem_map.mp hmem
  split
  · next hname =>
    refine (h.assign key value).fieldOf_eq_some.mpr ⟨key, List.mem_map.mpr ⟨m, hm, if_pos hkey⟩, hname⟩
  · next hname =>
    have hsame : ∀ w, fieldOf (Keys.assign object key value) name = some w ↔ fieldOf object name = some w := by
      intro w
      rw [(h.assign key value).fieldOf_eq_some, h.fieldOf_eq_some]
      refine exists_congr fun k => and_congr_left fun hk => ?_
      exact mem_assign_of_ne fun heq => hname (heq ▸ hk)
    exact Option.ext fun w => hsame w

theorem insertOrAssign_of_not_mem (h : key ∉ object.map Prod.fst) (value : JsonValue) :
    insertOrAssign object key value = object ++ [(key, value)] := by
  refine if_neg fun hany => h ?_
  obtain ⟨m, hm, hkey⟩ := List.any_eq_true.mp hany
  exact List.mem_map.mpr ⟨m, hm, beq_iff_eq.mp hkey⟩

theorem fieldOf_append_singleton (object : JsonObject) (key : Bytes) (value : JsonValue) (name : Bytes) :
    fieldOf (object ++ [(key, value)]) name =
      (fieldOf object name).or (if normalizeObjectKey key = name then some value else none) := by
  unfold fieldOf
  rw [List.find?_append, map_or]
  congr 1
  by_cases hname : normalizeObjectKey key = name
  · have hbeq : (normalizeObjectKey key == name) = true := beq_iff_eq.mpr hname
    simp only [List.find?_cons, hbeq, map_some, if_pos hname]
  · have hbeq : (normalizeObjectKey key == name) = false := beq_eq_false_iff_ne.mpr hname
    simp only [List.find?_cons, hbeq, List.find?_nil, map_none, if_neg hname]

theorem Spelled.append_singleton (h : Spelled object) (hnone : fieldOf object (normalizeObjectKey key) = none) (value : JsonValue) :
    Spelled (object ++ [(key, value)]) := by
  unfold Spelled
  rw [map_append]
  refine nodup_append.mpr ⟨h, nodup_singleton _, ?_⟩
  rintro a ha b hb rfl
  obtain ⟨m, hm, rfl⟩ := List.mem_map.mp ha
  exact fieldOf_eq_none.mp hnone m hm (mem_singleton.mp hb)

theorem erase_perm (h : key ∈ object.map Prod.fst) : ∃ m, m.1 = key ∧ List.Perm object (m :: erase object key) := by
  obtain ⟨m, hm, hkey⟩ := List.mem_map.mp h
  have hany : object.any (·.1 == key) = true := List.any_eq_true.mpr ⟨m, hm, beq_iff_eq.mpr hkey⟩
  obtain ⟨i, hi⟩ := isSome_iff_exists.mp (List.findIdx?_isSome.trans hany)
  obtain ⟨hlt, hfnd, -⟩ := List.findIdx?_eq_some_iff_getElem.mp hi
  obtain ⟨init, last, rfl⟩ := (eq_nil_or_concat' object).resolve_left (ne_nil_of_mem hm)
  refine ⟨(init ++ [last])[i], beq_iff_eq.mp hfnd, ?_⟩
  unfold erase
  rw [hi, List.getLast?_concat]
  dsimp only
  by_cases hinit : i < init.length
  · rw [set_append_left i last hinit, dropLast_concat, getElem_append_left hinit]
    have hlast : List.Perm (init.set i last) (last :: init.eraseIdx i) := set_perm_cons_eraseIdx hinit last
    refine Perm.trans ?_ (hlast.symm.cons _)
    exact ((getElem_cons_eraseIdx_perm hinit).symm.append_right [last]).trans
      ((perm_append_singleton last (init.eraseIdx i)).cons _)
  · have hi : i = init.length := by
      rw [length_append, length_singleton] at hlt
      omega
    subst hi
    rw [getElem_concat_length rfl, set_append_right _ _ le_rfl, Nat.sub_self, set_cons_zero, dropLast_concat]
    exact perm_append_singleton last init

theorem Spelled.erase (h : Spelled object) (hmem : key ∈ object.map Prod.fst) : Spelled (erase object key) := by
  obtain ⟨m, -, hperm⟩ := erase_perm hmem
  have hnd : (normalizeObjectKey m.1 :: (Keys.erase object key).map fun m : Member => normalizeObjectKey m.1).Nodup :=
    (hperm.map fun m : Member => normalizeObjectKey m.1).nodup_iff.mp h
  exact (nodup_cons.mp hnd).2

theorem Spelled.mem_erase (h : Spelled object) (hmem : key ∈ object.map Prod.fst) :
    m ∈ Keys.erase object key ↔ m ∈ object ∧ m.1 ≠ key := by
  obtain ⟨m', rfl, hperm⟩ := erase_perm hmem
  have hnd : (normalizeObjectKey m'.1 :: (Keys.erase object m'.1).map fun m : Member => normalizeObjectKey m.1).Nodup :=
    (hperm.map fun m : Member => normalizeObjectKey m.1).nodup_iff.mp h
  rw [hperm.mem_iff, mem_cons]
  constructor
  · intro hm
    refine ⟨.inr hm, fun heq => (nodup_cons.mp hnd).1 ?_⟩
    exact List.mem_map.mpr ⟨m, hm, congrArg normalizeObjectKey heq⟩
  · rintro ⟨rfl | hm, hne⟩
    · exact absurd rfl hne
    · exact hm

theorem Spelled.fieldOf_erase (h : Spelled object) (hmem : key ∈ object.map Prod.fst) (name : Bytes) :
    fieldOf (Keys.erase object key) name = if normalizeObjectKey key = name then none else fieldOf object name := by
  obtain ⟨m, hm, hkey⟩ := List.mem_map.mp hmem
  refine Option.ext fun w => ?_
  rw [(h.erase hmem).fieldOf_eq_some]
  split
  · next hname =>
    refine iff_of_false ?_ (some_ne_none w).symm
    rintro ⟨k, hk, hname'⟩
    obtain ⟨hk, hne⟩ := (h.mem_erase hmem).mp hk
    have heq := h.eq hk hm (by rw [hname', hkey, hname])
    exact hne ((congrArg Prod.fst heq).trans hkey)
  · next hname =>
    rw [h.fieldOf_eq_some]
    refine exists_congr fun k => and_congr_left fun hk => ?_
    exact ((h.mem_erase hmem).trans (and_iff_left fun heq => hname ((congrArg normalizeObjectKey heq.symm).trans hk)))

end Brookesia.JsonUi.Keys
