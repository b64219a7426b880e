import Brookesia.JsonUi.Keys

/-! # Merging objects

`merge_object_defaults` fills an object with the members that it lacks, and the objects in it with those that they lack. Where every
field is spelled once, a merged object has at every path what the object has, or else what the defaults have. -/

namespace Brookesia.JsonUi.Merging

open Filesystem.Path (Bytes text)
open Data Data.Json List Option
open Keys

mutual

def mergeObjectDefaults (target : JsonObject) : List (Bytes × JsonValue) → JsonObject
  | [] => target
  | entry :: defaults => mergeObjectDefaults (mergeEntry target entry) defaults
termination_by structural defaults => defaults

def mergeEntry (target : JsonObject) : Bytes × JsonValue → JsonObject
  | (key, value) =>
    match findKey target (normalizeObjectKey key) with
    | none => insertOrAssign target key value
    | some (targetKey, .object own) => mergeMember target targetKey own value
    | some _ => target
termination_by structural entry => entry

def mergeMember (target : JsonObject) (targetKey : Bytes) (own : JsonObject) : JsonValue → JsonObject
  | .object defaults => assign target targetKey (.object (mergeObjectDefaults own defaults))
  | _ => target
termination_by structural value => value

end

/-! ### The fields of a merged object -/

def isObject : JsonValue → Bool
  | .object _ => true
  | _ => false

def fielded : Fielded JsonValue Bytes where
  field v name :=
    match v with
    | .object members => fieldOf members name
    | _ => none
  branches := isObject
  field_eq_none v _ h := by
    cases v with
    | object members => cases h
    | null => rfl
    | bool b => rfl
    | int n => rfl
    | double q => rfl
    | string s => rfl
    | array items => rfl

theorem exists_of_isObject {v : JsonValue} (h : isObject v = true) : ∃ members, v = .object members := by
  cases v with
  | object members => exact ⟨members, rfl⟩
  | null => cases h
  | bool b => cases h
  | int n => cases h
  | double q => cases h
  | string s => cases h
  | array items => cases h

def mergedValue : Option JsonValue → Option JsonValue → Option JsonValue
  | none, default => default
  | some (.object own), some (.object defaults) => some (.object (mergeObjectDefaults own defaults))
  | some own, _ => some own

@[simp] theorem mergedValue_none_left (default : Option JsonValue) : mergedValue none default = default := rfl

@[simp] theorem mergedValue_none_right (own : Option JsonValue) : mergedValue own none = own := by
  unfold mergedValue
  split
  · rfl
  · next heq => cases heq
  · rfl

theorem mergedValue_objects (own defaults : JsonObject) :
    mergedValue (some (.object own)) (some (.object defaults)) = some (.object (mergeObjectDefaults own defaults)) := rfl

theorem mergedValue_of_leaf {own value : JsonValue} (h : isObject own = false ∨ isObject value = false) :
    mergedValue (some own) (some value) = some own := by
  unfold mergedValue
  split
  · next heq => cases heq
  · next heq heq' =>
    cases heq
    cases heq'
    rcases h with h | h
    · cases h
    · cases h
  · next heq _ => exact heq.symm

variable {names : Set Bytes} {target defaults : JsonObject} {key name : Bytes} {value : JsonValue}

/-- An object whose keys are among the names, no field twice. -/
structure Level (names : Set Bytes) (object : JsonObject) : Prop where
  spelled : Spelled object
  names : ∀ m ∈ object, m.1 ∈ names

theorem findKey_level (hnms : Coherent names) (h : Level names target) (hkey : key ∈ names) :
    findKey target (normalizeObjectKey key) = target.find? fun m => normalizeObjectKey m.1 == normalizeObjectKey key :=
  h.spelled.findKey_eq (normalizeObjectKey_idem key) fun m hm => hnms key hkey m.1 (h.names m hm)

theorem mergeEntry_level (hnms : Coherent names) (h : Level names target) (hkey : key ∈ names) (value : JsonValue) :
    Level names (mergeEntry target (key, value)) ∧ ∀ name, fieldOf (mergeEntry target (key, value)) name =
      if normalizeObjectKey key = name then mergedValue (fieldOf target name) (some value) else fieldOf target name := by
  unfold mergeEntry
  rw [findKey_level hnms h hkey]
  cases hfind : target.find? fun m => normalizeObjectKey m.1 == normalizeObjectKey key with
  | none =>
    have hnone : fieldOf target (normalizeObjectKey key) = none := map_eq_none_iff.mpr hfind
    have hnot : key ∉ target.map Prod.fst := by
      intro hmem
      obtain ⟨m, hm, rfl⟩ := List.mem_map.mp hmem
      exact fieldOf_eq_none.mp hnone m hm rfl
    dsimp only
    rw [insertOrAssign_of_not_mem hnot]
    refine ⟨⟨h.spelled.append_singleton hnone value, fun m hm => ?_⟩, fun name => ?_⟩
    · rcases mem_append.mp hm with hm | hm
      · exact h.names m hm
      · rw [mem_singleton.mp hm]
        exact hkey
    · rw [fieldOf_append_singleton]
      by_cases hname : normalizeObjectKey key = name
      · rw [if_pos hname, if_pos hname, ← hname, hnone, none_or, mergedValue_none_left]
      · rw [if_neg hname, if_neg hname, or_none]
  | some m =>
    obtain ⟨targetKey, own⟩ := m
    have hbeq := List.find?_some hfind
    have hspelling : normalizeObjectKey targetKey = normalizeObjectKey key := beq_iff_eq.mp hbeq
    have hmem := mem_of_find?_eq_some hfind
    have hown : fieldOf target (normalizeObjectKey key) = some own := h.spelled.fieldOf_eq_some.mpr ⟨targetKey, hmem, hspelling⟩
    have hsame : mergedValue (some own) (some value) = some own → Level names target ∧ ∀ name, fieldOf target name =
        if normalizeObjectKey key = name then mergedValue (fieldOf target name) (some value) else fieldOf target name := by
      intro hkept
      refine ⟨h, fun name => ?_⟩
      split
      · next hname => rw [← hname, hown, hkept]
      · rfl
    cases hobj : isObject own with
    | false =>
      have hkept := hsame (mergedValue_of_leaf (.inl hobj))
      cases own with
      | object members => cases hobj
      | null => exact hkept
      | bool b => exact hkept
      | int n => exact hkept
      | double q => exact hkept
      | string s => exact hkept
      | array items => exact hkept
    | true =>
      obtain ⟨own, rfl⟩ := exists_of_isObject hobj
      dsimp only
      unfold mergeMember
      split
      · next defaults =>
        refine ⟨⟨h.spelled.assign _ _, fun m hm => ?_⟩, fun name => ?_⟩
        · obtain ⟨m', hm', heq⟩ := List.mem_map.mp ((assign_map_key _ _ _) ▸ List.mem_map_of_mem (f := Prod.fst) hm)
          rw [← heq]
          exact h.names m' hm'
        · rw [h.spelled.fieldOf_assign (List.mem_map_of_mem (f := Prod.fst) hmem)]
          dsimp only
          rw [hspelling]
          split
          · next hname => rw [← hname, hown, mergedValue_objects]
          · rfl
      · next hval =>
        refine hsame (mergedValue_of_leaf (.inr ?_))
        cases hobj' : isObject value with
        | false => rfl
        | true =>
          obtain ⟨members, rfl⟩ := exists_of_isObject hobj'
          exact absurd rfl (hval members)

theorem fieldOf_cons (m : Member) (object : JsonObject) (name : Bytes) :
    fieldOf (m :: object) name = if normalizeObjectKey m.1 = name then some m.2 else fieldOf object name := by
  unfold fieldOf
  by_cases hname : normalizeObjectKey m.1 = name
  · have hbeq : (normalizeObjectKey m.1 == name) = true := beq_iff_eq.mpr hname
    simp only [List.find?_cons, hbeq, map_some, if_pos hname]
  · have hbeq : (normalizeObjectKey m.1 == name) = false := beq_eq_false_iff_ne.mpr hname
    simp only [List.find?_cons, hbeq, if_neg hname]

theorem mergeObjectDefaults_level (hnms : Coherent names) (ht : Level names target) (hd : Level names defaults) :
    Level names (mergeObjectDefaults target defaults) ∧
      ∀ name, fieldOf (mergeObjectDefaults target defaults) name = mergedValue (fieldOf target name) (fieldOf defaults name) := by
  induction defaults generalizing target with
  | nil =>
    unfold mergeObjectDefaults
    exact ⟨ht, fun name => (mergedValue_none_right _).symm⟩
  | cons entry defaults ih =>
    obtain ⟨key, value⟩ := entry
    have hkey : key ∈ names := hd.names _ mem_cons_self
    obtain ⟨hhead, hspelled⟩ := nodup_cons.mp hd.spelled
    have hrest : Level names defaults := ⟨hspelled, fun m hm => hd.names m (mem_cons_of_mem _ hm)⟩
    obtain ⟨hent, hfld⟩ := mergeEntry_level hnms ht hkey value
    unfold mergeObjectDefaults
    obtain ⟨hlevel, hmerg⟩ := ih hent hrest
    refine ⟨hlevel, fun name => ?_⟩
    rw [hmerg, hfld, fieldOf_cons]
    by_cases hname : normalizeObjectKey key = name
    · have hnone : fieldOf defaults name = none := by
        refine fieldOf_eq_none.mpr fun m hm heq => hhead ?_
        exact List.mem_map.mpr ⟨m, hm, heq.trans hname.symm⟩
      rw [if_pos hname, if_pos hname, hnone, mergedValue_none_right]
    · rw [if_neg hname, if_neg hname]

/-! ### What a merged object composes -/

/-- The object and all objects in its fields are of one level. -/
inductive Clean (names : Set Bytes) : JsonValue → Prop
  | leaf {v : JsonValue} (h : isObject v = false) : Clean names v
  | object {members : JsonObject} (level : Level names members) (values : ∀ m ∈ members, Clean names m.2) :
    Clean names (.object members)

theorem Clean.level {members : JsonObject} (h : Clean names (.object members)) : Level names members := by
  cases h with
  | leaf h => cases h
  | object level values => exact level

theorem Clean.at_field {members : JsonObject} (h : Clean names (.object members)) (hfld : fieldOf members name = some value) :
    Clean names value := by
  obtain ⟨key, hmem, -⟩ := exists_of_fieldOf hfld
  cases h with
  | leaf h => cases h
  | object level values => exact values (key, value) hmem

theorem Clean.mergeObjectDefaults (hnms : Coherent names) (ht : Clean names (.object target)) (hd : Clean names (.object defaults)) :
    Clean names (.object (mergeObjectDefaults target defaults)) := by
  generalize hv : JsonValue.object target = v at ht
  induction ht generalizing target defaults with
  | leaf h =>
    subst hv
    cases h
  | object level values ih =>
    obtain rfl := JsonValue.object.inj hv
    obtain ⟨hlevel, hfld⟩ := mergeObjectDefaults_level hnms level hd.level
    refine .object hlevel fun m hm => ?_
    have hm : some m.2 = _ := (hlevel.spelled.fieldOf_eq_some.mpr ⟨m.1, hm, rfl⟩).symm.trans (hfld _)
    cases hown : fieldOf target (normalizeObjectKey m.1) with
    | none =>
      rw [hown, mergedValue_none_left] at hm
      exact hd.at_field hm.symm
    | some own =>
      obtain ⟨key, hmem, -⟩ := exists_of_fieldOf hown
      rw [hown] at hm
      cases hdef : fieldOf defaults (normalizeObjectKey m.1) with
      | none =>
        rw [hdef, mergedValue_none_right] at hm
        rw [some.inj hm]
        exact values (key, own) hmem
      | some value =>
        rw [hdef] at hm
        by_cases hleaf : isObject own = false ∨ isObject value = false
        · rw [mergedValue_of_leaf hleaf] at hm
          rw [some.inj hm]
          exact values (key, own) hmem
        · obtain ⟨hown', hval⟩ := not_or.mp hleaf
          obtain ⟨own, rfl⟩ := exists_of_isObject (Bool.not_eq_false _ ▸ hown')
          obtain ⟨value, rfl⟩ := exists_of_isObject (Bool.not_eq_false _ ▸ hval)
          rw [mergedValue_objects] at hm
          rw [some.inj hm]
          exact ih (key, .object own) hmem (hd.at_field hdef) rfl

theorem clean_mergedValue (hnms : Coherent names) {own default : Option JsonValue} (hown : ∀ v ∈ own, Clean names v)
    (hdef : ∀ v ∈ default, Clean names v) : ∀ v ∈ mergedValue own default, Clean names v := by
  intro v hv
  cases own with
  | none => exact hdef v hv
  | some own =>
    cases default with
    | none =>
      rw [mergedValue_none_right] at hv
      exact hown v hv
    | some value =>
      by_cases hleaf : isObject own = false ∨ isObject value = false
      · rw [mergedValue_of_leaf hleaf] at hv
        exact hown v hv
      · obtain ⟨hown', hval⟩ := not_or.mp hleaf
        obtain ⟨own, rfl⟩ := exists_of_isObject (Bool.not_eq_false _ ▸ hown')
        obtain ⟨value, rfl⟩ := exists_of_isObject (Bool.not_eq_false _ ▸ hval)
        rw [mergedValue_objects] at hv
        cases hv
        exact (hown _ rfl).mergeObjectDefaults hnms (hdef _ rfl)

/-- The values that are there together have at every path what the value has. -/
def Stands (value : Option JsonValue) (values : List JsonValue) : Prop :=
  ∀ path, (value.bind fun v => fielded.valueAt v path) = fielded.composeAt values path

theorem Stands.eq_nil {vs : List JsonValue} (h : Stands none vs) : vs = [] := by
  cases vs with
  | nil => rfl
  | cons v vs => cases h []

theorem stands_toList (value : Option JsonValue) : Stands value value.toList := by
  cases value with
  | none => exact fun path => (Fielded.composeAt_nil path).symm
  | some v => exact Fielded.Composes.refl v

theorem fieldsOf_pair (own defaults : JsonObject) (name : Bytes) :
    fielded.fieldsOf [.object own, .object defaults] name = (fieldOf own name).toList ++ (fieldOf defaults name).toList := by
  rw [Fielded.fieldsOf_cons, Fielded.fieldsOf_cons]
  exact congrArg (_ ++ ·) (append_nil _)

theorem stands_merged (hnms : Coherent names) {own default : Option JsonValue} (hown : ∀ v ∈ own, Clean names v)
    (hdef : ∀ v ∈ default, Clean names v) : Stands (mergedValue own default) (own.toList ++ default.toList) := by
  intro path
  induction path generalizing own default with
  | nil =>
    cases own with
    | none => exact stands_toList default []
    | some own =>
      cases default with
      | none =>
        rw [mergedValue_none_right]
        exact stands_toList (some own) []
      | some value =>
        by_cases hleaf : isObject own = false ∨ isObject value = false
        · rw [mergedValue_of_leaf hleaf]
          rfl
        · obtain ⟨hown', hval⟩ := not_or.mp hleaf
          obtain ⟨own, rfl⟩ := exists_of_isObject (Bool.not_eq_false _ ▸ hown')
          obtain ⟨value, rfl⟩ := exists_of_isObject (Bool.not_eq_false _ ▸ hval)
          rfl
  | cons name path ih =>
    cases own with
    | none => exact stands_toList default (name :: path)
    | some own =>
      cases default with
      | none =>
        rw [mergedValue_none_right]
        exact stands_toList (some own) (name :: path)
      | some value =>
        cases hown' : isObject own with
        | false =>
          rw [mergedValue_of_leaf (.inl hown')]
          exact Fielded.Composes.of_leaf hown' _ (name :: path)
        | true =>
          cases hval : isObject value with
          | false =>
            rw [mergedValue_of_leaf (.inr hval)]
            exact Fielded.Composes.of_leaves (fun w hw => mem_singleton.mp hw ▸ hval) own (name :: path)
          | true =>
            obtain ⟨own, rfl⟩ := exists_of_isObject hown'
            obtain ⟨value, rfl⟩ := exists_of_isObject hval
            have hclean := hown _ rfl
            have hclean' := hdef _ rfl
            have hfld := (mergeObjectDefaults_level hnms hclean.level hclean'.level).2 name
            have hnext : ((mergedValue (fieldOf own name) (fieldOf value name)).bind fun v => fielded.valueAt v path) = _ :=
              ih (fun v hv => hclean.at_field hv) fun v hv => hclean'.at_field hv
            rw [← hfld] at hnext
            rw [mergedValue_objects]
            exact hnext.trans (congrArg (fielded.composeAt · path) (fieldsOf_pair own value name).symm)

theorem Stands.append {own default merged : Option JsonValue} {vs : List JsonValue} (h : Stands own vs)
    (hmerg : Stands merged (own.toList ++ default.toList)) : Stands merged (vs ++ default.toList) := by
  cases own with
  | none =>
    rw [h.eq_nil]
    exact hmerg
  | some v =>
    cases merged with
    | none => cases hmerg.eq_nil
    | some w => exact Fielded.Composes.trans hmerg h

end Brookesia.JsonUi.Merging
