import Brookesia.JsonUi.Merging

/-! # Interaction templates

`apply_interaction_templates` merges the templates that a node refers to into the node, the last one first: what an object of the node
lacks is taken from the template, and the arrays of the template are put before those of the node. -/

namespace Brookesia.JsonUi.Interactions

open Filesystem.Path (Bytes text)
open Data Data.Json List Option
open Keys Merging

def quoted (field : Bytes) : Bytes := text "'" ++ field ++ text "'"

def asObject (error : Bytes) : JsonValue → Except Bytes JsonObject
  | .object members => .ok members
  | _ => .error error

def asArray (error : Bytes) : JsonValue → Except Bytes (List JsonValue)
  | .array items => .ok items
  | _ => .error error

def prependArrayDefaults (field : Bytes) (target defaults : JsonObject) : Except Bytes JsonObject :=
  match findKey defaults field with
  | none => .ok target
  | some (_, value) => do
    let items ← asArray (text "interactionTemplate field " ++ quoted field ++ text " must be an array") value
    match findKey target field with
    | none => .ok (insertOrAssign target field (.array items))
    | some (targetKey, ownValue) => do
      let own ← asArray (text "Node field " ++ quoted field ++ text " must be an array") ownValue
      .ok (insertOrAssign (erase target targetKey) field (.array (items ++ own)))

def mergeField (id field : Bytes) (target interaction : JsonObject) : Except Bytes JsonObject :=
  match findKey interaction field with
  | none => .ok target
  | some (key, value) => do
    let defaults ← asObject
      (text "interactionTemplate " ++ quoted id ++ text " field " ++ quoted field ++ text " must be an object") value
    match findKey target field with
    | none => .ok (insertOrAssign target key value)
    | some (targetKey, ownValue) => do
      let own ← asObject (text "Node field " ++ quoted field ++ text " must be an object") ownValue
      .ok (assign target targetKey (.object (mergeObjectDefaults own defaults)))

def applyInteractionTemplateObject (id : Bytes) (target interaction : JsonObject) : Except Bytes JsonObject := do
  let target ← mergeField id (text "common_props") target interaction
  let target ← mergeField id (text "state_styles") target interaction
  let target ← prependArrayDefaults (text "events") target interaction
  prependArrayDefaults (text "animations") target interaction

/-- `c_str`, which ends at a zero. -/
def cString (s : Bytes) : Bytes := s.takeWhile (· ≠ 0)

def parseStrings (key : Bytes) : List JsonValue → Except Bytes (List Bytes)
  | [] => .ok []
  | .string s :: items => do
    let strings ← parseStrings key items
    return cString s :: strings
  | _ :: _ => .error (text "Field " ++ quoted key ++ text " must only contain strings")

def parseStringArray (object : JsonObject) (key : Bytes) : Except Bytes (List Bytes) :=
  match findChildValue object key with
  | none => .ok []
  | some (.array items) => parseStrings key items
  | some _ => .error (text "Field " ++ quoted key ++ text " must be an array")

def applyReferenced (interactions : Bytes → Option JsonObject) (target : JsonObject) (ref : Bytes) : Except Bytes JsonObject :=
  match interactions ref with
  | none => .error (text "Node references missing interactionTemplate: " ++ ref)
  | some interaction => applyInteractionTemplateObject ref target interaction

def applyInteractionTemplates (source : JsonObject) (interactions : Bytes → Option JsonObject) : Except Bytes JsonObject := do
  let refs ← parseStringArray source (text "interactionRefs")
  refs.reverse.foldlM (applyReferenced interactions) source

variable {names : Set Bytes} {target target' interaction source : JsonObject} {key name field id : Bytes} {value : JsonValue}

/-! ### One field of a node -/

def Plain (field : Bytes) : Prop :=
  normalizeObjectKey field = field ∧ ∀ camel ∈ makeCamelCaseKey field, normalizeObjectKey camel = field

instance (field : Bytes) : Decidable (Plain field) := inferInstanceAs (Decidable (_ ∧ _))

theorem Plain.findKey_eq (hfld : Plain field) (h : Spelled target) :
    findKey target field = target.find? fun m => normalizeObjectKey m.1 == field :=
  h.findKey_eq hfld.1 fun m _ hcamel => hfld.2 m.1 hcamel

/-- A field has a new value, or none; everything else is as before. -/
structure Updated (field : Bytes) (value : Option JsonValue) (target target' : JsonObject) : Prop where
  spelled : Spelled target'
  fields : ∀ name, fieldOf target' name = if field = name then value else fieldOf target name
  others : ∀ key, normalizeObjectKey key ≠ field → find target' key = find target key

theorem Updated.refl (h : Spelled target) : Updated field (fieldOf target field) target target := by
  refine ⟨h, fun name => ?_, fun key _ => rfl⟩
  split
  · next hname => rw [hname]
  · rfl

theorem find_eq_some (h : Spelled target) : find target key = some value ↔ (key, value) ∈ target := by
  unfold find
  constructor
  · intro hlook
    obtain ⟨before, after, rfl, -⟩ := lookup_eq_some_iff.mp hlook
    exact mem_append_right _ mem_cons_self
  · intro hmem
    obtain ⟨before, after, rfl⟩ := append_of_mem hmem
    refine lookup_eq_some_iff.mpr ⟨before, after, rfl, fun m hm => ?_⟩
    rw [bne_iff_ne]
    intro heq
    have hnd : ((before ++ (key, value) :: after).map fun m => normalizeObjectKey m.1).Nodup := h
    rw [map_append] at hnd
    exact (nodup_append.mp hnd).2.2 _ (List.mem_map_of_mem hm) _ (List.mem_map_of_mem mem_cons_self)
      (congrArg normalizeObjectKey heq.symm)

theorem find_congr (h : Spelled target) (h' : Spelled target') (hmem : ∀ value, (key, value) ∈ target' ↔ (key, value) ∈ target) :
    find target' key = find target key :=
  Option.ext fun value => (find_eq_some h').trans ((hmem value).trans (find_eq_some h).symm)

theorem updated_append (h : Spelled target) (hnone : fieldOf target field = none) (hkey : normalizeObjectKey key = field)
    (value : JsonValue) : Updated field (some value) target (insertOrAssign target key value) := by
  have hnot : key ∉ target.map Prod.fst := by
    intro hmem
    obtain ⟨m, hm, rfl⟩ := List.mem_map.mp hmem
    exact fieldOf_eq_none.mp hnone m hm hkey
  have hspelled : Spelled (target ++ [(key, value)]) := h.append_singleton (hkey.symm ▸ hnone) value
  rw [insertOrAssign_of_not_mem hnot]
  refine ⟨hspelled, fun name => ?_, fun k hk => find_congr h hspelled fun v => ?_⟩
  · rw [fieldOf_append_singleton, hkey]
    by_cases hname : field = name
    · rw [if_pos hname, if_pos hname, ← hname, hnone, none_or]
    · rw [if_neg hname, if_neg hname, or_none]
  · rw [mem_append, mem_singleton]
    refine or_iff_left fun heq => hk ?_
    rw [(Prod.mk.inj heq).1, hkey]

theorem updated_assign (h : Spelled target) (hmem : key ∈ target.map Prod.fst) (hkey : normalizeObjectKey key = field)
    (value : JsonValue) : Updated field (some value) target (assign target key value) := by
  refine ⟨h.assign key value, fun name => ?_, fun k hk => find_congr h (h.assign key value) fun v => ?_⟩
  · rw [h.fieldOf_assign hmem, hkey]
  · exact mem_assign_of_ne fun heq => hk (heq ▸ hkey)

theorem updated_erase (h : Spelled target) (hmem : key ∈ target.map Prod.fst) (hkey : normalizeObjectKey key = field) :
    Updated field none target (erase target key) := by
  refine ⟨h.erase hmem, fun name => ?_, fun k hk => find_congr h (h.erase hmem) fun v => ?_⟩
  · rw [h.fieldOf_erase hmem, hkey]
  · exact (h.mem_erase hmem).trans (and_iff_left fun heq : k = key => hk (heq ▸ hkey))

theorem Updated.trans {target'' : JsonObject} {v w : Option JsonValue} (h : Updated field v target target')
    (h' : Updated field w target' target'') : Updated field w target target'' := by
  refine ⟨h'.spelled, fun name => ?_, fun key hkey => (h'.others key hkey).trans (h.others key hkey)⟩
  rw [h'.fields, h.fields]
  split
  · rfl
  · rfl

theorem Plain.cases (hfld : Plain field) (h : Spelled target) :
    (findKey target field = none ∧ fieldOf target field = none) ∨
      ∃ key value, findKey target field = some (key, value) ∧ fieldOf target field = some value ∧
        key ∈ target.map Prod.fst ∧ normalizeObjectKey key = field := by
  rw [hfld.findKey_eq h]
  unfold fieldOf
  cases hfind : target.find? fun m => normalizeObjectKey m.1 == field with
  | none => exact .inl ⟨rfl, rfl⟩
  | some m =>
    have hbeq := List.find?_some hfind
    exact .inr ⟨m.1, m.2, rfl, rfl, List.mem_map_of_mem (mem_of_find?_eq_some hfind), beq_iff_eq.mp hbeq⟩

/-! ### One field of a template -/

def isArray : JsonValue → Bool
  | .array _ => true
  | _ => false

theorem exists_of_isArray {v : JsonValue} (h : isArray v = true) : ∃ items, v = .array items := by
  cases v with
  | array items => exact ⟨items, rfl⟩
  | null => cases h
  | bool b => cases h
  | int n => cases h
  | double q => cases h
  | string s => cases h
  | object members => cases h

def elements : Option JsonValue → List JsonValue
  | some (.array items) => items
  | _ => []

def prependedValue (own : Option JsonValue) : Option JsonValue → Option JsonValue
  | some (.array items) => some (.array (items ++ elements own))
  | _ => own

def Fits (kind : JsonValue → Bool) (own default : Option JsonValue) : Prop :=
  ∀ v ∈ default, kind v = true ∧ ∀ w ∈ own, kind w = true

theorem fits_none (kind : JsonValue → Bool) (own : Option JsonValue) : Fits kind own none := fun v hv =>
  absurd hv (not_mem_none v)

theorem asObject_of_leaf (h : isObject value = false) (error : Bytes) : asObject error value = .error error := by
  unfold asObject
  split
  · cases h
  · rfl

theorem asArray_of_not_isArray (h : isArray value = false) (error : Bytes) : asArray error value = .error error := by
  unfold asArray
  split
  · cases h
  · rfl

/-- The field gets a new value where the kinds fit, and otherwise there is an error. -/
def Applied (kind : JsonValue → Bool) (field : Bytes) (value : Option JsonValue) (target interaction : JsonObject)
    (result : Except Bytes JsonObject) : Prop :=
  (¬Fits kind (fieldOf target field) (fieldOf interaction field) ∧ ∃ e, result = .error e) ∨
    Fits kind (fieldOf target field) (fieldOf interaction field) ∧
      ∃ target', result = .ok target' ∧ Updated field value target target'

variable {kind : JsonValue → Bool}

theorem not_fits_of_default (h : kind value = false) (own : Option JsonValue) : ¬Fits kind own (some value) :=
  fun hfits => Bool.false_ne_true (h.symm.trans (hfits value rfl).1)

theorem not_fits_of_own {own : JsonValue} (h : kind own = false) (value : JsonValue) :
    ¬Fits kind (some own) (some value) := fun hfits => Bool.false_ne_true (h.symm.trans ((hfits value rfl).2 own rfl))

theorem fits_of_default (h : kind value = true) : Fits kind none (some value) := fun _ hv =>
  ⟨some.inj hv ▸ h, fun w hw => absurd hw (not_mem_none w)⟩

theorem fits_of_both {own : JsonValue} (hown : kind own = true) (h : kind value = true) :
    Fits kind (some own) (some value) := fun _ hv => ⟨some.inj hv ▸ h, fun _ hw => some.inj hw ▸ hown⟩

theorem mergeField_applied (hfld : Plain field) (ht : Spelled target) (hi : Spelled interaction) (id : Bytes) :
    Applied isObject field (mergedValue (fieldOf target field) (fieldOf interaction field)) target interaction
      (mergeField id field target interaction) := by
  unfold Applied mergeField
  rcases hfld.cases hi with ⟨hfind, hval⟩ | ⟨key, value, hfind, hval, -, hkey⟩
  · rw [hfind, hval]
    refine .inr ⟨fits_none _ _, target, rfl, ?_⟩
    rw [mergedValue_none_right]
    exact .refl ht
  rw [hfind, hval]
  dsimp only
  cases hobj : isObject value with
  | false =>
    rw [asObject_of_leaf hobj]
    exact .inl ⟨not_fits_of_default hobj _, _, rfl⟩
  | true =>
    obtain ⟨defaults, rfl⟩ := exists_of_isObject hobj
    rcases hfld.cases ht with ⟨hfind, hown⟩ | ⟨targetKey, own, hfind, hown, hmem, htkey⟩
    · rw [hfind, hown]
      exact .inr ⟨fits_of_default hobj, _, rfl, updated_append ht hown hkey _⟩
    · rw [hfind, hown]
      cases hobj' : isObject own with
      | false =>
        refine .inl ⟨not_fits_of_own hobj' _, text "Node field " ++ quoted field ++ text " must be an object", ?_⟩
        exact congrArg (· >>= fun own => .ok (assign target targetKey (.object (mergeObjectDefaults own defaults))))
          (asObject_of_leaf hobj' _)
      | true =>
        obtain ⟨own, rfl⟩ := exists_of_isObject hobj'
        exact .inr ⟨fits_of_both hobj' hobj, _, rfl, updated_assign ht hmem htkey _⟩

theorem prependArrayDefaults_applied (hfld : Plain field) (ht : Spelled target) (hi : Spelled interaction) :
    Applied isArray field (prependedValue (fieldOf target field) (fieldOf interaction field)) target interaction
      (prependArrayDefaults field target interaction) := by
  unfold Applied prependArrayDefaults
  rcases hfld.cases hi with ⟨hfind, hval⟩ | ⟨key, value, hfind, hval, -, -⟩
  · rw [hfind, hval]
    exact .inr ⟨fits_none _ _, target, rfl, .refl ht⟩
  rw [hfind, hval]
  dsimp only
  cases harray : isArray value with
  | false =>
    rw [asArray_of_not_isArray harray]
    exact .inl ⟨not_fits_of_default harray _, _, rfl⟩
  | true =>
    obtain ⟨items, rfl⟩ := exists_of_isArray harray
    rcases hfld.cases ht with ⟨hfind, hown⟩ | ⟨targetKey, own, hfind, hown, hmem, htkey⟩
    · rw [hfind, hown]
      have hitems : prependedValue none (some (.array items)) = some (.array items) := by
        show some (JsonValue.array (items ++ [])) = _
        rw [append_nil]
      rw [hitems]
      exact .inr ⟨fits_of_default harray, _, rfl, updated_append ht hown hfld.1 _⟩
    · rw [hfind, hown]
      cases harray' : isArray own with
      | false =>
        refine .inl ⟨not_fits_of_own harray' _, text "Node field " ++ quoted field ++ text " must be an array", ?_⟩
        exact congrArg (· >>= fun own => .ok (insertOrAssign (erase target targetKey) field (.array (items ++ own))))
          (asArray_of_not_isArray harray' _)
      | true =>
        obtain ⟨own, rfl⟩ := exists_of_isArray harray'
        have hers := updated_erase ht hmem htkey
        have hnone : fieldOf (erase target targetKey) field = none := by rw [hers.fields, if_pos rfl]
        exact .inr ⟨fits_of_both harray' harray, _, rfl, hers.trans (updated_append hers.spelled hnone hfld.1 _)⟩

/-! ### One template -/

def objectFields : List Bytes := [text "common_props", text "state_styles"]

def arrayFields : List Bytes := [text "events", text "animations"]

/-- Each field that the template defines is of its kind, and so is that of the node. -/
structure TemplateFits (target interaction : JsonObject) : Prop where
  objects : ∀ field ∈ objectFields, Fits isObject (fieldOf target field) (fieldOf interaction field)
  arrays : ∀ field ∈ arrayFields, Fits isArray (fieldOf target field) (fieldOf interaction field)

structure TemplateApplied (interaction target target' : JsonObject) : Prop where
  spelled : Spelled target'
  objects : ∀ field ∈ objectFields, fieldOf target' field = mergedValue (fieldOf target field) (fieldOf interaction field)
  arrays : ∀ field ∈ arrayFields, fieldOf target' field = prependedValue (fieldOf target field) (fieldOf interaction field)
  others : ∀ key, normalizeObjectKey key ∉ objectFields ++ arrayFields → find target' key = find target key

theorem Applied.bind {value : Option JsonValue} {result : Except Bytes JsonObject}
    (h : Applied kind field value target interaction result) (next : JsonObject → Except Bytes JsonObject) :
    (¬Fits kind (fieldOf target field) (fieldOf interaction field) ∧ ∃ e, result >>= next = .error e) ∨
      Fits kind (fieldOf target field) (fieldOf interaction field) ∧
        ∃ target', Updated field value target target' ∧ result >>= next = next target' := by
  rcases h with ⟨hnot, e, rfl⟩ | ⟨hfits, target', rfl, hupdated⟩
  · exact .inl ⟨hnot, e, rfl⟩
  · exact .inr ⟨hfits, target', hupdated, rfl⟩

theorem Updated.other {value : Option JsonValue} (h : Updated field value target target') (hne : field ≠ name) :
    fieldOf target' name = fieldOf target name := (h.fields name).trans (if_neg hne)

theorem Updated.self {value : Option JsonValue} (h : Updated field value target target') : fieldOf target' field = value :=
  (h.fields field).trans (if_pos rfl)

theorem applyInteractionTemplateObject_applied (ht : Spelled target) (hi : Spelled interaction) (id : Bytes) :
    (¬TemplateFits target interaction ∧ ∃ e, applyInteractionTemplateObject id target interaction = .error e) ∨
      TemplateFits target interaction ∧
        ∃ target', applyInteractionTemplateObject id target interaction = .ok target' ∧ TemplateApplied interaction target target' := by
  have hmem : text "common_props" ∈ objectFields ∧ text "state_styles" ∈ objectFields ∧ text "events" ∈ arrayFields ∧
      text "animations" ∈ arrayFields := by decide +kernel
  have hplain : Plain (text "common_props") ∧ Plain (text "state_styles") ∧ Plain (text "events") ∧ Plain (text "animations") := by
    decide +kernel
  have hne : (text "common_props" ≠ text "state_styles" ∧ text "common_props" ≠ text "events" ∧
      text "common_props" ≠ text "animations") ∧ (text "state_styles" ≠ text "events" ∧ text "state_styles" ≠ text "animations" ∧
        text "state_styles" ≠ text "common_props") ∧ (text "events" ≠ text "animations" ∧ text "events" ≠ text "common_props" ∧
          text "events" ≠ text "state_styles") ∧ (text "animations" ≠ text "common_props" ∧
            text "animations" ≠ text "state_styles" ∧ text "animations" ≠ text "events") := by
    decide +kernel
  obtain ⟨hmem₁, hmem₂, hmem₃, hmem₄⟩ := hmem
  obtain ⟨hplain₁, hplain₂, hplain₃, hplain₄⟩ := hplain
  obtain ⟨⟨h₁₂, h₁₃, h₁₄⟩, ⟨h₂₃, h₂₄, h₂₁⟩, ⟨h₃₄, h₃₁, h₃₂⟩, h₄₁, h₄₂, h₄₃⟩ := hne
  unfold applyInteractionTemplateObject
  rcases (mergeField_applied hplain₁ ht hi id).bind _ with ⟨hnot, herror⟩ | ⟨hfits₁, t₁, hu₁, heq⟩
  · exact .inl ⟨fun hfits => hnot (hfits.objects _ hmem₁), herror⟩
  rw [heq]
  rcases (mergeField_applied hplain₂ hu₁.spelled hi id).bind _ with ⟨hnot, herror⟩ | ⟨hfits₂, t₂, hu₂, heq⟩
  · rw [hu₁.other h₁₂] at hnot
    exact .inl ⟨fun hfits => hnot (hfits.objects _ hmem₂), herror⟩
  rw [heq]
  rw [hu₁.other h₁₂] at hfits₂ hu₂
  rcases (prependArrayDefaults_applied hplain₃ hu₂.spelled hi).bind _ with ⟨hnot, herror⟩ | ⟨hfits₃, t₃, hu₃, heq⟩
  · rw [hu₂.other h₂₃, hu₁.other h₁₃] at hnot
    exact .inl ⟨fun hfits => hnot (hfits.arrays _ hmem₃), herror⟩
  rw [heq]
  rw [hu₂.other h₂₃, hu₁.other h₁₃] at hfits₃ hu₃
  have hlast := prependArrayDefaults_applied hplain₄ hu₃.spelled hi
  unfold Applied at hlast
  rw [hu₃.other h₃₄, hu₂.other h₂₄, hu₁.other h₁₄] at hlast
  rcases hlast with ⟨hnot, herror⟩ | ⟨hfits₄, t₄, heq, hu₄⟩
  · exact .inl ⟨fun hfits => hnot (hfits.arrays _ hmem₄), herror⟩
  refine .inr ⟨⟨?_, ?_⟩, t₄, heq, hu₄.spelled, ?_, ?_, fun key hkey => ?_⟩
  · exact forall_mem_cons.mpr ⟨hfits₁, forall_mem_singleton.mpr hfits₂⟩
  · exact forall_mem_cons.mpr ⟨hfits₃, forall_mem_singleton.mpr hfits₄⟩
  · refine forall_mem_cons.mpr ⟨?_, forall_mem_singleton.mpr ?_⟩
    · rw [hu₄.other h₄₁, hu₃.other h₃₁, hu₂.other h₂₁, hu₁.self]
    · rw [hu₄.other h₄₂, hu₃.other h₃₂, hu₂.self]
  · refine forall_mem_cons.mpr ⟨?_, forall_mem_singleton.mpr hu₄.self⟩
    rw [hu₄.other h₄₃, hu₃.self]
  · have hnot : ∀ field ∈ objectFields ++ arrayFields, normalizeObjectKey key ≠ field :=
      fun field hfld heq => hkey (heq ▸ hfld)
    rw [hu₄.others key (hnot _ (mem_append_right _ hmem₄)), hu₃.others key (hnot _ (mem_append_right _ hmem₃)),
      hu₂.others key (hnot _ (mem_append_left _ hmem₂)), hu₁.others key (hnot _ (mem_append_left _ hmem₁))]

/-! ### All templates -/

/-- The object has no field twice, and the objects that are merged are of one level each. -/
structure WellSpelled (names : Set Bytes) (object : JsonObject) : Prop where
  spelled : Spelled object
  clean : ∀ field ∈ objectFields, ∀ v ∈ fieldOf object field, Clean names v

/-- The elements of all templates and those of the node, if a template has any. -/
def concatenated (field : Bytes) (source : JsonObject) (templates : List JsonObject) : Option JsonValue :=
  if ∀ t ∈ templates, (fieldOf t field).isNone then fieldOf source field
  else some (.array (templates.flatMap (fun t => elements (fieldOf t field)) ++ elements (fieldOf source field)))

/-- The node comes first, then the templates from the last one on; their arrays stand in the order of the references, that of the node
at the end. -/
structure Composed (source : JsonObject) (templates : List JsonObject) (target : JsonObject) : Prop where
  objects : ∀ field ∈ objectFields, ∀ path, fielded.valueAt (.object target) (field :: path) =
    fielded.composeAt ((source :: templates.reverse).map .object) (field :: path)
  arrays : ∀ field ∈ arrayFields, fieldOf target field = concatenated field source templates
  others : ∀ key, normalizeObjectKey key ∉ objectFields ++ arrayFields → find target key = find source key

theorem elements_concatenated (field : Bytes) (source : JsonObject) (templates : List JsonObject) :
    elements (concatenated field source templates) =
      templates.flatMap (fun t => elements (fieldOf t field)) ++ elements (fieldOf source field) := by
  unfold concatenated
  split
  · next hnone =>
    have hemp : templates.flatMap (fun t => elements (fieldOf t field)) = [] := by
      refine flatMap_eq_nil_iff.mpr fun t ht => ?_
      rw [isNone_iff_eq_none.mp (hnone t ht)]
      rfl
    rw [hemp, nil_append]
  · rfl

theorem concatenated_cons {t : JsonObject} {templates : List JsonObject} (harray : ∀ v ∈ fieldOf t field, isArray v = true) :
    concatenated field source (t :: templates) = prependedValue (concatenated field source templates) (fieldOf t field) := by
  cases hfld : fieldOf t field with
  | none =>
    unfold concatenated
    simp only [forall_mem_cons, hfld, isNone_none, true_and, flatMap_cons, elements, nil_append]
    rfl
  | some v =>
    obtain ⟨items, rfl⟩ := exists_of_isArray (harray v hfld)
    have hsome : ¬∀ t' ∈ t :: templates, (fieldOf t' field).isNone := by
      intro hnone
      have hhead := hnone t mem_cons_self
      rw [hfld] at hhead
      cases hhead
    show concatenated field source (t :: templates) = some (.array (items ++ elements (concatenated field source templates)))
    rw [elements_concatenated]
    unfold concatenated
    rw [if_neg hsome, flatMap_cons, hfld, append_assoc]
    rfl

theorem fits_mergedValue {own default default' : Option JsonValue} (h : Fits isObject own default) :
    Fits isObject (mergedValue own default) default' ↔ Fits isObject own default' := by
  cases default with
  | none => rw [mergedValue_none_right]
  | some value =>
    obtain ⟨hval, hown⟩ := h value rfl
    refine forall₂_congr fun v hv => and_congr_right fun _ => iff_of_true (fun w hw => ?_) hown
    cases own with
    | none => exact some.inj hw ▸ hval
    | some own =>
      obtain ⟨own, rfl⟩ := exists_of_isObject (hown own rfl)
      obtain ⟨value, rfl⟩ := exists_of_isObject hval
      cases hw
      rfl

theorem fits_prependedValue {own default default' : Option JsonValue} (h : Fits isArray own default) :
    Fits isArray (prependedValue own default) default' ↔ Fits isArray own default' := by
  cases default with
  | none => exact Iff.rfl
  | some value =>
    obtain ⟨hval, hown⟩ := h value rfl
    obtain ⟨items, rfl⟩ := exists_of_isArray hval
    refine forall₂_congr fun v hv => and_congr_right fun _ => iff_of_true (fun w hw => ?_) hown
    cases hw
    rfl

theorem TemplateApplied.fits_iff (h : TemplateApplied interaction target target') (hfits : TemplateFits target interaction)
    (other : JsonObject) : TemplateFits target' other ↔ TemplateFits target other := by
  constructor
  · rintro ⟨hobjs, harrs⟩
    refine ⟨fun field hfld => ?_, fun field hfld => ?_⟩
    · have hoth := hobjs field hfld
      rw [h.objects field hfld] at hoth
      exact (fits_mergedValue (hfits.objects field hfld)).mp hoth
    · have hoth := harrs field hfld
      rw [h.arrays field hfld] at hoth
      exact (fits_prependedValue (hfits.arrays field hfld)).mp hoth
  · rintro ⟨hobjs, harrs⟩
    refine ⟨fun field hfld => ?_, fun field hfld => ?_⟩
    · rw [h.objects field hfld]
      exact (fits_mergedValue (hfits.objects field hfld)).mpr (hobjs field hfld)
    · rw [h.arrays field hfld]
      exact (fits_prependedValue (hfits.arrays field hfld)).mpr (harrs field hfld)

/-- After some templates, the last one of the list applied last. -/
structure After (names : Set Bytes) (source : JsonObject) (applied : List JsonObject) (target : JsonObject) : Prop where
  spelled : Spelled target
  clean : ∀ field ∈ objectFields, ∀ v ∈ fieldOf target field, Clean names v
  objects : ∀ field ∈ objectFields, Stands (fieldOf target field) (fielded.fieldsOf ((source :: applied).map .object) field)
  arrays : ∀ field ∈ arrayFields, fieldOf target field = concatenated field source applied.reverse
  others : ∀ key, normalizeObjectKey key ∉ objectFields ++ arrayFields → find target key = find source key

theorem After.init (h : WellSpelled names source) : After names source [] source := by
  refine ⟨h.spelled, h.clean, fun field _ => ?_, fun field _ => ?_, fun key _ => rfl⟩
  · have hfields : fielded.fieldsOf ([source].map .object) field = (fieldOf source field).toList :=
      (Fielded.fieldsOf_cons ..).trans (append_nil _)
    rw [hfields]
    exact stands_toList _
  · unfold concatenated
    rw [reverse_nil, if_pos fun t ht => absurd ht not_mem_nil]

theorem After.step (hnms : Coherent names) {applied : List JsonObject} (h : After names source applied target)
    (hi : WellSpelled names interaction) (hfits : TemplateFits target interaction)
    (happ : TemplateApplied interaction target target') : After names source (applied ++ [interaction]) target' := by
  refine ⟨happ.spelled, fun field hfld => ?_, fun field hfld => ?_, fun field hfld => ?_, fun key hkey => ?_⟩
  · rw [happ.objects field hfld]
    exact clean_mergedValue hnms (h.clean field hfld) (hi.clean field hfld)
  · have hfields : fielded.fieldsOf ((source :: (applied ++ [interaction])).map .object) field =
        fielded.fieldsOf ((source :: applied).map .object) field ++ (fieldOf interaction field).toList := by
      rw [← cons_append, map_append, Fielded.fieldsOf_append]
      exact congrArg (_ ++ ·) ((Fielded.fieldsOf_cons ..).trans (append_nil _))
    rw [happ.objects field hfld, hfields]
    exact (h.objects field hfld).append (stands_merged hnms (h.clean field hfld) (hi.clean field hfld))
  · rw [happ.arrays field hfld, h.arrays field hfld, reverse_append, reverse_singleton, singleton_append]
    exact (concatenated_cons fun v hv => (hfits.arrays field hfld v hv).1).symm
  · exact (happ.others key hkey).trans (h.others key hkey)

theorem foldlM_applied (hnms : Coherent names) {interactions : Bytes → Option JsonObject} {refs : List Bytes}
    {templates applied : List JsonObject} (htmpl : refs.map interactions = templates.map some)
    (hall : ∀ t ∈ templates, WellSpelled names t) (h : After names source applied target) :
    ((¬∀ t ∈ templates, TemplateFits target t) ∧ ∃ e, refs.foldlM (applyReferenced interactions) target = .error e) ∨
      (∀ t ∈ templates, TemplateFits target t) ∧
        ∃ target', refs.foldlM (applyReferenced interactions) target = .ok target' ∧
          After names source (applied ++ templates) target' := by
  induction refs generalizing templates applied target with
  | nil =>
    obtain rfl : templates = [] := map_eq_nil_iff.mp htmpl.symm
    refine .inr ⟨fun t ht => absurd ht not_mem_nil, target, rfl, ?_⟩
    rwa [append_nil]
  | cons ref refs ih =>
    cases templates with
    | nil => cases htmpl
    | cons t templates =>
      obtain ⟨hfnd, hrest⟩ := cons.inj htmpl
      obtain ⟨ht, hall⟩ := forall_mem_cons.mp hall
      have hstep : applyReferenced interactions target ref = applyInteractionTemplateObject ref target t := by
        unfold applyReferenced
        rw [hfnd]
      rw [foldlM_cons, hstep]
      rcases applyInteractionTemplateObject_applied h.spelled ht.spelled ref with ⟨hnot, e, heq⟩ | ⟨hfits, target', heq, happ⟩
      · rw [heq]
        exact .inl ⟨fun hfits => hnot (hfits t mem_cons_self), e, rfl⟩
      · rw [heq]
        have hiff : (∀ t' ∈ templates, TemplateFits target' t') ↔ ∀ t' ∈ t :: templates, TemplateFits target t' := by
          rw [forall_mem_cons, and_iff_right hfits]
          exact forall₂_congr fun t' _ => happ.fits_iff hfits t'
        have hnext := ih hrest hall (h.step hnms ht hfits happ)
        rw [hiff, append_assoc, singleton_append] at hnext
        exact hnext

/-- **Interaction templates compose by precedence**: below `commonProps` and `stateStyles` the node decides before the templates, and of
these the last one; the events and animations of the templates stand before those of the node; the rest of the node is as before. The
keys of the objects must be spelled once, and none in the way another field would be. -/
theorem applyInteractionTemplates_composes (hnames : Coherent names) {interactions : Bytes → Option JsonObject} {refs : List Bytes}
    {templates : List JsonObject} (hrefs : parseStringArray source (text "interactionRefs") = .ok refs)
    (htemplates : refs.map interactions = templates.map some) (hsource : WellSpelled names source)
    (hall : ∀ t ∈ templates, WellSpelled names t) :
    ((∃ target, applyInteractionTemplates source interactions = .ok target) ↔ ∀ t ∈ templates, TemplateFits source t) ∧
      ∀ target, applyInteractionTemplates source interactions = .ok target → Composed source templates target := by
  have heq : applyInteractionTemplates source interactions = refs.reverse.foldlM (applyReferenced interactions) source := by
    unfold applyInteractionTemplates
    rw [hrefs]
    rfl
  have htemplates' : refs.reverse.map interactions = templates.reverse.map some := by
    rw [map_reverse, map_reverse, htemplates]
  have hreverse : (∀ t ∈ templates.reverse, TemplateFits source t) ↔ ∀ t ∈ templates, TemplateFits source t :=
    forall_congr' fun t => imp_congr_left mem_reverse
  have hfold := foldlM_applied hnames htemplates' (fun t ht => hall t (mem_reverse.mp ht)) (After.init hsource)
  rw [hreverse, nil_append, ← heq] at hfold
  rcases hfold with ⟨hnot, e, herror⟩ | ⟨hfits, target, hok, hafter⟩
  · rw [herror]
    refine ⟨iff_of_false ?_ hnot, fun target h => ?_⟩
    · rintro ⟨target, h⟩
      cases h
    · cases h
  · rw [hok]
    refine ⟨iff_of_true ⟨target, rfl⟩ hfits, fun target' h => ?_⟩
    cases h
    refine ⟨fun field hfld path => ?_, fun field hfld => ?_, hafter.others⟩
    · exact hafter.objects field hfld path
    · rw [hafter.arrays field hfld, reverse_reverse]

/-! ### A button with two templates -/

def button : JsonObject :=
  [(text "commonProps", .object [(text "pressLock", .bool true)]),
    (text "interactionRefs", .array [.string (text "scale"), .string (text "lock")])]

def scale : JsonObject :=
  [(text "commonProps", .object [(text "pivotX", .int 1), (text "press_lock", .bool false)]), (text "events", .array [.null])]

def lock : JsonObject := [(text "commonProps", .object [(text "pivot_x", .int 2)])]

def twoTemplates (ref : Bytes) : Option JsonObject :=
  if ref = text "scale" then some scale else if ref = text "lock" then some lock else none

def buttonNames : List Bytes := [text "pressLock", text "press_lock", text "pivotX", text "pivot_x"]

theorem clean_of_leaves {names : Set Bytes} {members : JsonObject} (hspelled : Spelled members) (hnms : ∀ m ∈ members, m.1 ∈ names)
    (hleaves : members.all fun m => !isObject m.2) : Clean names (.object members) := by
  refine .object ⟨hspelled, hnms⟩ fun m hm => .leaf ?_
  exact Bool.not_eq_true' _ |>.mp (List.all_eq_true.mp hleaves m hm)

theorem wellSpelled_of_commonProps {names : Set Bytes} {object members : JsonObject} (hspelled : Spelled object)
    (hcommon : fieldOf object (text "common_props") = some (.object members)) (hstyles : (fieldOf object (text "state_styles")).isNone)
    (hclean : Clean names (.object members)) : WellSpelled names object := by
  refine ⟨hspelled, forall_mem_cons.mpr ⟨fun v hv => ?_, forall_mem_singleton.mpr fun v hv => ?_⟩⟩
  · obtain rfl := some.inj (hcommon.symm.trans hv)
    exact hclean
  · rw [isNone_iff_eq_none.mp hstyles] at hv
    cases hv

theorem applyInteractionTemplates_composes_button : ∃ target, applyInteractionTemplates button twoTemplates = .ok target ∧
    Composed button [scale, lock] target := by
  have hcoherent : Coherent {name | name ∈ buttonNames} := by
    have hall : ∀ key ∈ buttonNames, ∀ camel ∈ buttonNames, makeCamelCaseKey (normalizeObjectKey key) = some camel →
        normalizeObjectKey camel = normalizeObjectKey key := by decide +kernel
    exact hall
  have hbutton : WellSpelled {name | name ∈ buttonNames} button := by
    refine wellSpelled_of_commonProps (by decide +kernel) rfl (by decide +kernel) (clean_of_leaves (by decide +kernel) ?_ rfl)
    exact forall_mem_singleton.mpr (by decide +kernel : text "pressLock" ∈ buttonNames)
  have hscale : WellSpelled {name | name ∈ buttonNames} scale := by
    refine wellSpelled_of_commonProps (by decide +kernel) rfl (by decide +kernel) (clean_of_leaves (by decide +kernel) ?_ rfl)
    exact forall_mem_cons.mpr ⟨(by decide +kernel : text "pivotX" ∈ buttonNames),
      forall_mem_singleton.mpr (by decide +kernel : text "press_lock" ∈ buttonNames)⟩
  have hlock : WellSpelled {name | name ∈ buttonNames} lock := by
    refine wellSpelled_of_commonProps (by decide +kernel) rfl (by decide +kernel) (clean_of_leaves (by decide +kernel) ?_ rfl)
    exact forall_mem_singleton.mpr (by decide +kernel : text "pivot_x" ∈ buttonNames)
  have hrefs : parseStringArray button (text "interactionRefs") = .ok [text "scale", text "lock"] := rfl
  have htmpl : [text "scale", text "lock"].map twoTemplates = [scale, lock].map some := rfl
  have hok : (applyInteractionTemplates button twoTemplates).toOption.isSome = true := by decide +kernel
  cases htgt : applyInteractionTemplates button twoTemplates with
  | error e =>
    rw [htgt] at hok
    cases hok
  | ok target =>
    refine ⟨target, rfl, (applyInteractionTemplates_composes hcoherent hrefs htmpl hbutton ?_).2 target htgt⟩
    exact forall_mem_cons.mpr ⟨hscale, forall_mem_singleton.mpr hlock⟩

/-! ### Other keys -/

/-- Objects have the fields of their members, for any naming of keys. -/
def fieldedBy (nm : Bytes → Bytes) : Fielded JsonValue Bytes where
  field v name :=
    match v with
    | .object members => (members.find? fun m => nm m.1 == name).map Prod.snd
    | _ => none
  branches := isObject
  field_eq_none v _ h := by
    cases v with
    | object members => cases h
    | null => rfl
    | bool b => rfl
    | int n => rfl
    | double q => rfl
    | string s => rfl
    | array items => rfl

/-- `commonProps` is composed by precedence, in the fields of the naming. -/
def ComposesBy (nm : Bytes → Bytes) : Prop :=
  ∀ (source : JsonObject) interactions refs (templates : List JsonObject) target,
    parseStringArray source (text "interactionRefs") = .ok refs → refs.map interactions = templates.map some → applyInteractionTemplates source interactions = .ok target →
      ∀ path, (fieldedBy nm).valueAt (.object target) (nm (text "commonProps") :: path) =
        (fieldedBy nm).composeAt ((source :: templates.reverse).map .object) (nm (text "commonProps") :: path)

def withProps (members : JsonObject) : JsonObject := [(text "commonProps", .object members)]

def withTemplate (members : JsonObject) : JsonObject :=
  [(text "commonProps", .object members), (text "interactionRefs", .array [.string (text "grid")])]

/-- `grid2` is not merged into `grid_2` of the node, but it is the other way round. -/
theorem not_composesBy : ¬ ∃ nm, ComposesBy nm := by
  rintro ⟨nm, h⟩
  by_cases hnm : nm (text "grid2") = nm (text "grid_2")
  · have hpath := h (withTemplate [(text "grid_2", .object [])])
      (fun _ => some (withProps [(text "grid2", .object [(text "size", .int 2)])])) [text "grid"]
      [withProps [(text "grid2", .object [(text "size", .int 2)])]]
      (withTemplate [(text "grid_2", .object []), (text "grid2", .object [(text "size", .int 2)])]) rfl rfl rfl
      [nm (text "grid_2"), nm (text "size")]
    simp [Fielded.valueAt, Fielded.composeAt, Fielded.fieldsOf, filterMap_cons, fieldedBy, withTemplate, withProps, isObject,
      hnm] at hpath
  · have hpath := h (withTemplate [(text "grid2", .int 1)]) (fun _ => some (withProps [(text "grid_2", .int 2)])) [text "grid"]
      [withProps [(text "grid_2", .int 2)]] (withTemplate [(text "grid2", .int 1)]) rfl rfl rfl [nm (text "grid_2")]
    simp [Fielded.valueAt, Fielded.composeAt, Fielded.fieldsOf, fieldedBy, withTemplate, withProps, isObject, hnm] at hpath

/-- In no naming of the keys, and not with two spellings of one field in the node. -/
theorem applyInteractionTemplates_grid : (¬ ∃ nm, ComposesBy nm) ∧
    ∃ target, applyInteractionTemplates (withTemplate [(text "pivotX", .object []), (text "pivot_x", .object [])])
      (fun _ => some (withProps [(text "pivot_x", .object [(text "size", .int 2)])])) = .ok target ∧
        ¬Composed (withTemplate [(text "pivotX", .object []), (text "pivot_x", .object [])])
          [withProps [(text "pivot_x", .object [(text "size", .int 2)])]] target := by
  refine ⟨not_composesBy, withTemplate [(text "pivotX", .object []), (text "pivot_x", .object [(text "size", .int 2)])], rfl,
    fun h => ?_⟩
  have hpath := h.objects (text "common_props") (by decide +kernel) [text "pivot_x", text "size"]
  cases hpath

end Brookesia.JsonUi.Interactions
