import Brookesia.Describe.Containers

/-! # What is written is read back

A value is read back from its JSON, whatever the output held before, if no variant in it is a number that an enum of an earlier
alternative takes (`Unshadowed`), and only then. The type is one whose optional values are never null, whose variants have
alternatives with different kinds of JSON values, and whose structs have members with different names (`Distinct`). -/

namespace Brookesia.Describe

open Filesystem.Path AppPackage.Manifest Data Data.Json List Option

/-! ### What is written -/

/-- The JSON of a value is of a kind of its type, and is a number only where the value is an integer. -/
structure Written (j : JsonValue) (kinds : List Kind) (number? : Option ℤ) : Prop where
  kind : kind j ∈ kinds
  number : ∀ i, j = .int i ↔ number? = some i
  exact : ∀ q, j ≠ .double q

theorem Written.of_kind {j : JsonValue} (h : Describe.kind j ≠ .number) : Written j [Describe.kind j] none := by
  refine ⟨mem_singleton_self _, fun i => ⟨fun hint => ?_, fun hnone => absurd hnone.symm (some_ne_none i)⟩, fun q hq => ?_⟩
  · rw [hint] at h
    exact absurd rfl h
  · rw [hq] at h
    exact absurd rfl h

mutual

theorem written : (t : CppType) → (v : t.Val) → t.Named v → Written (describeToJson t v) t.kinds (t.number? v)
  | .bool, _, _ => .of_kind Kind.noConfusion
  | .integer _, v, _ => ⟨mem_singleton_self _, fun i => ⟨fun h => congrArg some (JsonValue.int.inj h), fun h =>
      congrArg JsonValue.int (some.inj h)⟩, fun _ => JsonValue.noConfusion⟩
  | .string, _, _ => .of_kind Kind.noConfusion
  | .monostate, _, _ => .of_kind Kind.noConfusion
  | .optional t, none, _ => by
    have hnull := Written.of_kind (j := .null) Kind.noConfusion
    exact ⟨mem_cons_self, hnull.number, hnull.exact⟩
  | .optional t, some x, hnamed => by
    have hx := written t x hnamed
    exact ⟨mem_cons_of_mem _ hx.kind, hx.number, hx.exact⟩
  | .vector _, _, _ => .of_kind Kind.noConfusion
  | .list _, _, _ => .of_kind Kind.noConfusion
  | .queue _, _, _ => .of_kind Kind.noConfusion
  | .map _ _, _, _ => .of_kind Kind.noConfusion
  | .enum e, v, hnamed => by
    obtain ⟨enumerator, -, -, hname⟩ := EnumType.name?_of_named hnamed
    have hjson : describeToJson (.enum e) v = .string enumerator.1 := by
      unfold describeToJson
      rw [hname]
    rw [hjson]
    exact .of_kind Kind.noConfusion
  | .struct _, _, _ => .of_kind Kind.noConfusion
  | .variant alternatives, v, hnamed => alternatives_written alternatives v hnamed

theorem alternatives_written : (alternatives : Alternatives) → (v : alternatives.Val) → alternatives.Named v →
    Written (alternativeToJson alternatives v) alternatives.kinds (alternatives.number? v)
  | .last t, v, hnamed => written t v hnamed
  | .cons t _, .inl v, hnamed => by
    have hv := written t v hnamed
    exact ⟨mem_append_left _ hv.kind, hv.number, hv.exact⟩
  | .cons _ rest, .inr v, hnamed => by
    have hv := alternatives_written rest v hnamed
    exact ⟨mem_append_right _ hv.kind, hv.number, hv.exact⟩

end

/-! ### What a type refuses -/

def Refuses {α : Type} (reading : Reading α) : Prop := ∃ w, reading = some (false, w)

section Refused

variable {α : Type} {read : JsonValue → Reading α} {j : JsonValue}

theorem refuses_false {w : α} {P : Prop} (hP : P) : Refuses (some (false, w) : Reading α) ↔ P :=
  ⟨fun _ => hP, fun _ => ⟨w, rfl⟩⟩

theorem not_refuses_true {x : α} : ¬ Refuses (some (true, x) : Reading α) := by
  rintro ⟨w, hw⟩
  exact Bool.false_ne_true (congrArg Prod.fst (some.inj hw)).symm

theorem not_refuses_none : ¬ Refuses (none : Reading α) := by
  rintro ⟨w, hw⟩
  exact some_ne_none _ hw.symm

theorem readOptional_of_kind (h : kind j ≠ .null) (w : Option α) :
    (Refuses (readOptional read j w) ↔ Refuses (read j)) ∧
      ∀ x, readOptional read j w = some (true, some x) ↔ read j = some (true, x) := by
  have hne : j ≠ .null := by
    rintro rfl
    exact h rfl
  unfold readOptional
  split
  · exact absurd rfl hne
  · rcases hread : read j with _ | ⟨ok, y⟩
    · exact ⟨iff_of_false not_refuses_none not_refuses_none, fun x =>
        iff_of_false (some_ne_none _).symm (some_ne_none _).symm⟩
    · cases ok with
      | false =>
        refine ⟨iff_of_true ⟨w, rfl⟩ ⟨y, rfl⟩, fun x => iff_of_false (fun heq => ?_) fun heq => ?_⟩
        · exact Bool.false_ne_true (congrArg Prod.fst (some.inj heq))
        · exact Bool.false_ne_true (congrArg Prod.fst (some.inj heq))
      | true =>
        refine ⟨iff_of_false not_refuses_true not_refuses_true, fun x => ⟨fun heq => ?_, fun heq => ?_⟩⟩
        · exact congrArg (fun z => some (true, z)) (some.inj (congrArg Prod.snd (some.inj heq)))
        · exact congrArg (fun z => some (true, some z)) (congrArg Prod.snd (some.inj heq))

theorem refuses_readEnum {e : EnumType} {w : e.Val} (hkind : kind j ≠ .string) (hexact : ∀ q, j ≠ .double q) :
    Refuses (readEnum e j w) ↔ ∀ i, j = .int i → e.takesNumber i = false := by
  cases j with
  | string name => exact absurd rfl hkind
  | double q => exact absurd rfl (hexact q)
  | int i =>
    have hall : (∀ i', JsonValue.int i = .int i' → e.takesNumber i' = false) ↔ e.takesNumber i = false :=
      ⟨fun h => h i rfl, fun h i' heq => JsonValue.int.inj heq ▸ h⟩
    rw [hall]
    show Refuses (readEnumNumber e i w) ↔ _
    unfold readEnumNumber EnumType.takesNumber
    rcases e.underlying.valueTo i with _ | number
    · exact iff_of_false not_refuses_none fun h => Bool.false_ne_true h.symm
    · dsimp only [map_some]
      unfold EnumType.describeNumberToEnum
      split
      · next hfind =>
        refine iff_of_true ⟨w, rfl⟩ (List.any_eq_false.mpr fun enumerator hmem => ?_)
        exact List.find?_eq_none.mp hfind enumerator (mem_reverse.mpr hmem)
      · next enumerator hfind =>
        refine iff_of_false not_refuses_true fun hany => ?_
        have hmem := mem_reverse.mp (mem_of_find?_eq_some hfind)
        have hval := List.find?_some hfind
        exact List.any_eq_false.mp hany enumerator hmem hval
  | null => exact refuses_false fun i h => JsonValue.noConfusion h
  | bool b => exact refuses_false fun i h => JsonValue.noConfusion h
  | array items => exact refuses_false fun i h => JsonValue.noConfusion h
  | object members => exact refuses_false fun i h => JsonValue.noConfusion h

theorem readVariant_eq (first : Option (Option α)) (v w : α) : readVariant first w = some (true, v) ↔ first = some (some v) := by
  rcases first with _ | _ | x
  · exact iff_of_false (some_ne_none _).symm (some_ne_none _).symm
  · refine iff_of_false (fun h => ?_) fun h => ?_
    · exact Bool.false_ne_true (congrArg Prod.fst (some.inj h))
    · exact some_ne_none _ (some.inj h).symm
  · refine ⟨fun h => ?_, fun h => ?_⟩
    · exact congrArg (fun z => some (some z)) (congrArg Prod.snd (some.inj h))
    · exact congrArg (fun z => some (true, z)) (some.inj (some.inj h))

theorem readLastAlternative_eq_none (last : Reading α) : readLastAlternative last = some none ↔ Refuses last := by
  rcases last with _ | ⟨ok, x⟩
  · exact iff_of_false (some_ne_none _).symm not_refuses_none
  · cases ok with
    | false => exact iff_of_true rfl ⟨x, rfl⟩
    | true => exact iff_of_false (fun h => some_ne_none _ (some.inj h)) not_refuses_true

theorem readLastAlternative_eq_some (last : Reading α) (v : α) :
    readLastAlternative last = some (some v) ↔ last = some (true, v) := by
  rcases last with _ | ⟨ok, x⟩
  · exact iff_of_false (some_ne_none _).symm (some_ne_none _).symm
  · cases ok with
    | false =>
      refine iff_of_false (fun h => ?_) fun h => ?_
      · exact some_ne_none _ (some.inj h).symm
      · exact Bool.false_ne_true (congrArg Prod.fst (some.inj h))
    | true =>
      refine ⟨fun h => ?_, fun h => ?_⟩
      · exact congrArg (fun z => some (true, z)) (some.inj (some.inj h))
      · exact congrArg (fun z => some (some z)) (congrArg Prod.snd (some.inj h))

section Alternative

variable {β : Type} (first : Reading α) (rest : Option (Option β))

theorem readAlternative_eq_none : readAlternative first rest = some none ↔ Refuses first ∧ rest = some none := by
  rcases first with _ | ⟨ok, x⟩
  · exact iff_of_false (some_ne_none _).symm fun h => not_refuses_none h.1
  · cases ok with
    | false =>
      have hrest : rest.map (Option.map (Sum.inr : β → α ⊕ β)) = some none ↔ rest = some none := by
        rcases rest with _ | _ | y
        · exact iff_of_false (some_ne_none _).symm (some_ne_none _).symm
        · exact iff_of_true rfl rfl
        · exact iff_of_false (fun h => some_ne_none _ (some.inj h)) fun h => some_ne_none _ (some.inj h)
      exact hrest.trans ⟨fun h => ⟨⟨x, rfl⟩, h⟩, fun h => h.2⟩
    | true => exact iff_of_false (fun h => some_ne_none _ (some.inj h)) fun h => not_refuses_true h.1

theorem readAlternative_eq_inl (v : α) : readAlternative first rest = some (some (.inl v)) ↔ first = some (true, v) := by
  rcases first with _ | ⟨ok, x⟩
  · exact iff_of_false (some_ne_none _).symm (some_ne_none _).symm
  · cases ok with
    | false =>
      refine iff_of_false (fun h => ?_) fun h => Bool.false_ne_true (congrArg Prod.fst (some.inj h))
      have h : rest.map (Option.map (Sum.inr : β → α ⊕ β)) = some (some (.inl v)) := h
      rcases rest with _ | _ | y
      · exact some_ne_none _ h.symm
      · exact some_ne_none _ (some.inj h).symm
      · exact Sum.inr_ne_inl (some.inj (some.inj h))
    | true =>
      refine ⟨fun h => ?_, fun h => ?_⟩
      · exact congrArg (fun z => some (true, z)) (Sum.inl.inj (some.inj (some.inj h)))
      · exact congrArg (fun z => some (some (Sum.inl z))) (congrArg Prod.snd (some.inj h))

theorem readAlternative_eq_inr (v : β) :
    readAlternative first rest = some (some (.inr v)) ↔ Refuses first ∧ rest = some (some v) := by
  rcases first with _ | ⟨ok, x⟩
  · exact iff_of_false (some_ne_none _).symm fun h => not_refuses_none h.1
  · cases ok with
    | false =>
      have hrest : rest.map (Option.map (Sum.inr : β → α ⊕ β)) = some (some (.inr v)) ↔ rest = some (some v) := by
        rcases rest with _ | _ | y
        · exact iff_of_false (some_ne_none _).symm (some_ne_none _).symm
        · exact iff_of_false (fun h => some_ne_none _ (some.inj h).symm) fun h => some_ne_none _ (some.inj h).symm
        · refine ⟨fun h => ?_, fun h => ?_⟩
          · exact congrArg (fun z => some (some z)) (Sum.inr.inj (some.inj (some.inj h)))
          · exact congrArg (fun z => some (some (Sum.inr z))) (some.inj (some.inj h))
      exact hrest.trans ⟨fun h => ⟨⟨x, rfl⟩, h⟩, fun h => h.2⟩
    | true =>
      refine iff_of_false (fun h => ?_) fun h => not_refuses_true h.1
      exact Sum.inl_ne_inr (some.inj (some.inj h))

end Alternative

end Refused

variable {initial : Initial}

/-- A type that takes no number refuses what is not of its kinds. -/
theorem refuses_of {α : Type} {reading : Reading α} {w : α} (h : reading = some (false, w)) (j : JsonValue) :
    Refuses reading ↔ ∀ i, j = .int i → false = false :=
  iff_of_true ⟨w, h⟩ fun _ _ => rfl

theorem readArray_of_kind {α : Type} {read : JsonValue → Reading α} {j : JsonValue} (h : kind j ∉ [Kind.array]) (w : List α) :
    readArray read j w = some (false, w) := by
  cases j with
  | array items => exact absurd (mem_singleton_self _) h
  | _ => rfl

theorem readMap_of_kind {K V : Type} [LinearOrder K] {parse : Bytes → Option K} {read : JsonValue → Reading V} {j : JsonValue}
    (h : kind j ∉ [Kind.object]) (w : SortedMap K V) : readMap parse read j w = some (false, w) := by
  cases j with
  | object members => exact absurd (mem_singleton_self _) h
  | _ => rfl

theorem readInteger_of_kind {t : IntType} {j : JsonValue} (h : kind j ∉ [Kind.number]) (w : t.Val) :
    readInteger t j w = some (false, w) := by
  cases j with
  | int i => exact absurd (mem_singleton_self _) h
  | double q => exact absurd (mem_singleton_self _) h
  | _ => rfl

theorem readInteger_int {t : IntType} (v w : t.Val) : readInteger t (.int v.1) w = some (true, v) := by
  have hin : ¬ (t.width ≠ .w64 ∧ (v.1 < t.min ∨ t.max < v.1)) := by
    have hlow := v.2.1
    have hhigh := v.2.2
    rintro ⟨-, hout⟩
    omega
  unfold readInteger
  dsimp only
  rw [if_neg hin, IntType.cast_val]

mutual

theorem refuses_iff : (t : CppType) → (j : JsonValue) → kind j ∉ t.kinds → (∀ q, j ≠ .double q) → (w : t.Val) →
    (Refuses (describeFromJson initial t j w) ↔ ∀ i, j = .int i → t.takesNumber i = false)
  | .bool, j, hkind, _, w => by
    cases j with
    | bool b => exact absurd (mem_singleton_self _) hkind
    | _ => exact refuses_of rfl _
  | .integer t, j, hkind, _, w => refuses_of (readInteger_of_kind hkind w) j
  | .string, j, hkind, _, w => by
    cases j with
    | string s => exact absurd (mem_singleton_self _) hkind
    | _ => exact refuses_of rfl _
  | .monostate, j, hkind, _, w => by
    cases j with
    | null => exact absurd (mem_singleton_self _) hkind
    | _ => exact refuses_of rfl _
  | .optional t, j, hkind, hexact, w => by
    obtain ⟨hnull, hkind⟩ := not_or.mp (fun h => hkind (mem_cons.mpr h))
    exact (readOptional_of_kind hnull w).1.trans (refuses_iff t j hkind hexact (initial.declared t))
  | .vector _, j, hkind, _, w => refuses_of (readArray_of_kind hkind w) j
  | .list _, j, hkind, _, w => refuses_of (readArray_of_kind hkind w) j
  | .queue _, j, hkind, _, w => refuses_of (readArray_of_kind hkind w) j
  | .map _ _, j, hkind, _, w => refuses_of (readMap_of_kind hkind w) j
  | .enum _, _, hkind, hexact, _ => refuses_readEnum (fun h => hkind (mem_singleton.mpr h)) hexact
  | .struct _, j, hkind, _, w => by
    cases j with
    | object object => exact absurd (mem_singleton_self _) hkind
    | _ => exact refuses_of rfl _
  | .variant alternatives, j, hkind, hexact, w => by
    refine Iff.trans ?_ (readAlternatives_eq_none alternatives j hkind hexact)
    show Refuses (readVariant (readAlternatives initial alternatives j) w) ↔ _
    rcases readAlternatives initial alternatives j with _ | _ | v
    · exact iff_of_false not_refuses_none (some_ne_none _).symm
    · exact iff_of_true ⟨w, rfl⟩ rfl
    · exact iff_of_false not_refuses_true fun h => some_ne_none _ (some.inj h)

theorem readAlternatives_eq_none : (alternatives : Alternatives) → (j : JsonValue) → kind j ∉ alternatives.kinds →
    (∀ q, j ≠ .double q) →
    (readAlternatives initial alternatives j = some none ↔ ∀ i, j = .int i → alternatives.takesNumber i = false)
  | .last t, j, hkind, hexact =>
    (readLastAlternative_eq_none _).trans (refuses_iff t j hkind hexact (initial.declared t))
  | .cons t rest, j, hkind, hexact => by
    obtain ⟨hhead, hrest⟩ := not_or.mp (fun h => hkind (mem_append.mpr h))
    have hfst := refuses_iff t j hhead hexact (initial.declared t)
    have hoths := readAlternatives_eq_none rest j hrest hexact
    refine (readAlternative_eq_none _ _).trans ((and_congr hfst hoths).trans ⟨fun h i hi => ?_, fun h => ⟨?_, ?_⟩⟩)
    · exact Bool.or_eq_false_iff.mpr ⟨h.1 i hi, h.2 i hi⟩
    · exact fun i hi => (Bool.or_eq_false_iff.mp (h i hi)).1
    · exact fun i hi => (Bool.or_eq_false_iff.mp (h i hi)).2

end

/-! ### What is read -/

def Holds (object : JsonObject) : (members : Members) → members.Val → Prop
  | .nil, _ => True
  | .cons name t rest, v => find object name = some (describeToJson t v.1) ∧ Holds object rest v.2

theorem find_membersToJson {name : Bytes} : (members : Members) → (v : members.Val) → (object : JsonObject) → name ∉ members.names →
    find (membersToJson members v object) name = find object name
  | .nil, _, _, _ => rfl
  | .cons other t rest, v, object, hname => by
    obtain ⟨hne, hrest⟩ := not_or.mp (fun h => hname (mem_cons.mpr h))
    have hfind := find_membersToJson rest v.2 (jsonObjectSet object other (describeToJson t v.1)) hrest
    exact hfind.trans (find_jsonObjectSet_of_ne hne _ _)

theorem holds_membersToJson : (members : Members) → members.Distinct → (v : members.Val) → (object : JsonObject) →
    Holds (membersToJson members v object) members v
  | .nil, _, _, _ => trivial
  | .cons name t rest, hdist, v, object => by
    refine ⟨?_, holds_membersToJson rest hdist.2.2 v.2 _⟩
    exact (find_membersToJson rest v.2 _ hdist.1).trans (find_jsonObjectSet_self _ _ _)

theorem readBoth_eq {α β : Type} {first : Reading α} {second : Reading β} {v : α × β} :
    readBoth first second = some (true, v) ↔ first = some (true, v.1) ∧ second = some (true, v.2) := by
  rcases first with _ | ⟨ok, x⟩
  · exact iff_of_false (some_ne_none _).symm fun h => some_ne_none _ h.1.symm
  · rcases second with _ | ⟨ok', y⟩
    · exact iff_of_false (some_ne_none _).symm fun h => some_ne_none _ h.2.symm
    · refine ⟨fun h => ?_, fun h => ?_⟩
      · have hboth : (ok && ok', (x, y)) = (true, v) := some.inj h
        obtain ⟨rfl, rfl⟩ := (Bool.and_eq_true _ _).mp (congrArg Prod.fst hboth)
        obtain rfl : (x, y) = v := congrArg Prod.snd hboth
        exact ⟨rfl, rfl⟩
      · have hx := some.inj h.1
        have hy := some.inj h.2
        rw [hx, hy]
        rfl

mutual

/-- A value is read back exactly if no variant in it is a number that an enum of an earlier alternative takes. -/
theorem reads_iff : (t : CppType) → t.Distinct → (v : t.Val) → t.Named v → (w : t.Val) →
    (describeFromJson initial t (describeToJson t v) w = some (true, v) ↔ t.Unshadowed v)
  | .bool, _, _, _, _ => iff_of_true rfl trivial
  | .integer t, _, v, _, w => iff_of_true (readInteger_int v w) trivial
  | .string, _, _, _, _ => iff_of_true rfl trivial
  | .monostate, _, _, _, _ => iff_of_true rfl trivial
  | .optional _, _, none, _, _ => iff_of_true rfl trivial
  | .optional t, hdist, some x, hnamed, w => by
    have hkind : kind (describeToJson t x) ≠ .null := fun h => hdist.1 (h ▸ (written t x hnamed).kind)
    exact ((readOptional_of_kind hkind w).2 x).trans (reads_iff t hdist.2 x hnamed (initial.declared t))
  | .vector t, hdist, v, hnamed, _ =>
    readArray_iff.trans (forall₂_congr fun x hx => reads_iff t hdist x (hnamed x hx) (initial.declared t))
  | .list t, hdist, v, hnamed, _ =>
    readArray_iff.trans (forall₂_congr fun x hx => reads_iff t hdist x (hnamed x hx) (initial.declared t))
  | .queue t, hdist, v, hnamed, _ =>
    readArray_iff.trans (forall₂_congr fun x hx => reads_iff t hdist x (hnamed x hx) (initial.declared t))
  | .map k t, hdist, m, hnamed, w => by
    have hparse : ∀ e ∈ m.entries, k.parse (initial.declaredKey k) (k.text e.1) = some e.1 := fun e he =>
      k.parse_text _ e.1 (hnamed e he).1
    have hobj : describeToJson (.map k t) m = .object (m.entries.map fun e => (k.text e.1, describeToJson t e.2)) :=
      congrArg JsonValue.object (foldl_entries hparse)
    rw [hobj]
    refine (readMap_iff hparse).trans (forall₂_congr fun e he => ?_)
    exact reads_iff t hdist e.2 (hnamed e he).2 (initial.declared t)
  | .enum e, _, v, hnamed, w => by
    obtain ⟨enumerator, hmem, hval, hname⟩ := EnumType.name?_of_named hnamed
    have hjson : describeToJson (.enum e) v = .string enumerator.1 := by
      unfold describeToJson
      rw [hname]
    have hread : describeFromJson initial (.enum e) (.string enumerator.1) w = some (true, enumerator.2) :=
      congrArg some (EnumType.describeStringToEnum_name hmem w)
    rw [hjson]
    exact iff_of_true (hval ▸ hread) trivial
  | .struct members, hdist, v, hnamed, _ =>
    readMembers_iff members hdist v hnamed _ (holds_membersToJson members hdist v []) _
  | .variant alternatives, hdist, v, hnamed, w =>
    (readVariant_eq _ _ _).trans (readAlternatives_iff alternatives hdist v hnamed)

theorem readMembers_iff : (members : Members) → members.Distinct → (v : members.Val) → members.Named v → (object : JsonObject) →
    Holds object members v → (w : members.Val) →
    (readMembers initial members object w = some (true, v) ↔ members.Unshadowed v)
  | .nil, _, _, _, _, _, _ => iff_of_true rfl trivial
  | .cons name t rest, hdist, v, hnamed, object, hholds, w => by
    have hfst := reads_iff t hdist.2.1 v.1 hnamed.1 w.1
    have hrest := readMembers_iff rest hdist.2.2 v.2 hnamed.2 object hholds.2 w.2
    unfold readMembers
    rw [findJsonKeyFlexible_of_find hholds.1]
    exact readBoth_eq.trans (and_congr hfst hrest)

theorem readAlternatives_iff : (alternatives : Alternatives) → alternatives.Distinct → (v : alternatives.Val) → alternatives.Named v →
    (readAlternatives initial alternatives (alternativeToJson alternatives v) = some (some v) ↔ alternatives.Unshadowed v)
  | .last t, hdist, v, hnamed =>
    (readLastAlternative_eq_some _ _).trans (reads_iff t hdist v hnamed (initial.declared t))
  | .cons t rest, hdist, .inl v, hnamed =>
    (readAlternative_eq_inl _ _ _).trans (reads_iff t hdist.1 v hnamed (initial.declared t))
  | .cons t rest, hdist, .inr v, hnamed => by
    have hwritten := alternatives_written rest v hnamed
    have hkind : kind (alternativeToJson rest v) ∉ t.kinds := fun h => hdist.2.1 _ h hwritten.kind
    have hfst := @refuses_iff initial t _ hkind hwritten.exact (initial.declared t)
    have hrest := readAlternatives_iff rest hdist.2.2 v hnamed
    refine (readAlternative_eq_inr _ _ _).trans (and_congr (hfst.trans ?_) hrest)
    exact forall_congr' fun i => imp_congr_left (hwritten.number i)

end

/-! ### The round trip -/

theorem describe_roundTrip (initial : Initial) {t : CppType} (ht : t.Distinct) {v : t.Val} (hv : t.Named v) (w : t.Val) :
    describeFromJson initial t (describeToJson t v) w = some (true, v) ↔ t.Unshadowed v :=
  reads_iff t ht v hv w

def int32 : IntType := ⟨.w32, true⟩

/-- `enum class Mode { Off, On }`. -/
def mode : EnumType where
  underlying := int32
  enumerators := [(text "Off", int32.cast 0), (text "On", int32.cast 1)]
  names := by decide +kernel

/-- `struct { std::map<Mode, std::optional<int>> Limits; std::vector<std::variant<int, Mode>> limits; }`. -/
def limits : CppType :=
  .struct (.cons (text "Limits") (.map (.enum mode) (.optional (.integer int32)))
    (.cons (text "limits") (.vector (.variant (.cons (.integer int32) (.last (.enum mode))))) .nil))

theorem describe_roundTrip_limits : describeFromJson zeros limits
        (describeToJson limits (SortedMap.empty.insert (int32.cast 1, some (int32.cast 7)), [.inl (int32.cast 1), .inr (int32.cast 0)], ()))
        (.empty, [.inl (int32.cast 3)], ()) =
      some (true, (SortedMap.empty.insert (int32.cast 1, some (int32.cast 7)), [.inl (int32.cast 1), .inr (int32.cast 0)], ())) := by
  refine (describe_roundTrip zeros ?_ ?_ _).mpr ?_
  · refine ⟨by decide +kernel, ⟨by decide, trivial⟩, not_mem_nil, ⟨trivial, by decide, trivial⟩, trivial⟩
  · refine ⟨fun e he => ?_, fun x hx => ?_, trivial⟩
    · rw [mem_singleton.mp he]
      exact ⟨⟨_, mem_cons_of_mem _ mem_cons_self, rfl⟩, trivial⟩
    · rcases mem_cons.mp hx with rfl | hx
      · exact trivial
      · rw [mem_singleton.mp hx]
        exact ⟨_, mem_cons_self, rfl⟩
  · refine ⟨fun e he => ?_, fun x hx => ?_, trivial⟩
    · rw [mem_singleton.mp he]
      exact trivial
    · rcases mem_cons.mp hx with rfl | hx
      · exact trivial
      · rw [mem_singleton.mp hx]
        exact ⟨fun i hi => absurd hi (not_mem_none i), trivial⟩

/-- `std::variant<Mode, int>`, whose value 1 is read as `Mode::On`. -/
theorem describe_roundTrip_modeOrInt : ¬ ∀ (initial : Initial) (t : CppType), t.Distinct → ∀ v : t.Val, t.Named v → ∀ w : t.Val,
    describeFromJson initial t (describeToJson t v) w = some (true, v) := by
  intro hall
  have hdist : (CppType.variant (.cons (.enum mode) (.last (.integer int32)))).Distinct := ⟨trivial, by decide, trivial⟩
  have hread := hall zeros _ hdist (.inr (int32.cast 1)) trivial (.inr (int32.cast 0))
  have htakes := ((reads_iff _ hdist (.inr (int32.cast 1)) trivial (.inr (int32.cast 0))).mp hread).1 1 rfl
  have hmode : mode.takesNumber 1 = true := by decide +kernel
  exact Bool.false_ne_true (htakes.symm.trans hmode)

end Brookesia.Describe
