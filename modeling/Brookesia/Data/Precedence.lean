import Mathlib

/-! # Composition by precedence

Values with fields, such as the objects of a configuration, where several values are taken together: at each path the first of them that
has it decides, and below a value with fields the fields of all of them are taken together. -/

namespace Brookesia.Data

open List Option

/-- `branches v`: the value may have fields. -/
structure Fielded (V K : Type) where
  field : V → K → Option V
  branches : V → Bool
  field_eq_none : ∀ v k, branches v = false → field v k = none

namespace Fielded

variable {V K : Type} (s : Fielded V K)

def kind (v : V) : Option V := if s.branches v then none else some v

def valueAt (v : V) : List K → Option (Option V)
  | [] => some (s.kind v)
  | k :: path => (s.field v k).bind fun w => valueAt w path

def fieldsOf (vs : List V) (k : K) : List V := vs.filterMap (s.field · k)

/-- What several values have at a path together, the first of them first. -/
def composeAt : List V → List K → Option (Option V)
  | [], _ => none
  | v :: _, [] => some (s.kind v)
  | v :: vs, k :: path => if s.branches v then composeAt (s.fieldsOf (v :: vs) k) path else none

/-- `v` has at every path what the values have together. -/
def Composes (v : V) (vs : List V) : Prop := ∀ path, s.valueAt v path = s.composeAt vs path

variable {s} {v w : V} {vs ws : List V} {k : K}

theorem fieldsOf_cons_none (h : s.field v k = none) : s.fieldsOf (v :: vs) k = s.fieldsOf vs k := filterMap_cons_none h

theorem fieldsOf_cons_some (h : s.field v k = some w) : s.fieldsOf (v :: vs) k = w :: s.fieldsOf vs k := filterMap_cons_some h

theorem fieldsOf_cons (v : V) (vs : List V) (k : K) : s.fieldsOf (v :: vs) k = (s.field v k).toList ++ s.fieldsOf vs k := by
  cases h : s.field v k with
  | none => exact fieldsOf_cons_none h
  | some w => exact fieldsOf_cons_some h

theorem fieldsOf_append (vs ws : List V) (k : K) : s.fieldsOf (vs ++ ws) k = s.fieldsOf vs k ++ s.fieldsOf ws k :=
  filterMap_append ..

theorem fieldsOf_leaves (h : ∀ w ∈ vs, s.branches w = false) (k : K) : s.fieldsOf vs k = [] :=
  filterMap_eq_nil_iff.mpr fun w hw => s.field_eq_none w k (h w hw)

theorem composeAt_nil (path : List K) : s.composeAt [] path = none := by
  cases path with
  | nil => rfl
  | cons k path => rfl

theorem composeAt_singleton (v : V) (path : List K) : s.composeAt [v] path = s.valueAt v path := by
  induction path generalizing v with
  | nil => rfl
  | cons k path ih =>
    unfold composeAt valueAt
    cases hfld : s.field v k with
    | none =>
      rw [fieldsOf_cons_none hfld, bind_none, show s.fieldsOf [] k = [] from rfl, composeAt_nil, ite_self]
    | some w =>
      have hbranches : s.branches v = true := by
        by_contra hnot
        rw [s.field_eq_none v k (Bool.eq_false_iff.mpr hnot)] at hfld
        cases hfld
      rw [if_pos hbranches, fieldsOf_cons_some hfld, bind_some]
      exact ih w

theorem Composes.refl (v : V) : s.Composes v [v] := fun path => (composeAt_singleton v path).symm

theorem composeAt_nil_path : s.composeAt vs [] = vs.head?.map s.kind := by
  cases vs with
  | nil => rfl
  | cons v vs => rfl

theorem Composes.ne_nil (h : s.Composes v vs) : vs ≠ [] := by
  rintro rfl
  cases h []

theorem Composes.of_leaf (h : s.branches v = false) (vs : List V) : s.Composes v (v :: vs) := by
  intro path
  cases path with
  | nil => rfl
  | cons k path =>
    unfold valueAt composeAt
    rw [s.field_eq_none v k h, if_neg (Bool.eq_false_iff.mp h)]
    rfl

theorem Composes.of_leaves (h : ∀ w ∈ vs, s.branches w = false) (v : V) : s.Composes v (v :: vs) := by
  intro path
  rw [← composeAt_singleton v path]
  cases path with
  | nil => rfl
  | cons k path =>
    have hfields : s.fieldsOf (v :: vs) k = s.fieldsOf [v] k := by
      rw [← singleton_append, fieldsOf_append, fieldsOf_leaves h, append_nil]
    unfold composeAt
    rw [hfields]

theorem Composes.composeAt_append (h : s.Composes v vs) (ws : List V) (path : List K) :
    s.composeAt (v :: ws) path = s.composeAt (vs ++ ws) path := by
  induction path generalizing v vs ws with
  | nil =>
    have hhead := h []
    rw [composeAt_nil_path] at hhead ⊢
    obtain ⟨w, vs, rfl⟩ := exists_cons_of_ne_nil h.ne_nil
    rw [composeAt_nil_path]
    exact hhead
  | cons k path ih =>
    obtain ⟨w, vs, rfl⟩ := exists_cons_of_ne_nil h.ne_nil
    have hkind : s.kind v = s.kind w := some.inj (h [])
    have hbranches : s.branches v = s.branches w := by
      unfold kind at hkind
      cases hv : s.branches v with
      | true =>
        cases hw : s.branches w with
        | true => rfl
        | false =>
          rw [hv, hw] at hkind
          cases hkind
      | false =>
        cases hw : s.branches w with
        | true =>
          rw [hv, hw] at hkind
          cases hkind
        | false => rfl
    rw [cons_append]
    unfold composeAt
    cases hw : s.branches w with
    | false =>
      rw [hbranches, hw]
      rfl
    | true =>
      rw [hbranches, hw, if_pos rfl, if_pos rfl]
      have hat : ∀ path, (s.field v k).bind (s.valueAt · path) = s.composeAt (s.fieldsOf (w :: vs) k) path := by
        intro path
        have hpath := h (k :: path)
        rw [valueAt, composeAt, if_pos hw] at hpath
        exact hpath
      rw [← cons_append, fieldsOf_append]
      cases hfld : s.field v k with
      | none =>
        have hnone := hat []
        rw [hfld, composeAt_nil_path] at hnone
        have hemp : s.fieldsOf (w :: vs) k = [] := by
          cases hvs : s.fieldsOf (w :: vs) k with
          | nil => rfl
          | cons u us =>
            rw [hvs] at hnone
            cases hnone
        rw [hemp, fieldsOf_cons_none hfld, nil_append]
      | some u =>
        rw [fieldsOf_cons_some hfld]
        refine ih (fun path => ?_) _
        have hu := hat path
        rw [hfld] at hu
        exact hu

theorem Composes.trans (h : s.Composes w (v :: ws)) (hv : s.Composes v vs) : s.Composes w (vs ++ ws) := fun path =>
  (h path).trans (hv.composeAt_append ws path)

end Fielded

end Brookesia.Data
