import Mathlib

/-! # Trees of files

A directory is a list of named entries, in the order in which they are read. What is at a path is a
node; two trees with the same nodes differ in this order only. -/

namespace Brookesia.Filesystem.Tree

variable {ν δ : Type} [DecidableEq ν]

mutual

inductive FileTree (ν δ : Type)
  | file (data : δ)
  | dir (entries : Entries ν δ)

inductive Entries (ν δ : Type)
  | nil
  | cons (name : ν) (tree : FileTree ν δ) (rest : Entries ν δ)

end

/-- What is at a path. -/
inductive Node (δ : Type)
  | file (data : δ)
  | dir
  deriving DecidableEq

@[elab_as_elim]
theorem Entries.induction {P : Entries ν δ → Prop} (nil : P .nil)
    (cons : ∀ name tree rest, P rest → P (.cons name tree rest)) : ∀ entries, P entries
  | .nil => nil
  | .cons name tree rest => cons name tree rest (Entries.induction nil cons rest)

/-! ### Looking up -/

def Entries.find : Entries ν δ → ν → Option (FileTree ν δ)
  | .nil, _ => none
  | .cons n t rest, name => if n = name then some t else rest.find name

def FileTree.node : FileTree ν δ → List ν → Option (Node δ)
  | .file data, [] => some (.file data)
  | .dir _, [] => some .dir
  | .file _, _ :: _ => none
  | .dir entries, name :: path =>
    match entries.find name with
    | none => none
    | some t => t.node path

def nodeAt (t : Option (FileTree ν δ)) (path : List ν) : Option (Node δ) := t.bind (·.node path)

def child (t : Option (FileTree ν δ)) (name : ν) : Option (FileTree ν δ) :=
  match t with
  | some (.dir entries) => entries.find name
  | _ => none

@[simp] theorem nodeAt_none (path : List ν) : nodeAt (none : Option (FileTree ν δ)) path = none := rfl

@[simp] theorem nodeAt_some (t : FileTree ν δ) (path : List ν) : nodeAt (some t) path = t.node path := rfl

theorem nodeAt_cons (t : Option (FileTree ν δ)) (name : ν) (path : List ν) :
    nodeAt t (name :: path) = nodeAt (child t name) path := by
  cases t with
  | none => rfl
  | some t =>
    cases t with
    | file data => rfl
    | dir entries =>
      show (FileTree.dir entries).node (name :: path) = nodeAt (entries.find name) path
      rw [FileTree.node]
      cases entries.find name <;> rfl

/-! ### Changing entries -/

def Entries.set : Entries ν δ → ν → FileTree ν δ → Entries ν δ
  | .nil, name, t => .cons name t .nil
  | .cons n old rest, name, t =>
    if n = name then .cons n t rest else .cons n old (rest.set name t)

def Entries.erase : Entries ν δ → ν → Entries ν δ
  | .nil, _ => .nil
  | .cons n old rest, name =>
    if n = name then rest.erase name else .cons n old (rest.erase name)

def setChild (t : Option (FileTree ν δ)) (name : ν) (c : Option (FileTree ν δ)) : Option (FileTree ν δ) :=
  match t with
  | some (.dir entries) =>
    match c with
    | none => some (.dir (entries.erase name))
    | some c => some (.dir (entries.set name c))
  | t => t

theorem Entries.find_set (entries : Entries ν δ) (name m : ν) (t : FileTree ν δ) :
    (entries.set name t).find m = if name = m then some t else entries.find m := by
  induction entries using Entries.induction with
  | nil => rfl
  | cons n old rest ih =>
    unfold Entries.set
    by_cases hn : n = name
    · rw [if_pos hn, hn]
      unfold Entries.find
      by_cases hm : name = m
      · rw [if_pos hm, if_pos hm]
      · rw [if_neg hm, if_neg hm, if_neg hm]
    · rw [if_neg hn]
      unfold Entries.find
      rw [ih]
      by_cases hm : n = m
      · rw [if_pos hm, if_pos hm, if_neg (fun h => hn (hm.trans h.symm))]
      · rw [if_neg hm, if_neg hm]

theorem Entries.find_erase (entries : Entries ν δ) (name m : ν) :
    (entries.erase name).find m = if name = m then none else entries.find m := by
  induction entries using Entries.induction with
  | nil => simp [Entries.erase, Entries.find]
  | cons n old rest ih =>
    unfold Entries.erase
    by_cases hn : n = name
    · rw [if_pos hn, ih]
      by_cases hm : name = m
      · rw [if_pos hm, if_pos hm]
      · rw [if_neg hm, if_neg hm, Entries.find, if_neg (fun h => hm (hn.symm.trans h))]
    · rw [if_neg hn]
      unfold Entries.find
      rw [ih]
      by_cases hm : n = m
      · rw [if_pos hm, if_pos hm, if_neg (fun h => hn (hm.trans h.symm))]
      · rw [if_neg hm, if_neg hm]

variable {entries : Entries ν δ} {name : ν}

theorem child_setChild_self (name : ν) (c : Option (FileTree ν δ)) :
    child (setChild (some (.dir entries)) name c) name = c := by
  cases c with
  | none =>
    show (entries.erase name).find name = none
    rw [Entries.find_erase, if_pos rfl]
  | some c =>
    show (entries.set name c).find name = some c
    rw [Entries.find_set, if_pos rfl]

theorem child_setChild_of_ne (t : Option (FileTree ν δ)) {m : ν} (c : Option (FileTree ν δ))
    (h : name ≠ m) : child (setChild t name c) m = child t m := by
  cases t with
  | none => rfl
  | some t =>
    cases t with
    | file data => rfl
    | dir entries =>
      cases c with
      | none =>
        show (entries.erase name).find m = entries.find m
        rw [Entries.find_erase, if_neg h]
      | some c =>
        show (entries.set name c).find m = entries.find m
        rw [Entries.find_set, if_neg h]

theorem Entries.set_find {t : FileTree ν δ} (h : entries.find name = some t) : entries.set name t = entries := by
  induction entries using Entries.induction with
  | nil => cases h
  | cons n old rest ih =>
    unfold Entries.find at h
    unfold Entries.set
    split_ifs at h ⊢
    · cases h
      rfl
    · rw [ih h]

theorem Entries.erase_of_find (h : entries.find name = none) : entries.erase name = entries := by
  induction entries using Entries.induction with
  | nil => rfl
  | cons n old rest ih =>
    unfold Entries.find at h
    unfold Entries.erase
    split_ifs at h ⊢
    rw [ih h]

theorem setChild_child (t : Option (FileTree ν δ)) (name : ν) : setChild t name (child t name) = t := by
  cases t with
  | none => rfl
  | some t =>
    cases t with
    | file data => rfl
    | dir entries =>
      show setChild (some (.dir entries)) name (entries.find name) = _
      cases hfind : entries.find name with
      | none => exact congrArg (fun es => some (FileTree.dir es)) (Entries.erase_of_find hfind)
      | some c => exact congrArg (fun es => some (FileTree.dir es)) (Entries.set_find hfind)

/-! ### Writing a file -/

/-- Writes a file below a path, with the directories it needs. `none` where a file is in the way, or a
directory is in the place of the file. -/
def write : Option (FileTree ν δ) → List ν → δ → Option (FileTree ν δ)
  | some (.dir _), [], _ => none
  | _, [], data => some (.file data)
  | some (.file _), _ :: _, _ => none
  | some (.dir entries), name :: path, data =>
    (write (entries.find name) path data).map fun t => .dir (entries.set name t)
  | none, name :: path, data => (write none path data).map fun t => .dir (.cons name t .nil)

/-! ### Distinct names -/

mutual

def FileTree.WellFormed : FileTree ν δ → Prop
  | .file _ => True
  | .dir entries => entries.WellFormed

def Entries.WellFormed : Entries ν δ → Prop
  | .nil => True
  | .cons name t rest => rest.find name = none ∧ t.WellFormed ∧ rest.WellFormed

end

def WellFormed : Option (FileTree ν δ) → Prop
  | none => True
  | some t => t.WellFormed

theorem Entries.WellFormed.find (h : entries.WellFormed) (name : ν) : Tree.WellFormed (entries.find name) := by
  induction entries using Entries.induction with
  | nil => exact trivial
  | cons n t rest ih =>
    obtain ⟨_, ht, hrest⟩ := h
    unfold Entries.find
    split_ifs
    · exact ht
    · exact ih hrest

theorem Entries.WellFormed.set (h : entries.WellFormed) (name : ν)
    {t : FileTree ν δ} (ht : t.WellFormed) : (entries.set name t).WellFormed := by
  induction entries using Entries.induction with
  | nil => exact ⟨rfl, ht, trivial⟩
  | cons n old rest ih =>
    obtain ⟨hn, hold, hrest⟩ := h
    unfold Entries.set
    split_ifs with hname
    · exact ⟨hn, ht, hrest⟩
    · refine ⟨?_, hold, ih hrest⟩
      rw [Entries.find_set, if_neg (Ne.symm hname), hn]

theorem Entries.WellFormed.erase (h : entries.WellFormed) (name : ν) : (entries.erase name).WellFormed := by
  induction entries using Entries.induction with
  | nil => exact trivial
  | cons n old rest ih =>
    obtain ⟨hn, hold, hrest⟩ := h
    unfold Entries.erase
    split_ifs with hname
    · exact ih hrest
    · refine ⟨?_, hold, ih hrest⟩
      rw [Entries.find_erase, if_neg (Ne.symm hname), hn]

theorem WellFormed.child {t : Option (FileTree ν δ)} (h : WellFormed t) (name : ν) : WellFormed (child t name) := by
  cases t with
  | none => exact trivial
  | some t =>
    cases t with
    | file data => exact trivial
    | dir entries => exact Entries.WellFormed.find h name

theorem WellFormed.setChild {t : Option (FileTree ν δ)} (h : WellFormed t) (name : ν)
    {c : Option (FileTree ν δ)} (hc : WellFormed c) : WellFormed (setChild t name c) := by
  cases t with
  | none => exact trivial
  | some t =>
    cases t with
    | file data => exact trivial
    | dir entries =>
      cases c with
      | none => exact Entries.WellFormed.erase h name
      | some c => exact Entries.WellFormed.set h name hc

theorem WellFormed.write : ∀ {t : Option (FileTree ν δ)} {path : List ν} {data : δ},
    WellFormed t → WellFormed (write t path data)
  | some (.dir _), [], _, _ => trivial
  | some (.file _), [], _, _ => trivial
  | none, [], _, _ => trivial
  | some (.file _), _ :: _, _, _ => trivial
  | some (.dir entries), name :: path, data, h => by
    have ih : WellFormed (Tree.write (entries.find name) path data) :=
      WellFormed.write (Entries.WellFormed.find h name)
    unfold Tree.write
    cases hw : Tree.write (entries.find name) path data with
    | none => exact trivial
    | some t =>
      rw [hw] at ih
      exact Entries.WellFormed.set h name ih
  | none, name :: path, data, h => by
    have ih : WellFormed (Tree.write (none : Option (FileTree ν δ)) path data) := WellFormed.write h
    unfold Tree.write
    cases hw : Tree.write none path data with
    | none => exact trivial
    | some t =>
      rw [hw] at ih
      exact ⟨rfl, ih, trivial⟩

end Brookesia.Filesystem.Tree
