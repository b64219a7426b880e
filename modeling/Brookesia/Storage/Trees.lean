import Brookesia.Filesystem.Tree
import Brookesia.Storage.Paths

/-! # Copying and removing trees

`copy_path_tree` and `remove_path_tree` of the storage service. Each step may fail; the steps are named
by their paths below the tree that is copied or removed. A tree is copied to a place that is neither
inside it nor around it, so the two trees are taken apart. -/

namespace Brookesia.Storage.Trees

open Filesystem.Path Filesystem.Tree Paths Option

abbrev ByteTree := FileTree Bytes Bytes
abbrev ByteEntries := Entries Bytes Bytes

/-! ### Copying -/

structure CopyFaults where
  createDirectory : FilePath → Outcome := fun _ => none
  list : FilePath → Outcome := fun _ => none
  openFile : FilePath → Outcome := fun _ => none
  write : FilePath → Option (Bytes × Bytes) := fun _ => none

def CopyFaults.below (f : CopyFaults) (name : Bytes) : CopyFaults where
  createDirectory path := f.createDirectory (name :: path)
  list path := f.list (name :: path)
  openFile path := f.openFile (name :: path)
  write path := f.write (name :: path)

def copyFileChunked (overwrite : Bool) (f : CopyFaults) (data : Bytes) (destination : Option ByteTree) :
    Outcome × Option ByteTree :=
  if destination.isSome && !overwrite then (none, destination)
  else
    match f.openFile [], destination with
    | some error, _ => (some error, destination)
    | none, some (.dir _) =>
      (some (text "Failed to open destination file for copy: "), destination)
    | none, _ =>
      match f.write [] with
      | some (error, written) => (some error, some (.file written))
      | none => (none, some (.file data))

/-- The entries that a directory is copied to, or why there are none. -/
def createDirectoryTree (f : CopyFaults) (destination : Option ByteTree) : Except Bytes ByteEntries :=
  match f.createDirectory [], destination with
  | some error, _ => .error error
  | none, some (.file _) => .error (text "Failed to create directory")
  | none, some (.dir present) => .ok present
  | none, none => .ok .nil

mutual

def copyPathTree (overwrite : Bool) (f : CopyFaults) (source : ByteTree)
    (destination : Option ByteTree) : Outcome × Option ByteTree :=
  match source with
  | .file data => copyFileChunked overwrite f data destination
  | .dir entries =>
    match createDirectoryTree f destination with
    | .error error => (some error, destination)
    | .ok present =>
      match f.list [] with
      | some error => (some error, some (.dir present))
      | none =>
        let (error, copied) := copyChildren overwrite f entries present
        (error, some (.dir copied))

/-- The loop over the entries of a directory, into those of its copy. -/
def copyChildren (overwrite : Bool) (f : CopyFaults) (entries present : ByteEntries) : Outcome × ByteEntries :=
  match entries with
  | .nil => (none, present)
  | .cons name t rest =>
    let (error, copy) := copyPathTree overwrite (f.below name) t (present.find name)
    let present := copy.elim present (present.set name)
    match error with
    | some error => (some error, present)
    | none => copyChildren overwrite f rest present

end

/-! ### Removing -/

structure RemoveFaults where
  list : FilePath → Outcome := fun _ => none
  remove : FilePath → Outcome := fun _ => none

def RemoveFaults.below (f : RemoveFaults) (name : Bytes) : RemoveFaults where
  list path := f.list (name :: path)
  remove path := f.remove (name :: path)

mutual

/-- The error of a removal and what it leaves, or nothing where the tree is gone. -/
def removePathTree (f : RemoveFaults) : ByteTree → Option (Bytes × ByteTree)
  | .file data => (f.remove []).map fun error => (error, .file data)
  | .dir entries =>
    match f.list [] with
    | some error => some (error, .dir entries)
    | none =>
      match removeChildren f entries with
      | some (error, left) => some (error, .dir left)
      | none => (f.remove []).map fun error => (error, .dir .nil)

def removeChildren (f : RemoveFaults) : ByteEntries → Option (Bytes × ByteEntries)
  | .nil => none
  | .cons name t rest =>
    match removePathTree (f.below name) t with
    | some (error, left) => some (error, .cons name left rest)
    | none => removeChildren f rest

end

/-- `function_fs_remove`, for a tree that may be missing. -/
def fsRemove (f : RemoveFaults) (t : Option ByteTree) : Outcome × Option ByteTree :=
  match t.bind (removePathTree f) with
  | some (error, left) => (some error, some left)
  | none => (none, none)

def removeAt (f : RemoveFaults) : Option ByteTree → FilePath → Option ByteTree
  | t, [] => (fsRemove f t).2
  | t, name :: path => setChild t name (removeAt f (child t name) path)

/-! ### What is left -/

mutual

theorem removePathTree_wellFormed : ∀ (t : ByteTree) {f : RemoveFaults} {error : Bytes}
    {left : ByteTree}, t.WellFormed → removePathTree f t = some (error, left) → left.WellFormed
  | .file data, f, error, left, _, h => by
    unfold removePathTree at h
    obtain ⟨e, _, he⟩ := map_eq_some_iff.mp h
    cases he
    trivial
  | .dir entries, f, error, left, hwf, h => by
    unfold removePathTree at h
    split at h
    · cases h
      exact hwf
    · split at h
      · next error' left' hleft =>
        cases h
        exact (removeChildren_wellFormed entries hwf hleft).1
      · obtain ⟨e, _, he⟩ := map_eq_some_iff.mp h
        cases he
        trivial

theorem removeChildren_wellFormed : ∀ (entries : ByteEntries) {f : RemoveFaults} {error : Bytes}
    {left : ByteEntries}, entries.WellFormed → removeChildren f entries = some (error, left) →
      left.WellFormed ∧ ∀ name, entries.find name = none → left.find name = none
  | .nil, f, error, left, _, h => by
    unfold removeChildren at h
    cases h
  | .cons n t rest, f, error, left, hwf, h => by
    obtain ⟨hn, ht, hrest⟩ := hwf
    unfold removeChildren at h
    split at h
    · next error' left' hleft =>
      cases h
      refine ⟨⟨hn, removePathTree_wellFormed t ht hleft, hrest⟩, fun name hname => ?_⟩
      unfold Entries.find at hname ⊢
      split_ifs at hname ⊢
      exact hname
    · obtain ⟨hleft, hfind⟩ := removeChildren_wellFormed rest hrest h
      refine ⟨hleft, fun name hname => hfind name ?_⟩
      unfold Entries.find at hname
      split_ifs at hname
      exact hname

end

theorem fsRemove_wellFormed {f : RemoveFaults} {t : Option ByteTree} (h : WellFormed t) :
    WellFormed (fsRemove f t).2 := by
  unfold fsRemove
  cases t with
  | none => exact trivial
  | some t =>
    rw [bind_some]
    cases hrmv : removePathTree f t with
    | none => exact trivial
    | some p => exact removePathTree_wellFormed t h hrmv

theorem removeAt_wellFormed {f : RemoveFaults} : ∀ {path : FilePath} {t : Option ByteTree},
    WellFormed t → WellFormed (removeAt f t path)
  | [], _, h => fsRemove_wellFormed h
  | name :: _, _, h => h.setChild name (removeAt_wellFormed (h.child name))

/-! ### What is copied -/

theorem createDirectoryTree_ok {f : CopyFaults} {destination : Option ByteTree}
    {present : ByteEntries} (h : createDirectoryTree f destination = .ok present) :
    (destination = none ∨ destination = some (.dir present)) ∧ ∀ name, present.find name = child destination name := by
  unfold createDirectoryTree at h
  split at h
  · cases h
  · cases h
  · cases h
    exact ⟨.inr rfl, fun _ => rfl⟩
  · cases h
    exact ⟨.inl rfl, fun _ => rfl⟩

/-- A copy does not change what is at the path: its source has nothing there, or it may not overwrite. -/
def Spares (overwrite : Bool) (source destination : Option (Node Bytes)) : Prop :=
  source = none ∨ overwrite = false ∧ destination ≠ none

variable {overwrite : Bool} {f : CopyFaults} {destination : Option ByteTree}

theorem copyFileChunked_spares {data : Bytes} {path : FilePath}
    (h : Spares overwrite ((FileTree.file data).node path) (nodeAt destination path)) :
    nodeAt (copyFileChunked overwrite f data destination).2 path = nodeAt destination path := by
  unfold copyFileChunked
  split_ifs with hkeep
  · rfl
  · cases path with
    | nil =>
      obtain ⟨hover, hdest⟩ := h.resolve_left (by simp [FileTree.node])
      cases destination <;> simp_all [nodeAt]
    | cons name path =>
      cases destination with
      | none => split <;> first | rfl | (split <;> rfl)
      | some t =>
        cases t with
        | dir entries => split <;> rfl
        | file present => split <;> first | rfl | (split <;> rfl)

mutual

theorem copyPathTree_spares : ∀ (source : ByteTree) {f : CopyFaults} {destination : Option ByteTree} {path : FilePath},
    source.WellFormed → Spares overwrite (source.node path) (nodeAt destination path) →
      nodeAt (copyPathTree overwrite f source destination).2 path = nodeAt destination path
  | .file data, f, destination, path, _, h => by
    rw [copyPathTree]
    exact copyFileChunked_spares h
  | .dir entries, f, destination, path, hwf, h => by
    rw [copyPathTree]
    cases hcre : createDirectoryTree f destination with
    | error error => rfl
    | ok present =>
      obtain ⟨hroot, hpres⟩ := createDirectoryTree_ok hcre
      cases path with
      | nil =>
        have hdest := (h.resolve_left (by simp [FileTree.node])).2
        rcases hroot with rfl | rfl
        · exact absurd rfl hdest
        · simp only
          split <;> rfl
      | cons name path =>
        rw [nodeAt_cons destination, ← hpres] at h ⊢
        rw [← nodeAt_some, nodeAt_cons] at h
        have hchild := copyChildren_spares entries (f := f) hwf h
        simp only
        split
        · rw [nodeAt_cons]
          rfl
        · rw [nodeAt_cons]
          exact hchild

theorem copyChildren_spares : ∀ (entries : ByteEntries) {f : CopyFaults} {present : ByteEntries} {name : Bytes} {path : FilePath},
    entries.WellFormed → Spares overwrite (nodeAt (entries.find name) path) (nodeAt (present.find name) path) →
      nodeAt ((copyChildren overwrite f entries present).2.find name) path = nodeAt (present.find name) path
  | .nil, f, present, name, path, _, _ => by
    rw [copyChildren]
  | .cons n t rest, f, present, name, path, hwf, h => by
    obtain ⟨hfresh, ht, hrest⟩ := hwf
    rw [copyChildren]
    have hhead : n = name → nodeAt (copyPathTree overwrite (f.below n) t (present.find n)).2 path = nodeAt (present.find name) path := by
      rintro rfl
      rw [Entries.find, if_pos rfl] at h
      exact copyPathTree_spares t ht h
    generalize copyPathTree overwrite (f.below n) t (present.find n) = copied at hhead ⊢
    have hset : nodeAt ((copied.2.elim present (present.set n)).find name) path = nodeAt (present.find name) path := by
      cases hcopy : copied.2 with
      | none => rfl
      | some t' =>
        rw [Option.elim_some, Entries.find_set]
        split_ifs with hname
        · rw [← hhead hname, hcopy]
        · rfl
    simp only
    split
    · exact hset
    · rw [← hset]
      refine copyChildren_spares rest hrest ?_
      rw [hset]
      by_cases hname : n = name
      · rw [← hname, hfresh]
        exact .inl rfl
      · rwa [Entries.find, if_neg hname] at h

end

theorem copyFileChunked_copies {data : Bytes} {path : FilePath} {copy : Option ByteTree}
    (hcopy : copyFileChunked overwrite f data destination = (none, copy))
    (h : ¬Spares overwrite ((FileTree.file data).node path) (nodeAt destination path)) :
    nodeAt copy path = (FileTree.file data).node path := by
  cases path with
  | cons name path => exact absurd (.inl rfl) h
  | nil =>
    have hwrites : (destination.isSome && !overwrite) = false := by
      rw [Spares, not_or] at h
      cases destination with
      | none => rfl
      | some t => cases overwrite <;> cases t <;> simp_all [FileTree.node]
    unfold copyFileChunked at hcopy
    simp only [hwrites, Bool.false_eq_true, if_false] at hcopy
    split at hcopy
    · cases hcopy
    · cases hcopy
    · split at hcopy <;> cases hcopy
      rfl

mutual

theorem copyPathTree_copies : ∀ (source : ByteTree) {f : CopyFaults} {destination copy : Option ByteTree} {path : FilePath},
    source.WellFormed → copyPathTree overwrite f source destination = (none, copy) →
      ¬Spares overwrite (source.node path) (nodeAt destination path) → nodeAt copy path = source.node path
  | .file data, f, destination, copy, path, _, hcopy, h => by
    rw [copyPathTree] at hcopy
    exact copyFileChunked_copies hcopy h
  | .dir entries, f, destination, copy, path, hwf, hcopy, h => by
    rw [copyPathTree] at hcopy
    cases hcre : createDirectoryTree f destination with
    | error error =>
      rw [hcre] at hcopy
      cases hcopy
    | ok present =>
      rw [hcre] at hcopy
      simp only at hcopy
      split at hcopy
      · cases hcopy
      · obtain ⟨hnone, rfl⟩ := Prod.mk.inj hcopy
        cases path with
        | nil => rfl
        | cons name path =>
          obtain ⟨-, hpres⟩ := createDirectoryTree_ok hcre
          rw [← nodeAt_some, nodeAt_cons, nodeAt_cons destination, ← hpres] at h
          rw [nodeAt_cons, ← nodeAt_some, nodeAt_cons (some (.dir entries))]
          exact copyChildren_copies entries hwf (Prod.ext hnone rfl) h

theorem copyChildren_copies : ∀ (entries : ByteEntries) {f : CopyFaults} {present copied : ByteEntries} {name : Bytes} {path : FilePath},
    entries.WellFormed → copyChildren overwrite f entries present = (none, copied) →
      ¬Spares overwrite (nodeAt (entries.find name) path) (nodeAt (present.find name) path) →
      nodeAt (copied.find name) path = nodeAt (entries.find name) path
  | .nil, f, present, copied, name, path, _, _, h => absurd (.inl rfl) h
  | .cons n t rest, f, present, copied, name, path, hwf, hcopy, h => by
    obtain ⟨hfresh, ht, hrest⟩ := hwf
    rw [copyChildren] at hcopy
    cases hhead : copyPathTree overwrite (f.below n) t (present.find n) with
    | mk error copy =>
      rw [hhead] at hcopy
      cases error with
      | some error => cases hcopy
      | none =>
        simp only at hcopy
        by_cases hname : n = name
        · subst hname
          rw [Entries.find, if_pos rfl] at h ⊢
          have hnode := copyPathTree_copies t ht hhead h
          have hset : nodeAt ((copy.elim present (present.set n)).find n) path = t.node path := by
            cases copy with
            | none => exact absurd (.inl hnode.symm) h
            | some t' => rwa [Option.elim_some, Entries.find_set, if_pos rfl]
          have hkept : nodeAt ((copyChildren overwrite f rest (copy.elim present (present.set n))).2.find n) path =
              nodeAt ((copy.elim present (present.set n)).find n) path :=
            copyChildren_spares rest hrest (.inl (by rw [hfresh]; rfl))
          rw [hcopy] at hkept
          exact hkept.trans hset
        · have hset : (copy.elim present (present.set n)).find name = present.find name := by
            cases copy with
            | none => rfl
            | some t' => rw [Option.elim_some, Entries.find_set, if_neg hname]
          rw [Entries.find, if_neg hname] at h ⊢
          exact copyChildren_copies rest hrest hcopy (hset.symm ▸ h)

end

/-- A copy onto nothing has the nodes of its source. A copy that overwrites nothing adds those of its
source to the ones that are there. -/
theorem copyPathTree_node (source : ByteTree) {copy : Option ByteTree} (hwf : source.WellFormed)
    (hnew : overwrite = true → destination = none) (h : copyPathTree overwrite f source destination = (none, copy)) (path : FilePath) :
    nodeAt copy path = (nodeAt destination path).or (source.node path) := by
  by_cases hspares : Spares overwrite (source.node path) (nodeAt destination path)
  · have hkept := copyPathTree_spares source (f := f) hwf hspares
    rw [h] at hkept
    rcases hspares with hnone | ⟨-, hdest⟩
    · rw [hkept, hnone, or_none]
    · obtain ⟨n, hn⟩ := ne_none_iff_exists'.mp hdest
      rw [hkept, hn, some_or]
  · have hdest : nodeAt destination path = none := by
      rw [Spares, not_or, not_and_not_right] at hspares
      cases hover : overwrite with
      | true => rw [hnew hover, nodeAt_none]
      | false =>
        by_contra hdest
        exact hdest (by simpa [hover] using hspares.2)
    rw [copyPathTree_copies source hwf h hspares, hdest, none_or]

end Brookesia.Storage.Trees
