import Brookesia.AppPackage.Replacement

/-! # What is kept of an app

`preserve_runtime_app_private_data` in closed form: when it succeeds, the files of the app after the
calls that the app makes meanwhile, and the staged directory. The app is the only one that changes its
directory up to its removal, so `own` and `app` are the same. -/

namespace Brookesia.AppPackage.Preservation

open Filesystem.Path Filesystem.Tree Data.Programs
open Storage.Paths Storage.Trees
open Replacement

variable {r : Request} {w w' : World} {dir : PrivateDir} {label path source destination : Bytes}

/-! ### Removals -/

/-- The conditions under which `remove_path_tree` removes a tree. -/
structure RemovalSucceeds (f : RemovalFaults) (t : Option ByteTree) : Prop where
  statBefore : f.statBefore = none
  remove : (fsRemove f.remove t).1 = none
  statAfter : f.statAfter = none

/-- What `remove_path_tree` leaves. -/
def removalLeft (f : RemovalFaults) (t : Option ByteTree) : Option ByteTree :=
  if f.statBefore.isSome then t else (fsRemove f.remove t).2

theorem fsRemove_ok {f : RemoveFaults} {t : Option ByteTree} (h : (fsRemove f t).1 = none) :
    (fsRemove f t).2 = none := by
  unfold fsRemove at h ⊢
  split at h
  · cases h
  · rfl

theorem removeTree_snd (f : RemovalFaults) (t : Option ByteTree) : (removeTree f label path t).2 = removalLeft f t := by
  unfold removeTree removalLeft
  cases hbef : f.statBefore with
  | some error => rfl
  | none =>
    show _ = (fsRemove f.remove t).2
    obtain ⟨error, left⟩ := fsRemove f.remove t
    cases error with
    | some error => rfl
    | none =>
      cases hafter : f.statAfter with
      | some error => rfl
      | none =>
        show (if left.isSome then _ else _ : Except Bytes Unit × Option ByteTree).2 = left
        split_ifs <;> rfl

theorem removeTree_ok_iff (f : RemovalFaults) (t : Option ByteTree) :
    (removeTree f label path t).1 = .ok () ↔ RemovalSucceeds f t := by
  unfold removeTree
  constructor
  · intro h
    split at h
    · cases h
    · next hbef =>
      split at h
      · cases h
      · next left hrmv =>
        split at h
        · cases h
        · next hafter => exact ⟨hbef, by rw [hrmv], hafter⟩
  · rintro ⟨hbef, hrmv, hafter⟩
    have hleft := fsRemove_ok hrmv
    rw [hbef]
    generalize fsRemove f.remove t = removed at hrmv hleft ⊢
    obtain ⟨error, left⟩ := removed
    subst hrmv hleft
    rw [hafter]
    rfl

theorem RemovalSucceeds.left {f : RemovalFaults} {t : Option ByteTree} (h : RemovalSucceeds f t) :
    removalLeft f t = none := by
  unfold removalLeft
  rw [h.statBefore]
  exact fsRemove_ok h.remove

/-- The conditions under which `remove_path_tree_if_exists` succeeds. -/
structure RemovalIfExistsSucceeds (f : RemovalIfExistsFaults) (t : Option ByteTree) : Prop where
  stat : f.stat = none
  removal : t.isSome → RemovalSucceeds f.removal t

theorem removeTreeIfExists_eq_ok (f : RemovalIfExistsFaults) (t left : Option ByteTree) :
    removeTreeIfExists f label path t = (.ok (), left) ↔ RemovalIfExistsSucceeds f t ∧ left = none := by
  unfold removeTreeIfExists
  cases hstat : f.stat with
  | some error =>
    have hno : ¬ RemovalIfExistsSucceeds f t := fun h => by simp [h.stat] at hstat
    simp [hno]
  | none =>
    cases t with
    | none =>
      have hyes : RemovalIfExistsSucceeds f none := ⟨hstat, fun h => by cases h⟩
      simp [hyes, eq_comm]
    | some t =>
      show removeTree f.removal label path (some t) = _ ↔ _
      rw [Prod.ext_iff, removeTree_ok_iff, removeTree_snd]
      constructor
      · intro ⟨hrem, hleft⟩
        exact ⟨⟨hstat, fun _ => hrem⟩, hleft.symm.trans hrem.left⟩
      · intro ⟨hrem, hleft⟩
        exact ⟨hrem.removal rfl, (hrem.removal rfl).left.trans hleft.symm⟩

/-! ### Merging a directory -/

def appAfter (r : Request) (moment : Moment) (app : Option ByteTree) : Option ByteTree :=
  applyCalls app (r.calls moment)

/-- The files of the app after `merge_directory_contents`. -/
def appAfterMerge (r : Request) (dir : PrivateDir) (app : Option ByteTree) : Option ByteTree :=
  if (child (appAfter r (.merge dir) app) dir.name).isSome then
    appAfter r (.copy dir) (appAfter r (.merge dir) app)
  else appAfter r (.merge dir) app

/-- The conditions under which `merge_directory_contents` succeeds. -/
structure MergeSucceeds (r : Request) (dir : PrivateDir) (overwrite : Bool) (f : MergeFaults)
    (app destination : Option ByteTree) : Prop where
  stat : f.stat = none
  isDirectory : ∀ data, child (appAfter r (.merge dir) app) dir.name ≠ some (.file data)
  copied : (child (appAfter r (.merge dir) app) dir.name).isSome →
    (fsCopyTree overwrite f.copy (child (appAfterMerge r dir app) dir.name) destination).1 = .ok ()

/-- The destination after `merge_directory_contents`. -/
def mergedDir (r : Request) (dir : PrivateDir) (overwrite : Bool) (f : MergeFaults)
    (app destination : Option ByteTree) : Option ByteTree :=
  if (child (appAfter r (.merge dir) app) dir.name).isSome then
    (fsCopyTree overwrite f.copy (child (appAfterMerge r dir app) dir.name) destination).2
  else destination

/-- The world with the files of the app and one private directory of the staged app as given. -/
def World.after (w : World) (app : Option ByteTree) (dir : PrivateDir) (staged : Option ByteTree) :
    World :=
  { w with app := app, own := app, staged := setChild w.staged dir.name staged }

theorem appCalls_apply (hown : w.own = w.app) (moment : Moment) : appCalls r moment w =
      (.ok (), { w with app := appAfter r moment w.app, own := appAfter r moment w.app }) := by
  show (Except.ok (), { w with
    app := appAfter r moment w.app, own := appAfter r moment w.own }) = _
  rw [hown]

theorem bind_checked_eq_ok {outcome : Outcome} {before : Bytes} {f : Unit → Program World Bytes Unit} :
    (result (checked outcome before) >>= f) w = (.ok (), w') ↔ outcome = none ∧ f () w = (.ok (), w') := by
  rw [bind_result_eq_ok]
  cases outcome with
  | none => exact ⟨fun ⟨_, _, h⟩ => ⟨rfl, h⟩, fun ⟨_, h⟩ => ⟨(), rfl, h⟩⟩
  | some error => simp [checked]

theorem copyDir_eq_ok {overwrite : Bool} {f : CopyFaults} (hown : w.own = w.app) :
    copyDir dir overwrite f w = (.ok (), w') ↔
      (fsCopyTree overwrite f (child w.app dir.name) (child w.staged dir.name)).1 = .ok () ∧
      w' = World.after w w.app dir (fsCopyTree overwrite f (child w.app dir.name) (child w.staged dir.name)).2 := by
  obtain ⟨apps, nextAppId, app, staged, own⟩ := w
  obtain rfl : own = app := hown
  show ((fsCopyTree overwrite f (child own dir.name) (child staged dir.name)).1, _) = _ ↔ _
  rw [Prod.mk.injEq, eq_comm (a := w')]
  rfl

theorem mergeDirectoryContents_eq_ok {overwrite : Bool} {f : MergeFaults} (hown : w.own = w.app) :
    mergeDirectoryContents r dir source destination overwrite f w = (.ok (), w') ↔
      MergeSucceeds r dir overwrite f w.app (child w.staged dir.name) ∧
      w' = World.after w (appAfterMerge r dir w.app) dir
        (mergedDir r dir overwrite f w.app (child w.staged dir.name)) := by
  unfold mergeDirectoryContents
  rw [bind_of_ok (appCalls_apply hown _), bind_checked_eq_ok, bind_read]
  cases hpres : child (appAfter r (.merge dir) w.app) dir.name with
  | none =>
    have hsucc : MergeSucceeds r dir overwrite f w.app (child w.staged dir.name) ↔ f.stat = none :=
      ⟨fun h => h.stat, fun h => ⟨h, by simp [hpres], by simp [hpres]⟩⟩
    rw [hsucc, World.after, appAfterMerge, mergedDir]
    simp only [hpres, Option.isSome_none, Bool.false_eq_true, if_false, setChild_child]
    rw [pure_apply, Prod.mk.injEq, eq_comm (a := w'), eq_self_iff_true, true_and]
  | some t =>
    cases t with
    | file data =>
      have hfails : ¬ MergeSucceeds r dir overwrite f w.app (child w.staged dir.name) :=
        fun h => h.isDirectory data hpres
      simp [hfails, result]
    | dir entries =>
      simp only
      rw [bind_of_ok (appCalls_apply rfl _), context_eq_ok, copyDir_eq_ok rfl]
      have happ : appAfterMerge r dir w.app = appAfter r (.copy dir) (appAfter r (.merge dir) w.app) := by
        unfold appAfterMerge
        rw [hpres]
        rfl
      have hsucc : MergeSucceeds r dir overwrite f w.app (child w.staged dir.name) ↔ f.stat = none ∧
          (fsCopyTree overwrite f.copy (child (appAfterMerge r dir w.app) dir.name)
            (child w.staged dir.name)).1 = .ok () :=
        ⟨fun h => ⟨h.stat, h.copied (by rw [hpres]; rfl)⟩, fun h => ⟨h.1, by simp [hpres], fun _ => h.2⟩⟩
      rw [hsucc, World.after, mergedDir, if_pos (by rw [hpres]; rfl), happ, and_assoc]
      rfl

/-! ### Replacing a directory -/

/-- The files of the app after `replace_directory_contents`. -/
def appAfterReplace (r : Request) (dir : PrivateDir) (app : Option ByteTree) : Option ByteTree :=
  if (child (appAfter r (.stat dir) app) dir.name).isSome then
    appAfterMerge r dir (appAfter r (.stat dir) app)
  else appAfter r (.stat dir) app

/-- The conditions under which `replace_directory_contents` succeeds. -/
structure ReplaceSucceeds (r : Request) (dir : PrivateDir) (f : ReplaceFaults)
    (app destination : Option ByteTree) : Prop where
  stat : f.stat = none
  remove : (child (appAfter r (.stat dir) app) dir.name).isSome → RemovalIfExistsSucceeds f.remove destination
  merge : (child (appAfter r (.stat dir) app) dir.name).isSome →
    MergeSucceeds r dir true f.merge (appAfter r (.stat dir) app) none

/-- The staged app after `replace_directory_contents`. -/
def stagedAfterReplace (r : Request) (dir : PrivateDir) (f : ReplaceFaults)
    (app staged : Option ByteTree) : Option ByteTree :=
  if (child (appAfter r (.stat dir) app) dir.name).isSome then
    setChild (setChild staged dir.name none) dir.name (mergedDir r dir true f.merge (appAfter r (.stat dir) app) none)
  else staged

def IsDir (t : Option ByteTree) : Prop := ∃ entries, t = some (.dir entries)

theorem IsDir.setChild {t : Option ByteTree} (h : IsDir t) (name : Bytes) (c : Option ByteTree) :
    IsDir (setChild t name c) := by
  obtain ⟨entries, rfl⟩ := h
  cases c with
  | none => exact ⟨_, rfl⟩
  | some c => exact ⟨_, rfl⟩

theorem IsDir.child_setChild {t : Option ByteTree} (h : IsDir t) (name : Bytes) (c : Option ByteTree) :
    child (Filesystem.Tree.setChild t name c) name = c := by
  obtain ⟨entries, rfl⟩ := h
  exact child_setChild_self name c

theorem onStagedDir_eq_ok {f : Option ByteTree → Except Bytes Unit × Option ByteTree} {u : Unit} :
    onStagedDir dir f w = (.ok u, w') ↔ ∃ left, f (child w.staged dir.name) = (.ok (), left) ∧
      w' = { w with staged := setChild w.staged dir.name left } := by
  show ((f (child w.staged dir.name)).1, _) = _ ↔ _
  rw [Prod.mk.injEq]
  constructor
  · intro ⟨hok, hw'⟩
    exact ⟨_, Prod.ext hok rfl, hw'.symm⟩
  · intro ⟨left, hf, hw'⟩
    subst hw'
    show _ ∧ { w with staged := setChild w.staged dir.name (f (child w.staged dir.name)).2 } = _
    rw [hf]
    exact ⟨rfl, rfl⟩

theorem replaceDirectoryContents_eq_ok {f : ReplaceFaults} (hown : w.own = w.app) (hdir : IsDir w.staged) :
    replaceDirectoryContents r dir source destination label f w = (.ok (), w') ↔
      ReplaceSucceeds r dir f w.app (child w.staged dir.name) ∧
      w' = { w with
        app := appAfterReplace r dir w.app
        own := appAfterReplace r dir w.app
        staged := stagedAfterReplace r dir f w.app w.staged } := by
  unfold replaceDirectoryContents
  rw [bind_of_ok (appCalls_apply hown _), bind_checked_eq_ok, bind_read]
  cases hpres : child (appAfter r (.stat dir) w.app) dir.name with
  | none =>
    have hsucc : ReplaceSucceeds r dir f w.app (child w.staged dir.name) ↔ f.stat = none :=
      ⟨fun h => h.stat, fun h => ⟨h, by simp [hpres], by simp [hpres]⟩⟩
    rw [hsucc, appAfterReplace, stagedAfterReplace]
    simp only [hpres, Option.isSome_none, Bool.false_eq_true, if_false]
    rw [pure_apply, Prod.mk.injEq, eq_comm (a := w'), eq_self_iff_true, true_and]
  | some t =>
    have hsucc : ReplaceSucceeds r dir f w.app (child w.staged dir.name) ↔
        f.stat = none ∧ RemovalIfExistsSucceeds f.remove (child w.staged dir.name) ∧
          MergeSucceeds r dir true f.merge (appAfter r (.stat dir) w.app) none :=
      ⟨fun h => ⟨h.stat, h.remove (by rw [hpres]; rfl), h.merge (by rw [hpres]; rfl)⟩,
        fun h => ⟨h.1, fun _ => h.2.1, fun _ => h.2.2⟩⟩
    rw [hsucc, appAfterReplace, if_pos (by rw [hpres]; rfl), stagedAfterReplace,
      if_pos (by rw [hpres]; rfl), and_assoc, and_assoc]
    simp only [bind_eq_ok, onStagedDir_eq_ok, removeTreeIfExists_eq_ok]
    have hnone : child (setChild w.staged dir.name none) dir.name = none := hdir.child_setChild _ _
    constructor
    · intro ⟨hstat, _, v, ⟨left, ⟨hrmv, hleft⟩, hv⟩, hmerge⟩
      subst hleft hv
      rw [mergeDirectoryContents_eq_ok rfl, hnone] at hmerge
      exact ⟨hstat, hrmv, hmerge⟩
    · intro ⟨hstat, hrmv, hmerge⟩
      refine ⟨hstat, (), _, ⟨none, ⟨hrmv, rfl⟩, rfl⟩, ?_⟩
      rw [mergeDirectoryContents_eq_ok rfl, hnone]
      exact hmerge

/-! ### All the private data -/

/-- The files of the app after `preserve_runtime_app_private_data`. -/
def appAfterPreserve (r : Request) (app : Option ByteTree) : Option ByteTree :=
  appAfterMerge r .files (appAfterReplace r .data (appAfterReplace r .cache app))

def stagedAfterData (r : Request) (app staged : Option ByteTree) : Option ByteTree :=
  stagedAfterReplace r .data r.faults.data (appAfterReplace r .cache app)
    (stagedAfterReplace r .cache r.faults.cache app staged)

/-- The staged app after `preserve_runtime_app_private_data`. -/
def stagedAfterPreserve (r : Request) (app staged : Option ByteTree) : Option ByteTree :=
  setChild (stagedAfterData r app staged) PrivateDir.files.name
    (mergedDir r .files false r.faults.files (appAfterReplace r .data (appAfterReplace r .cache app))
      (child (stagedAfterData r app staged) PrivateDir.files.name))

/-- The conditions under which `preserve_runtime_app_private_data` succeeds. -/
structure PreserveSucceeds (r : Request) (app staged : Option ByteTree) : Prop where
  cache : ReplaceSucceeds r .cache r.faults.cache app (child staged PrivateDir.cache.name)
  data : ReplaceSucceeds r .data r.faults.data (appAfterReplace r .cache app) (child staged PrivateDir.data.name)
  files : MergeSucceeds r .files false r.faults.files
    (appAfterReplace r .data (appAfterReplace r .cache app)) (child staged PrivateDir.files.name)

theorem IsDir.stagedAfterReplace {f : ReplaceFaults} {app staged : Option ByteTree} (h : IsDir staged) :
    IsDir (stagedAfterReplace r dir f app staged) := by
  unfold Preservation.stagedAfterReplace
  split_ifs
  · exact (h.setChild _ _).setChild _ _
  · exact h

theorem child_stagedAfterReplace_of_ne {f : ReplaceFaults} {app staged : Option ByteTree} {name : Bytes}
    (h : dir.name ≠ name) : child (stagedAfterReplace r dir f app staged) name = child staged name := by
  unfold stagedAfterReplace
  split_ifs
  · rw [child_setChild_of_ne _ _ h, child_setChild_of_ne _ _ h]
  · rfl

theorem name_ne_name {a b : PrivateDir} (h : a ≠ b) : a.name ≠ b.name := by
  revert h
  cases a <;> cases b <;> decide

theorem preserveRuntimeAppPrivateData_eq_ok {oldAppDir stagedAppDir : Bytes} (hown : w.own = w.app)
    (hdir : IsDir w.staged) :
    preserveRuntimeAppPrivateData r oldAppDir stagedAppDir w = (.ok (), w') ↔ PreserveSucceeds r w.app w.staged ∧
      w' = { w with
        app := appAfterPreserve r w.app
        own := appAfterPreserve r w.app
        staged := stagedAfterPreserve r w.app w.staged } := by
  have hdata : child (stagedAfterReplace r .cache r.faults.cache w.app w.staged) PrivateDir.data.name =
      child w.staged PrivateDir.data.name := child_stagedAfterReplace_of_ne (by decide)
  have hfiles : child (stagedAfterData r w.app w.staged) PrivateDir.files.name =
      child w.staged PrivateDir.files.name := by
    rw [stagedAfterData, child_stagedAfterReplace_of_ne (by decide), child_stagedAfterReplace_of_ne (by decide)]
  unfold preserveRuntimeAppPrivateData
  simp only [bind_eq_ok, replaceDirectoryContents_eq_ok hown hdir]
  constructor
  · intro ⟨_, _, ⟨hcache, hw₁⟩, _, _, hw₂, hw₃⟩
    subst hw₁
    rw [replaceDirectoryContents_eq_ok rfl hdir.stagedAfterReplace] at hw₂
    obtain ⟨hdata', hw₂⟩ := hw₂
    subst hw₂
    rw [mergeDirectoryContents_eq_ok rfl] at hw₃
    obtain ⟨hfiles', hw₃⟩ := hw₃
    refine ⟨⟨hcache, ?_, ?_⟩, hw₃⟩
    · rw [← hdata]
      exact hdata'
    · rw [← hfiles]
      exact hfiles'
  · intro ⟨⟨hcache, hdata', hfiles'⟩, hw'⟩
    refine ⟨(), _, ⟨hcache, rfl⟩, (), _, (replaceDirectoryContents_eq_ok rfl hdir.stagedAfterReplace).mpr ⟨?_, rfl⟩,
      (mergeDirectoryContents_eq_ok rfl).mpr ⟨?_, hw'⟩⟩
    · rw [hdata]
      exact hdata'
    · exact hfiles ▸ hfiles'

end Brookesia.AppPackage.Preservation
