import Brookesia.AppPackage.AllOrNothing

/-! # Does a replacement keep the private data?

The private data is copied before the app is stopped, so the new app gets what the old one had when the
copies were made. The theorem compares this with what the app has had at the end. -/

namespace Brookesia.AppPackage.PrivateData

open Filesystem.Path Filesystem.Tree Data.Programs
open Storage.Paths Storage.Trees
open Manifest
open Replacement Preservation
open AllOrNothing
open SystemCore.MessageDialogs (AppId)

/-- What the claim asks for: `data` and `cache` have exactly what the app had there, `files` has every
file of the app that the package does not supply. -/
structure KeepsPrivateData (package : ByteTree) (w : World) : Prop where
  exact : ∀ dir : PrivateDir, dir ≠ .files → ∀ name path,
    nodeAt w.app (dir.name :: name :: path) = nodeAt w.own (dir.name :: name :: path)
  files : ∀ path data, nodeAt w.own (PrivateDir.files.name :: path) = some (.file data) →
    (∀ supplied, package.node (PrivateDir.files.name :: path) ≠ some (.file supplied)) →
    nodeAt w.app (PrivateDir.files.name :: path) = some (.file data)

variable {r : Request} {w w' : World} {installed : AppInfo} {dir : PrivateDir}
variable {manifest : AppManifest} {t : ByteTree} {app staged : Option ByteTree}

/-! ### The trees stay well formed -/

theorem StorageCall.apply_wellFormed {t : Option ByteTree} (h : WellFormed t) (call : StorageCall) :
    WellFormed (call.apply t) := by
  cases call with
  | write dir relativePath data =>
    have hbased : WellFormed (ensureDir t dir) := by
      unfold ensureDir
      split_ifs
      · exact h
      · exact h.setChild _ trivial
    show WellFormed ((write (ensureDir t dir) (dir.name :: relativePath) data).elim (ensureDir t dir) some)
    cases hwrite : write (ensureDir t dir) (dir.name :: relativePath) data with
    | none => exact hbased
    | some t' =>
      have hwritten : WellFormed (write (ensureDir t dir) (dir.name :: relativePath) data) := hbased.write
      rw [hwrite] at hwritten
      exact hwritten
  | remove dir relativePath faults => exact removeAt_wellFormed h

theorem appAfter_wellFormed (h : WellFormed app) (moment : Moment) : WellFormed (appAfter r moment app) := by
  unfold appAfter applyCalls
  induction r.calls moment generalizing app with
  | nil => exact h
  | cons call calls ih => exact ih (StorageCall.apply_wellFormed h call)

theorem appAfterMerge_wellFormed (h : WellFormed app) : WellFormed (appAfterMerge r dir app) := by
  unfold appAfterMerge
  split_ifs
  · exact appAfter_wellFormed (appAfter_wellFormed h _) _
  · exact appAfter_wellFormed h _

theorem appAfterReplace_wellFormed (h : WellFormed app) : WellFormed (appAfterReplace r dir app) := by
  unfold appAfterReplace
  split_ifs
  · exact appAfterMerge_wellFormed (appAfter_wellFormed h _)
  · exact appAfter_wellFormed h _

/-! ### What is copied -/

/-- What `merge_directory_contents` copies: the directory of the app at that moment, if it had one when
it was looked for. -/
def merged (r : Request) (dir : PrivateDir) (app : Option ByteTree) : Option ByteTree :=
  if (child (appAfter r (.merge dir) app) dir.name).isSome then child (appAfterMerge r dir app) dir.name
  else none

/-- What the new app finds in a directory that is replaced: the directory of the old app at the moment of
the copy, or that of the package where the old app had none. -/
def replaced (r : Request) (dir : PrivateDir) (app package : Option ByteTree) : Option ByteTree :=
  if (child (appAfter r (.stat dir) app) dir.name).isSome then merged r dir (appAfter r (.stat dir) app)
  else package

theorem fsCopyTree_node {overwrite : Bool} {f : CopyFaults} {source destination : Option ByteTree}
    (hwf : WellFormed source) (hnew : overwrite = true → destination = none)
    (h : (fsCopyTree overwrite f source destination).1 = .ok ()) (path : FilePath) :
    nodeAt (fsCopyTree overwrite f source destination).2 path = (nodeAt destination path).or (nodeAt source path) := by
  unfold fsCopyTree at h ⊢
  cases source with
  | none => cases h
  | some source =>
    dsimp only at h ⊢
    cases hcopy : copyPathTree overwrite f source destination with
    | mk error copy =>
      rw [hcopy] at h
      cases error with
      | some error => cases h
      | none => exact copyPathTree_node source hwf hnew hcopy path

theorem mergedDir_node {overwrite : Bool} {f : MergeFaults} {destination : Option ByteTree}
    (hwf : WellFormed app) (hnew : overwrite = true → destination = none)
    (h : MergeSucceeds r dir overwrite f app destination) (path : FilePath) :
    nodeAt (mergedDir r dir overwrite f app destination) path =
      (nodeAt destination path).or (nodeAt (merged r dir app) path) := by
  unfold mergedDir merged
  split_ifs with hpres
  · exact fsCopyTree_node ((appAfterMerge_wellFormed hwf).child _) hnew (h.copied hpres) path
  · rw [nodeAt_none, Option.or_none]

theorem child_stagedAfterReplace {f : ReplaceFaults} (hstgd : IsDir staged) (hwf : WellFormed app)
    (h : ReplaceSucceeds r dir f app (child staged dir.name)) (path : FilePath) :
    nodeAt (child (stagedAfterReplace r dir f app staged) dir.name) path =
      nodeAt (replaced r dir app (child staged dir.name)) path := by
  unfold stagedAfterReplace replaced
  split_ifs with hpres
  · rw [(hstgd.setChild _ _).child_setChild,
      mergedDir_node (appAfter_wellFormed hwf _) (fun _ => rfl) (h.merge hpres), nodeAt_none,
      Option.none_or]
  · rfl

/-- What the new app finds in the directories that are replaced, and in `files`. -/
structure Found (r : Request) (app : Option ByteTree) (t : ByteTree) (new : Option ByteTree) : Prop where
  cache : ∀ path, nodeAt new (PrivateDir.cache.name :: path) =
    nodeAt (replaced r .cache app (child (some t) PrivateDir.cache.name)) path
  data : ∀ path, nodeAt new (PrivateDir.data.name :: path) =
    nodeAt (replaced r .data (appAfterReplace r .cache app) (child (some t) PrivateDir.data.name)) path
  files : ∀ path, nodeAt new (PrivateDir.files.name :: path) = (t.node (PrivateDir.files.name :: path)).or
      (nodeAt (merged r .files (appAfterReplace r .data (appAfterReplace r .cache app))) path)

theorem found_stagedAfterPreserve (hstgd : IsDir (some t)) (hwf : WellFormed app)
    (h : PreserveSucceeds r app (some t)) : Found r app t (stagedAfterPreserve r app (some t)) where
  cache path := by
    unfold stagedAfterPreserve stagedAfterData
    rw [nodeAt_cons, child_setChild_of_ne _ _ (by decide), child_stagedAfterReplace_of_ne (by decide)]
    exact child_stagedAfterReplace hstgd hwf h.cache path
  data path := by
    have hdata : child (stagedAfterReplace r .cache r.faults.cache app (some t)) PrivateDir.data.name =
        child (some t) PrivateDir.data.name := child_stagedAfterReplace_of_ne (by decide)
    unfold stagedAfterPreserve stagedAfterData
    rw [nodeAt_cons, child_setChild_of_ne _ _ (by decide), child_stagedAfterReplace
      hstgd.stagedAfterReplace (appAfterReplace_wellFormed hwf) (hdata ▸ h.data), hdata]
  files path := by
    have hfiles : child (stagedAfterData r app (some t)) PrivateDir.files.name =
        child (some t) PrivateDir.files.name := by
      unfold stagedAfterData
      rw [child_stagedAfterReplace_of_ne (by decide), child_stagedAfterReplace_of_ne (by decide)]
    have hdir : IsDir (stagedAfterData r app (some t)) := hstgd.stagedAfterReplace.stagedAfterReplace
    unfold stagedAfterPreserve
    rw [nodeAt_cons, hdir.child_setChild, hfiles, mergedDir_node
      (appAfterReplace_wellFormed (appAfterReplace_wellFormed hwf)) (fun h => by cases h) h.files,
      ← nodeAt_cons, nodeAt_some]

/-! ### Directories that are made at the end -/

/-- The entry is the same, or an empty directory has taken the place of nothing. -/
def Alike (c c' : Option ByteTree) : Prop := c' = c ∨ c = none ∧ c' = some (.dir .nil)

theorem Alike.trans {a b c : Option ByteTree} (hab : Alike a b) (hbc : Alike b c) : Alike a c := by
  rcases hbc with rfl | ⟨rfl, rfl⟩
  · exact hab
  · rcases hab with rfl | ⟨_, hno⟩
    · exact .inr ⟨rfl, rfl⟩
    · cases hno

theorem Alike.node_below {c c' : Option ByteTree} (h : Alike c c') (name : Bytes) (path : FilePath) :
    nodeAt c' (name :: path) = nodeAt c (name :: path) := by
  rcases h with rfl | ⟨rfl, rfl⟩
  · rfl
  · rfl

theorem Alike.node_file {c c' : Option ByteTree} (h : Alike c c') (path : FilePath) (data : Bytes) :
    nodeAt c' path = some (.file data) ↔ nodeAt c path = some (.file data) := by
  cases path with
  | cons name path => rw [h.node_below]
  | nil =>
    rcases h with rfl | ⟨rfl, rfl⟩
    · exact Iff.rfl
    · constructor
      · intro h
        cases h
      · intro h
        cases h

theorem ensureDir_isDir (h : IsDir app) (dir : PrivateDir) : IsDir (ensureDir app dir) := by
  unfold ensureDir
  split_ifs
  · exact h
  · exact h.setChild _ _

theorem alike_ensureDir (h : IsDir app) (dir d : PrivateDir) :
    Alike (child app d.name) (child (ensureDir app dir) d.name) := by
  unfold ensureDir
  split_ifs with hpres
  · exact .inl rfl
  · by_cases hd : dir = d
    · subst hd
      exact .inr ⟨by simpa using hpres, h.child_setChild _ _⟩
    · exact .inl (child_setChild_of_ne _ _ (name_ne_name hd))

theorem Furnished.alike {new : Option ByteTree} (h : Furnished app new) (hdir : IsDir app)
    (d : PrivateDir) : Alike (child app d.name) (child new d.name) := by
  rcases h with rfl | rfl
  · exact .inl rfl
  · exact ((alike_ensureDir hdir .cache d).trans (alike_ensureDir (ensureDir_isDir hdir _) .data d)).trans
      (alike_ensureDir (ensureDir_isDir (ensureDir_isDir hdir _) _) .files d)

/-! ### The condition -/

/-- What has been copied is what the app has at the end; the package has nothing of its own where the app
has had no `data` or `cache`, and no directory in the place of a file of the app. -/
structure CopiesAreFinal (r : Request) (installed : AppInfo) (app : Option ByteTree) (t : ByteTree) :
    Prop where
  cache : ∀ name path, nodeAt (replaced r .cache app (child (some t) PrivateDir.cache.name)) (name :: path) =
      nodeAt (appAtRemoval r installed app) (PrivateDir.cache.name :: name :: path)
  data : ∀ name path, nodeAt (replaced r .data (appAfterReplace r .cache app) (child (some t) PrivateDir.data.name))
        (name :: path) =
      nodeAt (appAtRemoval r installed app) (PrivateDir.data.name :: name :: path)
  files : ∀ path data, nodeAt (appAtRemoval r installed app) (PrivateDir.files.name :: path) = some (.file data) →
    (∀ supplied, t.node (PrivateDir.files.name :: path) ≠ some (.file supplied)) →
    t.node (PrivateDir.files.name :: path) = none ∧
      nodeAt (merged r .files (appAfterReplace r .data (appAfterReplace r .cache app))) path = some (.file data)

/-- An entry that is not a file and gives way to a file is missing. -/
theorem or_eq_file_iff {supplied kept : Option (Node Bytes)} {data : Bytes} (h : ∀ d, supplied ≠ some (.file d)) :
    supplied.or kept = some (.file data) ↔ supplied = none ∧ kept = some (.file data) := by
  cases supplied with
  | none => simp
  | some node =>
    cases node with
    | file d => exact absurd rfl (h d)
    | dir => simp

theorem keepsPrivateData_iff (hstgd : IsDir (some t)) (hwf : WellFormed app) (hkeep : PreserveSucceeds r app (some t))
    (hnew : Furnished (stagedAfterPreserve r app (some t)) w.app)
    (hown : w.own = appAtRemoval r installed app) :
    KeepsPrivateData t w ↔ CopiesAreFinal r installed app t := by
  have hfnd := found_stagedAfterPreserve hstgd hwf hkeep
  have hdir : IsDir (stagedAfterPreserve r app (some t)) := isDir_stagedAfterPreserve hstgd
  have hbelow : ∀ (d : PrivateDir) name path, nodeAt w.app (d.name :: name :: path) =
      nodeAt (stagedAfterPreserve r app (some t)) (d.name :: name :: path) := by
    intro d name path
    rw [nodeAt_cons, (Furnished.alike hnew hdir d).node_below, ← nodeAt_cons]
  have hfile : ∀ path data, nodeAt w.app (PrivateDir.files.name :: path) = some (.file data) ↔
      nodeAt (stagedAfterPreserve r app (some t)) (PrivateDir.files.name :: path) = some (.file data) := by
    intro path data
    rw [nodeAt_cons, (Furnished.alike hnew hdir .files).node_file, ← nodeAt_cons]
  constructor
  · intro hkeeps
    refine ⟨fun name path => ?_, fun name path => ?_, fun path data hdata hsupplied => ?_⟩
    · rw [← hfnd.cache, ← hbelow, ← hown]
      exact hkeeps.exact .cache (by decide) name path
    · rw [← hfnd.data, ← hbelow, ← hown]
      exact hkeeps.exact .data (by decide) name path
    · have hkept := hkeeps.files path data (hown ▸ hdata) hsupplied
      rw [hfile, hfnd.files] at hkept
      exact (or_eq_file_iff hsupplied).mp hkept
  · intro hfinal
    refine ⟨fun d hd name path => ?_, fun path data hdata hsupplied => ?_⟩
    · rw [hbelow, hown]
      cases d with
      | cache => rw [hfnd.cache, hfinal.cache]
      | data => rw [hfnd.data, hfinal.data]
      | files => exact absurd rfl hd
    · rw [hfile, hfnd.files]
      exact (or_eq_file_iff hsupplied).mpr (hfinal.files path data (hown ▸ hdata) hsupplied)

/-- A replacement that succeeds keeps the private data exactly when the copies are final. -/
theorem private_data_kept_iff (freshInstall : AppManifest → Program World Bytes AppId) {appId : AppId}
    (h : Replaces r w installed) (hwf : WellFormed w.app)
    (hrun : installRuntimeAppPackage r freshInstall w = (.ok appId, w')) :
    ∃ manifest t, unpackStaged r (placesOf r installed) = .ok (manifest, t) ∧
      (KeepsPrivateData t w' ↔ CopiesAreFinal r installed w.app t) := by
  rcases replacement_fails_or freshInstall h with ⟨error, v, hrun', _⟩ | ⟨manifest, t, hr⟩
  · rw [hrun] at hrun'
    cases hrun'
  · refine ⟨manifest, t, hr.unpacked, ?_⟩
    by_cases hrem : RemovalSucceeds r.faults.removal (wholeAtRemoval r w installed t)
    · rcases replacement_fails_or_completes freshInstall h hr hrem with
        ⟨error, v, hrun', _⟩ | hc
      · rw [hrun] at hrun'
        cases hrun'
      · obtain ⟨id, v, hrun', hown, hnew⟩ := replacement_of_completes freshInstall h hr hrem hc
        rw [hrun] at hrun'
        cases hrun'
        exact keepsPrivateData_iff (unpackStaged_isDir hr.unpacked) hwf hr.preserve hnew hown
    · obtain ⟨error, v, hrun', _⟩ := replacement_of_removal_fails freshInstall h hr hrem
      rw [hrun] at hrun'
      cases hrun'

/-! ### A file that is written while the app stops -/

/-- The valid update of an app that makes some calls in its `on_stop`. -/
def updateWith (calls : List StorageCall) : Request :=
  { update "AppDefault" with calls := fun moment => if moment = .onStop then calls else [] }

def lateWrite : List StorageCall := [.write .data [text "d"] [8]]

def dataFile (t : Option ByteTree) : Option (Node Bytes) := nodeAt t [text "data", text "d"]

theorem updateWith_replaces (calls : List StorageCall)
    (h : readPackageManifest (updateWith calls) = .ok sampleManifest) :
    Replaces (updateWith calls) sampleWorld sampleApp where
  found := by decide +kernel
  only a ha _ := by rw [List.mem_singleton.mp ha]
  kind := rfl
  package manifest hread := by
    rw [h] at hread
    cases hread
    rfl
  directory := ⟨_, rfl⟩
  own := rfl

set_option maxRecDepth 10000 in
/-- An app that writes nothing while it stops: the theorem holds of its update. -/
theorem private_data_kept_iff_quiet :
    ∃ w' manifest t, unpackStaged (updateWith []) (placesOf (updateWith []) sampleApp) =
        .ok (manifest, t) ∧ dataFile w'.app = some (.file [7]) ∧
      (KeepsPrivateData t w' ↔ CopiesAreFinal (updateWith []) sampleApp sampleWorld.app t) := by
  have hread : readPackageManifest (updateWith []) = .ok sampleManifest := by decide +kernel
  have hrun : (installRuntimeAppPackage (updateWith []) noFreshInstall sampleWorld).1 = .ok 2 ∧
      dataFile (installRuntimeAppPackage (updateWith []) noFreshInstall sampleWorld).2.app =
        some (.file [7]) := by decide +kernel
  obtain ⟨manifest, t, hunp, hiff⟩ := private_data_kept_iff noFreshInstall
    (updateWith_replaces [] hread) ⟨rfl, ⟨rfl, trivial, trivial⟩, trivial⟩ (Prod.ext hrun.1 rfl)
  exact ⟨_, manifest, t, hunp, hrun.2, hiff⟩

set_option maxRecDepth 10000 in
/-- What the app writes in its `on_stop` is lost: the new app finds the file as it was before. -/
theorem lateWrite_lost : Replaces (updateWith lateWrite) sampleWorld sampleApp ∧
      ∃ w', installRuntimeAppPackage (updateWith lateWrite) noFreshInstall sampleWorld = (.ok 2, w') ∧
        dataFile w'.own = some (.file [8]) ∧ dataFile w'.app = some (.file [7]) ∧
        ∀ package, ¬ KeepsPrivateData package w' := by
  have hread : readPackageManifest (updateWith lateWrite) = .ok sampleManifest := by decide +kernel
  have hrun : (installRuntimeAppPackage (updateWith lateWrite) noFreshInstall sampleWorld).1 = .ok 2 ∧
      dataFile (installRuntimeAppPackage (updateWith lateWrite) noFreshInstall sampleWorld).2.own = some (.file [8]) ∧
      dataFile (installRuntimeAppPackage (updateWith lateWrite) noFreshInstall sampleWorld).2.app =
        some (.file [7]) := by decide +kernel
  refine ⟨updateWith_replaces lateWrite hread, ?_⟩
  generalize installRuntimeAppPackage (updateWith lateWrite) noFreshInstall sampleWorld = ended at hrun ⊢
  obtain ⟨_, w'⟩ := ended
  obtain ⟨rfl, hown, happ⟩ := hrun
  refine ⟨w', rfl, hown, happ, fun package hkeeps => ?_⟩
  have hsame := hkeeps.exact .data (by decide) (text "d") []
  unfold dataFile at hown happ
  rw [show PrivateDir.data.name = text "data" from rfl, happ, hown] at hsame
  cases hsame

end Brookesia.AppPackage.PrivateData
