import Brookesia.AppPackage.Preservation

/-! # Is a replacement all or nothing?

A replacement that fails before the directory of the app is removed leaves the app as it was. From the
removal on there is no way back: an error leaves neither the record of the app nor its files. The theorem
says which requests fail in that part; they are the only ones that break the rule. -/

namespace Brookesia.AppPackage.AllOrNothing

open Filesystem.Path Filesystem.Tree Data.Json Data.Programs List
open Storage.Paths Storage.Trees
open Manifest Descriptor Zip
open Release Unpack
open Replacement Preservation
open SystemCore.Model (AppState)
open SystemCore.MessageDialogs (AppId)

def Contains (t part : Option ByteTree) : Prop :=
  ∀ path node, nodeAt part path = some node → nodeAt t path = some node

def Listed (installed : AppInfo) (w : World) : Prop :=
  ∃ a ∈ w.apps, a.appId = installed.appId ∧ a.manifest = installed.manifest

/-- The app is listed with its manifest, and its directory has all files that the app had there. -/
structure Kept (installed : AppInfo) (w : World) : Prop where
  listed : Listed installed w
  files : Contains w.app w.own

/-- The package is for an app that is installed. -/
structure Replaces (r : Request) (w : World) (installed : AppInfo) : Prop where
  found : w.apps.find? (·.manifest.id = installed.manifest.id) = some installed
  only : ∀ a ∈ w.apps, a.manifest.id = installed.manifest.id → a.appId = installed.appId
  kind : installed.manifest.kind = .runtime
  package : ∀ manifest, readPackageManifest r = .ok manifest → manifest.id = installed.manifest.id
  directory : IsDir w.app
  own : w.own = w.app

/-! ### Before the removal -/

/-- Nobody but the app has changed its directory, and it is listed. -/
def Untouched (installed : AppInfo) (w : World) : Prop := w.own = w.app ∧ Listed installed w

variable {r : Request} {w w' : World} {installed : AppInfo} {dir : PrivateDir}
variable {source destination label : Bytes}

theorem Untouched.kept (h : Untouched installed w) : Kept installed w :=
  ⟨h.2, fun path node hnode => by rw [← h.1]; exact hnode⟩

theorem keeps_appCalls (moment : Moment) : Keeps (Untouched installed) (appCalls r moment) :=
  Keeps.change fun w hw => ⟨congrArg (fun t => applyCalls t (r.calls moment)) hw.1, hw.2⟩

theorem keeps_onStaged (f : Option ByteTree → Except Bytes Unit × Option ByteTree) :
    Keeps (Untouched installed) (onStaged f) := fun _ h => h

theorem keeps_mergeDirectoryContents {overwrite : Bool} {f : MergeFaults} :
    Keeps (Untouched installed) (mergeDirectoryContents r dir source destination overwrite f) := by
  refine (keeps_appCalls _).bind fun _ => (Keeps.result _).bind fun _ => (Keeps.read _).bind fun t => ?_
  cases t with
  | none => exact Keeps.pure _
  | some t =>
    cases t with
    | file data => exact Keeps.result _
    | dir entries =>
      exact (keeps_appCalls _).bind fun _ =>
        ((Keeps.read _).bind fun _ => keeps_onStaged _).context

theorem keeps_replaceDirectoryContents {f : ReplaceFaults} :
    Keeps (Untouched installed) (replaceDirectoryContents r dir source destination label f) := by
  refine (keeps_appCalls _).bind fun _ => (Keeps.result _).bind fun _ => (Keeps.read _).bind fun t => ?_
  cases t with
  | none => exact Keeps.pure _
  | some t => exact (keeps_onStaged _).bind fun _ => keeps_mergeDirectoryContents

variable {id oldAppDir : Bytes} {p : Places}

theorem keeps_stage : Keeps (Untouched installed) (stage r p oldAppDir id) := by
  refine (Keeps.result _).bind fun ⟨manifest, t⟩ => ?_
  refine Keeps.bind (Keeps.change fun w hw => hw) fun _ => ?_
  refine (Keeps.require _ _).bind fun _ => (Keeps.result _).bind fun _ => ?_
  refine (Keeps.result _).context.bind fun _ => Keeps.bind (Keeps.context ?_) fun _ => Keeps.pure _
  exact keeps_replaceDirectoryContents.bind fun _ =>
    keeps_replaceDirectoryContents.bind fun _ => keeps_mergeDirectoryContents

theorem Listed.setState {appId : AppId} {state : AppState} (h : Listed installed w) :
    Listed installed { w with apps := setState appId state w.apps } := by
  obtain ⟨a, ha, hid, hman⟩ := h
  refine ⟨if a.appId = appId then { a with state := state } else a, mem_map_of_mem ha, ?_, ?_⟩
  · split_ifs
    · exact hid
    · exact hid
  · split_ifs
    · exact hman
    · exact hman

theorem keeps_stopApp : Keeps (Untouched installed) (stopApp r installed) := by
  unfold stopApp
  split_ifs
  · refine (keeps_appCalls _).bind fun _ => ?_
    split
    · exact (Keeps.change fun w hw => ⟨hw.1, hw.2.setState⟩).bind fun _ => Keeps.result _
    · exact Keeps.change fun w hw => ⟨hw.1, hw.2.setState⟩
  · exact Keeps.pure _

/-! ### Reaching the removal -/

def placesOf (r : Request) (installed : AppInfo) : Places :=
  places r (parentPath (lexicallyNormal installed.manifest.appPath).toText) installed.manifest.id

/-- Every check before the removal passes, and every step before it succeeds. -/
structure Reaches (r : Request) (w : World) (installed : AppInfo) (manifest : AppManifest)
    (t : ByteTree) : Prop where
  readManifest : ∃ m, readPackageManifest r = .ok m ∧ checkServiceRequirements r.services m = .ok ()
  safeName : isSafeAppDirectoryName installed.manifest.id = true
  appPath : installed.manifest.appPath ≠ []
  filename : (lexicallyNormal installed.manifest.appPath).filename = installed.manifest.id
  appRoot : (placesOf r installed).appRoot ≠ []
  mkdir : fsMkdir r.roots r.faults.appRoot (placesOf r installed).appRoot = .ok ()
  unpacked : unpackStaged r (placesOf r installed) = .ok (manifest, t)
  sameId : manifest.id = installed.manifest.id
  services : checkServiceRequirements r.services manifest = .ok ()
  descriptor : ∃ descriptor, readRuntimeAppResourceDescriptor r.libs.parseJson
    (readTextFile r.roots r.faults.stagedProfile (lexicallyNormal (placesOf r installed).stagedAppDir).names (some t))
    (readTextFile r.roots r.faults.stagedDocument
      (lexicallyNormal (placesOf r installed).stagedAppDir).names (some t)) manifest = .ok descriptor
  preserve : PreserveSucceeds r w.app (some t)
  stop : IsActive installed → r.faults.stop = none
  managed : isManagedAppDirectory r installed.manifest.appPath = true

/-- The files of the app when its directory is removed: the app has had all its calls. -/
def appAtRemoval (r : Request) (installed : AppInfo) (app : Option ByteTree) : Option ByteTree :=
  appAfter r .onUninstall
    (if IsActive installed then appAfter r .onStop (appAfterPreserve r app) else appAfterPreserve r app)

def atRemoval (r : Request) (w : World) (installed : AppInfo) (t : ByteTree) : World where
  apps := if IsActive installed then setState installed.appId .stopped w.apps else w.apps
  nextAppId := w.nextAppId
  app := appAtRemoval r installed w.app
  staged := stagedAfterPreserve r w.app (some t)
  own := appAtRemoval r installed w.app

/-! ### Each part, in closed form -/

theorem write_isDir {entries : ByteEntries} {path : FilePath} {data : Bytes} {t : ByteTree}
    (h : write (some (.dir entries)) path data = some t) : IsDir (some t) := by
  cases path with
  | nil => cases h
  | cons name path =>
    unfold Filesystem.Tree.write at h
    obtain ⟨child, _, rfl⟩ := Option.map_eq_some_iff.mp h
    exact ⟨_, rfl⟩

theorem stagedTree_isDir {stagedDir : FilePath} {written : List Written} {t : ByteTree}
    (h : stagedTree stagedDir written = some t) : IsDir (some t) := by
  unfold stagedTree at h
  suffices hfold : ∀ (written : List Written) (start : Option ByteTree), (∀ t, start = some t → IsDir (some t)) → ∀ t,
      written.foldl (fun t w => t.bind fun t => write (some t) (w.1.drop stagedDir.length) w.2) start =
        some t → IsDir (some t) from
    hfold written _ (fun t ht => by cases ht; exact ⟨_, rfl⟩) t h
  intro written
  induction written with
  | nil => exact fun start hstart => hstart
  | cons w written ih =>
    refine fun start hstart => ih _ fun t ht => ?_
    obtain ⟨t₀, ht₀, hwrite⟩ := Option.bind_eq_some_iff.mp ht
    obtain ⟨entries, hents⟩ := hstart t₀ ht₀
    rw [hents] at hwrite
    exact write_isDir hwrite

theorem unpackStaged_isDir {manifest : AppManifest} {t : ByteTree}
    (h : unpackStaged r p = .ok (manifest, t)) : IsDir (some t) := by
  unfold unpackStaged at h
  dsimp only at h
  split at h
  · cases h
  · cases h
  · next hstgd =>
    cases h
    exact stagedTree_isDir hstgd

theorem stage_eq_ok {manifest : AppManifest} (hown : w.own = w.app) :
    stage r p oldAppDir id w = (.ok manifest, w') ↔ ∃ t, unpackStaged r p = .ok (manifest, t) ∧ manifest.id = id ∧
      checkServiceRequirements r.services manifest = .ok () ∧
      (∃ descriptor, readRuntimeAppResourceDescriptor r.libs.parseJson
        (readTextFile r.roots r.faults.stagedProfile (lexicallyNormal p.stagedAppDir).names (some t))
        (readTextFile r.roots r.faults.stagedDocument (lexicallyNormal p.stagedAppDir).names (some t))
        manifest = .ok descriptor) ∧
      PreserveSucceeds r w.app (some t) ∧
      w' = { w with
        app := appAfterPreserve r w.app
        own := appAfterPreserve r w.app
        staged := stagedAfterPreserve r w.app (some t) } := by
  unfold stage
  rw [bind_result_eq_ok]
  constructor
  · intro ⟨⟨m, t⟩, hunp, h⟩
    have hdir : IsDir (some t) := unpackStaged_isDir hunp
    dsimp only at h
    rw [bind_change, bind_require_eq_ok, bind_result_eq_ok] at h
    obtain ⟨hid, _, hservs, h⟩ := h
    obtain ⟨descriptor, v, hread, h⟩ := bind_eq_ok.mp h
    obtain ⟨hdesc, rfl⟩ := result_eq_ok.mp (context_eq_ok.mp hread)
    obtain ⟨_, v', hkeep, hpure⟩ := bind_eq_ok.mp h
    rw [context_eq_ok] at hkeep
    replace hkeep :=
      (preserveRuntimeAppPrivateData_eq_ok (w := { w with staged := some t }) hown hdir).mp hkeep
    rw [pure_apply, Prod.mk.injEq, Except.ok.injEq] at hpure
    obtain ⟨rfl, rfl⟩ := hpure
    exact ⟨t, hunp, by simpa using hid, hservs, ⟨descriptor, hdesc⟩, hkeep⟩
  · intro ⟨t, hunp, hid, hservs, ⟨descriptor, hdesc⟩, hkeep⟩
    have hdir : IsDir (some t) := unpackStaged_isDir hunp
    refine ⟨(manifest, t), hunp, ?_⟩
    dsimp only
    rw [bind_change, bind_require_eq_ok, bind_result_eq_ok]
    refine ⟨by simpa using hid, (), hservs, bind_eq_ok.mpr ⟨descriptor, _,
      context_eq_ok.mpr (result_eq_ok.mpr ⟨hdesc, rfl⟩), bind_eq_ok.mpr ⟨(), w', ?_, rfl⟩⟩⟩
    rw [context_eq_ok]
    exact (preserveRuntimeAppPrivateData_eq_ok (w := { w with staged := some t }) hown hdir).mpr hkeep

theorem stopApp_eq_ok (hown : w.own = w.app) :
    stopApp r installed w = (.ok (), w') ↔ (IsActive installed → r.faults.stop = none) ∧ w' = if IsActive installed then
        { w with
          apps := setState installed.appId .stopped w.apps
          app := appAfter r .onStop w.app
          own := appAfter r .onStop w.app }
      else w := by
  unfold stopApp
  by_cases hact : IsActive installed
  · rw [if_pos hact, if_pos hact, bind_of_ok (appCalls_apply hown _)]
    cases hstop : r.faults.stop with
    | none =>
      show (Except.ok (), _) = _ ↔ _
      rw [Prod.mk.injEq, eq_comm (a := w')]
      simp
    | some error =>
      show (Except.error error, _) = _ ↔ _
      simp [hact]
  · rw [if_neg hact, if_neg hact, pure_apply, Prod.mk.injEq, eq_comm (a := w')]
    simp [hact]

/-- The directory of the app with what is staged inside it. -/
def wholeAtRemoval (r : Request) (w : World) (installed : AppInfo) (t : ByteTree) : Option ByteTree :=
  wholeAppDir r installed.manifest.id (atRemoval r w installed t)

/-- The world before an app is uninstalled, after its last call. -/
def beforeRemoval (r : Request) (w : World) (installed : AppInfo) : World where
  apps := if IsActive installed then setState installed.appId .stopped w.apps else w.apps
  nextAppId := w.nextAppId
  app := appAfter r .onUninstall (if IsActive installed then appAfter r .onStop w.app else w.app)
  staged := w.staged
  own := appAfter r .onUninstall (if IsActive installed then appAfter r .onStop w.app else w.app)

/-- The conditions under which `uninstall_app` removes the directory. -/
structure UninstallReaches (r : Request) (installed : AppInfo) : Prop where
  stop : IsActive installed → r.faults.stop = none
  appPath : installed.manifest.appPath ≠ []
  managed : isManagedAppDirectory r installed.manifest.appPath = true

theorem uninstallApp_of_reaches (hown : w.own = w.app) (hkind : installed.manifest.kind = .runtime)
    (h : UninstallReaches r installed) :
    uninstallApp r installed w = (removeAppDir r installed.manifest.id
      (lexicallyNormal installed.manifest.appPath).toText >>= fun _ =>
        change fun w => { w with apps := eraseApp installed.appId w.apps })
      (beforeRemoval r w installed) := by
  unfold uninstallApp
  rw [bind_of_ok ((stopApp_eq_ok hown).mpr ⟨h.stop, rfl⟩), bind_of_ok (appCalls_apply ?_ _)]
  · simp only [hkind, if_true]
    rw [bind_require_of (by simpa using h.appPath), bind_require_of h.managed]
    unfold beforeRemoval
    split_ifs with hact <;> rfl
  · split_ifs
    · rfl
    · exact hown

theorem uninstallApp_fails_or (hkind : installed.manifest.kind = .runtime) (hw : Untouched installed w) :
    Fails (Untouched installed) (uninstallApp r installed) w ∨ UninstallReaches r installed := by
  unfold uninstallApp
  refine keeps_stopApp.bind_fails_or hw fun _ v hstop hv => ?_
  refine (keeps_appCalls _).bind_fails_or hv fun _ u _ hu => ?_
  simp only [hkind, if_true]
  refine (Keeps.require _ _).bind_fails_or hu fun _ u' hpath hu' => ?_
  refine (Keeps.require _ _).bind_fails_or hu' fun _ _ hmanaged _ => .inr ?_
  exact ⟨((stopApp_eq_ok hw.1).mp hstop).1, by simpa using (require_eq_ok.mp hpath).1, (require_eq_ok.mp hmanaged).1⟩

/-! ### The request fails before the removal, or reaches it -/

theorem Replaces.listed (h : Replaces r w installed) : Listed installed w :=
  ⟨installed, mem_of_find?_eq_some h.found, rfl, rfl⟩

theorem Replaces.untouched (h : Replaces r w installed) : Untouched installed w := ⟨h.own, h.listed⟩

theorem exchange_fails_or (h : Replaces r w installed) :
    Fails (Untouched installed) (exchange r p oldAppDir installed.manifest.id installed) w ∨
      ∃ manifest w', stage r p oldAppDir installed.manifest.id w = (.ok manifest, w') ∧
        UninstallReaches r installed := by
  refine keeps_stage.bind_fails_or h.untouched fun manifest v hstg hv => ?_
  rcases uninstallApp_fails_or (r := r) h.kind hv with hfails | hrch
  · exact .inl (hfails.context.bind _)
  · exact .inr ⟨manifest, v, hstg, hrch⟩

theorem keeps_cleanupStaging : Keeps (Untouched installed) (cleanupStaging r p) :=
  keeps_onStaged _

theorem mapError_eq_ok {α : Type} {g : Bytes → Bytes} {x : Except Bytes α} {a : α} :
    x.mapError g = .ok a ↔ x = .ok a := by
  cases x <;> simp [Except.mapError]

theorem replacement_fails_or (freshInstall : AppManifest → Program World Bytes AppId) (h : Replaces r w installed) :
    Fails (Untouched installed) (installRuntimeAppPackage r freshInstall) w ∨
      ∃ manifest t, Reaches r w installed manifest t := by
  unfold installRuntimeAppPackage
  rw [context_result]
  refine Fails.result_or h.untouched fun m hm => ?_
  have hread := mapError_eq_ok.mp hm
  have hid : m.id = installed.manifest.id := h.package m hread
  rw [hid]
  refine Fails.require_or h.untouched fun hsafe => ?_
  refine Fails.read_or ?_
  rw [h.found]
  dsimp only
  unfold replaceInstalled
  rw [hid]
  refine Fails.result_or h.untouched fun _ hservs => Fails.require_or h.untouched fun hpath =>
    Fails.require_or h.untouched fun hname => Fails.require_or h.untouched fun hroot =>
    Fails.result_or h.untouched fun _ hmkdir => ?_
  rcases exchange_fails_or h with hfails | ⟨manifest, v, hstg, hrch⟩
  · exact .inl ((hfails.onError keeps_cleanupStaging).bind _)
  · obtain ⟨t, hunp, hsame, hservs', hdesc, hkeep, _⟩ := (stage_eq_ok h.own).mp hstg
    exact .inr ⟨manifest, t, ⟨m, hread, hservs⟩, hsafe, hrch.appPath, by simpa using hname,
      of_decide_eq_true hroot, mapError_eq_ok.mp hmkdir, hunp, hsame, hservs', hdesc, hkeep,
      hrch.stop, hrch.managed⟩

/-! ### The removal -/

variable {manifest : AppManifest} {t : ByteTree}

/-- The part of the replacement that is left when all checks before it have passed. -/
theorem replacement_of_reaches (h : Replaces r w installed) (hr : Reaches r w installed manifest t) :
    installRuntimeAppPackage r freshInstall w =
      (onError (exchange r (placesOf r installed) (lexicallyNormal installed.manifest.appPath).toText
          installed.manifest.id installed) (cleanupStaging r (placesOf r installed)) >>= fun manifest =>
        cleanupStaging r (placesOf r installed) >>= fun _ =>
          installReplaced r (placesOf r installed) manifest) w := by
  obtain ⟨m, hread, hservs⟩ := hr.readManifest
  have hid : m.id = installed.manifest.id := h.package m hread
  unfold installRuntimeAppPackage
  rw [bind_of_ok (context_eq_ok.mpr (result_eq_ok.mpr ⟨hread, rfl⟩)), hid, bind_require_of hr.safeName,
    bind_read, h.found]
  dsimp only
  have hroot : parentPath (lexicallyNormal installed.manifest.appPath).toText ≠ [] := hr.appRoot
  have hmkdir : fsMkdir r.roots r.faults.appRoot
      (parentPath (lexicallyNormal installed.manifest.appPath).toText) = .ok () := hr.mkdir
  unfold replaceInstalled
  rw [hid, bind_of_ok (result_eq_ok.mpr ⟨hservs, rfl⟩), bind_require_of (by simpa using hr.appPath),
    bind_require_of (by simpa using hr.filename), bind_require_of (decide_eq_true hroot),
    bind_of_ok (context_eq_ok.mpr (result_eq_ok.mpr ⟨hmkdir, rfl⟩))]
  rfl

def afterRemoval (r : Request) (w : World) (installed : AppInfo) (t : ByteTree) : World where
  apps := eraseApp installed.appId (atRemoval r w installed t).apps
  nextAppId := w.nextAppId
  app := none
  staged :=
    if installed.manifest.id = installing then none else stagedAfterPreserve r w.app (some t)
  own := appAtRemoval r installed w.app

theorem removeAppDir_apply (id path : Bytes) : removeAppDir r id path w =
    ((removeTree r.faults.removal (text "runtime app directory") path (wholeAppDir r id w)).1, { w with
      app := removalLeft r.faults.removal (wholeAppDir r id w)
      staged := if id = installing then
          child (child (removalLeft r.faults.removal (wholeAppDir r id w)) (stagingName r id)) id
        else w.staged }) := by
  unfold removeAppDir
  dsimp only
  rw [removeTree_snd]

def afterPreserve (r : Request) (w : World) (t : ByteTree) : World where
  apps := w.apps
  nextAppId := w.nextAppId
  app := appAfterPreserve r w.app
  staged := stagedAfterPreserve r w.app (some t)
  own := appAfterPreserve r w.app

theorem stage_of_reaches (h : Replaces r w installed) (hr : Reaches r w installed manifest t) :
    stage r (placesOf r installed) oldAppDir installed.manifest.id w = (.ok manifest, afterPreserve r w t) :=
  (stage_eq_ok h.own).mpr ⟨t, hr.unpacked, hr.sameId, hr.services, hr.descriptor, hr.preserve, rfl⟩

theorem uninstallApp_afterPreserve (h : Replaces r w installed) (hr : Reaches r w installed manifest t) :
    uninstallApp r installed (afterPreserve r w t) = (removeAppDir r installed.manifest.id
      (lexicallyNormal installed.manifest.appPath).toText >>= fun _ =>
        change fun w => { w with apps := eraseApp installed.appId w.apps }) (atRemoval r w installed t) :=
  uninstallApp_of_reaches rfl h.kind ⟨hr.stop, hr.appPath, hr.managed⟩

/-- A removal that fails: the app stays listed, with the files that the removal has left. -/
structure RemovalFailed (r : Request) (w : World) (installed : AppInfo) (t : ByteTree) (w' : World) :
    Prop where
  apps : w'.apps = (atRemoval r w installed t).apps
  app : w'.app = removalLeft r.faults.removal (wholeAtRemoval r w installed t)
  own : w'.own = appAtRemoval r installed w.app

theorem replacement_of_removal_fails
    (freshInstall : AppManifest → Program World Bytes AppId) (h : Replaces r w installed)
    (hr : Reaches r w installed manifest t)
    (hfails : ¬ RemovalSucceeds r.faults.removal (wholeAtRemoval r w installed t)) :
    Fails (RemovalFailed r w installed t) (installRuntimeAppPackage r freshInstall) w := by
  have hrmv : Fails (RemovalFailed r w installed t) (removeAppDir r installed.manifest.id
      (lexicallyNormal installed.manifest.appPath).toText) (atRemoval r w installed t) := by
    cases hres : (removeTree r.faults.removal (text "runtime app directory")
      (lexicallyNormal installed.manifest.appPath).toText (wholeAtRemoval r w installed t)).1 with
    | ok _ => exact absurd ((removeTree_ok_iff _ _).mp hres) hfails
    | error error =>
      exact ⟨error, _, (removeAppDir_apply _ _).trans (Prod.ext hres rfl), ⟨rfl, rfl, rfl⟩⟩
  have huninstall : Fails (RemovalFailed r w installed t) (uninstallApp r installed) (afterPreserve r w t) := by
    obtain ⟨error, w', hrun, hw'⟩ := hrmv.bind fun _ =>
      change fun w => { w with apps := eraseApp installed.appId w.apps }
    exact ⟨error, w', (uninstallApp_afterPreserve h hr).trans hrun, hw'⟩
  have hexch : Fails (RemovalFailed r w installed t) (exchange r (placesOf r installed)
      (lexicallyNormal installed.manifest.appPath).toText installed.manifest.id installed) w :=
    Fails.after (stage_of_reaches h hr) (huninstall.context.bind _)
  obtain ⟨error, w', hrun, hw'⟩ := (hexch.onError (fun v hv => ⟨hv.apps, hv.app, hv.own⟩ :
      Keeps (RemovalFailed r w installed t) (cleanupStaging r (placesOf r installed)))).bind
    fun manifest => cleanupStaging r (placesOf r installed) >>= fun _ =>
      installReplaced r (placesOf r installed) manifest
  exact ⟨error, w', (replacement_of_reaches h hr).trans hrun, hw'⟩

theorem exchange_of_removed (h : Replaces r w installed) (hr : Reaches r w installed manifest t)
    (hrem : RemovalSucceeds r.faults.removal (wholeAtRemoval r w installed t)) :
    exchange r (placesOf r installed) (lexicallyNormal installed.manifest.appPath).toText
        installed.manifest.id installed w =
      (context (fun error => text "Failed to move staged runtime app to final directory" ++
          quoted (placesOf r installed).installDir ++ text ": " ++ error) (renameStaged r) >>= fun _ =>
        pure manifest) (afterRemoval r w installed t) := by
  have huninstall : uninstallApp r installed (afterPreserve r w t) = (.ok (), afterRemoval r w installed t) := by
    rw [uninstallApp_afterPreserve h hr, bind_of_ok ((removeAppDir_apply _ _).trans
      (Prod.ext ((removeTree_ok_iff _ _).mpr hrem) rfl))]
    have hleft : removalLeft r.faults.removal
        (wholeAppDir r installed.manifest.id (atRemoval r w installed t)) = none := hrem.left
    unfold change afterRemoval
    rw [hleft]
    rfl
  unfold exchange
  rw [bind_of_ok (stage_of_reaches h hr), bind_of_ok (context_eq_ok.mpr huninstall)]

/-! ### After the removal -/

/-- The conditions under which the rest of the replacement succeeds: everything after the removal of the
old app. -/
structure Completes (r : Request) (installed : AppInfo) (manifest : AppManifest)
    (staged : Option ByteTree) : Prop where
  notNested : installed.manifest.id ≠ installing
  rename : r.faults.rename = none
  descriptor : ∃ descriptor,
    readInstalledDescriptor r staged { manifest with appPath := (placesOf r installed).installDir } =
      .ok descriptor ∧ validateGuiDescriptor r.maxZOrder .runtime descriptor.gui = .ok ()
  storagePaths : r.storagePathsAreCached = false → r.faults.install.storagePaths = none ∧
    (r.isOnVolume = true → ∀ dir : PrivateDir, ∀ data, child staged dir.name ≠ some (.file data))
  guiPreparation : r.faults.install.guiPreparation = none
  onAppInstalled : r.faults.install.onAppInstalled = none

def Gone (installed : AppInfo) (w : World) : Prop := ¬ Listed installed w

theorem afterRemoval_gone : Gone installed (afterRemoval r w installed t) := by
  intro ⟨a, ha, hid, _⟩
  exact (of_decide_eq_true (mem_filter.mp ha).2) hid

theorem isDir_stagedAfterPreserve {app staged : Option ByteTree} (h : IsDir staged) :
    IsDir (stagedAfterPreserve r app staged) :=
  h.stagedAfterReplace.stagedAfterReplace.setChild _ _

/-- The world after the staged directory is moved to its place. -/
def afterRename (r : Request) (w : World) (installed : AppInfo) (t : ByteTree) : World :=
  { afterRemoval r w installed t with
    app := stagedAfterPreserve r w.app (some t)
    staged := none }

theorem renameStaged_of (hr : Reaches r w installed manifest t) (hren : r.faults.rename = none)
    (hnest : installed.manifest.id ≠ installing) :
    renameStaged r (afterRemoval r w installed t) = (.ok (), afterRename r w installed t) := by
  obtain ⟨entries, hstgd⟩ : IsDir (stagedAfterPreserve r w.app (some t)) :=
    isDir_stagedAfterPreserve (unpackStaged_isDir hr.unpacked)
  unfold renameStaged afterRename afterRemoval
  rw [hren, if_neg hnest, hstgd]

theorem keeps_renameStaged : Keeps (Gone installed) (renameStaged r) := by
  intro v hv
  unfold renameStaged
  split
  · exact hv
  · exact hv
  · exact hv
  · exact hv
  · exact hv

theorem renameStaged_fails_or (r : Request) (w : World) (installed : AppInfo) (t : ByteTree) :
    Fails (Gone installed) (renameStaged r) (afterRemoval r w installed t) ∨
      r.faults.rename = none ∧ installed.manifest.id ≠ installing := by
  have hgone : Gone installed (renameStaged r (afterRemoval r w installed t)).2 :=
    keeps_renameStaged _ afterRemoval_gone
  unfold Fails
  by_cases hnest : installed.manifest.id = installing
  · left
    unfold renameStaged afterRemoval at hgone ⊢
    rw [if_pos hnest] at hgone ⊢
    cases hren : r.faults.rename with
    | some error => exact ⟨_, _, rfl, by rw [hren] at hgone; exact hgone⟩
    | none => exact ⟨_, _, rfl, by rw [hren] at hgone; exact hgone⟩
  · cases hren : r.faults.rename with
    | none => exact .inr ⟨rfl, hnest⟩
    | some error =>
      left
      unfold renameStaged at hgone ⊢
      rw [hren] at hgone ⊢
      exact ⟨_, _, rfl, hgone⟩

/-! ### Installing -/

/-- Nothing stands in the way of the private directories. -/
def NoFileInTheWay (t : Option ByteTree) : Prop :=
  ∀ dir : PrivateDir, ∀ data, child t dir.name ≠ some (.file data)

theorem noFileInTheWay_iff (t : Option ByteTree) :
    (([PrivateDir.cache, .data, .files].map fun dir => child t dir.name).all
      fun | some (.file _) => false | _ => true) = true ↔ NoFileInTheWay t := by
  rw [all_map, all_eq_true]
  constructor
  · intro h dir data hfile
    have hdir := h dir (by cases dir <;> simp)
    rw [Function.comp_apply, hfile] at hdir
    cases hdir
  · intro h dir _
    rw [Function.comp_apply]
    split
    · next data hfile => exact absurd hfile (h dir data)
    · rfl

/-- The conditions under which the storage paths of the new app can be made. -/
def StoragePathsSucceed (r : Request) (t : Option ByteTree) : Prop :=
  r.storagePathsAreCached = false → r.faults.install.storagePaths = none ∧ (r.isOnVolume = true → NoFileInTheWay t)

theorem ensureAppStoragePaths_fails_or (id : Bytes) (hw : Gone installed w) :
    Fails (Gone installed) (ensureAppStoragePaths r id) w ∨ StoragePathsSucceed r w.app := by
  unfold ensureAppStoragePaths
  refine Fails.require_or hw fun _ => ?_
  by_cases hcchd : r.storagePathsAreCached = true
  · exact .inr fun hno => by simp [hcchd] at hno
  · rw [if_neg hcchd]
    refine Fails.result_or hw fun _ hpaths => ?_
    have hpaths : r.faults.install.storagePaths = none := by
      cases hfault : r.faults.install.storagePaths with
      | none => rfl
      | some error =>
        rw [hfault] at hpaths
        cases hpaths
    by_cases hvol : r.isOnVolume = true
    · rw [if_pos hvol]
      refine Fails.read_or (Fails.require_or hw fun hfiles => .inr fun _ => ⟨hpaths, fun _ => ?_⟩)
      exact (noFileInTheWay_iff _).mp hfiles
    · exact .inr fun _ => ⟨hpaths, fun hyes => absurd hyes hvol⟩

/-- The tree is as before, or it has got the private directories that were missing. -/
def Furnished (t t' : Option ByteTree) : Prop :=
  t' = t ∨ t' = ensureDir (ensureDir (ensureDir t .cache) .data) .files

theorem ensureAppStoragePaths_of (hid : isSafeAppDirectoryName id = true)
    (h : StoragePathsSucceed r w.app) : ∃ w', ensureAppStoragePaths r id w = (.ok (), w') ∧
      w'.own = w.own ∧ Furnished w.app w'.app := by
  unfold ensureAppStoragePaths
  rw [bind_require_of hid]
  by_cases hcchd : r.storagePathsAreCached = true
  · rw [if_pos hcchd]
    exact ⟨w, rfl, rfl, .inl rfl⟩
  · obtain ⟨hpaths, hvol⟩ := h (by simpa using hcchd)
    rw [if_neg hcchd, hpaths, bind_of_ok (show result (checked none _) w = (.ok (), w) from rfl)]
    by_cases hon : r.isOnVolume = true
    · rw [if_pos hon, bind_read, bind_require_of]
      · exact ⟨_, rfl, rfl, .inr rfl⟩
      · exact (noFileInTheWay_iff _).mpr (hvol hon)
    · rw [if_neg hon]
      exact ⟨w, rfl, rfl, .inl rfl⟩

theorem keeps_ensureAppStoragePaths : Keeps (Gone installed) (ensureAppStoragePaths r id) := by
  refine (Keeps.require _ _).bind fun _ => ?_
  split_ifs
  · exact Keeps.pure _
  · refine (Keeps.result _).bind fun _ => ?_
    exact (Keeps.read _).bind fun _ => (Keeps.require _ _).bind fun _ => Keeps.change fun _ h => h
  · exact (Keeps.result _).bind fun _ => Keeps.pure _

/-- The conditions under which a new app can be installed. -/
structure InstallSucceeds (r : Request) (t : Option ByteTree) (manifest : AppManifest) : Prop where
  descriptor : ∃ descriptor, readInstalledDescriptor r t manifest = .ok descriptor ∧
    validateGuiDescriptor r.maxZOrder .runtime descriptor.gui = .ok ()
  storagePaths : StoragePathsSucceed r t
  guiPreparation : r.faults.install.guiPreparation = none
  onAppInstalled : r.faults.install.onAppInstalled = none

theorem Gone.erase {a : AppInfo} (hw : Gone installed w) :
    Gone installed { w with apps := eraseApp a.appId (w.apps ++ [a]), nextAppId := a.appId + 1 } := by
  intro ⟨b, hb, hid, hman⟩
  obtain ⟨hb, hne⟩ := mem_filter.mp hb
  rcases mem_append.mp hb with hb | hb
  · exact hw ⟨b, hb, hid, hman⟩
  · rw [mem_singleton.mp hb] at hne
    exact absurd rfl (of_decide_eq_true hne)

theorem installRuntimeApp_fails_or (manifest : AppManifest) (hw : Gone installed w) :
    Fails (Gone installed) (installRuntimeApp r manifest) w ∨ InstallSucceeds r w.app manifest := by
  unfold installRuntimeApp
  refine Fails.require_or hw fun _ => Fails.read_or (Fails.require_or hw fun _ => Fails.read_or ?_)
  refine Fails.result_or hw fun descriptor hdesc => Fails.result_or hw fun _ hgui => ?_
  rcases ensureAppStoragePaths_fails_or (r := r) manifest.id hw with hfails | hpaths
  · exact .inl (hfails.bind _)
  · refine keeps_ensureAppStoragePaths.bind_fails_or hw fun _ v _ hv => Fails.read_or ?_
    by_cases hprep : r.faults.install.guiPreparation = none ∧ r.faults.install.onAppInstalled = none
    · exact .inr ⟨⟨descriptor, hdesc, hgui⟩, hpaths, hprep.1, hprep.2⟩
    · refine .inl (Fails.after rfl (Fails.bind ?_ _))
      obtain ⟨error, herror⟩ : ∃ error, (do
          checked r.faults.install.guiPreparation []
          checked r.faults.install.onAppInstalled [] : Except Bytes Unit) = .error error := by
        cases hgui : r.faults.install.guiPreparation with
        | some error => exact ⟨_, rfl⟩
        | none =>
          cases hhook : r.faults.install.onAppInstalled with
          | some error => exact ⟨_, rfl⟩
          | none => exact absurd ⟨hgui, hhook⟩ hprep
      refine ⟨error, _, onError_eq_error.mpr ⟨_, Prod.ext herror rfl, rfl⟩, ?_⟩
      exact hv.erase (a := newAppInfo v.nextAppId manifest descriptor)

theorem installRuntimeApp_of (manifest : AppManifest) (hid : isSafeAppDirectoryName manifest.id = true)
    (hfree : ∀ a ∈ w.apps, a.manifest.id ≠ manifest.id) (h : InstallSucceeds r w.app manifest) :
    ∃ appId w', installRuntimeApp r manifest w = (.ok appId, w') ∧ w'.own = w.own ∧ Furnished w.app w'.app := by
  obtain ⟨descriptor, hdesc, hgui⟩ := h.descriptor
  obtain ⟨v, hpaths, hown, hfurnished⟩ := ensureAppStoragePaths_of hid h.storagePaths
  have hne : manifest.id ≠ [] := by
    intro hemp
    rw [hemp] at hid
    cases hid
  have htaken : (!w.apps.any (·.manifest.id = manifest.id)) = true := by
    simpa using hfree
  unfold installRuntimeApp
  rw [bind_require_of (decide_eq_true hne), bind_read, bind_require_of htaken, bind_read,
    bind_of_ok (result_eq_ok.mpr ⟨hdesc, rfl⟩), bind_of_ok (result_eq_ok.mpr ⟨hgui, rfl⟩),
    bind_of_ok hpaths, bind_read, bind_change, h.guiPreparation, h.onAppInstalled]
  exact ⟨_, _, rfl, hown, hfurnished⟩

/-! ### The rule and its condition -/

theorem Completes.install {staged : Option ByteTree} (h : Completes r installed manifest staged) :
    InstallSucceeds r staged { manifest with appPath := (placesOf r installed).installDir } :=
  ⟨h.descriptor, h.storagePaths, h.guiPreparation, h.onAppInstalled⟩

theorem afterRemoval_free (h : Replaces r w installed) :
    ∀ a ∈ (afterRemoval r w installed t).apps, a.manifest.id ≠ installed.manifest.id := by
  intro a ha hid
  obtain ⟨ha, hne⟩ := mem_filter.mp ha
  refine of_decide_eq_true hne ?_
  unfold atRemoval at ha
  dsimp only at ha
  split_ifs at ha
  · obtain ⟨b, hb, rfl⟩ := mem_map.mp ha
    have hb' := h.only b hb
    split_ifs at hid ⊢
    · exact hb' hid
    · exact hb' hid
  · exact h.only a ha hid

theorem replacement_of_completes
    (freshInstall : AppManifest → Program World Bytes AppId) (h : Replaces r w installed) (hr : Reaches r w installed manifest t)
    (hrem : RemovalSucceeds r.faults.removal (wholeAtRemoval r w installed t))
    (hc : Completes r installed manifest (stagedAfterPreserve r w.app (some t))) :
    ∃ appId w', installRuntimeAppPackage r freshInstall w = (.ok appId, w') ∧ w'.own = appAtRemoval r installed w.app ∧
      Furnished (stagedAfterPreserve r w.app (some t)) w'.app := by
  have hexch : exchange r (placesOf r installed)
      (lexicallyNormal installed.manifest.appPath).toText installed.manifest.id installed w =
        (.ok manifest, afterRename r w installed t) := by
    rw [exchange_of_removed h hr hrem, bind_of_ok (context_eq_ok.mpr (renameStaged_of hr hc.rename hc.notNested))]
    rfl
  obtain ⟨v, hclean, happs, happ, hown⟩ : ∃ v, cleanupStaging r (placesOf r installed)
      (afterRename r w installed t) = (.ok (), v) ∧ v.apps = (afterRemoval r w installed t).apps ∧
        v.app = stagedAfterPreserve r w.app (some t) ∧ v.own = appAtRemoval r installed w.app :=
    ⟨_, rfl, rfl, rfl, rfl⟩
  obtain ⟨appId, w', hinst, hown', hfurnished⟩ := installRuntimeApp_of (w := v)
    { manifest with appPath := (placesOf r installed).installDir }
    (hr.sameId ▸ hr.safeName) (by rw [happs, hr.sameId]; exact afterRemoval_free h)
    (happ ▸ hc.install)
  refine ⟨appId, w', ?_, hown'.trans hown, happ ▸ hfurnished⟩
  rw [replacement_of_reaches h hr, bind_of_ok (onError_eq_ok.mpr hexch), bind_of_ok hclean]
  exact onError_eq_ok.mpr (context_eq_ok.mpr hinst)

theorem replacement_fails_or_completes
    (freshInstall : AppManifest → Program World Bytes AppId) (h : Replaces r w installed)
    (hr : Reaches r w installed manifest t)
    (hrem : RemovalSucceeds r.faults.removal (wholeAtRemoval r w installed t)) :
    Fails (Gone installed) (installRuntimeAppPackage r freshInstall) w ∨
      Completes r installed manifest (stagedAfterPreserve r w.app (some t)) := by
  suffices hrest : Fails (Gone installed) (onError (exchange r (placesOf r installed)
      (lexicallyNormal installed.manifest.appPath).toText installed.manifest.id installed)
        (cleanupStaging r (placesOf r installed)) >>= fun manifest =>
      cleanupStaging r (placesOf r installed) >>= fun _ =>
        installReplaced r (placesOf r installed) manifest) w ∨
      Completes r installed manifest (stagedAfterPreserve r w.app (some t)) by
    rcases hrest with ⟨error, w', hrun, hw'⟩ | hc
    · exact .inl ⟨error, w', (replacement_of_reaches h hr).trans hrun, hw'⟩
    · exact .inr hc
  have hcleanup : Keeps (Gone installed) (cleanupStaging r (placesOf r installed)) := fun _ hv => hv
  rcases renameStaged_fails_or r w installed t with
    hfails | ⟨hren, hnest⟩
  · have hexch : Fails (Gone installed) (exchange r (placesOf r installed)
        (lexicallyNormal installed.manifest.appPath).toText installed.manifest.id installed) w := by
      unfold Fails
      rw [exchange_of_removed h hr hrem]
      exact hfails.context.bind _
    exact .inl ((hexch.onError hcleanup).bind _)
  · have hexch : exchange r (placesOf r installed)
        (lexicallyNormal installed.manifest.appPath).toText installed.manifest.id installed w =
          (.ok manifest, afterRename r w installed t) := by
      rw [exchange_of_removed h hr hrem, bind_of_ok (context_eq_ok.mpr (renameStaged_of hr hren hnest))]
      rfl
    obtain ⟨v, hclean, hgone, happ⟩ : ∃ v, cleanupStaging r (placesOf r installed)
        (afterRename r w installed t) = (.ok (), v) ∧ Gone installed v ∧ v.app = stagedAfterPreserve r w.app (some t) :=
      ⟨_, rfl, afterRemoval_gone (r := r) (w := w) (t := t), rfl⟩
    rcases installRuntimeApp_fails_or (r := r)
        { manifest with appPath := (placesOf r installed).installDir } hgone with
      hfails | hinst
    · exact .inl (Fails.after (onError_eq_ok.mpr hexch) (Fails.after hclean (hfails.context.onError fun _ hv => hv)))
    · rw [happ] at hinst
      exact .inr ⟨hnest, hren, hinst.descriptor, hinst.storagePaths, hinst.guiPreparation, hinst.onAppInstalled⟩

/-! ### What the app leaves is a directory -/

theorem StorageCall.apply_isDir {t : Option ByteTree} (h : IsDir t) (call : StorageCall) : IsDir (call.apply t) := by
  cases call with
  | write dir relativePath data =>
    have hbased : IsDir (ensureDir t dir) := by
      unfold ensureDir
      split_ifs
      · exact h
      · exact h.setChild _ _
    obtain ⟨entries, hents⟩ := hbased
    show IsDir ((write (ensureDir t dir) (dir.name :: relativePath) data).elim (ensureDir t dir) some)
    rw [hents]
    cases hwrite : write (some (FileTree.dir entries)) (dir.name :: relativePath) data with
    | none => exact ⟨entries, rfl⟩
    | some t => exact write_isDir hwrite
  | remove dir relativePath faults => exact h.setChild _ _

theorem applyCalls_isDir {t : Option ByteTree} (h : IsDir t) (calls : List StorageCall) :
    IsDir (applyCalls t calls) := by
  unfold applyCalls
  induction calls generalizing t with
  | nil => exact h
  | cons call calls ih => exact ih (StorageCall.apply_isDir h call)

theorem appAfterMerge_isDir {t : Option ByteTree} (h : IsDir t) : IsDir (appAfterMerge r dir t) := by
  unfold appAfterMerge
  split_ifs
  · exact applyCalls_isDir (applyCalls_isDir h _) _
  · exact applyCalls_isDir h _

theorem appAfterReplace_isDir {t : Option ByteTree} (h : IsDir t) : IsDir (appAfterReplace r dir t) := by
  unfold appAfterReplace
  split_ifs
  · exact appAfterMerge_isDir (applyCalls_isDir h _)
  · exact applyCalls_isDir h _

theorem appAtRemoval_isDir {t : Option ByteTree} (h : IsDir t) : IsDir (appAtRemoval r installed t) := by
  have hkeep : IsDir (appAfterPreserve r t) :=
    appAfterMerge_isDir (appAfterReplace_isDir (appAfterReplace_isDir h))
  unfold appAtRemoval
  split_ifs
  · exact applyCalls_isDir (applyCalls_isDir hkeep _) _
  · exact applyCalls_isDir hkeep _

/-- The condition under which a request cannot break the rule. -/
def RemovalIsSafe (r : Request) (w : World) (installed : AppInfo) : Prop :=
  ∀ manifest t, Reaches r w installed manifest t →
    Contains (removalLeft r.faults.removal (wholeAtRemoval r w installed t)) (appAtRemoval r installed w.app) ∨
    RemovalSucceeds r.faults.removal (wholeAtRemoval r w installed t) ∧
      Completes r installed manifest (stagedAfterPreserve r w.app (some t))

theorem replacement_all_or_nothing_iff (freshInstall : AppManifest → Program World Bytes AppId)
    (h : Replaces r w installed) :
    (∀ error w', installRuntimeAppPackage r freshInstall w = (.error error, w') → Kept installed w') ↔
      RemovalIsSafe r w installed := by
  constructor
  · intro hkept manifest t hr
    by_cases hrem : RemovalSucceeds r.faults.removal (wholeAtRemoval r w installed t)
    · rcases replacement_fails_or_completes freshInstall h hr hrem with
        ⟨error, w', hrun, hgone⟩ | hc
      · exact absurd (hkept error w' hrun).listed hgone
      · exact .inr ⟨hrem, hc⟩
    · obtain ⟨error, w', hrun, hw'⟩ :=
        replacement_of_removal_fails freshInstall h hr hrem
      have hfiles := (hkept error w' hrun).files
      rw [hw'.app, hw'.own] at hfiles
      exact .inl hfiles
  · intro hsafe error w' hrun
    rcases replacement_fails_or freshInstall h with
      ⟨error', v, hrun', hv⟩ | ⟨manifest, t, hr⟩
    · rw [hrun] at hrun'
      cases hrun'
      exact hv.kept
    · rcases hsafe manifest t hr with hcont | ⟨hrem, hc⟩
      · have hnot : ¬ RemovalSucceeds r.faults.removal (wholeAtRemoval r w installed t) := by
          intro hrem
          obtain ⟨entries, hents⟩ : IsDir (appAtRemoval r installed w.app) :=
            appAtRemoval_isDir h.directory
          rw [hrem.left, hents] at hcont
          cases hcont [] .dir rfl
        obtain ⟨error', v, hrun', hv⟩ :=
          replacement_of_removal_fails freshInstall h hr hnot
        rw [hrun] at hrun'
        cases hrun'
        refine ⟨?_, by rw [hv.app, hv.own]; exact hcont⟩
        unfold Listed
        rw [hv.apps]
        unfold atRemoval
        dsimp only
        split_ifs
        · exact h.listed.setState
        · exact h.listed
      · obtain ⟨appId, v, hrun', _⟩ := replacement_of_completes freshInstall h hr hrem hc
        rw [hrun] at hrun'
        cases hrun'

/-! ### An update that is found to be invalid too late -/

def manifestText : Bytes :=
  text "\x7b\"package\":\x7b\"id\":\"a\",\"version\":\"2\"\x7d,\"runtime\":\x7b\"type\":\"Lua\",\"entry\":\"m\"\x7d\x7d"

def manifestValue : JsonValue :=
  .object [ (text "package", .object [(text "id", .string (text "a")), (text "version", .string (text "2"))]),
    (text "runtime", .object [(text "type", .string (text "Lua")), (text "entry", .string (text "m"))])]

def profileText (layer : String) : Bytes :=
  text ("\x7b\"root\":\"ui.json\",\"screen_flows\":[\x7b\"screen_flow\":\"f\",\"layer\":\"" ++ layer ++ "\"\x7d]\x7d")

def profileValue (layer : String) : JsonValue :=
  .object [ (text "root", .string (text "ui.json")), (text "screen_flows", .array [.object [
      (text "screen_flow", .string (text "f")), (text "layer", .string (text layer))]])]

def sampleLibraries : Libraries where
  inflateRawDeflate _ _ := .error (text "zlib inflate failed")
  parseJson json :=
    if json = manifestText then some manifestValue
    else if json = profileText "AppDefault" then some (profileValue "AppDefault")
    else if json = profileText "SystemTop" then some (profileValue "SystemTop")
    else if json = text "\x7b\x7d" then some (.object [])
    else none
  sha256 _ := .error (text "Failed to calculate SHA-256: ")
  parsePublicKey _ := .error (text "Failed to parse public key PEM: ")

/-- The update of an app to version 2, where nothing fails. -/
def update (layer : String) : Request where
  libs := sampleLibraries
  roots := [lexicallyNormal (text "/sd")]
  appScanRoots := [text "/sd/apps"]
  systemType := text "Phone"
  packagePath := text "/sd/a.bpk"
  package := storedArchive [(manifestFile, manifestText), (text "profile.json", profileText layer),
    (text "ui.json", text "\x7b\x7d")]
  now := text "1"

def sampleApp : AppInfo where
  appId := 1
  manifest := {
    id := text "a"
    name := text "a"
    version := text "1"
    kind := .runtime
    runtimeType := .lua
    appPath := text "/sd/apps/a"
    entry := text "m" }
  state := .running

def sampleTree : ByteTree :=
  .dir (.cons (text "data") (.dir (.cons (text "d") (.file [7]) .nil)) .nil)

def sampleWorld : World where
  apps := [sampleApp]
  nextAppId := 2
  app := some sampleTree
  own := some sampleTree

def sampleManifest : AppManifest where
  id := text "a"
  name := text "a"
  version := text "2"
  kind := .runtime
  runtimeType := .lua
  appPath := text "/sd"
  entry := text "m"

def noFreshInstall : AppManifest → Program World Bytes AppId := fun _ => result (.error [])

theorem update_replaces (layer : String) (h : readPackageManifest (update layer) = .ok sampleManifest) :
    Replaces (update layer) sampleWorld sampleApp where
  found := by decide +kernel
  only a ha _ := by rw [mem_singleton.mp ha]
  kind := rfl
  package manifest hread := by
    rw [h] at hread
    cases hread
    rfl
  directory := ⟨_, rfl⟩
  own := rfl

set_option maxRecDepth 10000 in
/-- A valid update succeeds, so its request meets the condition. -/
theorem replacement_all_or_nothing_iff_validUpdate : RemovalIsSafe (update "AppDefault") sampleWorld sampleApp := by
  have hread : readPackageManifest (update "AppDefault") = .ok sampleManifest := by decide +kernel
  have hok : (installRuntimeAppPackage (update "AppDefault") noFreshInstall sampleWorld).1 = .ok 2 := by
    decide +kernel
  refine (replacement_all_or_nothing_iff noFreshInstall (update_replaces "AppDefault" hread)).mp fun error w' hrun => ?_
  rw [hrun] at hok
  cases hok

set_option maxRecDepth 10000 in
/-- The update to a package with a wrong layer fails, where no step of the storage does, and neither the
app nor its data is left. -/
theorem invalidUpdate_loses : Replaces (update "SystemTop") sampleWorld sampleApp ∧
      ∃ error w', installRuntimeAppPackage (update "SystemTop") noFreshInstall sampleWorld =
        (.error error, w') ∧ w'.apps = [] ∧ ¬ Kept sampleApp w' := by
  have hread : readPackageManifest (update "SystemTop") = .ok sampleManifest := by decide +kernel
  have hrun : (installRuntimeAppPackage (update "SystemTop") noFreshInstall sampleWorld).1 =
      .error (text "Failed to install runtime app package: " ++
        text "Runtime app screen flows can only use AppDefault or AppTop layers") ∧
      (installRuntimeAppPackage (update "SystemTop") noFreshInstall sampleWorld).2.apps = [] := by
    decide +kernel
  refine ⟨update_replaces "SystemTop" hread, ?_⟩
  generalize installRuntimeAppPackage (update "SystemTop") noFreshInstall sampleWorld = ended at hrun ⊢
  obtain ⟨_, w'⟩ := ended
  obtain ⟨rfl, happs⟩ := hrun
  refine ⟨_, w', rfl, happs, fun hkept => ?_⟩
  obtain ⟨a, ha, _⟩ := hkept.listed
  rw [happs] at ha
  cases ha

end Brookesia.AppPackage.AllOrNothing
