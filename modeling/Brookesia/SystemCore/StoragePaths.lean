import Brookesia.AppPackage.Replacement
import Brookesia.Filesystem.Directories
import Brookesia.SystemCore.StoragePreferences
import Brookesia.Transition.Machine

/-! # The storage paths of apps

`ensure_app_storage_paths` makes the directories of an app once, and answers from its cache afterwards; installing, replacing and
uninstalling apps removes directories. Here the file system is its directories: what a call of the storage does to them, whether it
fails or not, and where it stops if it does, is a part of the label. `answers` is kept for comparison. -/

namespace Brookesia.SystemCore.StoragePaths

open Filesystem Filesystem.Path Data.Programs Transition List Option
open Storage.Paths
open AppPackage.Manifest (AppKind)
open Brookesia.AppPackage.Replacement (PrivateDir checked quoted pathHasPrefix installing isSafeAppDirectoryName)
open MessageDialogs (AppId)
open Storage (StorageVolume StorageConfig KvReads Preferences AppStorageDirs AppStoragePaths getAppScanRoots
  getDefaultInstallAppRoot initializeStorageLayout setDefaultInstallStorage)

structure AppInfo where
  appId : AppId
  manifestId : Bytes
  kind : AppKind
  appPath : Bytes

/-- An answer of `ensure_app_storage_paths`, with the directories that had been removed when it was asked, and those that are there when
it answers. -/
structure Answer where
  paths : AppStoragePaths
  cached : Bool
  removed : List FilePath
  present : List FilePath

structure World where
  storage : Storage.State
  disk : Directories Bytes
  apps : List AppInfo
  nextAppId : AppId
  answers : List Answer

/-! ### Calls of the storage -/

/-- A failure, and how many of the directories of the path have been made before it. -/
abbrev MkdirOutcome := Option (Bytes × ℕ)

/-- A failure in the middle of a tree, and the directories that it leaves. -/
abbrev TreeOutcome := Option (Bytes × List FilePath)

variable (roots : List NormalPath)

def onDisk (f : Directories Bytes → Directories Bytes) : Program World Bytes Unit :=
  change fun w => { w with disk := f w.disk }

def isFileSystemRoot (path : FilePath) : Bool := roots.any (·.names == path)

def fsStat (outcome : Outcome) (path : Bytes) : Program World Bytes Bool := do
  let p ← result (resolveFileSystemPath roots path)
  result (checked outcome [])
  read fun w => w.disk.present.contains p

def fsMkdir (outcome : MkdirOutcome) (path : Bytes) : Program World Bytes Unit := do
  let p ← result (resolveFileSystemPath roots path)
  match outcome with
  | none => onDisk (·.make p.inits)
  | some (error, made) => do
    onDisk (·.make (p.inits.take made))
    result (.error error)

def fsRemove (outcome : TreeOutcome) (path : Bytes) : Program World Bytes Unit := do
  let p ← result (resolveFileSystemPath roots path)
  require (!isFileSystemRoot roots p) (text "Storage FS remove path must not be a mounted file-system root")
  match outcome with
  | none => onDisk (·.remove fun dir => p.isPrefixOf dir)
  | some (error, left) => do
    onDisk (·.remove fun dir => p.isPrefixOf dir && !left.contains dir)
    result (.error error)

def fsCopyTree (outcome : TreeOutcome) (source destination : Bytes) : Program World Bytes Unit := do
  let p ← result (resolveFileSystemPath roots source)
  let q ← result (resolveFileSystemPath roots destination)
  require (!isFileSystemRoot roots q) (text "Storage FS copy destination must not be a mounted file-system root")
  require (!p.isPrefixOf q) (text "Storage FS copy destination must not be inside source directory")
  let copies ← read fun w => q.inits ++ w.disk.moved p q
  match outcome with
  | none => onDisk (·.make copies)
  | some (error, made) => do
    onDisk (·.make (copies.filter made.contains))
    result (.error error)

def fsRename (parent : MkdirOutcome) (outcome : Outcome) (source destination : Bytes) : Program World Bytes Unit := do
  let p ← result (resolveFileSystemPath roots source)
  let q ← result (resolveFileSystemPath roots destination)
  require (!(isFileSystemRoot roots p || isFileSystemRoot roots q))
    (text "Storage FS rename source/destination must not be a mounted file-system root")
  match parent with
  | some (error, made) => do
    onDisk (·.make (q.dropLast.inits.take made))
    result (.error error)
  | none => do
    onDisk (·.make q.dropLast.inits)
    result (checked outcome [])
    let possible ← read fun w => w.disk.present.contains p && !w.disk.present.any fun dir => q.isPrefixOf dir && dir != q
    require possible (text "Failed to rename Storage FS path")
    let moved ← read fun w => w.disk.moved p q
    onDisk (·.remove fun dir => p.isPrefixOf dir)
    onDisk (·.make moved)

/-! ### Trees of directories -/

structure RemovalOutcomes where
  statBefore : Outcome := none
  remove : TreeOutcome := none
  statAfter : Outcome := none

structure RemovalIfExistsOutcomes where
  stat : Outcome := none
  removal : RemovalOutcomes := {}

structure MergeOutcomes where
  stat : Outcome := none
  copy : TreeOutcome := none

structure ReplaceOutcomes where
  stat : Outcome := none
  remove : RemovalIfExistsOutcomes := {}
  merge : MergeOutcomes := {}

def failed (what path : Bytes) (error : Bytes) : Bytes := what ++ quoted path ++ text ": " ++ error

def removePathTree (o : RemovalOutcomes) (label path : Bytes) : Program World Bytes Unit := do
  require (path ≠ []) (text "Failed to remove " ++ label ++ text ": path is empty")
  let _ ← context (failed (text "Failed to check " ++ label ++ text " before removal") path) (fsStat roots o.statBefore path)
  context (failed (text "Failed to remove " ++ label) path) (fsRemove roots o.remove path)
  let after ← context (failed (text "Failed to check " ++ label ++ text " after removal") path) (fsStat roots o.statAfter path)
  require (!after) (text "Failed to remove " ++ label ++ quoted path ++ text ": path still exists after recursive removal")

def removePathTreeIfExists (o : RemovalIfExistsOutcomes) (label path : Bytes) : Program World Bytes Unit := do
  let present ← context (failed (text "Failed to check " ++ label) path) (fsStat roots o.stat path)
  if present then removePathTree roots o.removal label path else pure ()

def mergeDirectoryContents (o : MergeOutcomes) (source destination : Bytes) : Program World Bytes Unit := do
  let present ← context (failed (text "Failed to check source directory") source) (fsStat roots o.stat source)
  if present then
    context (failed (text "Failed to copy directory" ++ quoted source ++ text " to") destination)
      (fsCopyTree roots o.copy source destination)
  else pure ()

def replaceDirectoryContents (o : ReplaceOutcomes) (source destination label : Bytes) : Program World Bytes Unit := do
  let present ← context (failed (text "Failed to check " ++ label) source) (fsStat roots o.stat source)
  if present then do
    removePathTreeIfExists roots o.remove label destination
    mergeDirectoryContents roots o.merge source destination
  else pure ()

structure PreserveOutcomes where
  cache : ReplaceOutcomes := {}
  data : ReplaceOutcomes := {}
  files : MergeOutcomes := {}

def preserveRuntimeAppPrivateData (o : PreserveOutcomes) (oldAppDir stagedAppDir : Bytes) : Program World Bytes Unit := do
  replaceDirectoryContents roots o.cache (append oldAppDir (text "cache")) (append stagedAppDir (text "cache"))
    (text "runtime app cache")
  replaceDirectoryContents roots o.data (append oldAppDir (text "data")) (append stagedAppDir (text "data")) (text "runtime app data")
  mergeDirectoryContents roots o.files (append oldAppDir (text "files")) (append stagedAppDir (text "files"))

/-! ### The paths -/

def makeAppDirs (volume : StorageVolume) (manifestId : Bytes) : AppStorageDirs :=
  let root := (lexicallyNormal (append (append volume.rootPath (text "apps")) manifestId)).toText
  { volumeId := volume.id
    available := volume.available
    root := root
    cache := append root (text "cache")
    data := append root (text "data")
    files := append root (text "files") }

def makeAppPaths (layout : Storage.StorageLayout) (manifestId : Bytes) : AppStoragePaths :=
  ⟨makeAppDirs layout.internal manifestId, layout.external.map fun volume => makeAppDirs volume manifestId⟩

def availableDirs (paths : AppStoragePaths) : List Bytes :=
  (paths.internal :: paths.external).flatMap fun dirs => if dirs.available then [dirs.cache, dirs.data, dirs.files] else []

def createDir (outcome : MkdirOutcome) (path : Bytes) : Program World Bytes Unit :=
  if path = [] then pure () else context (failed (text "Failed to create directory") path) (fsMkdir roots outcome path)

def createDirs (outcomes : ℕ → MkdirOutcome) : List Bytes → Program World Bytes Unit
  | [] => pure ()
  | dir :: dirs => do
    createDir roots (outcomes dirs.length) dir
    createDirs outcomes dirs

def answer (paths : AppStoragePaths) (cached : Bool) (removed : List FilePath) : Program World Bytes AppStoragePaths := do
  change fun w => { w with answers := ⟨paths, cached, removed, w.disk.present⟩ :: w.answers }
  return paths

def ensureAppStoragePaths (outcomes : ℕ → MkdirOutcome) (manifestId : Bytes) : Program World Bytes AppStoragePaths := do
  require (isSafeAppDirectoryName manifestId) (text "App manifest id is not a safe storage directory name: " ++ manifestId)
  let cached ← read (·.storage.appStoragePathsCache.lookup manifestId)
  let removed ← read (·.disk.removed)
  match cached with
  | some paths => answer paths true removed
  | none => do
    let paths ← read fun w => makeAppPaths w.storage.layout manifestId
    createDirs roots outcomes (availableDirs paths)
    change fun w => { w with
      storage := { w.storage with appStoragePathsCache := (manifestId, paths) :: w.storage.appStoragePathsCache } }
    answer paths false removed

/-! ### Installing and uninstalling -/

structure InstallOutcomes where
  descriptor : Outcome := none
  mkdirs : ℕ → MkdirOutcome := fun _ => none
  onInstall : Outcome := none
  guiPreparation : Outcome := none
  onAppInstalled : Outcome := none

def callOnInstall (o : InstallOutcomes) (kind : AppKind) : Program World Bytes Unit :=
  if kind = .native then result (checked o.onInstall []) else pure ()

def addApp (o : InstallOutcomes) (manifestId : Bytes) (kind : AppKind) (appPath : Bytes) : Program World Bytes AppId := do
  let appId ← read (·.nextAppId)
  change fun w => { w with nextAppId := w.nextAppId + 1 }
  callOnInstall o kind
  change fun w => { w with apps := w.apps ++ [⟨appId, manifestId, kind, appPath⟩] }
  onError (result do
      checked o.guiPreparation []
      checked o.onAppInstalled [])
    (change fun w => { w with apps := w.apps.filter (·.appId ≠ appId) })
  return appId

def installApp (o : InstallOutcomes) (manifestId appPath : Bytes) : Program World Bytes AppId := do
  require (manifestId ≠ []) (text "App manifest id is empty")
  let taken ← read fun w => w.apps.any (·.manifestId = manifestId)
  require (!taken) (text "App manifest id already installed")
  result (checked o.descriptor [])
  let _ ← ensureAppStoragePaths roots o.mkdirs manifestId
  addApp o manifestId .native appPath

def installRuntimeApp (o : InstallOutcomes) (manifestId appPath : Bytes) : Program World Bytes AppId := do
  require (manifestId ≠ []) (text "Runtime app manifest id is empty")
  let taken ← read fun w => w.apps.any (·.manifestId = manifestId)
  require (!taken) (text "App manifest id already installed")
  result (checked o.descriptor [])
  let _ ← ensureAppStoragePaths roots o.mkdirs manifestId
  addApp o manifestId .runtime appPath

def getRecord (appId : AppId) : Program World Bytes AppInfo := do
  let found ← read fun w => w.apps.find? (·.appId = appId)
  result (found.elim (.error (text "App not found")) .ok)

def isManagedAppDirectory (layout : Storage.StorageLayout) (path : Bytes) : Bool :=
  (getAppScanRoots layout).any fun root => pathHasPrefix path root && lexicallyNormal path ≠ lexicallyNormal root

def removeAppDirectory (o : RemovalOutcomes) (app : AppInfo) : Program World Bytes Unit :=
  if app.kind = .runtime then do
    require (app.appPath ≠ []) (text "Runtime app manifest app_path is empty")
    let appPath := (lexicallyNormal app.appPath).toText
    let managed ← read fun w => isManagedAppDirectory w.storage.layout appPath
    require managed (text "Refuse to remove runtime app directory outside managed app roots: " ++ appPath)
    removePathTree roots o (text "runtime app directory") appPath
  else pure ()

/-- `stop` is the outcome of `stop_app`, if the app runs. -/
def uninstallApp (stop : Outcome) (o : RemovalOutcomes) (appId : AppId) : Program World Bytes Unit := do
  let app ← getRecord appId
  result (checked stop [])
  removeAppDirectory roots o app
  change fun w => { w with apps := w.apps.filter (·.appId ≠ appId) }

/-! ### Installing a package -/

structure PackageOutcomes where
  packageManifest : Except Bytes Bytes
  services : Outcome := none
  appRoot : MkdirOutcome := none
  stagingName : Bytes
  /-- The directories of the package, below the staging directory. -/
  unpacked : List FilePath := []
  unpackedManifest : Except Bytes Bytes
  unpackedServices : Outcome := none
  stagedDescriptor : Outcome := none
  preserve : PreserveOutcomes := {}
  stale : RemovalIfExistsOutcomes := {}
  stop : Outcome := none
  removal : RemovalOutcomes := {}
  renameParent : MkdirOutcome := none
  rename : Outcome := none
  cleanupStaging : RemovalIfExistsOutcomes := {}
  install : InstallOutcomes := {}
  installCleanup : RemovalOutcomes := {}

def unpackAppPackageTo (o : PackageOutcomes) (path : Bytes) : Program World Bytes Bytes := do
  let p ← result (resolveFileSystemPath roots path)
  onDisk (·.make (p.inits ++ o.unpacked.map (p ++ ·)))
  result o.unpackedManifest

/-- The directory that the apps are in: that of the app that is replaced, or the default one. -/
def appRootFor (installed : Option AppInfo) (id : Bytes) (layout : Storage.StorageLayout) : Except Bytes Bytes :=
  match installed with
  | some app =>
    let oldAppDir := lexicallyNormal app.appPath
    if app.appPath = [] then .error (text "Installed runtime app path is empty: " ++ id)
    else if oldAppDir.filename ≠ id then
      .error (text "Installed runtime app path does not match manifest id: " ++ oldAppDir.toText)
    else if parentPath oldAppDir.toText = [] then .error (text "Installed runtime app root is empty: " ++ id)
    else .ok (parentPath oldAppDir.toText)
  | none => (getDefaultInstallAppRoot layout).mapError text

/-- The old app is uninstalled, with its private data kept; without one, a stale directory is removed. -/
def makeWay (o : PackageOutcomes) (installed : Option AppInfo) (stagedAppDir installDir : Bytes) : Program World Bytes Unit :=
  match installed with
  | some app => do
    context (text "Failed to preserve existing app data: " ++ ·)
      (preserveRuntimeAppPrivateData roots o.preserve (lexicallyNormal app.appPath).toText stagedAppDir)
    context (text "Failed to uninstall existing app: " ++ ·) (uninstallApp roots o.stop o.removal app.appId)
  | none => removePathTreeIfExists roots o.stale (text "stale runtime app directory") installDir

/-- The steps that clean the staging directory up if they fail. -/
def exchange (o : PackageOutcomes) (installed : Option AppInfo) (id stagingParent installDir : Bytes) :
    Program World Bytes Unit := do
  let stagedAppDir := append stagingParent id
  let unpacked ← context (text "Failed to unpack runtime app package: " ++ ·) (unpackAppPackageTo roots o stagingParent)
  require (unpacked = id) (text "Runtime app package manifest changed while unpacking: " ++ id ++ text " -> " ++ unpacked)
  result (checked o.unpackedServices [])
  result (checked o.stagedDescriptor (text "Failed to validate staged runtime app package: "))
  makeWay roots o installed stagedAppDir installDir
  context (failed (text "Failed to move staged runtime app to final directory") installDir)
    (fsRename roots o.renameParent o.rename stagedAppDir installDir)

def installRuntimeAppPackage (o : PackageOutcomes) (replaceExisting : Bool) : Program World Bytes AppId := do
  let id ← context (text "Failed to read runtime app package manifest: " ++ ·) (result o.packageManifest)
  require (isSafeAppDirectoryName id) (text "Runtime app manifest id is not a safe directory name: " ++ id)
  let installed ← read fun w => w.apps.find? (·.manifestId = id)
  require (installed.isNone || replaceExisting) (text "Runtime app package is already installed: " ++ id)
  result (checked o.services [])
  let layout ← read (·.storage.layout)
  let appRoot ← result (appRootFor installed id layout)
  context (failed (text "Failed to create app root") appRoot) (fsMkdir roots o.appRoot appRoot)
  let stagingParent := append (append appRoot installing) o.stagingName
  let installDir := append appRoot id
  -- its own failures are not looked at
  let cleanup : Program World Bytes Unit := fun w =>
    (.ok (), (removePathTreeIfExists roots o.cleanupStaging (text "runtime app staging directory") stagingParent w).2)
  onError (exchange roots o installed id stagingParent installDir) cleanup
  cleanup
  onError (context (text "Failed to install runtime app package: " ++ ·) (installRuntimeApp roots o.install id installDir))
    (removePathTree roots o.installCleanup (text "runtime app directory") installDir)

def getAppStoragePaths (outcomes : ℕ → MkdirOutcome) (appId : AppId) : Program World Bytes AppStoragePaths := do
  let app ← getRecord appId
  ensureAppStoragePaths roots outcomes app.manifestId

/-! ### Histories -/

inductive Label
  | installApp (o : InstallOutcomes) (manifestId appPath : Bytes)
  | installRuntimeApp (o : InstallOutcomes) (manifestId appPath : Bytes)
  | installRuntimeAppPackage (o : PackageOutcomes) (replaceExisting : Bool)
  | uninstallApp (stop : Outcome) (o : RemovalOutcomes) (appId : AppId)
  | setDefaultInstallStorage (call : Storage.Call)
  | getAppStoragePaths (outcomes : ℕ → MkdirOutcome) (appId : AppId)

def setDefault (call : Storage.Call) : Program World Bytes Unit := fun w =>
  ((setDefaultInstallStorage w.storage call).1, { w with storage := (setDefaultInstallStorage w.storage call).2 })

def Label.run : Label → World → World
  | .installApp o manifestId appPath, w => (StoragePaths.installApp roots o manifestId appPath w).2
  | .installRuntimeApp o manifestId appPath, w => (StoragePaths.installRuntimeApp roots o manifestId appPath w).2
  | .installRuntimeAppPackage o replaceExisting, w => (StoragePaths.installRuntimeAppPackage roots o replaceExisting w).2
  | .uninstallApp stop o appId, w => (StoragePaths.uninstallApp roots stop o appId w).2
  | .setDefaultInstallStorage call, w => (setDefault call w).2
  | .getAppStoragePaths outcomes appId, w => (StoragePaths.getAppStoragePaths roots outcomes appId w).2

def start (internal : StorageVolume) (external : List StorageVolume) (config : StorageConfig) (reads : KvReads) (kv : Preferences)
    (present : List FilePath) : World where
  storage := initializeStorageLayout internal external config reads kv
  disk := ⟨present, []⟩
  apps := []
  nextAppId := 1
  answers := []

def machine : Machine World Label where
  init w := ∃ internal external config reads kv present, w = start internal external config reads kv present
  step w label := some (label.run roots w)

/-! ### What the histories keep -/

/-- The directories of the available volumes are there when the answer is given. -/
def Answer.Exist (a : Answer) : Prop :=
  ∀ dir ∈ availableDirs a.paths, ∃ p, resolveFileSystemPath roots dir = .ok p ∧ p ∈ a.present

/-- The answer is not from the cache, or none of its directories had been removed, and not made again, when it was asked for. -/
def Answer.Fresh (a : Answer) : Prop :=
  a.cached = true → ∀ dir ∈ availableDirs a.paths, ∀ p, resolveFileSystemPath roots dir = .ok p → p ∉ a.removed

/-- The directories of the cache have been made. -/
structure Inv (w : World) : Prop where
  consistent : w.disk.Consistent
  cache : ∀ entry ∈ w.storage.appStoragePathsCache, ∀ dir ∈ availableDirs entry.2,
    ∃ p, resolveFileSystemPath roots dir = .ok p ∧ w.disk.Known p
  answers : ∀ a ∈ w.answers, a.Exist roots ↔ a.Fresh roots

variable {roots} {w : World}

theorem keeps_make (made : List FilePath) : Keeps (Inv roots) (onDisk (·.make made)) := by
  refine Keeps.change fun w hw => ⟨hw.consistent.make made, fun entry hent dir hdir => ?_, hw.answers⟩
  obtain ⟨p, hp, hknown⟩ := hw.cache entry hent dir hdir
  exact ⟨p, hp, hknown.make made⟩

theorem keeps_remove (gone : FilePath → Bool) : Keeps (Inv roots) (onDisk (·.remove gone)) := by
  refine Keeps.change fun w hw => ⟨hw.consistent.remove gone, fun entry hent dir hdir => ?_, hw.answers⟩
  obtain ⟨p, hp, hknown⟩ := hw.cache entry hent dir hdir
  exact ⟨p, hp, hknown.remove gone⟩

theorem keeps_apps {f : World → World} (hstor : ∀ w, (f w).storage = w.storage) (hdisk : ∀ w, (f w).disk = w.disk)
    (hansw : ∀ w, (f w).answers = w.answers) : Keeps (Inv roots) (change f : Program World Bytes Unit) := by
  refine Keeps.change fun w hw => ⟨?_, ?_, ?_⟩
  · rw [hdisk]
    exact hw.consistent
  · rw [hstor, hdisk]
    exact hw.cache
  · rw [hansw]
    exact hw.answers

theorem keeps_fsStat (outcome : Outcome) (path : Bytes) : Keeps (Inv roots) (fsStat roots outcome path) :=
  (Keeps.result _).bind fun _ => (Keeps.result _).bind fun _ => Keeps.read _

theorem keeps_fsMkdir (outcome : MkdirOutcome) (path : Bytes) : Keeps (Inv roots) (fsMkdir roots outcome path) := by
  refine (Keeps.result _).bind fun p => ?_
  cases outcome with
  | none => exact keeps_make _
  | some failure => exact (keeps_make _).bind fun _ => Keeps.result _

theorem keeps_fsRemove (outcome : TreeOutcome) (path : Bytes) : Keeps (Inv roots) (fsRemove roots outcome path) := by
  refine (Keeps.result _).bind fun p => (Keeps.require _ _).bind fun _ => ?_
  cases outcome with
  | none => exact keeps_remove _
  | some failure => exact (keeps_remove _).bind fun _ => Keeps.result _

theorem keeps_fsCopyTree (outcome : TreeOutcome) (source destination : Bytes) :
    Keeps (Inv roots) (fsCopyTree roots outcome source destination) := by
  refine (Keeps.result _).bind fun p => (Keeps.result _).bind fun q => (Keeps.require _ _).bind fun _ =>
    (Keeps.require _ _).bind fun _ => (Keeps.read _).bind fun copies => ?_
  cases outcome with
  | none => exact keeps_make _
  | some failure => exact (keeps_make _).bind fun _ => Keeps.result _

theorem keeps_fsRename (parent : MkdirOutcome) (outcome : Outcome) (source destination : Bytes) :
    Keeps (Inv roots) (fsRename roots parent outcome source destination) := by
  refine (Keeps.result _).bind fun p => (Keeps.result _).bind fun q => (Keeps.require _ _).bind fun _ => ?_
  cases parent with
  | some failure => exact (keeps_make _).bind fun _ => Keeps.result _
  | none =>
    refine (keeps_make _).bind fun _ => (Keeps.result _).bind fun _ => (Keeps.read _).bind fun possible => ?_
    exact (Keeps.require _ _).bind fun _ => (Keeps.read _).bind fun moved => (keeps_remove _).bind fun _ => keeps_make _

theorem keeps_removePathTree (o : RemovalOutcomes) (label path : Bytes) :
    Keeps (Inv roots) (removePathTree roots o label path) := by
  refine (Keeps.require _ _).bind fun _ => (keeps_fsStat _ _).context.bind fun _ => ?_
  exact (keeps_fsRemove _ _).context.bind fun _ => (keeps_fsStat _ _).context.bind fun _ => Keeps.require _ _

theorem keeps_removePathTreeIfExists (o : RemovalIfExistsOutcomes) (label path : Bytes) :
    Keeps (Inv roots) (removePathTreeIfExists roots o label path) := by
  refine (keeps_fsStat _ _).context.bind fun present => ?_
  cases present with
  | true => exact keeps_removePathTree _ _ _
  | false => exact Keeps.pure _

theorem keeps_mergeDirectoryContents (o : MergeOutcomes) (source destination : Bytes) :
    Keeps (Inv roots) (mergeDirectoryContents roots o source destination) := by
  refine (keeps_fsStat _ _).context.bind fun present => ?_
  cases present with
  | true => exact (keeps_fsCopyTree _ _ _).context
  | false => exact Keeps.pure _

theorem keeps_replaceDirectoryContents (o : ReplaceOutcomes) (source destination label : Bytes) :
    Keeps (Inv roots) (replaceDirectoryContents roots o source destination label) := by
  refine (keeps_fsStat _ _).context.bind fun present => ?_
  cases present with
  | true => exact (keeps_removePathTreeIfExists _ _ _).bind fun _ => keeps_mergeDirectoryContents _ _ _
  | false => exact Keeps.pure _

theorem keeps_preserve (o : PreserveOutcomes) (oldAppDir stagedAppDir : Bytes) :
    Keeps (Inv roots) (preserveRuntimeAppPrivateData roots o oldAppDir stagedAppDir) :=
  (keeps_replaceDirectoryContents _ _ _ _).bind fun _ => (keeps_replaceDirectoryContents _ _ _ _).bind fun _ =>
    keeps_mergeDirectoryContents _ _ _

/-! ### What is answered -/

theorem createDir_present {outcome : MkdirOutcome} {path : Bytes} {p : FilePath} (h : p ∈ w.disk.present) :
    p ∈ (createDir roots outcome path w).2.disk.present := by
  have hkeeps : Keeps (fun w => p ∈ w.disk.present) (createDir roots outcome path) := by
    have hmake : ∀ made, Keeps (fun w : World => p ∈ w.disk.present) (onDisk (·.make made)) := fun made =>
      Keeps.change fun w hw => Directories.mem_make_of_mem hw made
    unfold createDir
    split
    · exact Keeps.pure _
    · refine Keeps.context ((Keeps.result _).bind fun q => ?_)
      cases outcome with
      | none => exact hmake _
      | some failure => exact (hmake _).bind fun _ => Keeps.result _
  exact hkeeps w h

theorem createDir_spec {outcome : MkdirOutcome} {path : Bytes} {w' : World} (hpath : path ≠ [])
    (h : createDir roots outcome path w = (.ok (), w')) :
    ∃ p, resolveFileSystemPath roots path = .ok p ∧ p ∈ w'.disk.present := by
  unfold createDir at h
  rw [if_neg hpath] at h
  obtain ⟨p, hp, hmake⟩ := bind_result_eq_ok.mp (context_eq_ok.mp h)
  refine ⟨p, hp, ?_⟩
  cases outcome with
  | none =>
    have hw' : { w with disk := w.disk.make p.inits } = w' := (Prod.mk.inj hmake).2
    rw [← hw']
    exact Directories.mem_make ((mem_inits p p).mpr prefix_rfl) _
  | some failure =>
    obtain ⟨_, _, -, hfails⟩ := bind_eq_ok.mp hmake
    cases (result_eq_ok.mp hfails).1

theorem keeps_createDir (outcome : MkdirOutcome) (path : Bytes) : Keeps (Inv roots) (createDir roots outcome path) := by
  unfold createDir
  split
  · exact Keeps.pure _
  · exact (keeps_fsMkdir _ _).context

theorem createDirs_spec {outcomes : ℕ → MkdirOutcome} {dirs : List Bytes} (hdirs : [] ∉ dirs) {w' : World}
    (h : createDirs roots outcomes dirs w = (.ok (), w')) :
    (∀ p ∈ w.disk.present, p ∈ w'.disk.present) ∧
      ∀ dir ∈ dirs, ∃ p, resolveFileSystemPath roots dir = .ok p ∧ p ∈ w'.disk.present := by
  induction dirs generalizing w with
  | nil =>
    obtain rfl := (Prod.mk.inj h).2
    exact ⟨fun p hp => hp, fun dir hdir => absurd hdir not_mem_nil⟩
  | cons dir dirs ih =>
    obtain ⟨hdir, hrest⟩ := not_or.mp (mt mem_cons.mpr hdirs)
    obtain ⟨_, w₁, hfst, hmade⟩ := bind_eq_ok.mp h
    obtain ⟨hstays, hthere⟩ := ih hrest hmade
    obtain ⟨p, hp, hmem⟩ := createDir_spec (Ne.symm hdir) hfst
    refine ⟨fun q hq => hstays q ?_, fun other hoth => ?_⟩
    · have hkept : q ∈ (createDir roots (outcomes dirs.length) dir w).2.disk.present := createDir_present hq
      rw [hfst] at hkept
      exact hkept
    · rcases mem_cons.mp hoth with rfl | hoth
      · exact ⟨p, hp, hstays p hmem⟩
      · exact hthere other hoth

theorem keeps_createDirs (outcomes : ℕ → MkdirOutcome) (dirs : List Bytes) :
    Keeps (Inv roots) (createDirs roots outcomes dirs) := by
  induction dirs with
  | nil => exact Keeps.pure _
  | cons dir dirs ih => exact (keeps_createDir _ _).bind fun _ => ih

theorem append_ne_nil (p : Bytes) {q : Bytes} (h : q ≠ []) : append p q ≠ [] := by
  unfold append
  split
  · exact h
  · split
    · exact fun hnil => h (append_eq_nil_iff.mp hnil).2
    · exact fun hnil => cons_ne_nil _ _ (append_eq_nil_iff.mp hnil).2

theorem nil_notMem_availableDirs (layout : Storage.StorageLayout) (manifestId : Bytes) :
    [] ∉ availableDirs (makeAppPaths layout manifestId) := by
  have hvol : ∀ volume, ∀ dir ∈ [(makeAppDirs volume manifestId).cache, (makeAppDirs volume manifestId).data,
      (makeAppDirs volume manifestId).files], dir ≠ [] := by
    intro volume
    refine forall_mem_cons.mpr ⟨append_ne_nil _ (by decide), forall_mem_cons.mpr ⟨append_ne_nil _ (by decide), ?_⟩⟩
    exact forall_mem_singleton.mpr (append_ne_nil _ (by decide))
  intro hnil
  obtain ⟨dirs, hdirs, hmem⟩ := mem_flatMap.mp hnil
  obtain ⟨-, hmem⟩ := mem_ite_nil_right.mp hmem
  rcases mem_cons.mp hdirs with rfl | hdirs
  · exact hvol _ [] hmem rfl
  · obtain ⟨volume, -, rfl⟩ := List.mem_map.mp hdirs
    exact hvol _ [] hmem rfl

theorem exist_iff_fresh (hw : Inv roots w) {paths : AppStoragePaths} {id : Bytes}
    (hcchd : w.storage.appStoragePathsCache.lookup id = some paths) :
    Answer.Exist roots ⟨paths, true, w.disk.removed, w.disk.present⟩ ↔
      Answer.Fresh roots ⟨paths, true, w.disk.removed, w.disk.present⟩ := by
  obtain ⟨before, after, hsplit, -⟩ := lookup_eq_some_iff.mp hcchd
  have hent : (id, paths) ∈ w.storage.appStoragePathsCache := by
    rw [hsplit]
    exact mem_append_right _ mem_cons_self
  constructor
  · intro hexist _ dir hdir p hp
    obtain ⟨q, hq, hpres⟩ := hexist dir hdir
    obtain rfl := Except.ok.inj (hq.symm.trans hp)
    exact fun hrem => hw.consistent q hrem hpres
  · intro hfresh dir hdir
    obtain ⟨p, hp, hknown⟩ := hw.cache _ hent dir hdir
    exact ⟨p, hp, (hknown.mem_iff hw.consistent).mpr (hfresh rfl dir hdir p hp)⟩

theorem keeps_ensureAppStoragePaths (outcomes : ℕ → MkdirOutcome) (manifestId : Bytes) :
    Keeps (Inv roots) (ensureAppStoragePaths roots outcomes manifestId) := by
  refine (Keeps.require _ _).bind fun _ w hw => ?_
  show Inv roots ((read (fun w : World => w.storage.appStoragePathsCache.lookup manifestId) >>= _) w).2
  rw [bind_read, bind_read]
  cases hcchd : w.storage.appStoragePathsCache.lookup manifestId with
  | some paths =>
    exact ⟨hw.consistent, hw.cache, forall_mem_cons.mpr ⟨exist_iff_fresh hw hcchd, hw.answers⟩⟩
  | none =>
    dsimp only
    rw [bind_read]
    have hkept := keeps_createDirs outcomes (availableDirs (makeAppPaths w.storage.layout manifestId)) w hw
    rcases ok_or_error (createDirs roots outcomes (availableDirs (makeAppPaths w.storage.layout manifestId))) w with
      ⟨_, w', hrun⟩ | ⟨e, w', hrun⟩
    · rw [bind_of_ok hrun]
      rw [hrun] at hkept
      obtain ⟨-, hthere⟩ := createDirs_spec (nil_notMem_availableDirs _ _) hrun
      refine ⟨hkept.consistent, forall_mem_cons.mpr ⟨fun dir hdir => ?_, hkept.cache⟩,
        forall_mem_cons.mpr ⟨iff_of_true hthere ?_, hkept.answers⟩⟩
      · obtain ⟨p, hp, hpres⟩ := hthere dir hdir
        exact ⟨p, hp, .inl hpres⟩
      · exact fun hcchd => absurd hcchd Bool.false_ne_true
    · rw [bind_of_error hrun]
      rw [hrun] at hkept
      exact hkept

/-! ### The operations -/

theorem keeps_addApp (o : InstallOutcomes) (manifestId : Bytes) (kind : AppKind) (appPath : Bytes) :
    Keeps (Inv roots) (addApp o manifestId kind appPath) := by
  have hcall : Keeps (Inv roots) (callOnInstall o kind) := by
    unfold callOnInstall
    split
    · exact Keeps.result _
    · exact Keeps.pure _
  refine (Keeps.read _).bind fun appId => Keeps.bind ?_ fun _ => hcall.bind fun _ => Keeps.bind ?_ fun _ =>
    Keeps.bind ((Keeps.result _).onError ?_) fun _ => Keeps.pure _
  · exact keeps_apps (fun _ => rfl) (fun _ => rfl) fun _ => rfl
  · exact keeps_apps (fun _ => rfl) (fun _ => rfl) fun _ => rfl
  · exact keeps_apps (fun _ => rfl) (fun _ => rfl) fun _ => rfl

theorem keeps_installApp (o : InstallOutcomes) (manifestId appPath : Bytes) :
    Keeps (Inv roots) (installApp roots o manifestId appPath) := by
  refine (Keeps.require _ _).bind fun _ => (Keeps.read _).bind fun taken => (Keeps.require _ _).bind fun _ => ?_
  exact (Keeps.result _).bind fun _ => (keeps_ensureAppStoragePaths _ _).bind fun _ => keeps_addApp _ _ _ _

theorem keeps_installRuntimeApp (o : InstallOutcomes) (manifestId appPath : Bytes) :
    Keeps (Inv roots) (installRuntimeApp roots o manifestId appPath) := by
  refine (Keeps.require _ _).bind fun _ => (Keeps.read _).bind fun taken => (Keeps.require _ _).bind fun _ => ?_
  exact (Keeps.result _).bind fun _ => (keeps_ensureAppStoragePaths _ _).bind fun _ => keeps_addApp _ _ _ _

theorem keeps_getRecord (appId : AppId) : Keeps (Inv roots) (getRecord appId) :=
  (Keeps.read _).bind fun _ => Keeps.result _

theorem keeps_removeAppDirectory (o : RemovalOutcomes) (app : AppInfo) :
    Keeps (Inv roots) (removeAppDirectory roots o app) := by
  unfold removeAppDirectory
  split
  · refine (Keeps.require _ _).bind fun _ => (Keeps.read _).bind fun managed => (Keeps.require _ _).bind fun _ => ?_
    exact keeps_removePathTree _ _ _
  · exact Keeps.pure _

theorem keeps_uninstallApp (stop : Outcome) (o : RemovalOutcomes) (appId : AppId) :
    Keeps (Inv roots) (uninstallApp roots stop o appId) := by
  refine (keeps_getRecord _).bind fun app => (Keeps.result _).bind fun _ => (keeps_removeAppDirectory _ _).bind fun _ => ?_
  exact keeps_apps (fun _ => rfl) (fun _ => rfl) fun _ => rfl

theorem keeps_makeWay (o : PackageOutcomes) (installed : Option AppInfo) (stagedAppDir installDir : Bytes) :
    Keeps (Inv roots) (makeWay roots o installed stagedAppDir installDir) := by
  cases installed with
  | some app => exact (keeps_preserve _ _ _).context.bind fun _ => (keeps_uninstallApp _ _ _).context
  | none => exact keeps_removePathTreeIfExists _ _ _

theorem keeps_exchange (o : PackageOutcomes) (installed : Option AppInfo) (id stagingParent installDir : Bytes) :
    Keeps (Inv roots) (exchange roots o installed id stagingParent installDir) := by
  have hunp : Keeps (Inv roots) (unpackAppPackageTo roots o stagingParent) :=
    (Keeps.result _).bind fun p => (keeps_make _).bind fun _ => Keeps.result _
  refine hunp.context.bind fun unpacked => (Keeps.require _ _).bind fun _ => (Keeps.result _).bind fun _ => ?_
  exact (Keeps.result _).bind fun _ => (keeps_makeWay _ _ _ _).bind fun _ => (keeps_fsRename _ _ _ _).context

theorem keeps_installRuntimeAppPackage (o : PackageOutcomes) (replaceExisting : Bool) :
    Keeps (Inv roots) (installRuntimeAppPackage roots o replaceExisting) := by
  refine (Keeps.result _).context.bind fun id => (Keeps.require _ _).bind fun _ => (Keeps.read _).bind fun installed =>
    (Keeps.require _ _).bind fun _ => (Keeps.result _).bind fun _ => (Keeps.read _).bind fun layout => ?_
  refine (Keeps.result _).bind fun appRoot => (keeps_fsMkdir _ _).context.bind fun _ => ?_
  have hclean : ∀ path, Keeps (Inv roots) (fun w : World =>
      ((.ok () : Except Bytes Unit),
        (removePathTreeIfExists roots o.cleanupStaging (text "runtime app staging directory") path w).2)) :=
    fun path w hw => keeps_removePathTreeIfExists _ _ path w hw
  refine ((keeps_exchange _ _ _ _ _).onError (hclean _)).bind fun _ => Keeps.bind (hclean _) fun _ => ?_
  exact (keeps_installRuntimeApp _ _ _).context.onError (keeps_removePathTree _ _ _)

theorem setDefaultInstallStorage_cache (s : Storage.State) (call : Storage.Call) :
    (setDefaultInstallStorage s call).2.appStoragePathsCache = s.appStoragePathsCache ∨
      (setDefaultInstallStorage s call).2.appStoragePathsCache = [] := by
  unfold setDefaultInstallStorage
  split
  · exact .inl rfl
  · split
    · exact .inl rfl
    · dsimp only
      split
      · exact .inl rfl
      · exact .inr rfl

theorem keeps_setDefault (call : Storage.Call) : Keeps (Inv roots) (setDefault call) := by
  refine fun w hw => ⟨hw.consistent, fun entry hent => hw.cache entry ?_, hw.answers⟩
  rcases setDefaultInstallStorage_cache w.storage call with hsame | hclr
  · rw [← hsame]
    exact hent
  · have hnone : entry ∈ (setDefaultInstallStorage w.storage call).2.appStoragePathsCache := hent
    rw [hclr] at hnone
    exact absurd hnone not_mem_nil

theorem inv_inductive : (machine roots).Inductive (fun _ _ => True) (Inv roots) := by
  constructor
  · rintro w ⟨internal, external, config, reads, kv, present, rfl⟩
    exact ⟨fun path hrem => absurd hrem not_mem_nil, fun entry hent => absurd hent not_mem_nil,
      fun a ha => absurd ha not_mem_nil⟩
  · intro w label w' hw _ hst
    have hst : label.run roots w = w' := some.inj hst
    rw [← hst]
    cases label with
    | installApp o manifestId appPath => exact keeps_installApp o manifestId appPath w hw
    | installRuntimeApp o manifestId appPath => exact keeps_installRuntimeApp o manifestId appPath w hw
    | installRuntimeAppPackage o replaceExisting => exact keeps_installRuntimeAppPackage o replaceExisting w hw
    | uninstallApp stop o appId => exact keeps_uninstallApp stop o appId w hw
    | setDefaultInstallStorage call => exact keeps_setDefault call w hw
    | getAppStoragePaths outcomes appId =>
      exact ((keeps_getRecord appId).bind fun app => keeps_ensureAppStoragePaths outcomes app.manifestId) w hw

end Brookesia.SystemCore.StoragePaths
