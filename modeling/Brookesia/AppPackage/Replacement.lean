import Brookesia.AppPackage.Descriptor
import Brookesia.AppPackage.Unpack
import Brookesia.Data.Programs
import Brookesia.Storage.Trees
import Brookesia.SystemCore.Model

/-! # Replacing an installed app

`install_runtime_app_package` with `replace_existing`, for a package whose app is installed: the package
is unpacked next to the app, the private data of the app is copied into it, the app is uninstalled, and
the new directory takes the place of the old one.

* Each call of the storage is one step. `Faults` has the outcome of each; a copy or a removal may also
  stop in the middle.
* The app may write and remove private files until its last callback has returned. `calls` has what it
  does before each step that looks at its files, and in the callbacks.
* `own` is kept for comparison: the directory of the app as the app alone would have left it.
* For the id `.installing` the staging directory lies inside the directory of the app. -/

namespace Brookesia.AppPackage.Replacement

open Filesystem.Path Filesystem.Tree Data.Json Data.Programs
open Storage.Paths Storage.Trees
open Manifest Descriptor Zip
open Unpack
open SystemCore.Model (AppState)
open SystemCore.MessageDialogs (AppId)

inductive PrivateDir
  | cache
  | data
  | files
  deriving DecidableEq

def PrivateDir.name : PrivateDir → Bytes
  | .cache => text "cache"
  | .data => text "data"
  | .files => text "files"

/-- A call of the app that changes its private files; the path is below the directory. -/
inductive StorageCall
  | write (dir : PrivateDir) (relativePath : FilePath) (data : Bytes)
  | remove (dir : PrivateDir) (relativePath : FilePath) (faults : RemoveFaults)

/-- When the app makes its calls: before a step that looks at one of its directories, or in a
callback. -/
inductive Moment
  | stat (dir : PrivateDir)
  | merge (dir : PrivateDir)
  | copy (dir : PrivateDir)
  | onStop
  | onUninstall
  deriving DecidableEq

structure AppInfo where
  appId : AppId
  manifest : AppManifest
  state : AppState
  deriving DecidableEq

structure World where
  apps : List AppInfo
  nextAppId : AppId
  app : Option ByteTree
  staged : Option ByteTree := none
  own : Option ByteTree

/-! ### What may fail -/

/-- The steps of `remove_path_tree`. -/
structure RemovalFaults where
  statBefore : Outcome := none
  remove : RemoveFaults := {}
  statAfter : Outcome := none

structure RemovalIfExistsFaults where
  stat : Outcome := none
  removal : RemovalFaults := {}

structure MergeFaults where
  stat : Outcome := none
  copy : CopyFaults := {}

structure ReplaceFaults where
  stat : Outcome := none
  remove : RemovalIfExistsFaults := {}
  merge : MergeFaults := {}

structure InstallFaults where
  profile : Outcome := none
  document : Outcome := none
  storagePaths : Outcome := none
  guiPreparation : Outcome := none
  onAppInstalled : Outcome := none

structure Faults where
  manifestRead : Outcome := none
  appRoot : Outcome := none
  unpackRead : Outcome := none
  outputDir : Outcome := none
  parentDir : ℕ → Outcome := fun _ => none
  write : ℕ → Outcome := fun _ => none
  stagedProfile : Outcome := none
  stagedDocument : Outcome := none
  cache : ReplaceFaults := {}
  data : ReplaceFaults := {}
  files : MergeFaults := {}
  stop : Outcome := none
  removal : RemovalFaults := {}
  rename : Outcome := none
  cleanupStaging : RemovalIfExistsFaults := {}
  install : InstallFaults := {}
  installCleanup : RemovalFaults := {}

structure Request where
  libs : Libraries
  roots : List NormalPath
  appScanRoots : List Bytes
  systemType : Bytes
  maxZOrder : ℤ := 100
  services : Bytes → Option Bytes := fun _ => none
  packagePath : Bytes
  package : Bytes
  /-- The time that makes the name of the staging directory unique. -/
  now : Bytes
  calls : Moment → List StorageCall := fun _ => []
  /-- Whether the storage paths of the app are known already. -/
  storagePathsAreCached : Bool := true
  /-- Whether the directory of the app is on a volume of the storage layout. -/
  isOnVolume : Bool := true
  faults : Faults := {}

/-! ### Files of the app -/

/-- `create_dir` of a private directory. -/
def ensureDir (t : Option ByteTree) (dir : PrivateDir) : Option ByteTree :=
  if (child t dir.name).isSome then t else setChild t dir.name (some (.dir .nil))

def StorageCall.apply (t : Option ByteTree) : StorageCall → Option ByteTree
  | .write dir relativePath data =>
    let based := ensureDir t dir
    (Filesystem.Tree.write based (dir.name :: relativePath) data).elim based some
  | .remove dir relativePath faults => removeAt faults t (dir.name :: relativePath)

def applyCalls (t : Option ByteTree) (calls : List StorageCall) : Option ByteTree :=
  calls.foldl StorageCall.apply t

def appCalls (r : Request) (moment : Moment) : Program World Bytes Unit :=
  change fun w =>
    { w with app := applyCalls w.app (r.calls moment), own := applyCalls w.own (r.calls moment) }

/-! ### Storage calls -/

def checked (outcome : Outcome) (before : Bytes) : Except Bytes Unit :=
  outcome.elim (.ok ()) fun error => .error (before ++ error)

def quoted (path : Bytes) : Bytes := text " '" ++ path ++ text "'"

def removeTree (f : RemovalFaults) (label path : Bytes) (t : Option ByteTree) : Except Bytes Unit × Option ByteTree :=
  match f.statBefore with
  | some error =>
    (.error (text "Failed to check " ++ label ++ text " before removal" ++ quoted path ++ text ": " ++ error), t)
  | none =>
    match fsRemove f.remove t with
    | (some error, left) =>
      (.error (text "Failed to remove " ++ label ++ quoted path ++ text ": " ++ error), left)
    | (none, left) =>
      match f.statAfter with
      | some error =>
        (.error (text "Failed to check " ++ label ++ text " after removal" ++ quoted path ++ text ": " ++ error), left)
      | none =>
        if left.isSome then
          (.error (text "Failed to remove " ++ label ++ quoted path ++
            text ": path still exists after recursive removal"), left)
        else (.ok (), left)

def removeTreeIfExists (f : RemovalIfExistsFaults) (label path : Bytes) (t : Option ByteTree) :
    Except Bytes Unit × Option ByteTree :=
  match f.stat with
  | some error => (.error (text "Failed to check " ++ label ++ quoted path ++ text ": " ++ error), t)
  | none => if t.isSome then removeTree f.removal label path t else (.ok (), t)

def fsCopyTree (overwrite : Bool) (f : CopyFaults) (source destination : Option ByteTree) :
    Except Bytes Unit × Option ByteTree :=
  match source with
  | none => (.error (text "Storage FS copy source does not exist"), destination)
  | some source =>
    match copyPathTree overwrite f source destination with
    | (some error, copy) => (.error error, copy)
    | (none, copy) => (.ok (), copy)

/-- `read_text_file`, of a file below a directory. -/
def readTextFile (roots : List NormalPath) (outcome : Outcome) (dir : FilePath) (t : Option ByteTree)
    (path : Bytes) : Except Bytes Bytes :=
  let failed := fun error => text "Failed to read file: " ++ path ++ text ", error: " ++ error
  match resolveFileSystemPath roots path, outcome with
  | .error error, _ => .error (failed error)
  | .ok _, some error => .error (failed error)
  | .ok file, none =>
    match nodeAt t (file.drop dir.length) with
    | some (.file data) => .ok data
    | _ => .error (failed (text "Failed to open file for read: " ++ path))

/-! ### Keeping the private data -/

def onStaged (f : Option ByteTree → Except Bytes Unit × Option ByteTree) : Program World Bytes Unit :=
  fun w => ((f w.staged).1, { w with staged := (f w.staged).2 })

def onStagedDir (dir : PrivateDir) (f : Option ByteTree → Except Bytes Unit × Option ByteTree) :
    Program World Bytes Unit :=
  onStaged fun t => ((f (child t dir.name)).1, setChild t dir.name (f (child t dir.name)).2)

def copyDir (dir : PrivateDir) (overwrite : Bool) (f : CopyFaults) : Program World Bytes Unit := do
  let source ← read fun w => child w.app dir.name
  onStagedDir dir (fsCopyTree overwrite f source)

def mergeDirectoryContents (r : Request) (dir : PrivateDir) (source destination : Bytes)
    (overwriteExisting : Bool) (f : MergeFaults) : Program World Bytes Unit := do
  appCalls r (.merge dir)
  result (checked f.stat (text "Failed to check source directory" ++ quoted source ++ text ": "))
  let present ← read fun w => child w.app dir.name
  match present with
  | none => pure ()
  | some (.file _) => result (.error (text "Source is not a directory: " ++ source))
  | some (.dir _) => do
    appCalls r (.copy dir)
    context (fun error => text "Failed to copy directory" ++ quoted source ++ text " to" ++
      quoted destination ++ text ": " ++ error) (copyDir dir overwriteExisting f.copy)

def replaceDirectoryContents (r : Request) (dir : PrivateDir) (source destination label : Bytes)
    (f : ReplaceFaults) : Program World Bytes Unit := do
  appCalls r (.stat dir)
  result (checked f.stat (text "Failed to check " ++ label ++ quoted source ++ text ": "))
  let present ← read fun w => child w.app dir.name
  match present with
  | none => pure ()
  | some _ => do
    onStagedDir dir (removeTreeIfExists f.remove label destination)
    mergeDirectoryContents r dir source destination true f.merge

def preserveRuntimeAppPrivateData (r : Request) (oldAppDir stagedAppDir : Bytes) : Program World Bytes Unit := do
  replaceDirectoryContents r .cache (append oldAppDir (text "cache"))
    (append stagedAppDir (text "cache")) (text "runtime app cache") r.faults.cache
  replaceDirectoryContents r .data (append oldAppDir (text "data"))
    (append stagedAppDir (text "data")) (text "runtime app data") r.faults.data
  mergeDirectoryContents r .files (append oldAppDir (text "files"))
    (append stagedAppDir (text "files")) false r.faults.files

/-! ### Uninstalling -/

def pathHasPrefix (path root : Bytes) : Bool :=
  let pathString := (lexicallyNormal path).toText
  let rootString := (lexicallyNormal root).toText
  pathString = rootString || (rootString.isPrefixOf pathString && pathString[rootString.length]? = some separator)

def isManagedAppDirectory (r : Request) (path : Bytes) : Bool :=
  r.appScanRoots.any fun root =>
    pathHasPrefix path root && lexicallyNormal path ≠ lexicallyNormal root

def installing : Bytes := text ".installing"

/-- `make_unique_install_directory_name`. -/
def stagingName (r : Request) (id : Bytes) : Bytes := id ++ text "-" ++ r.now

/-- The directory of the app, with the staging directory where this is inside it. -/
def wholeAppDir (r : Request) (id : Bytes) (w : World) : Option ByteTree :=
  if id = installing then
    setChild w.app (stagingName r id) (w.staged.map fun t => .dir (.cons id t .nil))
  else w.app

def removeAppDir (r : Request) (id path : Bytes) : Program World Bytes Unit := fun w =>
  let removed := removeTree r.faults.removal (text "runtime app directory") path (wholeAppDir r id w)
  (removed.1, { w with
    app := removed.2
    staged := if id = installing then child (child removed.2 (stagingName r id)) id else w.staged })

def setState (appId : AppId) (state : AppState) (apps : List AppInfo) : List AppInfo :=
  apps.map fun a => if a.appId = appId then { a with state := state } else a

def eraseApp (appId : AppId) (apps : List AppInfo) : List AppInfo := apps.filter (·.appId ≠ appId)

def IsActive (app : AppInfo) : Prop := app.state = .running ∨ app.state = .paused

instance (app : AppInfo) : Decidable (IsActive app) := inferInstanceAs (Decidable (_ ∨ _))

/-- `stop_app`, as `uninstall_app` calls it. -/
def stopApp (r : Request) (app : AppInfo) : Program World Bytes Unit :=
  if IsActive app then do
    appCalls r .onStop
    match r.faults.stop with
    | some error => do
      change fun w => { w with apps := setState app.appId .error w.apps }
      result (.error error)
    | none => change fun w => { w with apps := setState app.appId .stopped w.apps }
  else pure ()

def uninstallApp (r : Request) (app : AppInfo) : Program World Bytes Unit := do
  stopApp r app
  appCalls r .onUninstall
  if app.manifest.kind = .runtime then do
    require (app.manifest.appPath ≠ []) (text "Runtime app manifest app_path is empty")
    require (isManagedAppDirectory r app.manifest.appPath)
      (text "Refuse to remove runtime app directory outside managed app roots: " ++
        (lexicallyNormal app.manifest.appPath).toText)
    removeAppDir r app.manifest.id (lexicallyNormal app.manifest.appPath).toText
  else pure ()
  change fun w => { w with apps := eraseApp app.appId w.apps }

/-! ### Installing -/

def isSafeAppDirectoryName (name : Bytes) : Bool :=
  name ≠ [] && name ≠ dot && name ≠ dotDot && !name.contains separator && !name.contains 92

def ensureAppStoragePaths (r : Request) (manifestId : Bytes) : Program World Bytes Unit := do
  require (isSafeAppDirectoryName manifestId)
    (text "App manifest id is not a safe storage directory name: " ++ manifestId)
  if r.storagePathsAreCached then pure ()
  else do
    result (checked r.faults.install.storagePaths (text "Failed to create directory"))
    if r.isOnVolume then do
      let dirs ← read fun w => [PrivateDir.cache, .data, .files].map fun dir => child w.app dir.name
      require (dirs.all fun | some (.file _) => false | _ => true) (text "Failed to create directory")
      change fun w => { w with app := ensureDir (ensureDir (ensureDir w.app .cache) .data) .files }
    else pure ()

def newAppInfo (appId : AppId) (manifest : AppManifest) (descriptor : RuntimeAppResourceDescriptor) : AppInfo where
  appId := appId
  manifest := { manifest with
    kind := .runtime
    iconId := descriptor.iconId
    preloadDom := descriptor.preloadDom
    name := if manifest.name = [] then resolveAppDisplayName manifest (text "en") else manifest.name }
  state := .installed

/-- The read of a descriptor of `install_runtime_app`. -/
def readInstalledDescriptor (r : Request) (t : Option ByteTree) (manifest : AppManifest) :
    Except Bytes RuntimeAppResourceDescriptor :=
  let dir := (lexicallyNormal manifest.appPath).names
  readRuntimeAppResourceDescriptor r.libs.parseJson (readTextFile r.roots r.faults.install.profile dir t)
    (readTextFile r.roots r.faults.install.document dir t) manifest

def installRuntimeApp (r : Request) (manifest : AppManifest) : Program World Bytes AppId := do
  require (manifest.id ≠ []) (text "Runtime app manifest id is empty")
  let taken ← read fun w => w.apps.any (·.manifest.id = manifest.id)
  require (!taken) (text "App manifest id already installed")
  let t ← read (·.app)
  let descriptor ← result (readInstalledDescriptor r t manifest)
  result (validateGuiDescriptor r.maxZOrder .runtime descriptor.gui)
  ensureAppStoragePaths r manifest.id
  let appId ← read (·.nextAppId)
  change fun w => { w with
    apps := w.apps ++ [newAppInfo appId manifest descriptor], nextAppId := appId + 1 }
  onError (result do
      checked r.faults.install.guiPreparation []
      checked r.faults.install.onAppInstalled [])
    (change fun w => { w with apps := eraseApp appId w.apps })
  return appId

/-! ### The replacement -/

/-- The paths of a replacement. -/
structure Places where
  appRoot : Bytes
  stagingParent : Bytes
  stagedAppDir : Bytes
  installDir : Bytes

def places (r : Request) (appRoot id : Bytes) : Places :=
  let stagingParent := append (append appRoot installing) (stagingName r id)
  ⟨appRoot, stagingParent, append stagingParent id, append appRoot id⟩

/-- The tree that unpacking writes, if the tree allows all its writes. -/
def stagedTree (stagedDir : FilePath) (written : List Written) : Option ByteTree :=
  written.foldl (fun t w => t.bind fun t => write (some t) (w.1.drop stagedDir.length) w.2) (some (.dir .nil))

def readPackageFile (r : Request) (outcome : Outcome) (path : Bytes) : Except Bytes Bytes :=
  outcome.elim (.ok r.package) fun error =>
    .error (text "Failed to read package file: " ++ path ++ text ", error: " ++ error)

def unpackStaged (r : Request) (p : Places) : Except Bytes (AppManifest × ByteTree) :=
  let volume : Volume := ⟨r.roots, r.faults.outputDir, r.faults.parentDir, r.faults.write⟩
  let unpacked := unpackAppPackageTo r.libs volume (readPackageFile r r.faults.unpackRead)
    r.packagePath p.stagingParent r.systemType
  match unpacked.1, stagedTree (lexicallyNormal p.stagedAppDir).names unpacked.2 with
  | .error error, _ => .error (text "Failed to unpack runtime app package: " ++ error)
  | .ok _, none =>
    .error (text "Failed to unpack runtime app package: Failed to write destination file: ")
  | .ok manifest, some t => .ok (manifest, t)

def stage (r : Request) (p : Places) (oldAppDir id : Bytes) : Program World Bytes AppManifest := do
  let (manifest, t) ← result (unpackStaged r p)
  change fun w => { w with staged := some t }
  require (manifest.id = id) (text "Runtime app package manifest changed while unpacking: " ++ id ++
    text " -> " ++ manifest.id)
  result (checkServiceRequirements r.services manifest)
  let dir := (lexicallyNormal p.stagedAppDir).names
  let _ ← context (text "Failed to validate staged runtime app package: " ++ ·)
    (result (readRuntimeAppResourceDescriptor r.libs.parseJson
      (readTextFile r.roots r.faults.stagedProfile dir (some t))
      (readTextFile r.roots r.faults.stagedDocument dir (some t)) manifest))
  context (text "Failed to preserve existing app data: " ++ ·)
    (preserveRuntimeAppPrivateData r oldAppDir p.stagedAppDir)
  return manifest

/-- `fs_rename` of the staged directory. -/
def renameStaged (r : Request) : Program World Bytes Unit := fun w =>
  match r.faults.rename, w.staged, w.app with
  | some error, _, _ => (.error error, w)
  | none, none, _ => (.error (text "No such file or directory"), w)
  | none, some t, none | none, some t, some (.dir .nil) =>
    (.ok (), { w with app := some t, staged := none })
  | none, some _, some _ => (.error (text "Directory not empty"), w)

def cleanupStaging (r : Request) (p : Places) : Program World Bytes Unit :=
  onStaged fun t => (.ok (), (removeTreeIfExists r.faults.cleanupStaging
    (text "runtime app staging directory") p.stagingParent t).2)

def exchange (r : Request) (p : Places) (oldAppDir id : Bytes) (installed : AppInfo) :
    Program World Bytes AppManifest := do
  let manifest ← stage r p oldAppDir id
  context (text "Failed to uninstall existing app: " ++ ·) (uninstallApp r installed)
  context (fun error => text "Failed to move staged runtime app to final directory" ++
    quoted p.installDir ++ text ": " ++ error) (renameStaged r)
  return manifest

/-- The last part, with the clean-up where the new app cannot be installed. -/
def installReplaced (r : Request) (p : Places) (manifest : AppManifest) : Program World Bytes AppId :=
  onError (context (text "Failed to install runtime app package: " ++ ·)
      (installRuntimeApp r { manifest with appPath := p.installDir }))
    fun w =>
      let removed := removeTree r.faults.installCleanup (text "runtime app directory") p.installDir w.app
      (.ok (), { w with app := removed.2 })

def replaceInstalled (r : Request) (packageManifest : AppManifest) (installed : AppInfo) :
    Program World Bytes AppId := do
  let id := packageManifest.id
  result (checkServiceRequirements r.services packageManifest)
  let oldAppDir := lexicallyNormal installed.manifest.appPath
  require (installed.manifest.appPath ≠ []) (text "Installed runtime app path is empty: " ++ id)
  require (oldAppDir.filename = id) (text "Installed runtime app path does not match manifest id: " ++ oldAppDir.toText)
  let appRoot := parentPath oldAppDir.toText
  require (appRoot ≠ []) (text "Installed runtime app root is empty: " ++ id)
  context (fun error => text "Failed to create app root" ++ quoted appRoot ++ text ": " ++ error)
    (result (fsMkdir r.roots r.faults.appRoot appRoot))
  let p := places r appRoot id
  let manifest ← onError (exchange r p oldAppDir.toText id installed) (cleanupStaging r p)
  cleanupStaging r p
  installReplaced r p manifest

def readPackageManifest (r : Request) : Except Bytes AppManifest :=
  readAppPackageManifest r.libs (readPackageFile r r.faults.manifestRead) r.packagePath r.systemType

/-- `freshInstall` is what is done where no app has the id of the package. -/
def installRuntimeAppPackage (r : Request) (freshInstall : AppManifest → Program World Bytes AppId) :
    Program World Bytes AppId := do
  let packageManifest ← context (text "Failed to read runtime app package manifest: " ++ ·)
    (result (readPackageManifest r))
  require (isSafeAppDirectoryName packageManifest.id)
    (text "Runtime app manifest id is not a safe directory name: " ++ packageManifest.id)
  let installed ← read fun w => w.apps.find? (·.manifest.id = packageManifest.id)
  match installed with
  | none => freshInstall packageManifest
  | some installed => replaceInstalled r packageManifest installed

end Brookesia.AppPackage.Replacement
