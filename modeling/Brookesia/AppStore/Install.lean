import Brookesia.AppStore.LocalScan

/-! # Installing from the App Store

From the index and the metadata of an app to the package that is installed: `parse_index_json`,
`apply_metadata_json_to_entry`, the two ways of `start_or_cancel_download` to a package (a cached one,
or a download), the deferred operations, and the scan of the local packages as far as it tells which
package is cached. What the servers and the package files hold is from outside, and so is whether a
request or an installation goes well. `installs` has what the installations that were scheduled for
entries have done; `Announced` is what the entry said when its installation was scheduled. Dialogs,
progress, timers and the identifiers of requests are left out. -/

namespace Brookesia.AppStore.Install

open Transition

/-- A file at the path of a package. -/
structure PackageFile where
  /-- What `read_app_package_manifest` finds. -/
  manifest : Option AppManifest
  sha256 : String
  deriving DecidableEq

/-- The fields of a metadata document, `""` where one is missing or is no string. -/
structure Metadata where
  packageName : String := ""
  version : String := ""
  downloadUrl : String := ""
  hashSha256 : String := ""
  sizeDownload : Option ℕ := none
  deriving DecidableEq

/-- An element of `apps` of the index, and the metadata that the cache has for it; `none` stands for a
document that is no JSON object. -/
structure IndexApp where
  packageName : String := ""
  manifestId : String := ""
  latestVersion : String := ""
  bpkUrl : String := ""
  sizeDownload : Option ℕ := none
  cachedMetadata : List (Option Metadata) := []
  deriving DecidableEq

structure StoreEntry where
  packageName : String
  manifestId : String
  latestVersion : String
  metadataUrl : String := ""
  downloadUrl : String := ""
  downloadSize : ℕ := 0
  sha256 : String := ""
  schemaError : String := ""
  installed : Bool := false
  installedVersion : String := ""
  updateAvailable : Bool := false
  cached : Bool := false
  cachedPackagePath : Path := []
  metadataLoading : Bool := false
  downloading : Bool := false
  deriving DecidableEq

/-- What an entry says of its package. -/
structure Announced where
  packageName : String
  version : String
  sha256 : String
  deriving DecidableEq

inductive Operation
  | refresh
  | installPackage (index : ℕ) (path : Path) (announced : Announced)
  | installLocalPackage (path : Path)
  | uninstallInstalledApp (manifestId : String)
  | deleteLocalPackage (path : Path)
  deriving DecidableEq

/-- An installation for an entry that has succeeded; `touched` are the apps that it has stopped,
replaced, uninstalled or installed. -/
structure Installation where
  announced : Announced
  manifest : AppManifest
  sha256 : String
  touched : List String
  deriving DecidableEq

structure Config where
  resolveRelativeUrl : String → String → String
  makeMetadataUrl : String → String → String → String
  compareVersions : String → String → ℤ
  packagePath : String → String → Path
  order : LocalPackageEntry → LocalPackageEntry → Bool
  selfId : String

structure State where
  entries : List StoreEntry
  localPackages : List LocalPackageEntry
  /-- `local_package_by_manifest_id_`, with the packages in place of their indices. -/
  packageIndex : List (String × LocalPackageEntry)
  scan : Option (List LocalPackageEntry)
  files : Path → Option PackageFile
  apps : List AppManifest
  installedVersions : List (String × String)
  pending : List Operation
  installs : List Installation

def init (files : Path → Option PackageFile) (apps : List AppManifest) : State where
  entries := []
  localPackages := []
  packageIndex := []
  scan := none
  files := files
  apps := apps
  installedVersions := []
  pending := []
  installs := []

variable (c : Config)

/-! ### Metadata -/

/-- The end of `apply_metadata_json_to_entry`. -/
def applyHash (entry : StoreEntry) (sha256 : String) (updated requireDownloadUrl requireSize : Bool) :
    StoreEntry × Option String :=
  let takesHash := requireDownloadUrl || sha256 != ""
  let entry := if takesHash then { entry with sha256 := sha256 } else entry
  if !(updated || takesHash) && !requireDownloadUrl && !requireSize then (entry, some "Metadata missing cacheable fields")
  else (entry, none)

def applyUrl (entry : StoreEntry) (downloadUrl : String) (takesUrl : Bool) : StoreEntry :=
  if takesUrl then { entry with downloadUrl := downloadUrl } else entry

/-- `apply_metadata_json_to_entry`, with the error if there is one: fields that were taken before it
stay. -/
def applyMetadata (entry : StoreEntry) (json : Option Metadata) (requireDownloadUrl requireSize requireIdentity : Bool) :
    StoreEntry × Option String :=
  match json with
  | none => (entry, some "App metadata is not a JSON object")
  | some m =>
    if requireIdentity && m.packageName == "" then (entry, some "Metadata missing package_name")
    else if m.packageName ≠ "" ∧ m.packageName ≠ entry.packageName then (entry, some "Metadata package_name mismatch")
    else if requireIdentity && m.version == "" then (entry, some "Metadata missing version")
    else if m.version ≠ "" ∧ entry.latestVersion ≠ "" ∧ m.version ≠ entry.latestVersion then
      (entry, some "Metadata version mismatch")
    else
      let downloadUrl := c.resolveRelativeUrl entry.metadataUrl m.downloadUrl
      if requireDownloadUrl && downloadUrl == "" then (entry, some "Metadata missing download_url")
      else
        let takesUrl := downloadUrl != "" && (entry.downloadUrl == "" || requireDownloadUrl)
        let entry := applyUrl entry downloadUrl takesUrl
        match m.sizeDownload with
        | some size => applyHash { entry with downloadSize := size } m.hashSha256 true requireDownloadUrl requireSize
        | none =>
          if requireSize then (entry, some "Metadata missing size_download")
          else applyHash entry m.hashSha256 takesUrl requireDownloadUrl requireSize

def applyDocuments (entry : StoreEntry) : List (Option Metadata) → StoreEntry
  | [] => entry
  | json :: documents =>
    let r := applyMetadata c entry json false false true
    if r.2.isNone then r.1 else applyDocuments r.1 documents

def applyCachedMetadata (entry : StoreEntry) (documents : List (Option Metadata)) : StoreEntry :=
  if entry.packageName = "" ∨ entry.latestVersion = "" then entry else applyDocuments c entry documents

/-! ### Entries -/

variable (s : State)

/-- The part of `apply_installed_state` for an entry. -/
def applyInstalled (entry : StoreEntry) : StoreEntry :=
  let version := if entry.packageName = "" then none else s.installedVersions.lookup entry.packageName
  let package := (s.packageIndex.lookup entry.packageName).filter fun package =>
    entry.latestVersion == "" || package.version == entry.latestVersion
  { entry with
    installed := version.isSome
    installedVersion := version.getD ""
    updateAvailable := version.any fun version =>
      entry.latestVersion != "" && version != "" && decide (0 < c.compareVersions entry.latestVersion version)
    cached := package.isSome
    cachedPackagePath := (package.map (·.packagePath)).getD [] }

def applyInstalledState : State := { s with entries := s.entries.map (applyInstalled c s) }

/-- An entry of `parse_index_json`. -/
def makeEntry (indexUrl : String) (app : IndexApp) : StoreEntry :=
  let manifestId := if app.manifestId = "" then app.packageName else app.manifestId
  applyCachedMetadata c
    { packageName := app.packageName
      manifestId := manifestId
      latestVersion := app.latestVersion
      metadataUrl :=
        if app.packageName ≠ "" ∧ app.latestVersion ≠ "" then
          c.makeMetadataUrl indexUrl app.packageName app.latestVersion
        else ""
      downloadUrl := c.resolveRelativeUrl indexUrl app.bpkUrl
      downloadSize := app.sizeDownload.getD 0
      schemaError :=
        if app.packageName = "" then "Missing package_name"
        else if manifestId ≠ "" ∧ manifestId ≠ app.packageName then "manifest_id must match package_name"
        else if app.latestVersion = "" then "Missing latest_version"
        else "" }
    app.cachedMetadata

def parseIndexJson (indexUrl : String) (apps : List IndexApp) : State :=
  applyInstalledState c { s with entries := apps.map (makeEntry c indexUrl) }

def refreshInstalledApps : State :=
  applyInstalledState c
    { s with installedVersions := (s.apps.filter fun app => app.id != "").map fun app => (app.id, app.version) }

/-! ### Local packages -/

/-- A step of the scan: the manifest of a candidate is read. -/
def scanStep (path : Path) (found : List LocalPackageEntry) : List LocalPackageEntry :=
  match (s.files path).bind (·.manifest) with
  | none => found
  | some m =>
    if m.id = "" ∨ found.any fun package => package.manifestId ++ "#" ++ package.version == m.id ++ "#" ++ m.version then found
    else
      found ++ [{
        packagePath := path
        fileName := path.filename
        fileSize := 0
        manifestId := m.id
        appNames := m.localizedNames
        version := m.version }]

/-- One turn of the loop of `rebuild_local_package_index`. -/
def indexPackage (index : List (String × LocalPackageEntry)) (package : LocalPackageEntry) :
    List (String × LocalPackageEntry) :=
  let remoteLatest := ((s.entries.find? (·.packageName == package.manifestId)).map (·.latestVersion)).getD ""
  match index.lookup package.manifestId with
  | none => index ++ [(package.manifestId, package)]
  | some current =>
    let packageMatchesLatest := remoteLatest != "" && package.version == remoteLatest
    let currentMatchesLatest := remoteLatest != "" && current.version == remoteLatest
    if (packageMatchesLatest && !currentMatchesLatest) ||
        (packageMatchesLatest == currentMatchesLatest && decide (0 < c.compareVersions package.version current.version)) then
      index.map fun e => if e.1 = package.manifestId then (e.1, package) else e
    else index

/-- `finish_local_package_scan`. -/
def finishScan (found : List LocalPackageEntry) : State :=
  let packages := found.mergeSort c.order
  let index := (packages.filter fun package => package.manifestId != "").foldl (indexPackage c s) []
  applyInstalledState c { s with localPackages := packages, packageIndex := index, scan := none }

/-! ### Deferred operations -/

def Operation.isRefresh : Operation → Bool
  | .refresh => true
  | _ => false

def scheduleDeferredOperation (operation : Operation) : State :=
  if operation.isRefresh then if s.pending = [] then { s with pending := [operation] } else s
  else { s with pending := s.pending.filter (fun o => !o.isRefresh) ++ [operation] }

def isStoreInstallPending (index : ℕ) : Bool :=
  s.pending.any fun
    | .installPackage i _ _ => i == index
    | _ => false

def StoreEntry.announces (entry : StoreEntry) : Announced :=
  ⟨entry.packageName, entry.latestVersion, entry.sha256⟩

/-- `schedule_package_install` for an entry. -/
def schedulePackageInstall (index : ℕ) (path : Path) (entry : StoreEntry) : State :=
  scheduleDeferredOperation s (.installPackage index path entry.announces)

/-- How an installation ends; one that fails may have uninstalled the app it was to replace. -/
inductive InstallResult
  | succeeds
  | fails
  | losesApp
  deriving DecidableEq

/-- `install_runtime_app_package` with `replace_existing`: the manifest, the digest of the file and the
apps that were touched. -/
def installRuntimeAppPackage (path : Path) (result : InstallResult) : State × Option (AppManifest × String × List String) :=
  match s.files path with
  | none => (s, none)
  | some file =>
    match file.manifest with
    | none => (s, none)
    | some m =>
      if m.id = c.selfId then (s, none)
      else
        let others := s.apps.filter fun app => app.id != m.id
        match result with
        | .fails => (s, none)
        | .losesApp => ({ s with apps := others }, none)
        | .succeeds =>
          ({ s with apps := others ++ [m] },
            some (m, file.sha256, m.id :: (s.apps.filter fun app => app.id == m.id).map (·.id)))

def installPackage (path : Path) (result : InstallResult) : State × Option (AppManifest × String × List String) :=
  let r := installRuntimeAppPackage c s path result
  match r.2 with
  | none => r
  | some done => ({ refreshInstalledApps c r.1 with scan := some [] }, some done)

def executeDeferredOperation (result : InstallResult) : Operation → State
  | .refresh => { refreshInstalledApps c s with scan := none }
  | .installLocalPackage path => (installPackage c s path result).1
  | .installPackage _ path announced =>
    let r := installPackage c s path result
    match r.2 with
    | none => r.1
    | some (manifest, sha256, touched) =>
      { r.1 with installs := s.installs ++ [⟨announced, manifest, sha256, touched⟩] }
  | .uninstallInstalledApp manifestId =>
    if result = .succeeds then
      { refreshInstalledApps c { s with apps := s.apps.filter fun app => app.id != manifestId } with scan := some [] }
    else s
  | .deleteLocalPackage path =>
    if result = .succeeds then { s with files := Function.update s.files path none, scan := some [] } else s

/-! ### Requests -/

def setEntry (index : ℕ) (entry : StoreEntry) : State := { s with entries := s.entries.set index entry }

/-- `start_metadata_request`, where HTTP is `available`. -/
def startMetadataRequest (index : ℕ) (entry : StoreEntry) (available : Bool) : State :=
  if !available || (entry.installed && !entry.updateAvailable) || entry.packageName == "" || entry.latestVersion == "" ||
      entry.metadataUrl == "" || entry.schemaError == "manifest_id must match package_name" then
    setEntry s index entry
  else setEntry s index { entry with schemaError := "", metadataLoading := true }

/-- `start_download`, where HTTP is `available` and there is room for the package. -/
def startDownload (index : ℕ) (entry : StoreEntry) (available : Bool) : State :=
  if !available || (entry.installed && !entry.updateAvailable) || entry.packageName == "" || entry.downloadUrl == "" ||
      entry.schemaError == "manifest_id must match package_name" then
    setEntry s index entry
  else setEntry s index { entry with schemaError := "", metadataLoading := false, downloading := true, installed := false }

/-- What `start_or_cancel_download` has of the entry when it looks for a package. -/
def lookAgain (entry : StoreEntry) (documents : List (Option Metadata)) : StoreEntry :=
  if entry.downloadUrl = "" ∨ entry.downloadSize = 0 then applyCachedMetadata c entry documents else entry

def proceeds (index : ℕ) (entry : StoreEntry) : Bool :=
  !entry.downloading && !isStoreInstallPending s index && !entry.metadataLoading && !(entry.installed && !entry.updateAvailable)

def startOrCancelDownload (index : ℕ) (entry : StoreEntry) (documents : List (Option Metadata)) (available : Bool) : State :=
  if entry.downloading then setEntry s index { entry with downloading := false, metadataLoading := false }
  else if !proceeds s index entry then s
  else
    let entry := lookAgain c entry documents
    if entry.cached && entry.cachedPackagePath != [] then
      schedulePackageInstall (setEntry s index entry) index entry.cachedPackagePath entry
    else if entry.downloadUrl = "" then startMetadataRequest s index entry available
    else startDownload s index entry available

/-- `handle_metadata_completed` with a body. -/
def handleMetadataCompleted (index : ℕ) (entry : StoreEntry) (json : Option Metadata) (available : Bool) : State :=
  let r := applyMetadata c { entry with metadataLoading := false } json true false true
  match r.2 with
  | none => startDownload s index { r.1 with schemaError := "" } available
  | some error => setEntry s index { r.1 with schemaError := error }

def handleSizeMetadataCompleted (index : ℕ) (entry : StoreEntry) (json : Option Metadata) : State :=
  setEntry s index (applyMetadata c entry json false true false).1

/-- `handle_request_completed` for a download that has brought `file`. -/
def handleDownloadCompleted (index : ℕ) (entry : StoreEntry) (file : PackageFile) : State :=
  let path := c.packagePath entry.packageName entry.latestVersion
  let entry := { entry with downloading := false, cached := true, cachedPackagePath := path }
  schedulePackageInstall (setEntry { s with files := Function.update s.files path (some file) } index entry) index path entry

inductive Label
  | parseIndexJson (indexUrl : String) (apps : List IndexApp)
  | startOrCancelDownload (index : ℕ) (documents : List (Option Metadata)) (available : Bool)
  | metadataCompleted (index : ℕ) (json : Option Metadata) (available : Bool)
  | sizeMetadataCompleted (index : ℕ) (json : Option Metadata)
  | downloadCompleted (index : ℕ) (file : PackageFile)
  /-- A request of the entry fails, is cancelled or takes too long. -/
  | requestEnds (index : ℕ) (error : String)
  | refreshInstalledApps
  | startScan
  | scanStep (path : Path)
  | finishScan
  | schedule (operation : Operation)
  | execute (result : InstallResult)
  | cancelDeferredOperations
  /-- A package file is written or removed by somebody else. -/
  | write (path : Path) (file : Option PackageFile)
  deriving DecidableEq

/-- The operations that are scheduled from the lists of local packages and installed apps. -/
def Operation.isOther : Operation → Bool
  | .installPackage _ _ _ => false
  | _ => true

def step : Label → Option State
  | .parseIndexJson indexUrl apps => some (parseIndexJson c s indexUrl apps)
  | .startOrCancelDownload index documents available =>
    s.entries[index]?.map fun entry => startOrCancelDownload c s index entry documents available
  | .metadataCompleted index json available =>
    (s.entries[index]?.filter (·.metadataLoading)).map fun entry => handleMetadataCompleted c s index entry json available
  | .sizeMetadataCompleted index json => s.entries[index]?.map fun entry => handleSizeMetadataCompleted c s index entry json
  | .downloadCompleted index file =>
    (s.entries[index]?.filter (·.downloading)).map fun entry => handleDownloadCompleted c s index entry file
  | .requestEnds index error =>
    s.entries[index]?.map fun entry =>
      setEntry s index { entry with downloading := false, metadataLoading := false, schemaError := error }
  | .refreshInstalledApps => some (refreshInstalledApps c s)
  | .startScan => some { s with scan := some [] }
  | .scanStep path => s.scan.map fun found => { s with scan := some (scanStep s path found) }
  | .finishScan => s.scan.map fun found => finishScan c s found
  | .schedule operation => if operation.isOther then some (scheduleDeferredOperation s operation) else none
  | .execute result =>
    match s.pending with
    | [] => none
    | operation :: pending => some (executeDeferredOperation c { s with pending := pending } result operation)
  | .cancelDeferredOperations => some { s with pending := [] }
  | .write path file => some { s with files := Function.update s.files path file }

def machine : Machine State Label where
  init s := ∃ files apps, s = init files apps
  step s label := step c s label

end Brookesia.AppStore.Install
