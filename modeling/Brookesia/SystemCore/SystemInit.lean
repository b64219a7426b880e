import Brookesia.Data.Programs
import Brookesia.Filesystem.Path

/-! # System::init

`System::init` with the parts of the service manager that it uses. `Outcomes` has the answers of one call:
which of the steps outside this function succeed.

* `registered` and `services` have numbers for the service objects: `init` makes new ones each time, and
  `add_service` keeps the object that is there.
* A registered app comes from the registry of providers, a packaged app from a scanned directory; the
  scan roots are taken in their order.
* The hooks (`on_prepare_startup_overlay`, `on_init`, `on_app_installed`) count with their answers. -/

namespace Brookesia.SystemCore.SystemInit

open Data.Programs
open Filesystem.Path (Bytes)

/-- The services of the system. -/
inductive Service
  | system
  | gui
  | timer
  deriving DecidableEq

structure Config where
  startServiceManager : Bool
  installRegisteredApps : Bool
  installPackageApps : Bool
  startupOverlay : Bool
  usbBridge : Bool
  deriving DecidableEq

/-- What `AppProviderRegistry` has under a name: a native app or the manifest of a runtime app. -/
structure Provider where
  name : Bytes
  native : Bool
  manifestId : Bytes
  deriving DecidableEq

/-- A directory with a manifest: its id, if it can be read and supports the system type. -/
structure PackageDir where
  path : Bytes
  manifestId : Option Bytes
  deriving DecidableEq

/-- The apps that there are. A provider may be null; the registry has one for a name. -/
structure Device where
  providers : List (Option Provider)
  packageDirs : List PackageDir
  names : ((providers.filterMap id).map (·.name)).Nodup

structure Outcomes where
  schedulerStarts : Bool
  groupsConfigured : Bool
  managerInits : Bool
  serviceInits : Service → Bool
  usbHostBridge : Bool
  usbCallBridge : Bool
  managerStarts : Bool
  usbBinds : Bool
  serviceBinds : Service → Bool
  storageLayout : Except String Unit
  prepareOverlay : Except String Unit
  showOverlay : Except String Unit
  onInit : Except String Unit
  /-- Everything in the installation of an app but the tests of its id. -/
  installs : Bytes → Except String Unit

structure ServiceManager where
  initialized : Bool
  running : Bool
  registered : Service → Option ℕ

inductive Origin
  | provider (name : Bytes)
  | package (path : Bytes)
  deriving DecidableEq

structure InstalledApp where
  manifestId : Bytes
  origin : Origin
  deriving DecidableEq

structure System where
  initialized : Bool
  scheduler : Bool
  taskGroups : Bool
  /-- The GUI runtime, the host bridge and the runtime are made. -/
  runtime : Bool
  manager : ServiceManager
  services : Service → Option ℕ
  nextObject : ℕ
  bindings : Service → Bool
  usbBridges : Bool
  usbBinding : Bool
  storageLayout : Bool
  overlay : Bool
  /-- `on_init` has succeeded. -/
  onInit : Bool
  apps : List InstalledApp

/-- `manifest_id_to_app_.contains`. -/
def System.isInstalled (s : System) (manifestId : Bytes) : Bool :=
  s.apps.any (·.manifestId = manifestId)

abbrev Init := Program System String Unit

def succeeds : Except String Unit → Bool
  | .ok _ => true
  | .error _ => false

/-! ### The parts -/

def startScheduler (o : Outcomes) : Init := do
  change fun s => { s with scheduler := o.schedulerStarts, taskGroups := false }
  require o.schedulerStarts "Failed to start system task scheduler"
  change fun s => { s with taskGroups := o.groupsConfigured }
  require o.groupsConfigured "Failed to configure system task groups"
  change fun s => { s with runtime := true }

def initManager (o : Outcomes) : Init := do
  let isInitialized ← read (·.manager.initialized)
  if isInitialized then pure ()
  else
    change fun s => { s with manager := { s.manager with initialized := o.managerInits } }
    require o.managerInits "Failed to initialize ServiceManager"

def createServices : Init :=
  change fun s =>
    { s with
      services := fun
        | .system => some s.nextObject
        | .gui => some (s.nextObject + 1)
        | .timer => some (s.nextObject + 2)
      nextObject := s.nextObject + 3 }

/-- `ServiceManager::add_service` for the object of the system. -/
def addService (o : Outcomes) (service : Service) (error : String) : Init := do
  let existing ← read (·.manager.registered service)
  if existing.isSome then pure ()
  else
    require (o.serviceInits service) error
    change fun s =>
      { s with
        manager :=
          { s.manager with
            registered := Function.update s.manager.registered service (s.services service) } }

def addServices (o : Outcomes) : Init := do
  createServices
  addService o .system "Failed to add SystemCore service"
  addService o .gui "Failed to add SystemGui service"
  addService o .timer "Failed to add SystemTimer service"

def registerUsbBridges (c : Config) (o : Outcomes) : Init :=
  if c.usbBridge then do
    require o.usbHostBridge "Failed to register USB host command bridge"
    require o.usbCallBridge "Failed to register USB service call bridge"
    change fun s => { s with usbBridges := true }
  else pure ()

/-- The guard `usb_bridge_cleanup`. -/
def clearUsbBridges (c : Config) : Init :=
  change fun s => if c.usbBridge then { s with usbBridges := false } else s

def startManager (c : Config) (o : Outcomes) : Init := do
  let isRunning ← read (·.manager.running)
  if c.startServiceManager = false ∨ isRunning = true then pure ()
  else
    change fun s => { s with manager := { s.manager with running := o.managerStarts } }
    require o.managerStarts "Failed to start ServiceManager"

def bindUsb (c : Config) (o : Outcomes) : Init :=
  if c.usbBridge then do
    change fun s => { s with usbBinding := o.usbBinds }
    require o.usbBinds "Failed to bind USB service"
  else pure ()

/-- The guard `usb_binding_cleanup`. -/
def releaseUsbBinding (c : Config) : Init :=
  change fun s => if c.usbBridge then { s with usbBinding := false } else s

def bindServices (o : Outcomes) : Init := do
  change fun s =>
    { s with bindings := fun service => o.serviceBinds service && (s.manager.registered service).isSome }
  let bindings ← read (·.bindings)
  require (bindings .system && bindings .gui && bindings .timer) "Failed to bind system services"

def prepareStorage (o : Outcomes) : Init := do
  change fun s => { s with storageLayout := succeeds o.storageLayout }
  result o.storageLayout

def showStartupOverlay (c : Config) (o : Outcomes) : Init := do
  result o.prepareOverlay
  result (if c.startupOverlay then o.showOverlay else .ok ())
  change fun s => { s with overlay := c.startupOverlay }

/-- `install_app` or `install_runtime_app`. -/
def installApp (o : Outcomes) (native : Bool) (app : InstalledApp) : Init := do
  require (app.manifestId ≠ []) (if native then "App manifest id is empty" else "Runtime app manifest id is empty")
  let isInstalled ← read (·.isInstalled app.manifestId)
  require (!isInstalled) "App manifest id already installed"
  result (o.installs app.manifestId)
  change fun s => { s with apps := s.apps ++ [app] }

def installRegisteredApps (o : Outcomes) : List (Option Provider) → Init
  | [] => pure ()
  | none :: providers => installRegisteredApps o providers
  | some provider :: providers => do
    installApp o provider.native ⟨provider.manifestId, .provider provider.name⟩
    installRegisteredApps o providers

/-- A directory is skipped if its app is installed already. -/
def installPackageDir (o : Outcomes) (dir : PackageDir) : Init :=
  match dir.manifestId with
  | none => pure ()
  | some manifestId => do
    let isInstalled ← read (·.isInstalled manifestId)
    if isInstalled then pure () else installApp o false ⟨manifestId, .package dir.path⟩

def installUnpackedApps (o : Outcomes) : List PackageDir → Init
  | [] => pure ()
  | dir :: dirs => do
    installPackageDir o dir
    installUnpackedApps o dirs

def callOnInit (o : Outcomes) : Init := do
  change fun s => { s with onInit := succeeds o.onInit }
  result o.onInit

/-- From the place where `initialized_` is set. -/
def finishInit (d : Device) (c : Config) (o : Outcomes) : Init := do
  change fun s => { s with initialized := true }
  callOnInit o
  installRegisteredApps o (if c.installRegisteredApps then d.providers else [])
  installUnpackedApps o (if c.installPackageApps then d.packageDirs else [])

def initAfterServices (d : Device) (c : Config) (o : Outcomes) : Init :=
  onError (do
    registerUsbBridges c o
    startManager c o
    onError (do
      bindUsb c o
      bindServices o
      prepareStorage o
      showStartupOverlay c o
      onError (finishInit d c o) (change fun s => { s with overlay := false }))
      (releaseUsbBinding c))
    (clearUsbBridges c)

def init (d : Device) (c : Config) (o : Outcomes) : Init := do
  let isInitialized ← read (·.initialized)
  if isInitialized then pure ()
  else
    startScheduler o
    initManager o
    addServices o
    initAfterServices d c o

end Brookesia.SystemCore.SystemInit
