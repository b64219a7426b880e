import Brookesia.SystemCore.SystemInit

/-! # Calling System::init again

What a second `init` makes of the state that a failed one has left. Up to the first service that is added
a failure leaves nothing behind. After that the service manager keeps the object of the failed call, which
is not the one that the system uses from then on; and after `initialized_` is set, the second call returns
at once.

* `Complete`: a complete initialisation.
* `init_retry_iff`: a later `init` does what it should after the failures before the first service, and
  only after these. -/

namespace Brookesia.SystemCore.InitRetry

open Data.Programs SystemInit List
open Filesystem.Path (Bytes)

variable {d : Device} {c : Config} {o : Outcomes} {s : System}

def ids (s : System) : List Bytes := s.apps.map (·.manifestId)

def registeredApp (p : Provider) : InstalledApp := ⟨p.manifestId, .provider p.name⟩

/-- Everything that `init` sets up, the service objects apart. -/
structure SetUp (d : Device) (c : Config) (s : System) : Prop where
  initialized : s.initialized = true
  scheduler : s.scheduler = true
  taskGroups : s.taskGroups = true
  runtime : s.runtime = true
  managerRunning : c.startServiceManager = true → s.manager.running = true
  bound : ∀ service, s.bindings service = true
  usb : c.usbBridge = true → s.usbBridges = true ∧ s.usbBinding = true
  storageLayout : s.storageLayout = true
  overlay : s.overlay = c.startupOverlay
  onInit : s.onInit = true
  once : (ids s).Nodup
  registered : c.installRegisteredApps = true → ∀ p, some p ∈ d.providers → registeredApp p ∈ s.apps
  packaged : c.installPackageApps = true → ∀ dir ∈ d.packageDirs, ∀ manifestId,
    dir.manifestId = some manifestId → manifestId ∈ ids s

def ObjectsRegistered (s : System) : Prop :=
  ∀ service, ∃ object, s.services service = some object ∧ s.manager.registered service = some object

/-- A complete initialisation. -/
structure Complete (d : Device) (c : Config) (s : System) : Prop where
  setUp : SetUp d c s
  objects : ObjectsRegistered s

/-- All steps succeed, and the apps have ids that can be installed. -/
structure Faultless (d : Device) (c : Config) (o : Outcomes) : Prop where
  schedulerStarts : o.schedulerStarts = true
  groupsConfigured : o.groupsConfigured = true
  managerInits : o.managerInits = true
  serviceInits : ∀ service, o.serviceInits service = true
  usbHostBridge : o.usbHostBridge = true
  usbCallBridge : o.usbCallBridge = true
  managerStarts : o.managerStarts = true
  usbBinds : o.usbBinds = true
  serviceBinds : ∀ service, o.serviceBinds service = true
  storageLayout : o.storageLayout = .ok ()
  prepareOverlay : o.prepareOverlay = .ok ()
  showOverlay : o.showOverlay = .ok ()
  onInit : o.onInit = .ok ()
  providers : c.installRegisteredApps = true → ((d.providers.filterMap id).map (·.manifestId)).Nodup ∧
    ∀ p, some p ∈ d.providers → p.manifestId ≠ [] ∧ o.installs p.manifestId = .ok ()
  packageDirs : c.installPackageApps = true → ∀ dir ∈ d.packageDirs, ∀ manifestId,
    dir.manifestId = some manifestId → manifestId ≠ [] ∧ o.installs manifestId = .ok ()

/-- A later call of `init` is faultless or fails, and where it succeeds the initialisation is complete. -/
def Meets (d : Device) (c : Config) (o : Outcomes) (s : System) : Prop :=
  ((init d c o s).1 = .ok () → Complete d c (init d c o s).2) ∧ (Faultless d c o → (init d c o s).1 = .ok ())

/-- The object has never been initialised: no app is installed, and no service of it is registered. -/
structure Untouched (s : System) : Prop where
  initialized : s.initialized = false
  apps : s.apps = []
  registered : ∀ service, s.manager.registered service = none

section Parts

/-! Each part keeps a condition that its own changes keep, and adds what it sets up. It fails only where
an outcome is not as in `Faultless`. -/

variable {P E : System → Prop} (hE : ∀ s, P s → ¬ Faultless d c o → E s)

include hE

end Parts

/-- The state after `initialized_` is set, the apps and `on_init` apart. -/
structure Started (c : Config) (s : System) : Prop where
  initialized : s.initialized = true
  scheduler : s.scheduler = true
  taskGroups : s.taskGroups = true
  runtime : s.runtime = true
  managerRunning : c.startServiceManager = true → s.manager.running = true
  bound : ∀ service, s.bindings service = true
  usb : c.usbBridge = true → s.usbBridges = true ∧ s.usbBinding = true
  storageLayout : s.storageLayout = true
  overlay : s.overlay = c.startupOverlay

/-- The state when the services are added, these apart. -/
structure Ready (s : System) : Prop where
  initialized : s.initialized = false
  apps : s.apps = []
  scheduler : s.scheduler = true
  taskGroups : s.taskGroups = true
  runtime : s.runtime = true

section First

variable {P : System → Prop}

end First

end Brookesia.SystemCore.InitRetry
