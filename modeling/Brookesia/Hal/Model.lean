import Brookesia.Transition.Machine

/-! # HAL devices and their handles

`Device` of `device.cpp` with the acquisition and release of interfaces, and `InterfaceHandle` of
`interface.hpp`. `on_init` and `on_deinit` of a device are scripts: they may use the interfaces of other
devices in the same way as the host. So the state keeps what is in progress (`calls`, the innermost
first), and a label is what the host or a script does next, or what the code comes to next and is told
by `probe`, the callbacks and the casts. `history` is not in the source. -/

namespace Brookesia.Hal

open Transition

/-- A device by its place in the registry, whose entries are sorted by plugin name. -/
abbrev Device := Nat

structure InterfaceSpec where
  typeName : String
  instanceName : String

structure DeviceConfig where
  interfaceSpecs : List InterfaceSpec
  deinitOnZeroReferences : Bool

/-- The registered devices, and whether there are global callbacks. -/
structure Config where
  devices : List DeviceConfig
  preInitCallback : Bool
  postDeinitCallback : Bool

/-- `AcquiredInterface`, and what an `InterfaceHandle` holds. -/
structure AcquiredInterface where
  device : Device
  instanceName : String
  interface : Nat
  deriving DecidableEq

/-- The loop of `acquire_interface`, `acquire_first_interface` (`first`) or `acquire_interfaces`: the
specs it has still to come to, and what it has acquired. -/
structure Loop where
  first : Bool
  candidates : List (Device × String)
  acquired : List AcquiredInterface := []
  deriving DecidableEq

inductive Frame
  | acquiring (loop : Loop)
  | casting (acquired : List AcquiredInterface)
  /-- `operator=` has reset the handle and is to move from `source`. -/
  | moving (handle source : Nat)
  | onInit (device : Device) (instanceName : String) (loop : Loop)
  | onDeinit (device : Device)
  deriving DecidableEq

inductive Event
  /-- `on_init` has returned true. -/
  | initialized (device : Device)
  /-- `on_deinit` has returned. -/
  | deinitialized (device : Device)
  | preInit | postDeinit
  /-- `g_initialized_device_count` changes from 0, or to 0. -/
  | countLeavesZero | countBecomesZero
  deriving DecidableEq

structure State where
  referenceCount : Device → Nat
  isInitialized : Device → Bool
  interfaces : Device → String → Option Nat
  initializedDeviceCount : Nat
  handles : Nat → Option AcquiredInterface
  nextHandle : Nat
  calls : List Frame
  history : List Event

def init : State where
  referenceCount := fun _ => 0
  isInitialized := fun _ => false
  interfaces := fun _ _ => none
  initializedDeviceCount := 0
  handles := fun _ => none
  nextHandle := 0
  calls := []
  history := []

/-- What `probe`, the global and the device's pre-init callback, and a cast answer. -/
structure Env where
  probe : Bool
  globalPreInit : Bool
  preInit : Bool
  cast : Bool
  deriving DecidableEq

variable (c : Config) (s : State)

def deinitOnZeroReferences (device : Device) : Bool :=
  c.devices[device]?.any (·.deinitOnZeroReferences)

/-- The specs that a loop comes to, in the order of the registry. -/
def candidates (matching : InterfaceSpec → Bool) : List (Device × String) :=
  c.devices.zipIdx.flatMap fun entry => (entry.1.interfaceSpecs.filter matching).map fun spec => (entry.2, spec.instanceName)

/-- `g_initialized_device_count++` -/
def raiseCount : State :=
  { s with
    initializedDeviceCount := s.initializedDeviceCount + 1
    history := (if s.initializedDeviceCount = 0 then [.countLeavesZero] else []) ++ s.history }

/-- `g_initialized_device_count--` and the global post-deinit callback. -/
def lowerCount : State :=
  if s.initializedDeviceCount = 0 then s
  else { s with
    initializedDeviceCount := s.initializedDeviceCount - 1
    history :=
      if s.initializedDeviceCount = 1 then
        (if c.postDeinitCallback then [.postDeinit] else []) ++ .countBecomesZero :: s.history
      else s.history }

/-- `release_interface` with `Device::release`, up to `on_deinit`. -/
def releaseInterface (device : Device) : State :=
  if s.referenceCount device = 0 then s
  else
    let s := { s with referenceCount := Function.update s.referenceCount device (s.referenceCount device - 1) }
    if s.referenceCount device = 0 ∧ deinitOnZeroReferences c device = true ∧ s.isInitialized device = true then
      { s with calls := .onDeinit device :: s.calls }
    else s

/-- `Device::deinit` and `release_interface` after `on_deinit`. -/
def finishDeinit (device : Device) : State :=
  lowerCount c { s with
    interfaces := Function.update s.interfaces device fun _ => none
    isInitialized := Function.update s.isInitialized device false
    history := .deinitialized device :: s.history }

def goOn (loop : Loop) : State :=
  { s with calls := .acquiring loop :: s.calls }

/-- `try_acquire_interface` once the device is acquired. -/
def afterAcquire (device : Device) (instanceName : String) (loop : Loop) : State :=
  match s.interfaces device instanceName with
  | some interface =>
    let acquired := loop.acquired ++ [⟨device, instanceName, interface⟩]
    if loop.first then { s with calls := .casting acquired :: s.calls }
    else goOn s { loop with acquired := acquired }
  | none => releaseInterface c (goOn s loop) device

/-- `Device::acquire`, up to `on_init`. -/
def acquire (device : Device) (instanceName : String) (loop : Loop) (env : Env) : State :=
  if 0 < s.referenceCount device then
    let t := { s with referenceCount := Function.update s.referenceCount device (s.referenceCount device + 1) }
    afterAcquire c (if s.isInitialized device then t else raiseCount t) device instanceName loop
  else if s.isInitialized device then
    afterAcquire c { s with referenceCount := Function.update s.referenceCount device 1 } device instanceName loop
  else if env.preInit then
    { s with
      interfaces := Function.update s.interfaces device fun _ => none
      calls := .onInit device instanceName loop :: s.calls }
  else goOn s loop

/-- `Device::init` and `acquire_device` after `on_init`. -/
def finishInit (device : Device) (instanceName : String) (loop : Loop) (ok : Bool) : State :=
  if ok then
    afterAcquire c (raiseCount { s with
      isInitialized := Function.update s.isInitialized device true
      referenceCount := Function.update s.referenceCount device 1
      history := .initialized device :: s.history }) device instanceName loop
  else goOn s loop

/-- Whether `acquire_device` runs the global pre-init callback. -/
def runsPreInit (device : Device) : Bool :=
  !s.isInitialized device && s.initializedDeviceCount == 0 && c.preInitCallback

def acquireDevice (device : Device) (instanceName : String) (loop : Loop) (env : Env) : State :=
  if env.probe then
    if runsPreInit c s device then
      let s := { s with history := .preInit :: s.history }
      if env.globalPreInit then acquire c s device instanceName loop env else goOn s loop
    else acquire c s device instanceName loop env
  else goOn s loop

def reset (handle : Nat) : State :=
  match s.handles handle with
  | none => s
  | some held => releaseInterface c { s with handles := Function.update s.handles handle none } held.device

def moveFrom (handle source : Nat) : State :=
  { s with handles := Function.update (Function.update s.handles handle (s.handles source)) source none }

def advance (env : Env) : Option State :=
  match s.calls with
  | .acquiring loop :: rest =>
    match loop.candidates with
    | [] => some { s with calls := .casting loop.acquired :: rest }
    | candidate :: candidates =>
      some (acquireDevice c { s with calls := rest } candidate.1 candidate.2 { loop with candidates := candidates } env)
  | .casting [] :: rest => some { s with calls := rest }
  | .casting (held :: acquired) :: rest =>
    let s := { s with calls := .casting acquired :: rest }
    if env.cast then
      some { s with handles := Function.update s.handles s.nextHandle (some held), nextHandle := s.nextHandle + 1 }
    else some (releaseInterface c s held.device)
  | .moving handle source :: rest => some (moveFrom { s with calls := rest } handle source)
  | .onInit _ _ _ :: _ | .onDeinit _ :: _ | [] => none

def free : Bool :=
  match s.calls with
  | [] | .onInit _ _ _ :: _ | .onDeinit _ :: _ => true
  | .acquiring _ :: _ | .casting _ :: _ | .moving _ _ :: _ => false

inductive Label
  | acquireInterface (typeName instanceName : String)
  | acquireFirstInterface (typeName : String)
  | acquireInterfaces (typeName : String)
  | declare
  | reset (handle : Nat)
  /-- `operator=(InterfaceHandle &&)`, and the constructor when the handle is new. -/
  | moveAssign (handle source : Nat)
  /-- By `on_init`. -/
  | publishInterface (name : String) (interface : Nat)
  /-- `on_init` or `on_deinit` returns. -/
  | returns (ok : Bool)
  | advance (env : Env)
  deriving DecidableEq

def publishInterface (device : Device) (name : String) (interface : Nat) : State :=
  let interfaces := Function.update (s.interfaces device) name (some interface)
  { s with interfaces := Function.update s.interfaces device interfaces }

def beginLoop (first : Bool) (matching : InterfaceSpec → Bool) : State :=
  goOn s { first := first, candidates := candidates c matching }

def step : Label → Option State
  | .acquireInterface typeName instanceName =>
    if free s then
      some (beginLoop c s true fun spec => spec.typeName == typeName && spec.instanceName == instanceName)
    else none
  | .acquireFirstInterface typeName =>
    if free s then some (beginLoop c s true fun spec => spec.typeName == typeName) else none
  | .acquireInterfaces typeName =>
    if free s then some (beginLoop c s false fun spec => spec.typeName == typeName) else none
  | .declare => if free s then some { s with nextHandle := s.nextHandle + 1 } else none
  | .reset handle => if free s ∧ handle < s.nextHandle then some (reset c s handle) else none
  | .moveAssign handle source =>
    if free s ∧ handle < s.nextHandle ∧ source < s.nextHandle then
      if handle = source then some s
      else some (reset c { s with calls := .moving handle source :: s.calls } handle)
    else none
  | .publishInterface name interface =>
    match s.calls with
    | .onInit device _ _ :: _ =>
      if name = "" then none else some (publishInterface s device name interface)
    | _ => none
  | .returns ok =>
    match s.calls with
    | .onInit device instanceName loop :: rest => some (finishInit c { s with calls := rest } device instanceName loop ok)
    | .onDeinit device :: rest => some (finishDeinit c { s with calls := rest } device)
    | _ => none
  | .advance env => advance c s env

def machine : Machine State Label where
  init s := s = init
  step := step c

end Brookesia.Hal
