import Brookesia.ServiceManager.Service

/-! # The service manager

`ServiceManager` between `init` and `deinit`, without its own `start` and `stop`: any number of threads
call `add_service`, `remove_service` and `bind`, and release and move bindings.

* A thread is a stack of frames, the call it is in on top. A step is one section under
  `service_mutex_`, or one access to what is not under it: `is_initialized_`, a service, a variable.
* The application keeps bindings in variables. A `ServiceBinding` object with something in it is a
  list of references: its own, and after it those of `dependencies_`, in the order in which
  `release` gives them back. The list is empty for an object that is default, moved from or released.
* A variable is used by one thread at a time: what is moved from it or released in it is taken out
  first.
* The condition variable wakes its waiters at any time. A thread that waits on an entry which is
  erased waits on a destroyed object and does not go on.

For the statements an entry remembers the number of its registration, and every service the calls of
`start` and `stop` the manager has made of it (`log`). -/

namespace Brookesia.ServiceManager.Model

open Transition Service

abbrev ThreadId := ℕ

abbrev Variable := ℕ

inductive ServiceState
  | stopped
  | starting
  | running
  | stopping
  deriving DecidableEq

structure RuntimeServiceInfo where
  refCount : ℕ := 0
  service : ServiceId
  state : ServiceState := .stopped
  registration : ℕ
  deriving DecidableEq

/-- What one `ServiceBinding` object of a binding and its dependencies was made for. -/
structure Reference where
  name : ServiceName
  service : ServiceId
  registration : ℕ
  deriving DecidableEq

abbrev ServiceBinding := List Reference

/-! ### Where the threads are -/

/-- `bind(name)`; `bound` is `dependency_bindings`. -/
inductive BindStage
  | entered
  | collecting
  | resolving (dependencies : List ServiceName) (bound : ServiceBinding)
  /-- In `bind(dependency)`. -/
  | awaiting (dependency : ServiceName) (dependencies : List ServiceName) (bound : ServiceBinding)
  | received (dependency : ServiceName) (binding : ServiceBinding)
      (dependencies : List ServiceName) (bound : ServiceBinding)
  | locking (bound : ServiceBinding)
  | waiting (registration : ℕ) (bound : ServiceBinding)
  /-- About to call `start`. -/
  | marked (registration : ℕ) (service : ServiceId) (bound : ServiceBinding)
  | starting (registration : ℕ) (service : ServiceId) (c : CallStage) (bound : ServiceBinding)
  | started (registration : ℕ) (service : ServiceId) (ok : Bool) (bound : ServiceBinding)
  /-- The service was removed while it started: about to call `stop`, and in it. -/
  | orphaned (service : ServiceId) (bound : ServiceBinding)
  | orphanStopping (service : ServiceId) (c : CallStage) (bound : ServiceBinding)
  /-- About to give back what is bound and return an empty binding. -/
  | failing (bound : ServiceBinding)
  | failed
  deriving DecidableEq

/-- `release()`, with `unbind` from `unbinding` on. -/
inductive ReleaseStage
  | calling
  | unbinding
  | locking
  /-- About to call `stop`. -/
  | marked (service : ServiceId)
  | stopping (service : ServiceId) (c : CallStage)
  | stopped (service : ServiceId)
  deriving DecidableEq

inductive AddStage
  | checking
  | testing
  | initializing (c : CallStage)
  | emplacing
  deriving DecidableEq

inductive RemoveStage
  | finding
  | waiting (registration : ℕ)
  | testing (service : ServiceId)
  | deinitializing (service : ServiceId) (c : CallStage)
  | erasing
  deriving DecidableEq

/-- `init()`: the built-in services and then the registered ones. -/
inductive InitStage
  | locking (builtins services : List ServiceId)
  | adding (added : List ServiceName) (builtins services : List ServiceId)
  | awaiting (added : List ServiceName) (service : ServiceId) (builtins services : List ServiceId)
  | undoing (added : List ServiceName)
  | registering (services : List ServiceId)
  | setting
  deriving DecidableEq

/-- `deinit()`, with `remove_all_registered_services`. -/
inductive DeinitStage
  | locking
  | picking
  | marked (name : ServiceName) (service : ServiceId)
  | stopping (name : ServiceName) (service : ServiceId) (c : CallStage)
  | removing (name : ServiceName)
  | setting
  deriving DecidableEq

inductive Frame
  | bind (name : ServiceName) (stage : BindStage)
  /-- The caller of `bind`, with the variable for the result. -/
  | binding (target : Variable)
  | assign (target : Variable) (binding : ServiceBinding)
  /-- A reference is given back, and then the rest of its binding. -/
  | release (stage : ReleaseStage) (reference : Reference) (rest : ServiceBinding)
  | add (service : ServiceId) (stage : AddStage)
  | remove (name : ServiceName) (stage : RemoveStage)
  | init (stage : InitStage)
  | deinit (stage : DeinitStage)
  deriving DecidableEq

structure State where
  isInitialized : Bool := false
  /-- `state_mutex_` is held. -/
  locked : Bool := false
  services : ServiceName → Option RuntimeServiceInfo := fun _ => none
  initOrder : List ServiceName := []
  objects : ServiceId → ServiceBase := fun _ => {}
  bindings : List ServiceBinding
  threads : List (List Frame)
  nextRegistration : ℕ := 0
  log : ServiceId → List Event := fun _ => []

/-! ### Parts of a step -/

def State.setInfo (s : State) (name : ServiceName) (info : RuntimeServiceInfo) : State :=
  { s with services := Function.update s.services name (some info) }

def State.setObject (s : State) (service : ServiceId) (b : ServiceBase) : State :=
  { s with objects := Function.update s.objects service b }

def State.record (s : State) (service : ServiceId) (e : Event) : State :=
  { s with log := Function.update s.log service (s.log service ++ [e]) }

/-- `ref_count--` of a `size_t`. -/
def decrement (refCount : ℕ) : ℕ := if refCount = 0 then 2 ^ 32 - 1 else refCount - 1

/-- `is_valid()`. -/
def State.isValid (s : State) : ServiceBinding → Bool
  | [] => false
  | reference :: _ => (s.objects reference.service).isRunning

/-- `release()` of a binding, below which the thread goes on with `frames`. -/
def releaseOf (b : ServiceBinding) (frames : List Frame) : List Frame :=
  match b with
  | [] => frames
  | reference :: rest => .release .calling reference rest :: frames

/-- `bind(name)` returns to the frame that has called it. -/
def returnBinding (name : ServiceName) (b : ServiceBinding) : List Frame → Option (List Frame)
  | .bind caller (.awaiting dependency dependencies bound) :: frames =>
    if dependency = name then
      some (.bind caller (.received dependency b dependencies bound) :: frames)
    else none
  | .binding target :: frames => some (.assign target b :: frames)
  | _ => none

/-- `add_service` returns. -/
def returnAdded (cat : Catalog) (ok : Bool) : List Frame → List Frame
  | .init (.awaiting added service builtins services) :: frames =>
    .init (if ok then .adding ((cat service).name :: added) builtins services
      else .undoing added) :: frames
  | frames => frames

/-- A call of a service in the course of a step: the service goes on, or the frame does. -/
def State.call (s : State) (service : ServiceId) (c : CallStage) (ok : Bool)
    (goes : State → CallStage → State × List Frame)
    (returns : State → Bool → State × List Frame) : Option (State × List Frame) :=
  (callStep (s.objects service) ok c).map fun
    | (b, .goes c') => goes (s.setObject service b) c'
    | (b, .returns result) => returns (s.setObject service b) result

/-! ### `bind` -/

/-- `bind` has found the entry and looks at its state. -/
def acquire (s : State) (name : ServiceName) (info : RuntimeServiceInfo) (bound : ServiceBinding)
    (frames : List Frame) : Option (State × List Frame) :=
  match info.state with
  | .starting | .stopping => some (s, .bind name (.waiting info.registration bound) :: frames)
  | .stopped =>
    some (s.setInfo name { info with state := .starting, refCount := info.refCount + 1 },
      .bind name (.marked info.registration info.service bound) :: frames)
  | .running =>
    (returnBinding name (⟨name, info.service, info.registration⟩ :: bound) frames).map
      (s.setInfo name { info with refCount := info.refCount + 1 }, ·)

/-- The next step of `bind(name)`, called by the first of `frames`. -/
def bindStep (cat : Catalog) (s : State) (name : ServiceName) (ok : Bool) (frames : List Frame) :
    BindStage → Option (State × List Frame)
  | .entered =>
    if s.isInitialized then some (s, .bind name .collecting :: frames)
    else (returnBinding name [] frames).map (s, ·)
  | .collecting =>
    match s.services name with
    | none => (returnBinding name [] frames).map (s, ·)
    | some info =>
      if (cat info.service).bindable then
        some (s, .bind name (.resolving (cat info.service).dependencies []) :: frames)
      else (returnBinding name [] frames).map (s, ·)
  | .resolving [] bound => some (s, .bind name (.locking bound) :: frames)
  | .resolving (dependency :: dependencies) bound =>
    some (s, .bind dependency .entered :: .bind name (.awaiting dependency dependencies bound) :: frames)
  | .awaiting _ _ _ => none
  | .received _ binding dependencies bound =>
    some (s, .bind name (if s.isValid binding then .resolving dependencies (bound ++ binding)
      else .failing (binding ++ bound)) :: frames)
  | .locking bound =>
    match s.services name with
    | none => some (s, .bind name (.failing bound) :: frames)
    | some info => acquire s name info bound frames
  | .waiting registration bound =>
    match s.services name with
    | none => none
    | some info =>
      if info.registration = registration then acquire s name info bound frames else none
  | .marked registration service bound =>
    some (s.record service .start, .bind name (.starting registration service .starting bound) :: frames)
  | .starting registration service c bound =>
    s.call service c ok (fun s' c' => (s', .bind name (.starting registration service c' bound) :: frames))
      fun s' result => (s'.record service (.started result),
        .bind name (.started registration service result bound) :: frames)
  | .started _ service true bound =>
    match s.services name with
    | none => some (s, .bind name (.orphaned service bound) :: frames)
    | some info =>
      (returnBinding name (⟨name, info.service, info.registration⟩ :: bound) frames).map
        (s.setInfo name { info with state := .running }, ·)
  | .started _ _ false bound =>
    match s.services name with
    | none => some (s, .bind name (.failing bound) :: frames)
    | some info =>
      some (s.setInfo name { info with state := .stopped, refCount := decrement info.refCount },
        .bind name (.failing bound) :: frames)
  | .orphaned service bound =>
    some (s.record service .stop, .bind name (.orphanStopping service .stopping bound) :: frames)
  | .orphanStopping service c bound =>
    s.call service c ok (fun s' c' => (s', .bind name (.orphanStopping service c' bound) :: frames))
      fun s' _ => (s'.record service .stopped, .bind name (.failing bound) :: frames)
  | .failing bound => some (s, releaseOf bound (.bind name .failed :: frames))
  | .failed => (returnBinding name [] frames).map (s, ·)

/-! ### `release` and `unbind` -/

/-- The next step of `release()`. -/
def releaseStep (s : State) (reference : Reference) (rest : ServiceBinding) (ok : Bool)
    (frames : List Frame) : ReleaseStage → Option (State × List Frame)
  | .calling =>
    some (s, if s.isInitialized then .release .unbinding reference rest :: frames
      else releaseOf rest frames)
  | .unbinding =>
    some (s, if s.isInitialized then .release .locking reference rest :: frames
      else releaseOf rest frames)
  | .locking =>
    match s.services reference.name with
    | none => some (s, releaseOf rest frames)
    | some info =>
      if info.refCount = 0 then some (s, releaseOf rest frames)
      else if info.refCount = 1 then
        if (s.objects info.service).isRunning then
          some (s.setInfo reference.name { info with refCount := 0, state := .stopping },
            .release (.marked info.service) reference rest :: frames)
        else
          some (s.setInfo reference.name { info with refCount := 0, state := .stopped }, releaseOf rest frames)
      else
        some (s.setInfo reference.name { info with refCount := info.refCount - 1 }, releaseOf rest frames)
  | .marked service =>
    some (s.record service .stop, .release (.stopping service .stopping) reference rest :: frames)
  | .stopping service c =>
    s.call service c ok (fun s' c' => (s', .release (.stopping service c') reference rest :: frames)) fun s' _ =>
        (s'.record service .stopped, .release (.stopped service) reference rest :: frames)
  | .stopped _ =>
    match s.services reference.name with
    | none => some (s, releaseOf rest frames)
    | some info =>
      some (if info.state = .stopping then s.setInfo reference.name { info with state := .stopped }
        else s, releaseOf rest frames)

/-! ### `add_service` and `remove_service` -/

/-- The next step of `add_service(service)`. -/
def addStep (cat : Catalog) (s : State) (service : ServiceId) (ok : Bool) (frames : List Frame) :
    AddStage → Option (State × List Frame)
  | .checking =>
    match s.services (cat service).name with
    | some _ => some (s, returnAdded cat true frames)
    | none => some (s, .add service .testing :: frames)
  | .testing =>
    some (s, .add service (if (s.objects service).isInitialized then .emplacing
      else .initializing .initializing) :: frames)
  | .initializing c =>
    s.call service c ok (fun s' c' => (s', .add service (.initializing c') :: frames))
      fun s' result => (s', if result then .add service .emplacing :: frames
        else returnAdded cat false frames)
  | .emplacing =>
    match s.services (cat service).name with
    | some _ => some (s, returnAdded cat true frames)
    | none =>
      some ({ s.setInfo (cat service).name { service := service, registration := s.nextRegistration } with
          initOrder := s.initOrder ++ [(cat service).name]
          nextRegistration := s.nextRegistration + 1 },
        returnAdded cat true frames)

/-- `remove_service` has found the entry and looks at its state. -/
def awaitTransition (s : State) (name : ServiceName) (info : RuntimeServiceInfo)
    (frames : List Frame) : State × List Frame :=
  match info.state with
  | .starting | .stopping => (s, .remove name (.waiting info.registration) :: frames)
  | .stopped | .running => (s, .remove name (.testing info.service) :: frames)

/-- The next step of `remove_service(name)`. -/
def removeStep (s : State) (name : ServiceName) (ok : Bool) (frames : List Frame) :
    RemoveStage → Option (State × List Frame)
  | .finding =>
    match s.services name with
    | none => some (s, frames)
    | some info => some (awaitTransition s name info frames)
  | .waiting registration =>
    match s.services name with
    | none => none
    | some info =>
      if info.registration = registration then some (awaitTransition s name info frames) else none
  | .testing service =>
    some (s, .remove name (if (s.objects service).isInitialized then
      .deinitializing service .deinitializing else .erasing) :: frames)
  | .deinitializing service c =>
    s.call service c ok (fun s' c' => (s', .remove name (.deinitializing service c') :: frames))
      fun s' _ => (s', .remove name .erasing :: frames)
  | .erasing =>
    some ({ s with
      services := Function.update s.services name none
      initOrder := s.initOrder.filter (· ≠ name) }, frames)

/-! ### `init` and `deinit` -/

/-- The next step of `init()`. -/
def initStep (s : State) (frames : List Frame) : InitStage → Option (State × List Frame)
  | .locking builtins services =>
    if s.locked then none
    else if s.isInitialized then some (s, frames)
    else some ({ s with locked := true }, .init (.adding [] builtins services) :: frames)
  | .adding _ [] services => some (s, .init (.registering services) :: frames)
  | .adding added (service :: builtins) services =>
    some (s, .add service .checking :: .init (.awaiting added service builtins services) :: frames)
  | .awaiting _ _ _ _ => none
  | .undoing [] => some ({ s with locked := false }, frames)
  | .undoing (name :: added) =>
    some (s, .remove name .finding :: .init (.undoing added) :: frames)
  | .registering [] => some (s, .init .setting :: frames)
  | .registering (service :: services) =>
    some (s, .add service .checking :: .init (.registering services) :: frames)
  | .setting => some ({ s with isInitialized := true, locked := false }, frames)

/-- The next step of `deinit()`. -/
def deinitStep (s : State) (ok : Bool) (frames : List Frame) : DeinitStage → Option (State × List Frame)
  | .locking =>
    if s.locked then none
    else if s.isInitialized then some ({ s with locked := true }, .deinit .picking :: frames)
    else some (s, frames)
  | .picking =>
    match s.initOrder.getLast? with
    | none => some (s, .deinit .setting :: frames)
    | some name =>
      match s.services name with
      | none => some (s, .deinit (.removing name) :: frames)
      | some info =>
        some (s, .deinit (if (s.objects info.service).isRunning then .marked name info.service
          else .removing name) :: frames)
  | .marked name service =>
    some (s.record service .stop, .deinit (.stopping name service .stopping) :: frames)
  | .stopping name service c =>
    s.call service c ok (fun s' c' => (s', .deinit (.stopping name service c') :: frames))
      fun s' _ => (s'.record service .stopped, .deinit (.removing name) :: frames)
  | .removing name => some (s, .remove name .finding :: .deinit .picking :: frames)
  | .setting => some ({ s with isInitialized := false, locked := false }, frames)

/-! ### Steps -/

/-- The next step of the frame on top of a stack, over the other `frames`. -/
def frameStep (cat : Catalog) (s : State) (ok : Bool) (frames : List Frame) : Frame → Option (State × List Frame)
  | .bind name stage => bindStep cat s name ok frames stage
  | .binding _ => none
  | .assign target binding =>
    match s.bindings[target]? with
    | none => none
    | some [] => some ({ s with bindings := s.bindings.set target binding }, frames)
    | some (reference :: rest) =>
      some ({ s with bindings := s.bindings.set target [] },
        .release .calling reference rest :: .assign target binding :: frames)
  | .release stage reference rest => releaseStep s reference rest ok frames stage
  | .add service stage => addStep cat s service ok frames stage
  | .remove name stage => removeStep s name ok frames stage
  | .init stage => initStep s frames stage
  | .deinit stage => deinitStep s ok frames stage

/-- What the application does on a thread; `release` is also the end of a variable's life. -/
inductive Call
  | bind (target : Variable) (name : ServiceName)
  | release (target : Variable)
  | move (target source : Variable)
  | add (service : ServiceId)
  | remove (name : ServiceName)
  | init (builtins services : List ServiceId)
  | deinit
  deriving DecidableEq

inductive Action
  | call (t : ThreadId) (c : Call)
  /-- The next step of a thread; `ok` is what the code of a service returns. -/
  | advance (t : ThreadId) (ok : Bool)
  deriving DecidableEq

def callFrames (s : State) : Call → Option (State × List Frame)
  | .bind target name => some (s, [.bind name .entered, .binding target])
  | .release target =>
    (s.bindings[target]?).map fun b =>
      ({ s with bindings := s.bindings.set target [] }, releaseOf b [])
  | .move target source =>
    if target = source then some (s, [])
    else (s.bindings[source]?).map fun b =>
      ({ s with bindings := s.bindings.set source [] }, [.assign target b])
  | .add service => some (s, [.add service .checking])
  | .remove name => some (s, if name = "" then [] else [.remove name .finding])
  | .init builtins services => some (s, [.init (.locking builtins services)])
  | .deinit => some (s, [.deinit .locking])

def step (cat : Catalog) (s : State) : Action → Option State
  | .call t c =>
    if s.threads[t]? = some [] then
      (callFrames s c).map fun (s', frames) => { s' with threads := s'.threads.set t frames }
    else none
  | .advance t ok =>
    match s.threads[t]? with
    | some (frame :: frames) =>
      (frameStep cat s ok frames frame).map fun (s', frames') =>
        { s' with threads := s'.threads.set t frames' }
    | _ => none

/-- Before `init()`, with so many variables and threads of the application. -/
def State.initial (bindings threads : ℕ) : State :=
  { bindings := List.replicate bindings [], threads := List.replicate threads [] }

/-- The manager of the services of `cat`. -/
def serviceManager (cat : Catalog) : Machine State Action where
  init s := ∃ bindings threads, s = State.initial bindings threads
  step := step cat

end Brookesia.ServiceManager.Model
