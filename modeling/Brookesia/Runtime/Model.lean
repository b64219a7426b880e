import Brookesia.Transition.Machine

/-! # The runtime manager

`Runtime` of `runtime.cpp` over a backend, with `RuntimeHostBridge` and `RuntimeFunctionBridge`. The
backend runs the scripts of the apps inside its calls, and a script calls native functions, which may
call the runtime again. So the state keeps the operations of the runtime that are in progress
(`calls`, the innermost first), and a label is one thing that a script, the backend or the host does
next: the scripts and the success of every backend call are arbitrary. `history` is not in the source:
it keeps what the runs are judged by. -/

namespace Brookesia.Runtime

open Transition

abbrev AppId := UInt32

def invalidAppId : AppId := 0

inductive BackendType
  | unknown | lua | javaScript | wasm | elf
  deriving DecidableEq

/-- Whether a backend keeps the native modules of an app from its `load_app` on. The WASM backend runs
every app with the modules it was given last. -/
def BackendType.bindsAtLoad : BackendType → Bool
  | wasm => false
  | _ => true

inductive AppState
  | unloaded | loaded | running | stopped | error
  deriving DecidableEq

/-- `AppContextGuard`: what its destructor puts back. -/
structure AppContextGuard where
  previousAppId : Option AppId
  deriving DecidableEq

inductive Operation
  | loadApp | unloadApp | startApp | stopApp | callFunction
  deriving DecidableEq

/-- An operation whose backend call is running: its guards, the innermost first, and whether the
backend is in the `stop_app` of `stop_app_if_finish_requested`. -/
structure Frame where
  operation : Operation
  app : AppId
  backend : BackendType
  guards : List AppContextGuard
  stopping : Bool := false
  deriving DecidableEq

/-- A `start_app` or `call_function`: what a script may ask to be stopped after. -/
def Frame.isCall (f : Frame) : Bool :=
  f.operation == .startApp || f.operation == .callFunction

inductive Event
  /-- A script of `app` called `finish_app`; `inCall`: during a start or a call of `app`. -/
  | finishApp (app : AppId) (inCall : Bool)
  /-- The manager stops `app` on a finish request. -/
  | requestStop (app : AppId)
  /-- The backend has returned from `stop_app`. -/
  | stopped (app : AppId)
  | returned (operation : Operation) (app : AppId) (ok : Bool)
  deriving DecidableEq

structure State where
  backends : List BackendType
  initialized : Bool
  apps : AppId → Option AppState
  appBackendTypes : AppId → Option BackendType
  nextAppId : AppId
  nativeModules : BackendType → AppId
  finishRequests : Finset AppId
  appIdToToken : AppId → Option Nat
  tokenToAppId : Nat → Option AppId
  nextTokenId : Nat
  currentAppId : Option AppId
  calls : List Frame
  history : List Event

/-- After `init()`, on a thread whose current app is `ambient`. -/
def init (backends : List BackendType) (initialized : Bool) (ambient : Option AppId) : State where
  backends := backends
  initialized := initialized
  apps := fun _ => none
  appBackendTypes := fun _ => none
  nextAppId := 1
  nativeModules := fun _ => invalidAppId
  finishRequests := ∅
  appIdToToken := fun _ => none
  tokenToAppId := fun _ => none
  nextTokenId := 1
  currentAppId := ambient
  calls := []
  history := []

variable (s : State)

/-! ### RuntimeFunctionBridge -/

def makeAppContextGuard (id : AppId) : AppContextGuard × State :=
  (⟨s.currentAppId⟩, { s with currentAppId := some id })

def destroy (guards : List AppContextGuard) (current : Option AppId) : Option AppId :=
  guards.foldl (fun _ guard => guard.previousAppId) current

def getCurrentAppId : Option AppId :=
  s.currentAppId.filter (· ≠ invalidAppId)

def getOrCreateContextToken (id : AppId) : State :=
  match s.appIdToToken id with
  | some _ => s
  | none =>
    { s with
      appIdToToken := Function.update s.appIdToToken id (some s.nextTokenId)
      tokenToAppId := Function.update s.tokenToAppId s.nextTokenId (some id)
      nextTokenId := s.nextTokenId + 1 }

def attachContext (token : Nat) : State :=
  match s.tokenToAppId token with
  | none => s
  | some id => { s with currentAppId := some id }

def detachContext : State :=
  { s with currentAppId := none }

def releaseAppContext (id : AppId) : State :=
  match s.appIdToToken id with
  | none => s
  | some token =>
    { s with
      appIdToToken := Function.update s.appIdToToken id none
      tokenToAppId := Function.update s.tokenToAppId token none }

/-! ### RuntimeHostBridge -/

def requestFinishApp (id : AppId) : State :=
  { s with finishRequests := insert id s.finishRequests }

def consumeAppFinishRequest (id : AppId) : Bool × State :=
  (decide (id ∈ s.finishRequests), { s with finishRequests := s.finishRequests.erase id })

def releaseAppResources (id : AppId) : State :=
  releaseAppContext { s with finishRequests := s.finishRequests.erase id } id

def currentAppContext : State :=
  match getCurrentAppId s with
  | none => s
  | some id => getOrCreateContextToken s id

/-- `finish_app` as called by a script of `by`. -/
def finishApp (caller : AppId) (inCall : Bool) : State :=
  match getCurrentAppId s with
  | none => s
  | some id => { requestFinishApp s id with history := .finishApp caller inCall :: s.history }

/-! ### Runtime -/

def getBackend (type : BackendType) : Option BackendType :=
  if type = .unknown then
    match s.backends with
    | [backend] => some backend
    | _ => none
  else if type ∈ s.backends then some type else none

def getAppBackend (id : AppId) : Option BackendType :=
  (s.appBackendTypes id).bind (getBackend s)

def getAppAndBackend (id : AppId) : Option BackendType :=
  (s.apps id).bind fun _ => getAppBackend s id

def setAppState (id : AppId) (state : AppState) : State :=
  { s with apps := Function.update s.apps id ((s.apps id).map fun _ => state) }

def enter (operation : Operation) (id : AppId) (backend : BackendType) (guards : List AppContextGuard) : State :=
  { s with calls := ⟨operation, id, backend, guards, false⟩ :: s.calls }

def refuse (operation : Operation) (id : AppId) : State :=
  { s with history := .returned operation id false :: s.history }

def loadApp (type : BackendType) : State :=
  if s.initialized then
    match getBackend s type with
    | none => s
    | some backend =>
      enter { s with
        nextAppId := s.nextAppId + 1
        nativeModules := Function.update s.nativeModules backend s.nextAppId } .loadApp s.nextAppId backend []
  else s

def unloadApp (id : AppId) : State :=
  match getAppAndBackend s id with
  | none => refuse s .unloadApp id
  | some backend => enter (releaseAppResources s id) .unloadApp id backend []

def startApp (id : AppId) : State :=
  match getAppAndBackend s id with
  | none => refuse s .startApp id
  | some backend =>
    let (guard, s) := makeAppContextGuard s id
    enter s .startApp id backend [guard]

def stopApp (id : AppId) : State :=
  match getAppAndBackend s id with
  | none => refuse s .stopApp id
  | some backend => enter (consumeAppFinishRequest s id).2 .stopApp id backend []

/-- `call_function`, with the guards that the caller holds already. -/
def callFunction (id : AppId) (outer : List AppContextGuard) : State :=
  match getAppAndBackend s id with
  | none => refuse { s with currentAppId := destroy outer s.currentAppId } .callFunction id
  | some backend =>
    let (guard, s) := makeAppContextGuard s id
    enter s .callFunction id backend (guard :: outer)

/-- The operation `f` over `rest` ends. -/
def leave (f : Frame) (rest : List Frame) (ok : Bool) : State :=
  { s with
    currentAppId := destroy f.guards s.currentAppId
    calls := rest
    history := .returned f.operation f.app ok :: s.history }

/-- `stop_app_if_finish_requested`, and where no finish was requested what follows it. -/
def stopAppIfFinishRequested (f : Frame) (rest : List Frame) (settled : State → State) : State :=
  let (requested, s) := consumeAppFinishRequest s f.app
  if requested then
    { s with calls := { f with stopping := true } :: rest, history := .requestStop f.app :: s.history }
  else leave (settled s) f rest true

/-- What an app is set to when the backend has been asked to stop it. -/
def stoppedState (ok : Bool) : AppState :=
  if ok then .stopped else .error

/-- The backend returns from `stop_app`. -/
def afterStop (f : Frame) (rest : List Frame) (ok : Bool) : State :=
  let s := releaseAppResources s f.app
  leave (setAppState { s with history := .stopped f.app :: s.history } f.app (stoppedState ok)) f rest ok

/-- The backend returns to the operation `f` over `rest`. -/
def backendReturns (f : Frame) (rest : List Frame) (ok : Bool) : State :=
  if f.stopping then afterStop s f rest ok
  else match f.operation with
    | .loadApp =>
      if ok then
        leave { s with
          apps := Function.update s.apps f.app ((s.apps f.app).or (some .loaded))
          appBackendTypes := Function.update s.appBackendTypes f.app
            ((s.appBackendTypes f.app).or (some f.backend)) } f rest true
      else leave s f rest false
    | .unloadApp =>
      if ok then
        leave { s with
          apps := Function.update s.apps f.app none
          appBackendTypes := Function.update s.appBackendTypes f.app none } f rest true
      else leave (setAppState s f.app .error) f rest false
    | .startApp =>
      if ok then
        stopAppIfFinishRequested s f rest fun s =>
          if s.apps f.app = some .stopped then s else setAppState s f.app .running
      else leave (setAppState (releaseAppResources s f.app) f.app .error) f rest false
    | .stopApp => afterStop s f rest ok
    | .callFunction => if ok then stopAppIfFinishRequested s f rest id else leave s f rest false

/-! ### Scripts -/

/-- The app whose native modules a script of `f` calls (`get_modules_for_app`). -/
def modulesOf (f : Frame) : AppId :=
  if f.backend.bindsAtLoad then f.app else s.nativeModules f.backend

/-- Whether a start or a call of `app` is among `calls`. -/
def inCall (calls : List Frame) (app : AppId) : Bool :=
  calls.any fun f => f.isCall && f.app == app

/-- A native function that a script of `f` calls, inside the guard of `get_modules_for_app`. -/
def callNative (f : Frame) (native : State → State) : State :=
  let (guard, s) := makeAppContextGuard s (modulesOf s f)
  let s := native s
  { s with currentAppId := destroy [guard] s.currentAppId }

/-- `call_function` as a native function called by a script of `f`. -/
def callFunctionNative (f : Frame) (id : AppId) : State :=
  let (guard, s) := makeAppContextGuard s (modulesOf s f)
  callFunction s id [guard]

inductive Label
  | loadApp (type : BackendType) | unloadApp (id : AppId) | startApp (id : AppId) | stopApp (id : AppId)
  | callFunction (id : AppId)
  | finishApp | currentAppContext | attachAppContext (token : Nat) | detachAppContext
  | backendReturns (ok : Bool)
  deriving DecidableEq

def step : Label → Option State
  | .loadApp type => if s.calls = [] then some (loadApp s type) else none
  | .unloadApp id => if s.calls = [] then some (unloadApp s id) else none
  | .startApp id => if s.calls = [] then some (startApp s id) else none
  | .stopApp id => if s.calls = [] then some (stopApp s id) else none
  | .callFunction id =>
    match s.calls with
    | [] => some (callFunction s id [])
    | f :: _ => some (callFunctionNative s f id)
  | .finishApp => s.calls.head?.map fun f => callNative s f fun t => finishApp t f.app (inCall s.calls f.app)
  | .currentAppContext => s.calls.head?.map fun f => callNative s f currentAppContext
  | .attachAppContext token => s.calls.head?.map fun f => callNative s f fun t => attachContext t token
  | .detachAppContext => s.calls.head?.map fun f => callNative s f detachContext
  | .backendReturns ok =>
    match s.calls with
    | [] => none
    | f :: rest => some (backendReturns s f rest ok)

/-- The runtime on a thread whose current app is `ambient`. -/
def machine (ambient : Option AppId) : Machine State Label where
  init s := ∃ backends initialized, s = init backends initialized ambient
  step := step

end Brookesia.Runtime
