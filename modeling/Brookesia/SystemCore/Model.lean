import Brookesia.Transition.Machine
import Brookesia.SystemCore.MessageDialogs

/-! # Apps of the system core

The lifecycle of apps in `System` (start, stop, pause, resume, uninstall) with what an app may hold
while it runs: timers, keyboard requests and message dialogs. All of it runs in the app task group,
one function at a time, but callbacks and result handlers call back into `System`.

* The stack has the functions that wait for a callback or are in the middle of a loop. While the frame
  on top is a callback, its code may make any call; the label `returns` ends it.
* `cleanup_app_transient_resources` is a frame that goes through its stages, with what its caller does
  next; so is the loop of `close_message_dialogs_for_app`, which only the cleanup calls.
* `Answer` has what the world answers in a step: a backend, a hook, the shell that shows a dialog.
* Timers fire in the scheduler, which posts a dispatch to the app task group; timers may be started and
  stopped by other threads at any time.
* A run of an app goes from a call of `on_start` to the return of the `stop_app` or of the failed
  `start_app` that ends it. `runs`, `isInRun`, `startedIn` and the history say what belongs to which. -/

namespace Brookesia.SystemCore.Model

open Transition MessageDialogs

abbrev TimerId := ℕ

inductive AppKind
  | native
  | runtime
  deriving DecidableEq

inductive AppState
  | installed
  | starting
  | running
  | paused
  | stopping
  | stopped
  | error
  deriving DecidableEq

structure TimerRecord where
  id : TimerId
  periodic : Bool
  startedIn : Option ℕ
  deriving DecidableEq

structure AppRecord where
  kind : AppKind
  state : AppState := .installed
  timers : List TimerRecord := []
  /-- Whether there is a `runtime_app_id`. -/
  runtimeLoaded : Bool := false
  runtimeStarted : Bool := false
  runs : ℕ := 0
  isInRun : Bool := false
  deriving DecidableEq

def AppRecord.currentRun (r : AppRecord) : Option ℕ := if r.isInRun then some r.runs else none

/-- `on_start` is about to be called; a runtime app has been loaded and started. -/
def AppRecord.startRun (r : AppRecord) : AppRecord :=
  { r with
    state := .starting
    runtimeLoaded := r.kind = .runtime
    runtimeStarted := r.kind = .runtime
    runs := r.runs + 1
    isInRun := true }

def AppRecord.endRun (r : AppRecord) (state : AppState) : AppRecord :=
  { r with state := state, runtimeStarted := false, isInRun := false }

structure KeyboardRequestRecord where
  requestId : RequestId
  appId : AppId
  deriving DecidableEq

/-- A timer task in the scheduler. -/
structure ScheduledTimer where
  id : TimerId
  appId : AppId
  periodic : Bool
  deriving DecidableEq

inductive Callback
  | onStart
  | onStop
  | onPause
  | onResume
  | onUninstall
  deriving DecidableEq

inductive CallbackEvent
  | called (app : AppId) (callback : Callback)
  | returned (app : AppId) (callback : Callback) (ok : Bool)
  deriving DecidableEq

/-- A call of `on_timer`, with the run it falls in. -/
structure TimerEvent where
  app : AppId
  timer : TimerRecord
  run : Option ℕ
  deriving DecidableEq

/-- A return of `stop_app`, with what the app holds then. -/
structure StopEvent where
  app : AppId
  ok : Bool
  timers : List TimerRecord
  keyboards : List KeyboardRequestRecord
  dialogs : List MessageDialogRequestRecord
  deriving DecidableEq

/-! ### Where the functions are -/

/-- Who has called `stop_app`. -/
inductive StopCaller
  | request
  /-- `start_app`, after `on_app_started` has failed. -/
  | rollback
  | uninstall
  deriving DecidableEq

inductive AfterCleanup
  /-- `stop_app` of an app that does not run. -/
  | idle
  | stopping (caller : StopCaller)
  /-- `start_app`, after `on_start` has failed. -/
  | startFailed
  /-- `uninstall_app`, after `on_uninstall`. -/
  | uninstalled
  deriving DecidableEq

inductive CleanupStage
  | entered
  | hideKeyboards (ids : List RequestId)
  | closeMessageDialogs (ids : List RequestId) (closedActive : Bool)
  | cancelTimers
  | done
  deriving DecidableEq

inductive Frame
  | onStart (app : AppId)
  | onStop (app : AppId) (caller : StopCaller)
  | onPause (app : AppId)
  | onResume (app : AppId)
  | onUninstall (app : AppId)
  | onTimer (app : AppId) (timer : TimerId)
  | handler
  | cleanup (app : AppId) (stage : CleanupStage) (next : AfterCleanup)
  /-- `show_next_message_dialog`, at its first test or in its loop. -/
  | showNext (isLoop : Bool)
  deriving DecidableEq

def Frame.isCallback : Frame → Bool
  | .cleanup .. | .showNext _ => false
  | _ => true

structure State where
  apps : AppId → Option AppRecord
  activeAppId : AppId := invalidAppId
  keyboards : List KeyboardRequestRecord := []
  nextKeyboardRequestId : ℕ := 1
  dialogs : Dialogs := {}
  nextTimerId : TimerId := 1
  scheduled : List ScheduledTimer := []
  pendingTimers : List (AppId × TimerId) := []
  /-- The dispatches that are posted to the app task group. -/
  posted : List (AppId × TimerId) := []
  stack : List Frame := []
  callbacks : List CallbackEvent := []
  timerCalls : List TimerEvent := []
  stops : List StopEvent := []

structure Answer where
  ok : Bool := true
  /-- `runtime_->stop_app` succeeds. -/
  runtimeOk : Bool := true
  /-- `on_show_message_dialog` succeeds, the first time and the second time. -/
  shown : Bool := true
  shownAgain : Bool := true
  deriving DecidableEq

/-! ### Small changes -/

def State.modify (s : State) (app : AppId) (f : AppRecord → AppRecord) : State :=
  { s with apps := Function.update s.apps app ((s.apps app).map f) }

def State.setState (s : State) (app : AppId) (state : AppState) : State :=
  s.modify app fun r => { r with state := state }

def State.clearActive (s : State) (app : AppId) : State :=
  { s with activeAppId := if s.activeAppId = app then invalidAppId else s.activeAppId }

def State.recordCallback (s : State) (e : CallbackEvent) : State :=
  { s with callbacks := e :: s.callbacks }

def State.keyboardsOf (s : State) (app : AppId) : List KeyboardRequestRecord :=
  s.keyboards.filter (·.appId = app)

def State.dialogsOf (s : State) (app : AppId) : List MessageDialogRequestRecord :=
  s.dialogs.requests.filter (·.appId = app)

def State.timersOf (s : State) (app : AppId) : List TimerRecord :=
  ((s.apps app).map (·.timers)).getD []

/-- `show_lifecycle_error_dialog` and `show_service_requirement_error_dialog`: one button to close. -/
def State.showErrorDialog (s : State) (shown : Bool) : State :=
  { s with dialogs := s.dialogs.enqueue invalidAppId ⟨[.accept]⟩ shown }

def State.unloadRuntime (s : State) (app : AppId) : State :=
  s.modify app fun r => { r with runtimeLoaded := false, runtimeStarted := false }

def State.recordStop (s : State) (app : AppId) (ok : Bool) : State :=
  { s with stops := ⟨app, ok, s.timersOf app, s.keyboardsOf app, s.dialogsOf app⟩ :: s.stops }

def State.cancelAppTimers (s : State) (app : AppId) : State :=
  { s.modify app (fun r => { r with timers := [] }) with
    scheduled := s.scheduled.filter fun t => t.id ∉ (s.timersOf app).map (·.id)
    pendingTimers := s.pendingTimers.filter (·.1 ≠ app) }

/-! ### The lifecycle -/

/-- Whether a lifecycle function of the app is called: a runtime app must be loaded. -/
def AppRecord.hasLifecycle (r : AppRecord) : Bool := r.kind = .native || r.runtimeLoaded

/-- `stop_app`, up to its cleanup. -/
def stopApp (s : State) (app : AppId) (caller : StopCaller) (frames : List Frame) : State :=
  match s.apps app with
  | none => { s with stack := frames }
  | some r =>
    if r.state = .stopped ∨ r.state = .installed then
      { s with stack := .cleanup app .entered .idle :: frames }
    else
      { s.setState app .stopping with
        stack := .cleanup app .entered (.stopping caller) :: frames }

/-- `uninstall_app` of an app that does not run, up to the cleanup. -/
def uninstallStopped (s : State) (app : AppId) (frames : List Frame) : State :=
  match s.apps app with
  | none => { s with stack := frames }
  | some r =>
    if r.hasLifecycle then
      { s.recordCallback (.called app .onUninstall) with stack := .onUninstall app :: frames }
    else { s with stack := .cleanup app .entered .uninstalled :: frames }

/-- The end of `uninstall_app`; the directory of a runtime app may fail to be removed. -/
def finishUninstall (s : State) (app : AppId) (answer : Answer) (frames : List Frame) : State :=
  match s.apps app with
  | none => { s with stack := frames }
  | some r =>
    if r.kind = .runtime ∧ !answer.ok then { s.unloadRuntime app with stack := frames }
    else
      { s.clearActive app with
        apps := Function.update s.apps app none
        stack := frames }

/-- The end of `stop_app`. -/
def endStop (s : State) (app : AppId) (ok : Bool) (shown : Bool) : State :=
  let s := (s.modify app (·.endRun (if ok then .stopped else .error))).clearActive app
  let s := if ok then s else s.showErrorDialog shown
  s.recordStop app ok

/-- The end of `stop_app` and what its caller does next: the end of `start_app`, or the callback of
`uninstall_app`. -/
def finishStop (s : State) (app : AppId) (caller : StopCaller) (ok : Bool) (answer : Answer)
    (frames : List Frame) : State :=
  let s := endStop s app ok answer.shown
  match caller with
  | .request => { s with stack := frames }
  | .rollback =>
    let s := if ok then s else (s.setState app .error).clearActive app
    { s.showErrorDialog answer.shownAgain with stack := frames }
  | .uninstall => if ok then uninstallStopped s app frames else { s with stack := frames }

/-- `stop_app` after its cleanup, up to the callback. -/
def callOnStop (s : State) (app : AppId) (caller : StopCaller) (answer : Answer) (frames : List Frame) : State :=
  match s.apps app with
  | none => { s with stack := frames }
  | some r =>
    if r.hasLifecycle then
      { s.recordCallback (.called app .onStop) with stack := .onStop app caller :: frames }
    else finishStop s app caller true answer frames

def uninstallApp (s : State) (app : AppId) (frames : List Frame) : State :=
  match s.apps app with
  | none => { s with stack := frames }
  | some r =>
    if r.state = .running ∨ r.state = .paused then stopApp s app .uninstall frames
    else uninstallStopped s app frames

/-- What comes before `on_start`: the first three failures are those of a runtime app. -/
inductive Preparation
  | unmet
  | loadFailed
  | runtimeStartFailed
  | guiFailed
  | ready
  deriving DecidableEq

def Preparation.isForRuntime : Preparation → Bool
  | .unmet | .loadFailed | .runtimeStartFailed => true
  | .guiFailed | .ready => false

/-- `start_app`, up to `on_start`. -/
def startApp (s : State) (app : AppId) (preparation : Preparation) (answer : Answer) (frames : List Frame) : State :=
  match s.apps app with
  | none => { s with stack := frames }
  | some r =>
    if r.state = .running then { s with stack := frames }
    else match preparation with
      | .unmet => { s.showErrorDialog answer.shown with stack := frames }
      | .guiFailed => { (s.setState app .error).showErrorDialog answer.shown with stack := frames }
      | .loadFailed =>
        { s.setState app .starting with stack := .cleanup app .entered .startFailed :: frames }
      | .runtimeStartFailed =>
        { s.modify app fun r => { r with state := .starting, runtimeLoaded := true } with
          stack := .cleanup app .entered .startFailed :: frames }
      | .ready =>
        let s := s.modify app AppRecord.startRun
        { s.recordCallback (.called app .onStart) with stack := .onStart app :: frames }

/-- `start_app` after `on_start`; `ok` is what the callback has returned, and the answer that of the
hook `on_app_started`. -/
def finishStart (s : State) (app : AppId) (ok : Bool) (answer : Answer) (frames : List Frame) :
    State :=
  if ok then
    let s := { s.setState app .running with activeAppId := app }
    if answer.ok then { s with stack := frames } else stopApp s app .rollback frames
  else { s with stack := .cleanup app .entered .startFailed :: frames }

def finishFailedStart (s : State) (app : AppId) (answer : Answer) (frames : List Frame) : State :=
  let s := s.modify app fun r => { r.endRun .error with runtimeLoaded := false }
  { s.showErrorDialog answer.shown with stack := frames }

def finishPause (s : State) (app : AppId) (ok : Bool) (answer : Answer) (frames : List Frame) :
    State :=
  if ok then { s.setState app .paused with stack := frames }
  else { s.showErrorDialog answer.shown with stack := frames }

def finishResume (s : State) (app : AppId) (ok : Bool) (answer : Answer) (frames : List Frame) :
    State :=
  if ok then { s.setState app .running with activeAppId := app, stack := frames }
  else { s.showErrorDialog answer.shown with stack := frames }

def pauseApp (s : State) (app : AppId) (answer : Answer) (frames : List Frame) : State :=
  match s.apps app with
  | none => { s with stack := frames }
  | some r =>
    if r.hasLifecycle then
      { s.recordCallback (.called app .onPause) with stack := .onPause app :: frames }
    else finishPause s app true answer frames

def resumeApp (s : State) (app : AppId) (answer : Answer) (frames : List Frame) : State :=
  match s.apps app with
  | none => { s with stack := frames }
  | some r =>
    if r.hasLifecycle then
      { s.recordCallback (.called app .onResume) with stack := .onResume app :: frames }
    else finishResume s app true answer frames

/-! ### The cleanup -/

/-- `stop_app` of an app that does not run. -/
def finishIdleStop (s : State) (app : AppId) (frames : List Frame) : State :=
  { s.recordStop app true with stack := frames }

def afterCleanup (s : State) (app : AppId) (answer : Answer) (frames : List Frame) : AfterCleanup → State
  | .idle => finishIdleStop s app frames
  | .stopping caller => callOnStop s app caller answer frames
  | .startFailed => finishFailedStart s app answer frames
  | .uninstalled => finishUninstall s app answer frames

/-- `hide_app_keyboard`, and `complete_app_keyboard` with another result. -/
def closeAppKeyboard (s : State) (app : AppId) (id : RequestId) (frames : List Frame) : State :=
  match s.keyboards.find? (·.requestId = id) with
  | none => { s with stack := frames }
  | some request =>
    if request.appId ≠ app then { s with stack := frames }
    else
      { s with
        keyboards := s.keyboards.filter (·.requestId ≠ id)
        stack := .handler :: frames }

/-- The next step of `cleanup_app_transient_resources`. -/
def cleanupStep (s : State) (app : AppId) (next : AfterCleanup) (answer : Answer)
    (frames : List Frame) : CleanupStage → State
  | .entered =>
    let ids := (s.keyboardsOf app).map (·.requestId)
    { s with stack := .cleanup app (.hideKeyboards ids) next :: frames }
  | .hideKeyboards [] =>
    let ids := (s.dialogsOf app).map (·.requestId)
    { s with stack := .cleanup app (.closeMessageDialogs ids false) next :: frames }
  | .hideKeyboards (id :: ids) =>
    closeAppKeyboard s app id (.cleanup app (.hideKeyboards ids) next :: frames)
  | .closeMessageDialogs [] closedActive =>
    let frames := .cleanup app .cancelTimers next :: frames
    { s with stack := if closedActive then .showNext false :: frames else frames }
  | .closeMessageDialogs (id :: ids) closedActive =>
    match s.dialogs.find id with
    | none => { s with stack := .cleanup app (.closeMessageDialogs ids closedActive) next :: frames }
    | some request =>
      let wasActive := decide (s.dialogs.active = some id)
      { s with
        dialogs := s.dialogs.remove ⟨id, request.appId, -1, .invalid, .closed⟩
        stack := .handler :: .cleanup app (.closeMessageDialogs ids (closedActive || wasActive)) next :: frames }
  | .cancelTimers => { s.cancelAppTimers app with stack := .cleanup app .done next :: frames }
  | .done => afterCleanup s app answer frames next

/-! ### Keyboards and dialogs -/

def showAppKeyboard (s : State) (app : AppId) (shown : Bool) : State :=
  match s.apps app with
  | none => s
  | some _ =>
    let (id, next) := takeRequestId s.nextKeyboardRequestId
    let s := { s with nextKeyboardRequestId := next }
    -- a failed show erases the id that it has put in
    if !shown then { s with keyboards := s.keyboards.filter (·.requestId ≠ id) }
    else if s.keyboards.any (·.requestId = id) then s
    else { s with
      keyboards := s.keyboards.orderedInsert (fun x y => x.requestId ≤ y.requestId) ⟨id, app⟩ }

/-- `enqueue_message_dialog`; only an app must be there. -/
def enqueueMessageDialog (s : State) (app : AppId) (requireApp : Bool)
    (options : MessageDialogOptions) (shown : Bool) : State :=
  if 3 < options.buttons.length then s
  else if requireApp ∧ s.apps app = none then s
  else { s with dialogs := s.dialogs.enqueue app options shown }

def closeMessageDialog (s : State) (app : AppId) (id : RequestId) (buttonIndex : ℤ)
    (reason : MessageDialogCloseReason) : State :=
  match s.dialogs.find id with
  | none => s
  | some request =>
    if request.appId ≠ app then s
    else match Dialogs.closeResult request buttonIndex reason with
      | .error _ => s
      | .ok result =>
        let frames := if s.dialogs.active = some id then .showNext false :: s.stack else s.stack
        { s with dialogs := s.dialogs.remove result, stack := .handler :: frames }

def updateMessageDialog (s : State) (app : AppId) (id : RequestId) (options : MessageDialogOptions) : State :=
  if 3 < options.buttons.length then s
  else match s.dialogs.find id with
    | none => s
    | some request =>
      if request.appId ≠ app then s else { s with dialogs := s.dialogs.update id options }

/-- The next step of `show_next_message_dialog`. -/
def showNextStep (s : State) (isLoop : Bool) (answer : Answer) (frames : List Frame) : State :=
  if !isLoop then
    { s with stack := if s.dialogs.active.isSome then frames else .showNext true :: frames }
  else
    match s.dialogs.showNext answer.shown with
    | (dialogs, .done) => { s with dialogs := dialogs, stack := frames }
    | (dialogs, .again) => { s with dialogs := dialogs, stack := .showNext true :: frames }
    | (dialogs, .handler) =>
      { s with dialogs := dialogs, stack := .handler :: .showNext true :: frames }

/-! ### Timers -/

/-- `timer_start_periodic` and `timer_start_delayed`. -/
def timerStart (s : State) (app : AppId) (periodic : Bool) (intervalMs : ℤ) : State :=
  match s.apps app with
  | none => s
  | some _ =>
    if intervalMs ≤ 0 then s
    else
      { s.modify app fun r => { r with
          timers := r.timers ++ [⟨s.nextTimerId, periodic, r.currentRun⟩] } with
        nextTimerId := s.nextTimerId + 1
        scheduled := s.scheduled ++ [⟨s.nextTimerId, app, periodic⟩] }

def timerStop (s : State) (app : AppId) (id : TimerId) : State :=
  if (s.timersOf app).any (·.id = id) then
    { s.modify app fun r => { r with timers := r.timers.filter (·.id ≠ id) } with
      scheduled := s.scheduled.filter (·.id ≠ id)
      pendingTimers := s.pendingTimers.filter (· ≠ (app, id)) }
  else s

/-- A timer task runs: it posts a dispatch, a periodic one if none is pending. -/
def fireTimer (s : State) (t : ScheduledTimer) : State :=
  if t.periodic then
    if (t.appId, t.id) ∈ s.pendingTimers then s
    else
      { s with
        pendingTimers := s.pendingTimers ++ [(t.appId, t.id)]
        posted := s.posted ++ [(t.appId, t.id)] }
  else
    { s with
      scheduled := s.scheduled.filter (·.id ≠ t.id)
      posted := s.posted ++ [(t.appId, t.id)] }

/-- The end of a dispatch after `on_timer`: a delayed timer is over. -/
def finishTimer (s : State) (app : AppId) (id : TimerId) (frames : List Frame) : State :=
  { s.modify app fun r => { r with timers := r.timers.filter fun t => t.id ≠ id ∨ t.periodic } with
    pendingTimers := s.pendingTimers.filter (· ≠ (app, id))
    stack := frames }

/-- A posted dispatch runs: `dispatch_timer`. -/
def dispatchTimer (s : State) (app : AppId) (id : TimerId) : State :=
  let cleared := { s with pendingTimers := s.pendingTimers.filter (· ≠ (app, id)) }
  match s.apps app with
  | none => cleared
  | some r =>
    match r.timers.find? (·.id = id) with
    | none => cleared
    | some timer =>
      if r.state ≠ .running then cleared
      else if r.hasLifecycle then
        { s with
          timerCalls := ⟨app, timer, r.currentRun⟩ :: s.timerCalls
          stack := .onTimer app id :: s.stack }
      else finishTimer s app id s.stack

/-! ### Steps -/

inductive Call
  | startApp (app : AppId) (preparation : Preparation)
  | stopApp (app : AppId)
  | pauseApp (app : AppId)
  | resumeApp (app : AppId)
  | uninstallApp (app : AppId)
  | showAppKeyboard (app : AppId)
  | closeAppKeyboard (app : AppId) (id : RequestId)
  | showAppMessageDialog (app : AppId) (options : MessageDialogOptions)
  | showSystemMessageDialog (options : MessageDialogOptions)
  /-- `hide_app_message_dialog` and `complete_app_message_dialog`; with `invalidAppId`
  `hide_system_message_dialog`. -/
  | closeMessageDialog (app : AppId) (id : RequestId) (buttonIndex : ℤ)
      (reason : MessageDialogCloseReason)
  | updateMessageDialog (app : AppId) (id : RequestId) (options : MessageDialogOptions)
  deriving DecidableEq

inductive Action
  | call (c : Call) (answer : Answer)
  | returns (ok : Bool) (answer : Answer)
  | advance (answer : Answer)
  | timerStart (app : AppId) (periodic : Bool) (intervalMs : ℤ)
  | timerStop (app : AppId) (id : TimerId)
  | fire (id : TimerId)
  | dispatch (app : AppId) (id : TimerId)
  deriving DecidableEq

def callStep (s : State) (answer : Answer) : Call → Option State
  | .startApp app preparation =>
    -- a native app has no preparation but that of its GUI
    if preparation.isForRuntime ∧ (s.apps app).any (·.kind = .native) then none
    else some (startApp s app preparation answer s.stack)
  | .stopApp app => some (stopApp s app .request s.stack)
  | .pauseApp app => some (pauseApp s app answer s.stack)
  | .resumeApp app => some (resumeApp s app answer s.stack)
  | .uninstallApp app => some (uninstallApp s app s.stack)
  | .showAppKeyboard app => some (showAppKeyboard s app answer.ok)
  | .closeAppKeyboard app id => some (closeAppKeyboard s app id s.stack)
  | .showAppMessageDialog app options => some (enqueueMessageDialog s app true options answer.shown)
  | .showSystemMessageDialog options =>
    some (enqueueMessageDialog s invalidAppId false options answer.shown)
  | .closeMessageDialog app id buttonIndex reason =>
    some (closeMessageDialog s app id buttonIndex reason)
  | .updateMessageDialog app id options => some (updateMessageDialog s app id options)

/-- The callback on top of the stack returns, over `frames`. -/
def returnStep (s : State) (ok : Bool) (answer : Answer) (frames : List Frame) : Frame → Option State
  | .onStart app =>
    some (finishStart (s.recordCallback (.returned app .onStart ok)) app ok answer frames)
  | .onStop app caller =>
    let isLoaded := (s.apps app).any (·.runtimeLoaded)
    some (finishStop (s.recordCallback (.returned app .onStop ok)) app caller
      (ok && (!isLoaded || answer.runtimeOk)) answer frames)
  | .onPause app =>
    some (finishPause (s.recordCallback (.returned app .onPause ok)) app ok answer frames)
  | .onResume app =>
    some (finishResume (s.recordCallback (.returned app .onResume ok)) app ok answer frames)
  | .onUninstall app =>
    some { s.recordCallback (.returned app .onUninstall ok) with
      stack := .cleanup app .entered .uninstalled :: frames }
  | .onTimer app id => some (finishTimer s app id frames)
  | .handler => some { s with stack := frames }
  | .cleanup .. | .showNext _ => none

def advanceStep (s : State) (answer : Answer) (frames : List Frame) : Frame → Option State
  | .cleanup app stage next => some (cleanupStep s app next answer frames stage)
  | .showNext isLoop => some (showNextStep s isLoop answer frames)
  | _ => none

def step (s : State) : Action → Option State
  | .call c answer => if s.stack.head?.all (·.isCallback) then callStep s answer c else none
  | .returns ok answer =>
    match s.stack with
    | [] => none
    | frame :: frames => returnStep s ok answer frames frame
  | .advance answer =>
    match s.stack with
    | [] => none
    | frame :: frames => advanceStep s answer frames frame
  | .timerStart app periodic intervalMs => some (timerStart s app periodic intervalMs)
  | .timerStop app id => some (timerStop s app id)
  | .fire id => (s.scheduled.find? (·.id = id)).map (fireTimer s)
  | .dispatch app id =>
    if s.stack = [] ∧ (app, id) ∈ s.posted then
      some (dispatchTimer { s with posted := s.posted.erase (app, id) } app id)
    else none

def State.installed (kinds : AppId → Option AppKind) : State where
  apps app := (kinds app).map fun kind => { kind := kind }

def systemCore : Machine State Action where
  init s := ∃ kinds, kinds invalidAppId = none ∧ s = State.installed kinds
  step := step

end Brookesia.SystemCore.Model
