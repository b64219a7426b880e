import Brookesia.SystemCore.MessageDialogs
import Brookesia.Transition.Machine

/-! # The timers of running apps, step by step

`timer_start_periodic`, `timer_start_delayed`, `timer_stop` and `dispatch_timer` with their threads. A
step is one section under a mutex, one post to the scheduler, or one access to the holder of an id, which
no mutex protects.

* A start keeps `timer_map_mutex_` from its first step to its last.
* The timer group and the app group of the scheduler run one task at a time.
* `on_timer` may call the functions itself; these are steps like those of other threads.
* All apps stay `Running`. `history` has what has been done so far, the latest first. -/

namespace Brookesia.SystemCore.TimerTasks

open Transition
open MessageDialogs (AppId)

abbrev TimerId := ℕ

def invalidTimerId : TimerId := 0

/-- What the function of a timer task has captured. -/
structure Timer where
  id : TimerId
  app : AppId
  periodic : Bool
  deriving DecidableEq

/-- A task for the app group: the dispatch of `timerId`, posted by the task of `timer`. -/
structure Dispatch where
  timer : Timer
  timerId : TimerId
  deriving DecidableEq

inductive Event
  | started (timer : Timer)
  | stopped (app : AppId) (timerId : TimerId)
  | onTimer (app : AppId) (timerId : TimerId)
  | posted (timer : Timer) (timerId : TimerId)
  | notPosted (timer : Timer)
  /-- A periodic timer has found one pending; the dispatches that there were. -/
  | skipped (timer : Timer) (dispatches : List Dispatch)
  deriving DecidableEq

/-- Where a start is, after it has armed its task. -/
inductive StartPoint
  | armed
  | holderWritten
  deriving DecidableEq

/-- Where a dispatch is. -/
inductive DispatchPoint
  /-- The timer was registered: about to call `on_timer`. -/
  | checked
  | called
  /-- `dispatch_timer` has returned. -/
  | ended
  deriving DecidableEq

structure State where
  nextTimerId : TimerId := 1
  tasks : List Timer := []
  armed : List TimerId := []
  holder : TimerId → TimerId := fun _ => invalidTimerId
  /-- `AppRecord::timers` of all apps. -/
  timers : List Timer := []
  pendingTimers : List (AppId × TimerId) := []
  /-- The start that has `timer_map_mutex_`. -/
  starting : Option (Timer × StartPoint) := none
  stopping : List (AppId × TimerId) := []
  firing : Option Timer := none
  queue : List Dispatch := []
  running : Option (Dispatch × DispatchPoint) := none
  history : List Event := []

def State.isRegistered (s : State) (app : AppId) (timerId : TimerId) : Bool :=
  s.timers.any fun t => t.app = app ∧ t.id = timerId

def State.dispatches (s : State) : List Dispatch := s.queue ++ (s.running.map (·.1)).toList

def State.log (s : State) (e : Event) : State := { s with history := e :: s.history }

/-! ### The operations -/

/-- `post_periodic` or `post_delayed`, with `timer_map_mutex_` taken before. -/
def State.arm (s : State) (app : AppId) (periodic : Bool) : State :=
  let timer := ⟨s.nextTimerId, app, periodic⟩
  { s with
    nextTimerId := s.nextTimerId + 1
    tasks := timer :: s.tasks
    armed := timer.id :: s.armed
    starting := some (timer, .armed) }

def State.writeHolder (s : State) (timer : Timer) : State :=
  { s with
    holder := Function.update s.holder timer.id timer.id
    starting := some (timer, .holderWritten) }

def State.register (s : State) (timer : Timer) : State :=
  { s with
    timers := timer :: s.timers
    starting := none
    history := .started timer :: s.history }

def State.fireDelayed (s : State) (timer : Timer) (posted : Bool) : State :=
  let s := { s with armed := s.armed.erase timer.id }
  if posted then { s with queue := s.queue ++ [⟨timer, s.holder timer.id⟩] }
  else s.log (.notPosted timer)

def State.firePeriodic (s : State) (timer : Timer) : State :=
  if (timer.app, s.holder timer.id) ∈ s.pendingTimers then s.log (.skipped timer s.dispatches)
  else
    { s with
      pendingTimers := s.pendingTimers ++ [(timer.app, s.holder timer.id)]
      firing := some timer }

def State.erasePending (s : State) (app : AppId) (timerId : TimerId) : State :=
  { s with pendingTimers := s.pendingTimers.filter (· ≠ (app, timerId)) }

/-- The post of the task of a periodic timer, or the section after a failed one. -/
def State.postPeriodic (s : State) (timer : Timer) (posted : Bool) : State :=
  let s := { s with firing := none }
  if posted then
    { s with
      queue := s.queue ++ [⟨timer, s.holder timer.id⟩]
      history := .posted timer (s.holder timer.id) :: s.history }
  else
    ({ s with armed := s.armed.erase timer.id }.erasePending timer.app (s.holder timer.id)).log (.notPosted timer)

/-- The test of `dispatch_timer`, for the next task of the app group. -/
def State.beginDispatch (s : State) (d : Dispatch) (queue : List Dispatch) : State :=
  { s with
    queue := queue
    running := some (d, if s.isRegistered d.timer.app d.timerId then .checked else .ended) }

def State.callOnTimer (s : State) (d : Dispatch) : State :=
  { s with
    running := some (d, .called)
    history := .onTimer d.timer.app d.timerId :: s.history }

/-- The section of `dispatch_timer` after `on_timer`. -/
def State.finishDispatch (s : State) (d : Dispatch) : State :=
  { s with
    running := some (d, .ended)
    timers := s.timers.filter fun t => ¬ (t.app = d.timer.app ∧ t.id = d.timerId ∧ t.periodic = false) }

/-- The end of the task: that of a periodic timer has the guard on the pending timers. -/
def State.endDispatch (s : State) (d : Dispatch) : State :=
  let s := { s with running := none }
  if d.timer.periodic then s.erasePending d.timer.app d.timerId else s

/-- The first section of `timer_stop`. -/
def State.stop (s : State) (app : AppId) (timerId : TimerId) : State :=
  if s.isRegistered app timerId then
    { s with
      armed := s.armed.erase timerId
      timers := s.timers.filter fun t => ¬ (t.app = app ∧ t.id = timerId)
      stopping := (app, timerId) :: s.stopping
      history := .stopped app timerId :: s.history }
  else s

/-! ### Steps -/

inductive Action
  | start (app : AppId) (periodic : Bool)
  | writeHolder
  | register
  /-- The task of a timer runs; for a delayed one, with the answer of the post. -/
  | fire (timer : Timer) (posted : Bool)
  | postPeriodic (posted : Bool)
  | beginDispatch
  | callOnTimer
  | finishDispatch
  | endDispatch
  | stop (app : AppId) (timerId : TimerId)
  /-- The second section of `timer_stop`. -/
  | stopPending (app : AppId) (timerId : TimerId)
  deriving DecidableEq

def step (s : State) : Action → Option State
  | .start app periodic => if s.starting = none then some (s.arm app periodic) else none
  | .writeHolder =>
    match s.starting with
    | some (timer, .armed) => some (s.writeHolder timer)
    | _ => none
  | .register =>
    match s.starting with
    | some (timer, .holderWritten) => some (s.register timer)
    | _ => none
  | .fire timer posted =>
    if timer ∈ s.tasks ∧ timer.id ∈ s.armed ∧ s.firing = none then
      some (if timer.periodic then s.firePeriodic timer else s.fireDelayed timer posted)
    else none
  | .postPeriodic posted =>
    match s.firing with
    | some timer => some (s.postPeriodic timer posted)
    | none => none
  | .beginDispatch =>
    match s.queue, s.running, s.starting with
    | d :: queue, none, none => some (s.beginDispatch d queue)
    | _, _, _ => none
  | .callOnTimer =>
    match s.running with
    | some (d, .checked) => some (s.callOnTimer d)
    | _ => none
  | .finishDispatch =>
    match s.running, s.starting with
    | some (d, .called), none => some (s.finishDispatch d)
    | _, _ => none
  | .endDispatch =>
    match s.running with
    | some (d, .ended) => some (s.endDispatch d)
    | _ => none
  | .stop app timerId => if s.starting = none then some (s.stop app timerId) else none
  | .stopPending app timerId =>
    if (app, timerId) ∈ s.stopping then
      some ({ s with stopping := s.stopping.erase (app, timerId) }.erasePending app timerId)
    else none

def appTimers : Machine State Action where
  init s := s = {}
  step := step

end Brookesia.SystemCore.TimerTasks
