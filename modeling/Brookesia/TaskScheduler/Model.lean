import Brookesia.Transition.Machine

/-! # The task scheduler

`TaskScheduler::Impl` on Asio, from the return of `start` on. What runs concurrently are the threads
that call the scheduler, the posters included, and the worker threads that run completion handlers;
`step` lets any of them move next.

* A lock-protected operation is a list of `LockedOp`s that `mutex_` is held for. The handlers read
  `state` and `is_executing` without the mutex, so an operation that can be seen half done by such a
  read is split there: `suspend_internal` cancels the timer first and sets `Suspended` afterwards.
* A completion handler is a `Flight` whose `Stage` says which access to shared data comes next.
* A timer is the clock value it expires at and the handlers waiting for it. `cancel`, and
  `expires_after` likewise, queues each waiting handler with `operation_aborted`, the expiry queues
  it with success, and a worker takes any queued completion at any time. A strand only takes
  interleavings away.
* `timer` and `promise` are null until `create_handle` has made them, after it has let the mutex go.

The statistics are unbounded numbers; `suspended_tasks_` is an integer, so that a decrement too many
would show. The heap keeps every handle ever made: handlers own their handle. -/

namespace Brookesia.TaskScheduler.Model

open Transition

abbrev TaskId := ℕ

abbrev Group := String

inductive TaskType
  | immediate | delayed | periodic
  deriving DecidableEq

inductive TaskState
  | running | suspended | canceled | finished
  deriving DecidableEq

/-- The two codes a wait of a `steady_timer` completes with. -/
inductive ErrorCode
  | success | operationAborted
  deriving DecidableEq

/-- The four handlers: the `task_wrapper` of `post_internal`, the lambdas of `schedule_once` and
`schedule_periodic`, and the one `resume_internal` gives a periodic task. -/
inductive Handler
  | wrapper | once | periodic | resumed (originalInterval : ℤ)
  deriving DecidableEq

structure Completion where
  handler : Handler
  ec : ErrorCode
  deriving DecidableEq

/-- What a running handler does next. -/
inductive Stage
  /-- Test `state == Suspended` (the wrapper: `state == Canceled`). -/
  | entered (ec : ErrorCode)
  /-- Test `ec || state == Canceled`, and with an error `state == Running`. -/
  | tested (ec : ErrorCode)
  /-- Exchange `is_executing`. -/
  | claiming
  /-- `is_executing` was set: test `repeat && state == Running`. -/
  | skipping
  /-- Call `schedule_periodic`; `skip` if the closure was skipped. -/
  | rearming (skip : Bool)
  | executing
  /-- Test `should_continue && repeat && state == Running`. -/
  | returned (shouldContinue : Bool)
  /-- `mark_finished`: store `Finished` and count the task. -/
  | finishing (success : Bool)
  /-- `mark_finished`: lock, fulfil the promise, remove the task. -/
  | settling (success : Bool)
  /-- The exit guard of a periodic handler: clear `is_executing`. -/
  | exiting
  /-- Lock and call `remove_task_internal`. -/
  | removing
  deriving DecidableEq

structure Flight where
  handler : Handler
  stage : Stage
  deriving DecidableEq

structure Timer where
  expiry : ℤ
  waits : List Handler
  deriving DecidableEq

/-- How far the call that posts the task has come. -/
inductive PostStage
  | inserted | timed | promised | saved | scheduled
  deriving DecidableEq

/-- A `TaskHandle`, what the `io_context` holds for it, and its history. -/
structure Task where
  type : TaskType := .immediate
  repeats : Bool := false
  intervalMs : ℤ := 0
  group : Group := ""
  state : TaskState := .running
  timer : Option Timer := none
  promise : Bool := false
  isExecuting : Bool := false
  remainingTime : ℤ := 0
  savedTask : Bool := false
  savedPeriodicTask : Bool := false
  post : PostStage := .inserted
  queue : List Completion := []
  flights : List Flight := []
  executions : ℕ := 0
  results : List Bool := []
  deriving DecidableEq

/-- What the holder of `mutex_` still has to do. -/
inductive LockedOp
  | cancel (id : TaskId)
  | suspend (id : TaskId)
  | setSuspended (id : TaskId)
  | resume (id : TaskId)
  | setRunning (id : TaskId)
  | rearm (id : TaskId)
  | restartTimer (id : TaskId)
  deriving DecidableEq

structure State where
  now : ℤ
  firstId : TaskId
  nextId : TaskId
  heap : TaskId → Task
  /-- The keys of `tasks_`. -/
  tasks : List TaskId
  groups : Group → List TaskId
  totalTasks : ℕ
  completedTasks : ℕ
  failedTasks : ℕ
  canceledTasks : ℕ
  suspendedTasks : ℤ
  /-- Empty if `mutex_` is free. -/
  lock : List LockedOp
  /-- The tasks whose future some thread is blocked on in `wait`. -/
  waiters : List TaskId

/-- After `start`: the counters are reset, `task_id_counter_` is not. -/
def initial (firstId : TaskId) : State where
  now := 0
  firstId := firstId
  nextId := firstId
  heap := fun _ => {}
  tasks := []
  groups := fun _ => []
  totalTasks := 0
  completedTasks := 0
  failedTasks := 0
  canceledTasks := 0
  suspendedTasks := 0
  lock := []
  waiters := []

def State.setTask (s : State) (id : TaskId) (t : Task) : State :=
  { s with heap := Function.update s.heap id t }

/-! ### Timers -/

def aborted (waits : List Handler) : List Completion := waits.map fun h => ⟨h, .operationAborted⟩

/-- `timer->cancel()`, if there is a timer. -/
def Task.cancelTimer (t : Task) : Task :=
  match t.timer with
  | none => t
  | some timer =>
    { t with timer := some { timer with waits := [] }, queue := t.queue ++ aborted timer.waits }

/-- `timer->expires_after(delay)` and `timer->async_wait(handler)`; a null timer has no step. -/
def Task.asyncWait (t : Task) (now delay : ℤ) (handler : Handler) : Option Task :=
  match t.timer with
  | none => none
  | some timer =>
    some { t with timer := some ⟨now + delay, [handler]⟩, queue := t.queue ++ aborted timer.waits }

def scheduleOnce (now : ℤ) (t : Task) : Option Task := t.asyncWait now t.intervalMs .once

def schedulePeriodic (now : ℤ) (t : Task) : Option Task := t.asyncWait now t.intervalMs .periodic

/-- `Delayed` and `Periodic` tasks have a timer to suspend, resume and restart. -/
def TaskType.hasTimer (type : TaskType) : Prop := type = .delayed ∨ type = .periodic

instance (type : TaskType) : Decidable type.hasTimer := by unfold TaskType.hasTimer; infer_instance

/-! ### Removal -/

def removeTaskInternal (s : State) (id : TaskId) (group : Group) : State :=
  let s := if group = "" then s else
    { s with groups := Function.update s.groups group ((s.groups group).erase id) }
  if id ∈ s.tasks then
    { s with
      heap := Function.update s.heap id { (s.heap id).cancelTimer with timer := none }
      tasks := s.tasks.erase id }
  else s

/-- `promise->set_value(value)` and `promise.reset()`, unless the promise is null. -/
def Task.settle (t : Task) (value : Bool) : Task :=
  if t.promise then { t with promise := false, results := t.results ++ [value] } else t

/-! ### Posting -/

/-- The part of `create_handle` under the mutex. -/
def createHandle (s : State) (type : TaskType) (repeats : Bool) (intervalMs : ℤ) (group : Group) :
    State :=
  { s with
    nextId := s.nextId + 1
    heap := Function.update s.heap s.nextId
      { type := type, repeats := repeats, intervalMs := intervalMs, group := group }
    tasks := s.tasks ++ [s.nextId]
    groups := if group = "" then s.groups else
      Function.update s.groups group (s.nextId :: s.groups group)
    totalTasks := s.totalTasks + 1 }

/-- The posted task: its type, and the interval or delay. -/
inductive Post
  | post
  | postDelayed (delayMs : ℤ)
  | postPeriodic (intervalMs : ℤ)
  deriving DecidableEq

def postInsert (s : State) (group : Group) : Post → State
  | .post => createHandle s .immediate false 0 group
  | .postDelayed delayMs => createHandle s .delayed false delayMs group
  | .postPeriodic intervalMs => createHandle s .periodic true intervalMs group

/-- The rest of `create_handle` and of the posting function, without the mutex. -/
def postNext (now : ℤ) (t : Task) : Option Task :=
  match t.post with
  | .inserted => some { t with timer := some ⟨0, []⟩, post := .timed }
  | .timed => some { t with promise := true, post := .promised }
  | .promised =>
    match t.type with
    | .immediate => some { t with queue := t.queue ++ [⟨.wrapper, .success⟩], post := .scheduled }
    | .delayed => some { t with savedTask := true, post := .saved }
    | .periodic => some { t with savedPeriodicTask := true, post := .saved }
  | .saved =>
    match t.type with
    | .immediate => none
    | .delayed => (scheduleOnce now t).map fun t => { t with post := .scheduled }
    | .periodic => (schedulePeriodic now t).map fun t => { t with post := .scheduled }
  | .scheduled => none

/-! ### The operations under the mutex -/

def cancelInternal (s : State) (id : TaskId) : State :=
  if id ∈ s.tasks then
    let t := ({ s.heap id with state := .canceled }.cancelTimer).settle false
    removeTaskInternal { s.setTask id t with canceledTasks := s.canceledTasks + 1 } id t.group
  else s

/-- The remaining time is recorded and the timer cancelled. -/
def Task.saveRemaining (t : Task) (now : ℤ) : Task :=
  match t.timer with
  | none => t
  | some timer => { t with remainingTime := timer.expiry - now }.cancelTimer

/-- `suspend_internal` up to the cancelling of the timer. -/
def suspendInternal (s : State) (id : TaskId) : State :=
  let t := s.heap id
  if id ∈ s.tasks ∧ t.type.hasTimer ∧ t.state = .running then
    { s.setTask id (t.saveRemaining s.now) with lock := .setSuspended id :: s.lock }
  else s

def setSuspended (s : State) (id : TaskId) : State :=
  { s.setTask id { s.heap id with state := .suspended } with
    suspendedTasks := s.suspendedTasks + 1 }

/-- The tests of `resume_internal`. -/
def resumeInternal (s : State) (id : TaskId) : State :=
  let t := s.heap id
  if id ∈ s.tasks ∧ t.type.hasTimer ∧ t.state = .suspended then
    { s with lock := .setRunning id :: s.lock }
  else s

def setRunning (s : State) (id : TaskId) : State :=
  { s.setTask id { s.heap id with state := .running } with
    suspendedTasks := s.suspendedTasks - 1
    lock := .rearm id :: s.lock }

/-- The end of `resume_internal`. For a delayed task `interval_ms` is the delay during the call of
`schedule_once` and the original interval again after it. -/
def rearm (s : State) (id : TaskId) : Option State :=
  let t := s.heap id
  let delayMs := max 0 t.remainingTime
  match t.type with
  | .immediate => some s
  | .delayed =>
    if t.savedTask then
      (scheduleOnce s.now { t with intervalMs := delayMs }).map fun t' =>
        s.setTask id { t' with intervalMs := t.intervalMs }
    else some s
  | .periodic =>
    if t.savedPeriodicTask then
      (t.asyncWait s.now delayMs (.resumed t.intervalMs)).map fun t' => s.setTask id t'
    else some s

def restartTimer (s : State) (id : TaskId) : Option State :=
  let t := s.heap id
  if id ∈ s.tasks ∧ t.type.hasTimer ∧ t.state = .running ∧ t.timer.isSome then
    let t := t.cancelTimer
    match t.type with
    | .immediate => some s
    | .delayed =>
      if t.savedTask then (scheduleOnce s.now t).map fun t' => s.setTask id t'
      else some (s.setTask id t)
    | .periodic =>
      if t.savedPeriodicTask then (schedulePeriodic s.now t).map fun t' => s.setTask id t'
      else some (s.setTask id t)
  else some s

def runLocked (s : State) : LockedOp → Option State
  | .cancel id => some (cancelInternal s id)
  | .suspend id => some (suspendInternal s id)
  | .setSuspended id => some (setSuspended s id)
  | .resume id => some (resumeInternal s id)
  | .setRunning id => some (setRunning s id)
  | .rearm id => rearm s id
  | .restartTimer id => restartTimer s id

/-- The calls that take the mutex for all they do. -/
inductive Call
  | cancel (id : TaskId)
  | cancelGroup (group : Group)
  | cancelAll
  | suspend (id : TaskId)
  | suspendGroup (group : Group)
  | suspendAll
  | resume (id : TaskId)
  | resumeGroup (group : Group)
  | resumeAll
  | restartTimer (id : TaskId)
  deriving DecidableEq

/-- The tasks a call goes through, in the order of its loop. -/
def Call.ops (s : State) : Call → List LockedOp
  | .cancel id => [.cancel id]
  | .cancelGroup group => (s.groups group).map .cancel
  | .cancelAll => s.tasks.map .cancel
  | .suspend id => [.suspend id]
  | .suspendGroup group => (s.groups group).map .suspend
  | .suspendAll => s.tasks.map .suspend
  | .resume id => [.resume id]
  | .resumeGroup group => (s.groups group).map .resume
  | .resumeAll => s.tasks.map .resume
  | .restartTimer id => [.restartTimer id]

/-! ### Completion handlers -/

def Handler.isPeriodic : Handler → Bool
  | .wrapper | .once => false
  | .periodic | .resumed _ => true

/-- The handler `f` goes on to `next`, or returns. Going on to the closure starts it. -/
def Task.goes (t : Task) (f : Flight) (next : Option Stage) : Task :=
  { t with
    flights := (next.map (Flight.mk f.handler)).toList ++ t.flights.erase f
    executions := t.executions + if next = some .executing then 1 else 0 }

/-- The first test. The wrapper only tests for `Canceled`. -/
def afterEntered (t : Task) (handler : Handler) (ec : ErrorCode) : Option Stage :=
  if handler = .wrapper then
    if t.state = .canceled then some .removing else some .executing
  else if t.state = .suspended then none
  else some (.tested ec)

/-- The second test. With an error the handlers of `schedule_once` and `schedule_periodic` look for a
restarted timer, the one of `resume_internal` does not. -/
def afterTested (t : Task) (handler : Handler) : ErrorCode → Option Stage
  | .operationAborted =>
    match handler with
    | .resumed _ => some .removing
    | _ => if t.state = .running then none else some .removing
  | .success =>
    if t.state = .canceled then some .removing
    else if handler.isPeriodic then some .claiming
    else some .executing

/-- `handle->repeat && handle->state == TaskState::Running`. -/
def Task.continues (t : Task) : Bool := t.repeats && t.state = .running

/-- What a handler does after a stage that reads the handle and changes nothing but
`is_executing`. -/
def Task.next (t : Task) (f : Flight) : Option Stage :=
  match f.stage with
  | .entered ec => afterEntered t f.handler ec
  | .tested ec => afterTested t f.handler ec
  | .claiming => if t.isExecuting then some .skipping else some .executing
  | .skipping => if t.continues then some (.rearming true) else none
  | .returned shouldContinue =>
    if shouldContinue && t.continues then some (.rearming false) else some (.finishing true)
  | _ => none

/-- `schedule_periodic` as a handler calls it; the resumed one restores the interval first. -/
def rearmingStep (now : ℤ) (t : Task) (f : Flight) (skip : Bool) : Option Task :=
  let t := match f.handler with
    | .resumed originalInterval => { t with intervalMs := originalInterval }
    | _ => t
  (schedulePeriodic now t).map fun t => t.goes f (if skip then none else some .exiting)

/-- How the closure ends. -/
inductive Outcome
  | returned (shouldContinue : Bool)
  | threw
  deriving DecidableEq

/-- The closure called by `f` ends. A periodic handler that catches an exception clears
`is_executing` before `mark_finished`. -/
def executingStep (t : Task) (f : Flight) : Outcome → Task
  | .returned shouldContinue =>
    t.goes f (some (if f.handler.isPeriodic then .returned shouldContinue else .finishing true))
  | .threw =>
    { t.goes f (some (.finishing false)) with
      isExecuting := !f.handler.isPeriodic && t.isExecuting }

/-- `mark_finished` up to the lock. -/
def finishingStep (s : State) (id : TaskId) (f : Flight) (success : Bool) : State :=
  { s.setTask id { (s.heap id).goes f (some (.settling success)) with state := .finished } with
    completedTasks := s.completedTasks + if success then 1 else 0
    failedTasks := s.failedTasks + if success then 0 else 1 }

/-- `mark_finished` under the lock. -/
def settlingStep (s : State) (id : TaskId) (f : Flight) (success : Bool) : State :=
  let t := (s.heap id).settle success
  removeTaskInternal (s.setTask id (t.goes f (if f.handler.isPeriodic then some .exiting else none))) id t.group

def removingStep (s : State) (id : TaskId) (f : Flight) : State :=
  removeTaskInternal (s.setTask id ((s.heap id).goes f none)) id (s.heap id).group

/-- The next access of a handler that is not in its closure. -/
def advance (s : State) (id : TaskId) (f : Flight) : Option State :=
  let t := s.heap id
  match f.stage with
  | .entered _ | .tested _ | .skipping | .returned _ => some (s.setTask id (t.goes f (t.next f)))
  | .claiming => some (s.setTask id { t.goes f (t.next f) with isExecuting := true })
  | .rearming skip => (rearmingStep s.now t f skip).map (s.setTask id)
  | .executing => none
  | .finishing success => some (finishingStep s id f success)
  | .settling success => if s.lock = [] then some (settlingStep s id f success) else none
  | .exiting => some (s.setTask id { t.goes f none with isExecuting := false })
  | .removing => if s.lock = [] then some (removingStep s id f) else none

/-! ### Steps -/

inductive Action
  | tick
  | post (p : Post) (group : Group)
  | postNext (id : TaskId)
  | call (c : Call)
  | locked
  | expire (id : TaskId)
  | enter (id : TaskId) (c : Completion)
  | advance (id : TaskId) (f : Flight)
  /-- The closure called by `f` ends. -/
  | finish (id : TaskId) (f : Flight) (o : Outcome)
  /-- `wait(id, -1)` finds the task. -/
  | wait (id : TaskId)
  /-- A blocked `wait` finds its future ready. -/
  | wake (id : TaskId)
  deriving DecidableEq

def expire (now : ℤ) (t : Task) : Option Task :=
  match t.timer with
  | none => none
  | some timer =>
    if timer.waits ≠ [] ∧ timer.expiry ≤ now then
      some { t with
        timer := some { timer with waits := [] }
        queue := t.queue ++ timer.waits.map fun h => ⟨h, .success⟩ }
    else none

def Task.enter (t : Task) (c : Completion) : Task :=
  { t with queue := t.queue.erase c, flights := ⟨c.handler, .entered c.ec⟩ :: t.flights }

/-- `create_handle` has made the future of the promise. -/
def PostStage.hasFuture : PostStage → Prop
  | .inserted | .timed => False
  | .promised | .saved | .scheduled => True

instance (p : PostStage) : Decidable p.hasFuture := by
  cases p <;> unfold PostStage.hasFuture <;> infer_instance

/-- `create_handle` has made a handle with this id. -/
def State.created (s : State) (id : TaskId) : Prop := s.firstId ≤ id ∧ id < s.nextId

instance (s : State) (id : TaskId) : Decidable (s.created id) := by
  unfold State.created; infer_instance

def step (s : State) : Action → Option State
  | .tick => some { s with now := s.now + 1 }
  | .post p group => if s.lock = [] then some (postInsert s group p) else none
  | .postNext id => if s.created id then (postNext s.now (s.heap id)).map (s.setTask id) else none
  | .call c => if s.lock = [] then some { s with lock := c.ops s } else none
  | .locked =>
    match s.lock with
    | [] => none
    | op :: rest => runLocked { s with lock := rest } op
  | .expire id => (expire s.now (s.heap id)).map (s.setTask id)
  | .enter id c =>
    if c ∈ (s.heap id).queue then some (s.setTask id ((s.heap id).enter c)) else none
  | .advance id f => if f ∈ (s.heap id).flights then advance s id f else none
  | .finish id f o =>
    if f ∈ (s.heap id).flights ∧ f.stage = .executing then
      some (s.setTask id (executingStep (s.heap id) f o))
    else none
  | .wait id =>
    if s.lock = [] ∧ id ∈ s.tasks ∧ (s.heap id).post.hasFuture then
      some { s with waiters := id :: s.waiters }
    else none
  | .wake id =>
    if id ∈ s.waiters ∧ (s.heap id).results ≠ [] then
      some { s with waiters := s.waiters.erase id }
    else none

def scheduler : Machine State Action where
  init s := ∃ n, s = initial n
  step := step

end Brookesia.TaskScheduler.Model
