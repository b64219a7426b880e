import Brookesia.Transition.Machine

/-! # Calls of a service

`call_function_async` and `call_functions_async` of `ServiceBase`, for any number of calls from any
threads, with `start`, `stop` and `deinit`. A label is one access to what the calls share: the
resources, `is_running`, `state_mutex`, the scheduler. The scheduler may run what is posted in any
order, it may refuse a task and forget one. A function returns or throws as the label says; the state
of the service and the context of a call that the functions see are left out.
`init` and the scheduler's `start` are one step each. -/

namespace Brookesia.ServiceManager.Calls

open Transition

abbrev CallId := Nat

abbrev Scheduler := Nat

structure Config where
  /-- The schemas: whether a function requires the scheduler. -/
  functions : String → Option Bool
  /-- The attributes name a scheduler of the service's own. -/
  hasScheduler : Bool

/-- What a function makes of a call. -/
inductive Outcome
  | succeeds
  /-- An error, or a `std::exception`. -/
  | fails
  | escapes
  deriving DecidableEq

/-- A result for the handler. -/
inductive Answer
  | completed (success : Bool)
  | notRunning
  deriving DecidableEq

inductive Phase
  /-- Before the test of `is_initialized`. -/
  | entering
  | lookingUp
  /-- Before the caller's test of `is_running`. -/
  | checking
  | posting
  | queued
  /-- The task is called and waits for `state_mutex`. -/
  | locking
  /-- Before the task's test of `is_running`. -/
  | locked
  /-- Before the call of the first of `names`. -/
  | looping (names : List String)
  | running (name : String) (rest : List String)
  | answering (answer : Answer)
  | delivering (answer : Answer)
  | handling
  | refused
  | done
  | dropped
  | escaped
  deriving DecidableEq

structure Call where
  /-- `call_functions_async`. -/
  batch : Bool
  names : List String
  hasHandler : Bool
  requireScheduler : Bool := false
  scheduler : Scheduler := 0
  phase : Phase := .entering
  returned : Option Bool := none
  started : Nat := 0
  answers : List Answer := []
  deriving DecidableEq

/-- What has `state_mutex` for itself. -/
inductive Holder
  | starting
  /-- In `stop_internal`, before `is_running` is cleared. -/
  | stopping (deinit : Bool)
  /-- Before `on_deinit`. -/
  | deinitializing
  deriving DecidableEq

/-- A `stop` that has given the lock back and is to stop the scheduler, for `deinit` or not. -/
structure Draining where
  scheduler : Option Scheduler
  deinit : Bool
  deriving DecidableEq

structure State where
  /-- The registry and the scheduler, set and reset together. -/
  resources : Option Scheduler
  isRunning : Bool
  holder : Option Holder
  /-- The calls whose task shares `state_mutex`. -/
  readers : Finset CallId
  draining : List Draining
  /-- How many calls of `deinit` are to take the lock again. -/
  relocking : Nat
  schedulers : Scheduler → Bool
  nextScheduler : Scheduler
  queue : Finset CallId
  calls : CallId → Option Call

def init : State where
  resources := none
  isRunning := false
  holder := none
  readers := ∅
  draining := []
  relocking := 0
  schedulers := fun _ => false
  nextScheduler := 0
  queue := ∅
  calls := fun _ => none

/-! ### A call -/

/-- What a step of a call does to what the calls share. -/
inductive Effect
  | nothing
  | acquires
  | releases
  | posts
  deriving DecidableEq

/-- What the outside answers to a step of a call. -/
structure Env where
  /-- `post`, where the scheduler runs. -/
  posted : Bool
  outcome : Outcome
  deriving DecidableEq

/-- Whether one of the functions requires the scheduler, if all are found. -/
def requireScheduler (c : Config) (names : List String) : Option Bool :=
  names.foldlM (fun require name => (c.functions name).map (require || ·)) false

namespace Call

def refuse (call : Call) : Call × Effect :=
  ({ call with phase := .refused, returned := some false }, .nothing)

def goOn (call : Call) (phase : Phase) : Call × Effect := ({ call with phase := phase }, .nothing)

def finish (call : Call) : Call × Effect :=
  ({ call with phase := .done, returned := some true }, if call.batch then .releases else .nothing)

def next (c : Config) (s : State) (env : Env) (call : Call) : Option (Call × Effect) :=
  match call.phase with
  | .entering => some (if s.resources.isSome then call.goOn .lookingUp else call.refuse)
  | .lookingUp =>
    match s.resources, Calls.requireScheduler c call.names with
    | some scheduler, some require =>
      some ({ call with
        requireScheduler := require
        scheduler := scheduler
        -- without the scheduler the task is called here and now
        phase := if require then .checking else .locking }, .nothing)
    | _, _ => some call.refuse
  | .checking => some (if s.isRunning then call.goOn .posting else call.refuse)
  | .posting =>
    if env.posted && s.schedulers call.scheduler then
      some ({ call with phase := .queued, returned := some true }, .posts)
    else some call.refuse
  | .locking => if s.holder = none then some ({ call with phase := .locked }, .acquires) else none
  | .locked =>
    some (if s.isRunning || !call.requireScheduler then call.goOn (.looping call.names)
      else call.goOn (.answering .notRunning))
  | .looping [] => some (call.goOn (.answering (.completed true)))
  | .looping (name :: rest) => some ({ call with phase := .running name rest, started := call.started + 1 }, .nothing)
  | .running _ rest =>
    match env.outcome with
    | .succeeds => some (call.goOn (.looping rest))
    | .fails => some (call.goOn (.answering (.completed false)))
    | .escapes => some ({ call with phase := .escaped }, .releases)
  -- a single call unlocks before it looks at the handler
  | .answering answer => some ({ call with phase := .delivering answer }, if call.batch then .nothing else .releases)
  | .delivering answer =>
    if call.hasHandler then
      some ({ call with phase := .handling, answers := call.answers ++ [answer] }, .nothing)
    else some call.finish
  | .handling => some call.finish
  | .queued | .refused | .done | .dropped | .escaped => none

end Call

variable (s : State)

def setCall (id : CallId) (call : Call) : State :=
  { s with calls := Function.update s.calls id (some call) }

def apply (id : CallId) : Effect → State
  | .nothing => s
  | .acquires => { s with readers := insert id s.readers }
  | .releases => { s with readers := s.readers.erase id }
  | .posts => { s with queue := insert id s.queue }

/-- The task of `id` is taken from the queue, and is in `phase` then. -/
def dequeue (id : CallId) (phase : Phase) : Option State :=
  if id ∈ s.queue then
    (s.calls id).map fun call => setCall { s with queue := s.queue.erase id } id { call with phase := phase }
  else none

/-! ### The scheduler -/

/-- The task of `id` waits in `scheduler`. -/
def waitsIn (scheduler : Scheduler) (id : CallId) : Bool :=
  id ∈ s.queue && (s.calls id).any (·.scheduler == scheduler)

/-- `scheduler` forgets the tasks of the service that have not begun. -/
def cancelGroup (scheduler : Scheduler) : State :=
  { s with
    queue := s.queue.filter fun id => waitsIn s scheduler id = false
    calls := fun id =>
      if waitsIn s scheduler id then (s.calls id).map ({ · with phase := .dropped }) else s.calls id }

def stopScheduler (scheduler : Scheduler) : State :=
  { cancelGroup s scheduler with schedulers := Function.update s.schedulers scheduler false }

/-- The end of `stop_internal`. -/
def drain (c : Config) : Option Scheduler → State
  | none => s
  | some scheduler => if c.hasScheduler then stopScheduler s scheduler else cancelGroup s scheduler

/-! ### The service -/

/-- `state_mutex` can be taken. -/
def free : Prop := s.holder = none ∧ s.readers = ∅

instance : Decidable (free s) := inferInstanceAs (Decidable (_ ∧ _))

/-- `init`, with the manager's `scheduler` or a new one. -/
def initInternal (c : Config) (scheduler : Scheduler) (running : Bool) : State :=
  if s.resources.isSome then s
  else if c.hasScheduler then
    { s with resources := some s.nextScheduler, nextScheduler := s.nextScheduler + 1 }
  else { s with resources := some scheduler, schedulers := Function.update s.schedulers scheduler running }

/-- `start` as far as `on_start`. -/
def start (c : Config) : State :=
  match s.isRunning, s.resources with
  | false, some scheduler =>
    { s with
      isRunning := true
      holder := some .starting
      schedulers := if c.hasScheduler then Function.update s.schedulers scheduler true else s.schedulers }
  | _, _ => s

/-- The rest of `start`; where it fails, `stop_internal` keeps the lock. -/
def finishStart (c : Config) (ok : Bool) : State :=
  if ok && s.resources.any s.schedulers then { s with holder := none }
  else drain { s with isRunning := false, holder := none } c s.resources

/-- `stop` or `deinit` as far as `on_stop` or `on_deinit`. -/
def stop (deinit : Bool) : State :=
  if deinit && s.resources.isNone then s
  else if s.isRunning then { s with holder := some (.stopping deinit) }
  else if deinit then { s with holder := some .deinitializing }
  else s

/-- `is_running` is cleared, and the lock given back. -/
def markStopped (deinit : Bool) : State :=
  { s with isRunning := false, holder := none, draining := s.draining ++ [⟨s.resources, deinit⟩] }

def finishDeinit : State := { s with resources := none, holder := none }

inductive Label
  | callFunctionAsync (id : CallId) (name : String) (hasHandler : Bool)
  | callFunctionsAsync (id : CallId) (names : List String) (hasHandler : Bool)
  | advance (id : CallId) (env : Env)
  | execute (id : CallId)
  | cancel (id : CallId)
  | init (scheduler : Scheduler) (running : Bool)
  | start
  | finishStart (ok : Bool)
  | stop
  | deinit
  | markStopped
  /-- The `stop` at `index` stops the scheduler. -/
  | drain (index : Nat)
  | relock
  | finishDeinit
  /-- A scheduler that the service has not, or that is not its own, is stopped: its last copy is gone,
  or the manager ends. -/
  | stopScheduler (scheduler : Scheduler)
  deriving DecidableEq

def step (c : Config) : Label → Option State
  | .callFunctionAsync id name hasHandler =>
    if s.calls id = none then some (setCall s id { batch := false, names := [name], hasHandler := hasHandler }) else none
  | .callFunctionsAsync id names hasHandler =>
    if s.calls id = none then some (setCall s id { batch := true, names := names, hasHandler := hasHandler }) else none
  | .advance id env =>
    (s.calls id).bind fun call => (call.next c s env).map fun r => apply (setCall s id r.1) id r.2
  | .execute id => dequeue s id .locking
  | .cancel id => dequeue s id .dropped
  | .init scheduler running => if free s then some (initInternal s c scheduler running) else none
  | .start => if free s then some (start s c) else none
  | .finishStart ok => if s.holder = some .starting then some (finishStart s c ok) else none
  | .stop => if free s then some (stop s false) else none
  | .deinit => if free s then some (stop s true) else none
  | .markStopped =>
    match s.holder with
    | some (.stopping deinit) => some (markStopped s deinit)
    | _ => none
  | .drain index =>
    s.draining[index]?.map fun d =>
      let s := drain s c d.scheduler
      { s with draining := s.draining.eraseIdx index, relocking := s.relocking + if d.deinit then 1 else 0 }
  | .relock =>
    if 0 < s.relocking ∧ free s then
      some { s with holder := some .deinitializing, relocking := s.relocking - 1 }
    else none
  | .finishDeinit => if s.holder = some .deinitializing then some (finishDeinit s) else none
  | .stopScheduler scheduler =>
    if c.hasScheduler = false ∨ s.resources ≠ some scheduler then some (stopScheduler s scheduler) else none

def machine (c : Config) : Machine State Label where
  init s := s = init
  step s label := step s c label

end Brookesia.ServiceManager.Calls
