import Brookesia.Transition.Machine
import Brookesia.Transition.Counting

/-! # The task scheduler in the browser

`TaskScheduler::Impl` of `wasm_shims`: one thread, timers of the browser that cannot be withdrawn, and a generation
number in each handle that disarms them. A timer callback runs to its end before the next one starts; while its task or
one of the callbacks around it runs, and while an immediate task does, any call of the scheduler may be
made, so the frames of what is running form a stack. Generations and counters are unbounded;
`suspended_tasks_` is an integer. -/

namespace Brookesia.TaskScheduler.Wasm

open Transition

abbrev TaskId := ℕ

abbrev Group := String

inductive TaskType
  | immediate
  | delayed
  | periodic
  deriving DecidableEq

inductive TaskState
  | running
  | suspended
  | canceled
  | finished
  deriving DecidableEq

structure Handle where
  type : TaskType
  group : Group
  state : TaskState := .running
  generation : ℕ := 0
  isExecuting : Bool := false
  deriving DecidableEq

/-- `WasmTimerContext` of a timer that the browser has not called yet. -/
structure Timer where
  id : TaskId
  generation : ℕ
  deriving DecidableEq

/-- How a task ended; a task that runs once returns nothing, here `true`. -/
inductive Outcome
  | returned (keepRunning : Bool)
  | threw
  deriving DecidableEq

/-- Before the task, in it, and after it: the callbacks around it are running, or it is. -/
inductive Phase
  | pre
  | task
  | post (outcome : Outcome)
  deriving DecidableEq

structure Frame where
  id : TaskId
  phase : Phase
  deriving DecidableEq

/-- `ended` and `lost` are for the statements only: the periodic tasks that threw or returned `false`, and the tasks that
were taken out while they were suspended, by something else than a cancellation. -/
structure State where
  heap : TaskId → Handle
  tasks : List TaskId := []
  groups : List (Group × TaskId) := []
  nextId : TaskId := 1
  pending : List Timer := []
  stack : List Frame := []
  totalTasks : ℕ := 0
  completedTasks : ℕ := 0
  failedTasks : ℕ := 0
  canceledTasks : ℕ := 0
  suspendedTasks : ℤ := 0
  ended : List TaskId := []
  lost : List TaskId := []

namespace State

variable (s : State)

def setHandle (id : TaskId) (handle : Handle) : State :=
  { s with heap := Function.update s.heap id handle }

def createHandle (type : TaskType) (group : Group) : State :=
  { s with
    heap := Function.update s.heap s.nextId { type := type, group := group }
    tasks := s.tasks ++ [s.nextId]
    groups := if group = "" then s.groups else s.groups ++ [(group, s.nextId)]
    nextId := s.nextId + 1
    totalTasks := s.totalTasks + 1 }

/-- The timer of `schedule_once` and `schedule_periodic`; which of them it is the type of the handle says. -/
def schedule (id : TaskId) : State :=
  let generation := (s.heap id).generation + 1
  { s.setHandle id { s.heap id with generation := generation } with
    pending := s.pending ++ [{ id := id, generation := generation }] }

/-- `suspended_tasks_--`, where it is positive. -/
def discountSuspended : State :=
  { s with suspendedTasks := if 0 < s.suspendedTasks then s.suspendedTasks - 1 else s.suspendedTasks }

def removeTaskInternal (id : TaskId) (group : Group) : State :=
  { s with
    tasks := s.tasks.erase id
    groups := s.groups.filter (· != (group, id)) }

/-! ### Calls -/

def postInternal (group : Group) : State :=
  { s.createHandle .immediate group with stack := { id := s.nextId, phase := .pre } :: s.stack }

def postDelayed (group : Group) : State :=
  (s.createHandle .delayed group).schedule s.nextId

def postPeriodic (group : Group) : State :=
  (s.createHandle .periodic group).schedule s.nextId

def cancelInternal (id : TaskId) : State :=
  if id ∈ s.tasks then
    let handle := s.heap id
    let s := if handle.state = .suspended then { s with suspendedTasks := s.suspendedTasks - 1 } else s
    let s := s.setHandle id { handle with generation := handle.generation + 1, state := .canceled }
    { s with canceledTasks := s.canceledTasks + 1 }.removeTaskInternal id handle.group
  else s

def cancelGroup (group : Group) : State :=
  ((s.groups.filter (·.1 == group)).map (·.2)).foldl cancelInternal s

def suspendInternal (id : TaskId) : State :=
  if id ∈ s.tasks ∧ (s.heap id).type ≠ .immediate ∧ (s.heap id).state = .running then
    { s.setHandle id { s.heap id with generation := (s.heap id).generation + 1, state := .suspended } with
      suspendedTasks := s.suspendedTasks + 1 }
  else s

def resumeInternal (id : TaskId) : State :=
  if id ∈ s.tasks ∧ (s.heap id).state = .suspended then
    let handle := s.heap id
    let s := (s.setHandle id { handle with state := .running }).discountSuspended
    if handle.type = .immediate then s else s.schedule id
  else s

def restartTimer (id : TaskId) : State :=
  if id ∈ s.tasks ∧ (s.heap id).state = .running then
    let handle := s.heap id
    let s := s.setHandle id { handle with generation := handle.generation + 1 }
    if handle.type = .immediate then s else s.schedule id
  else s

/-! ### Callbacks -/

def markFinished (id : TaskId) (success : Bool) : State :=
  let handle := s.heap id
  if handle.state = .canceled then s
  else
    let s := if handle.state = .suspended then { s.discountSuspended with lost := s.lost ++ [id] } else s
    let s := s.setHandle id { handle with state := .finished }
    let s := if success then { s with completedTasks := s.completedTasks + 1 }
      else { s with failedTasks := s.failedTasks + 1 }
    s.removeTaskInternal id handle.group

/-- The browser calls the `k`-th of the pending timers. -/
def fire (k : ℕ) : Option State :=
  match s.stack, s.pending[k]? with
  | [], some timer =>
    let handle := s.heap timer.id
    let s := { s with pending := s.pending.eraseIdx k }
    if handle.generation ≠ timer.generation ∨ handle.state ≠ .running then
      some s
    else if handle.type = .periodic then
      if handle.isExecuting then some (s.schedule timer.id)
      else some { s.setHandle timer.id { handle with isExecuting := true } with
        stack := [{ id := timer.id, phase := .pre }] }
    else some { s with stack := [{ id := timer.id, phase := .pre }] }
  | _, _ => none

def enter : Option State :=
  match s.stack with
  | { id, phase := .pre } :: stack => some { s with stack := { id := id, phase := .task } :: stack }
  | _ => none

def leave (outcome : Outcome) : Option State :=
  match s.stack with
  | { id, phase := .task } :: stack =>
    let handle := s.heap id
    let s := { s with stack := { id := id, phase := .post outcome } :: stack }
    if handle.type = .periodic then
      some { s.setHandle id { handle with isExecuting := false } with
        ended := if outcome = .returned true then s.ended else s.ended ++ [id] }
    else some s
  | _ => none

def done : Option State :=
  match s.stack with
  | { id, phase := .post outcome } :: stack =>
    let handle := s.heap id
    let s := { s with stack := stack }
    if handle.type = .periodic ∧ outcome = .returned true ∧ handle.state = .running then
      some (s.schedule id)
    else
      some (s.markFinished id (outcome != .threw))
  | _ => none

end State

inductive Label
  | post (group : Group)
  | postDelayed (group : Group)
  | postPeriodic (group : Group)
  | cancel (id : TaskId)
  | cancelGroup (group : Group)
  | suspend (id : TaskId)
  | resume (id : TaskId)
  | restartTimer (id : TaskId)
  | fire (k : ℕ)
  | enter
  | leave (outcome : Outcome)
  | done
  deriving DecidableEq

/-- A call, at the top or from within what is running, or a step of what is running. -/
def step (s : State) : Label → Option State
  | .post group => some (s.postInternal group)
  | .postDelayed group => some (s.postDelayed group)
  | .postPeriodic group => some (s.postPeriodic group)
  | .cancel id => some (s.cancelInternal id)
  | .cancelGroup group => some (s.cancelGroup group)
  | .suspend id => some (s.suspendInternal id)
  | .resume id => some (s.resumeInternal id)
  | .restartTimer id => some (s.restartTimer id)
  | .fire k => s.fire k
  | .enter => s.enter
  | .leave outcome => s.leave outcome
  | .done => s.done

/-- Where there is no handle yet, the heap holds a finished one. -/
def fresh : State where
  heap := fun _ => { type := .immediate, group := "", state := .finished }

def machine : Machine State Label where
  init s := s = fresh
  step := step

end Brookesia.TaskScheduler.Wasm
