import Brookesia.Transition.Machine

/-! # The state machine

`StateMachine` on a serial task group. Three kinds of threads move: one that calls `start` and
`stop`, one call after the other (`Control`), the strand of the group, and those that call
`trigger_action` from anywhere.

* The strand runs one task at a time, in the order of the queue. A task is a stack of frames, because
  an action dispatched by a callback that runs on the strand is executed there and then.
* Each step is one access to the data under `mutex_` or one call of the scheduler. A callback of the
  user (`on_enter`, `on_exit`, `on_update`, the finish callback) is a stage of its own; what it
  returns comes with the label of the step that ends it.
* Of the scheduler the model has what the machine relies on: a timer that has been posted expires at
  some time, its task then waits for the strand, and `cancel` takes away both. Task ids start at 1,
  and 0 stands for no task.

The states and transitions do not change. For the statements a state also remembers how often a state
has been entered (`entries`), how often the machine has been started (`runs`), the timers posted so
far, and how often an action did something in a later run than its own (`leaks`). -/

namespace Brookesia.StateMachine.Model

open Transition

abbrev StateName := String

abbrev ActionName := String

abbrev TaskId := ℕ

/-- A state, as far as the machine reads it. -/
structure StateBase where
  updateInterval : ℕ := 0
  timeoutMs : ℕ := 0
  timeoutAction : ActionName := ""
  deriving DecidableEq

/-- `find_state_unlocked` and `transitions_`. -/
structure Chart where
  findState : StateName → Option StateBase
  transition : StateName → ActionName → Option StateName

inductive TimerKind
  | update
  | timeout (action : ActionName)
  deriving DecidableEq

/-- A task that `setup_state_tasks` has posted, and the entry it did so for. -/
structure Timer where
  id : TaskId
  kind : TimerKind
  owner : StateName
  entry : ℕ
  deriving DecidableEq

/-- An action that `trigger_action` has accepted, the run it was accepted in, and the timer whose
action it is. -/
structure Trigger where
  action : ActionName
  run : ℕ
  timer : Option Timer := none
  deriving DecidableEq

/-- A task in the queue of the strand. -/
inductive Job
  | trigger (t : Trigger)
  | timer (t : Timer)
  deriving DecidableEq

/-! ### Where the threads are -/

/-- `cancel_current_tasks`: take the ids, then cancel one task after the other. -/
inductive CancelStage
  | taking
  | timeout (timeoutId updateId : TaskId)
  | update (updateId : TaskId)
  deriving DecidableEq

/-- `setup_state_tasks`. -/
inductive SetupStage
  | checking
  | reading
  | postingUpdate
  | storingUpdate (id : TaskId)
  | postingTimeout
  | storingTimeout (id : TaskId)
  deriving DecidableEq

/-- The task of `trigger_action`, with `transition_to` from `validating` to `settingUp`. -/
inductive Stage
  | entered
  | looking
  | validating
  /-- `on_exit`. -/
  | exiting
  | cancelling (c : CancelStage)
  /-- `on_enter` of the next state. -/
  | entering
  | assigning
  /-- `on_enter` of the previous state. -/
  | restoring
  | reassigning
  /-- `ok` if `transition_to` succeeds when the tasks are set up. -/
  | settingUp (u : SetupStage) (ok : Bool)
  | finishing
  | calling
  | called
  /-- The guard that decrements `transition_count_`. -/
  | releasing
  deriving DecidableEq

/-- With the local variables; the finish callback gets `lastState`, the action and `finalState`.
`entry` is the entry that the action has made. -/
structure TriggerFrame where
  trigger : Trigger
  stage : Stage := .entered
  lastState : StateName := ""
  nextState : StateName := ""
  previousState : StateName := ""
  finalState : StateName := ""
  entry : ℕ := 0
  deriving DecidableEq

/-- The state whose tasks `transition_to` sets up: the next one, or the previous one again. -/
def TriggerFrame.target (f : TriggerFrame) (ok : Bool) : StateName :=
  if ok then f.nextState else f.previousState

inductive Frame
  | trigger (f : TriggerFrame)
  /-- The periodic task, before and in `on_update`. -/
  | update (t : Timer) (running : Bool)
  /-- The delayed task, before and after its call of `trigger_action`. -/
  | timeout (t : Timer) (triggered : Bool)
  deriving DecidableEq

/-- `start` and, from `cancelling` on, `enter_initial_state`. -/
inductive StartStage
  | checking
  | locking
  | cancelling (c : CancelStage)
  | finding
  /-- `on_enter` of the initial state. -/
  | entering
  | assigning
  | settingUp (entry : ℕ) (u : SetupStage)
  deriving DecidableEq

inductive StopStage
  | checking
  | cancelling (c : CancelStage)
  | clearing
  deriving DecidableEq

inductive Control
  | idle
  | starting (initialState : StateName) (stage : StartStage)
  | stopping (stage : StopStage)
  deriving DecidableEq

structure State where
  /-- `task_scheduler_` is set. -/
  isRunning : Bool := false
  currentState : StateName := ""
  transitionCount : ℕ := 0
  timeoutTaskId : TaskId := 0
  updateTaskId : TaskId := 0
  /-- The scheduler: the next id, its delayed and periodic tasks, those whose timer runs, and the
  strand's queue. -/
  nextTaskId : TaskId := 1
  tasks : List Timer := []
  armed : List Timer := []
  queue : List Job := []
  stack : List Frame := []
  posting : List Trigger := []
  control : Control := .idle
  entries : ℕ := 0
  runs : ℕ := 0
  posted : TaskId → Option Timer := fun _ => none
  leaks : ℕ := 0

/-! ### The scheduler -/

/-- `cancel(id)`; also what becomes of a delayed task that has run. -/
def State.cancel (s : State) (id : TaskId) : State :=
  { s with
    tasks := s.tasks.filter (·.id ≠ id)
    armed := s.armed.filter (·.id ≠ id)
    queue := s.queue.filter fun
      | .trigger _ => true
      | .timer t => t.id ≠ id }

/-- `post_delayed` or `post_periodic`, for an entry of `name`. -/
def State.postTimer (s : State) (kind : TimerKind) (name : StateName) (entry : ℕ) : State :=
  let t : Timer := ⟨s.nextTaskId, kind, name, entry⟩
  { s with
    nextTaskId := s.nextTaskId + 1
    tasks := s.tasks ++ [t]
    armed := s.armed ++ [t]
    posted := Function.update s.posted t.id (some t) }

/-! ### The functions that the strand and the caller of `start` share -/

/-- `cancel_current_tasks`; `none` when it returns. -/
def cancelStep (s : State) : CancelStage → State × Option CancelStage
  | .taking => ({ s with timeoutTaskId := 0, updateTaskId := 0 },
      if s.isRunning then some (.timeout s.timeoutTaskId s.updateTaskId) else none)
  | .timeout timeoutId updateId =>
    (if timeoutId = 0 then s else s.cancel timeoutId, some (.update updateId))
  | .update updateId => (if updateId = 0 then s else s.cancel updateId, none)

/-- Where a call of `setup_state_tasks` goes: on, or back with its result. -/
inductive SetupNext
  | goes (u : SetupStage)
  | returns (ok : Bool)
  deriving DecidableEq

def StateBase.hasTimeout (b : StateBase) : Bool := 0 < b.timeoutMs && b.timeoutAction ≠ ""

/-- `setup_state_tasks(name)`, for an entry of `name`. -/
def setupStep (chart : Chart) (s : State) (name : StateName) (entry : ℕ) : SetupStage → State × SetupNext
  | .checking => (s, if s.isRunning then .goes .reading else .returns true)
  | .reading =>
    (s, if s.isRunning && (chart.findState name).isSome then .goes .postingUpdate else .returns false)
  | .postingUpdate =>
    match chart.findState name with
    | none => (s, .returns false)
    | some state =>
      if 0 < state.updateInterval then
        (s.postTimer .update name entry, .goes (.storingUpdate s.nextTaskId))
      else (s, .goes .postingTimeout)
  | .storingUpdate id => ({ s with updateTaskId := id }, .goes .postingTimeout)
  | .postingTimeout =>
    match chart.findState name with
    | none => (s, .returns false)
    | some state =>
      if state.hasTimeout then
        (s.postTimer (.timeout state.timeoutAction) name entry, .goes (.storingTimeout s.nextTaskId))
      else (s, .returns true)
  | .storingTimeout id => ({ s with timeoutTaskId := id }, .returns true)

/-- `current_state_ = name`. -/
def State.assign (s : State) (name : StateName) : State :=
  { s with currentState := name, entries := s.entries + 1 }

/-! ### The strand -/

def State.noteLeak (s : State) (t : Trigger) : State :=
  if t.run = s.runs then s else { s with leaks := s.leaks + 1 }

/-- The next step of an action; `ok` is what a callback of the user returns, or whether a finish
callback is registered. The frame is `none` when the action has ended. -/
def triggerStep (chart : Chart) (s : State) (f : TriggerFrame) (ok : Bool) : State × Option TriggerFrame :=
  match f.stage with
  | .entered => (s, if s.isRunning then some { f with stage := .looking } else none)
  | .looking =>
    if s.currentState = "" then (s, some { f with stage := .releasing })
    else match chart.transition s.currentState f.trigger.action with
      | none => (s, some { f with stage := .releasing })
      | some next =>
        (s, some { f with stage := .validating, lastState := s.currentState, nextState := next })
  | .validating =>
    if s.currentState = f.nextState then (s, some { f with stage := .finishing })
    else if (chart.findState s.currentState).isSome && (chart.findState f.nextState).isSome then
      (s, some { f with stage := .exiting, previousState := s.currentState })
    else (s, some { f with stage := .releasing })
  | .exiting => (s, some { f with stage := if ok then .cancelling .taking else .releasing })
  | .cancelling c =>
    match cancelStep s c with
    | (s', some c') => (s', some { f with stage := .cancelling c' })
    | (s', none) => (s', some { f with stage := .entering })
  | .entering => (s, some { f with stage := if ok then .assigning else .restoring })
  | .assigning =>
    ((s.assign f.nextState).noteLeak f.trigger,
      some { f with stage := .settingUp .checking true, entry := s.entries + 1 })
  | .restoring => (s, some { f with stage := .reassigning })
  | .reassigning =>
    ((s.assign f.previousState).noteLeak f.trigger,
      some { f with stage := .settingUp .checking false, entry := s.entries + 1 })
  | .settingUp u success =>
    match setupStep chart s (f.target success) f.entry u with
    | (s', .goes u') => (s', some { f with stage := .settingUp u' success })
    | (s', .returns ready) =>
      (s', some { f with stage := if success && ready then .finishing else .releasing })
  | .finishing =>
    (s, some { f with stage := if ok then .calling else .releasing, finalState := s.currentState })
  | .calling => (s.noteLeak f.trigger, some { f with stage := .called })
  | .called => (s, some { f with stage := .releasing })
  | .releasing =>
    if 0 < s.transitionCount then
      ({ s with transitionCount := s.transitionCount - 1 }.noteLeak f.trigger, none)
    else (s, none)

/-- `trigger_action` up to the scheduler: the action is accepted. -/
def State.accept (s : State) : State := { s with transitionCount := s.transitionCount + 1 }

def frameStep (chart : Chart) (s : State) (frame : Frame) (rest : List Frame) (ok : Bool) : State :=
  match frame with
  | .trigger f =>
    match triggerStep chart s f ok with
    | (s', some f') => { s' with stack := .trigger f' :: rest }
    | (s', none) => { s' with stack := rest }
  | .update t false => { s with stack := .update t true :: rest }
  | .update t true =>
    { s with armed := if t ∈ s.tasks then s.armed ++ [t] else s.armed, stack := rest }
  | .timeout t false =>
    match t.kind with
    | .update => { s with stack := .timeout t true :: rest }
    | .timeout action =>
      if s.isRunning then
        { s.accept with
          stack := .trigger { trigger := ⟨action, s.runs, some t⟩ } :: .timeout t true :: rest }
      else { s with stack := .timeout t true :: rest }
  | .timeout t true => { s.cancel t.id with stack := rest }

def Job.frame : Job → Frame
  | .trigger t => .trigger { trigger := t }
  | .timer t =>
    match t.kind with
    | .update => .update t false
    | .timeout _ => .timeout t false

def Frame.inCallback : Frame → Bool
  | .trigger f => f.stage = .exiting || f.stage = .entering || f.stage = .restoring ||
    f.stage = .called
  | .update _ running => running
  | .timeout _ _ => false

/-! ### `start` and `stop` -/

/-- The next step of `start(initialState)`; `ok` is what `configure_group` or `on_enter` returns.
A failure after `locking` calls `stop`. -/
def startStep (chart : Chart) (s : State) (initialState : StateName) (ok : Bool) : StartStage → State
  | .checking =>
    { s with control := if s.isRunning then .idle else .starting initialState .locking }
  | .locking =>
    if (chart.findState initialState).isSome then
      { s with
        isRunning := true
        runs := s.runs + 1
        control := if ok then .starting initialState (.cancelling .taking) else .stopping .checking }
    else { s with control := .stopping .checking }
  | .cancelling c =>
    match cancelStep s c with
    | (s', some c') => { s' with control := .starting initialState (.cancelling c') }
    | (s', none) => { s' with control := .starting initialState .finding }
  | .finding =>
    { s with
      control := if (chart.findState initialState).isSome then .starting initialState .entering
        else .stopping .checking }
  | .entering =>
    { s with control := if ok then .starting initialState .assigning else .stopping .checking }
  | .assigning =>
    { s.assign initialState with
      control := .starting initialState (.settingUp (s.entries + 1) .checking) }
  | .settingUp entry u =>
    match setupStep chart s initialState entry u with
    | (s', .goes u') => { s' with control := .starting initialState (.settingUp entry u') }
    | (s', .returns ready) => { s' with control := if ready then .idle else .stopping .checking }

def stopStep (s : State) : StopStage → State
  | .checking =>
    { s with control := if s.isRunning then .stopping (.cancelling .taking) else .idle }
  | .cancelling c =>
    match cancelStep s c with
    | (s', some c') => { s' with control := .stopping (.cancelling c') }
    | (s', none) => { s' with control := .stopping .clearing }
  | .clearing =>
    { s with isRunning := false, currentState := "", transitionCount := 0, control := .idle }

/-! ### Steps -/

inductive Action
  | start (initialState : StateName)
  | stop
  /-- The next step of the call of `start` or `stop`. -/
  | control (ok : Bool)
  /-- Some thread calls `trigger_action`, and then the scheduler. -/
  | accept (action : ActionName)
  | post (t : Trigger)
  | expire (t : Timer)
  | take
  | strand (ok : Bool)
  | dispatch (action : ActionName)
  deriving DecidableEq

def step (chart : Chart) (s : State) : Action → Option State
  | .start initialState =>
    if s.control = .idle then some { s with control := .starting initialState .checking } else none
  | .stop => if s.control = .idle then some { s with control := .stopping .checking } else none
  | .control ok =>
    match s.control with
    | .idle => none
    | .starting initialState stage => some (startStep chart s initialState ok stage)
    | .stopping stage => some (stopStep s stage)
  | .accept action =>
    if s.isRunning then some { s.accept with posting := s.posting ++ [⟨action, s.runs, none⟩] }
    else none
  | .post t =>
    if t ∈ s.posting then
      some { s with posting := s.posting.erase t, queue := s.queue ++ [.trigger t] }
    else none
  | .expire t =>
    if t ∈ s.armed then some { s with armed := s.armed.erase t, queue := s.queue ++ [.timer t] }
    else none
  | .take =>
    match s.queue with
    | [] => none
    | job :: rest => if s.stack = [] then some { s with queue := rest, stack := [job.frame] } else none
  | .strand ok =>
    match s.stack with
    | [] => none
    | frame :: rest => some (frameStep chart s frame rest ok)
  | .dispatch action =>
    match s.stack with
    | [] => none
    | frame :: rest =>
      if frame.inCallback && s.isRunning then
        some { s.accept with stack := .trigger { trigger := ⟨action, s.runs, none⟩ } :: frame :: rest }
      else none

/-- The state machine with the states and transitions of `chart`. -/
def stateMachine (chart : Chart) : Machine State Action where
  init s := s = {}
  step := step chart

end Brookesia.StateMachine.Model
