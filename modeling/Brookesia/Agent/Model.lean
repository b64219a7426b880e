import Brookesia.Agent.Base
import Brookesia.Transition.Machine

/-! # The agent manager

`StateMachine` of the agent manager with its queue of actions, over the agent of `Base`. A label is one step of
one party: a call of `trigger_general_action`, a task of the serial group (a transition, an update, a timeout or
the queue task, each in the steps between which other threads may come in), the agent, or a service function.
One agent is active throughout. -/

namespace Brookesia.Agent

open Transition

inductive ExtraAction
  | success
  | failed
  | timeout
  deriving DecidableEq

/-- The actions of the state machine; in the source both kinds by their names. -/
inductive MachineAction
  | general (action : GeneralAction)
  | extra (action : ExtraAction)
  deriving DecidableEq

structure AgentOperationTimeout where
  activate : ℕ
  start : ℕ
  sleep : ℕ
  wakeUp : ℕ
  stop : ℕ

structure AgentAttributes where
  operationTimeout : AgentOperationTimeout
  requireTimeSync : Bool

/-- `GeneralStateClass::is_transient`; these are also the states with an update interval. -/
def isTransient : GeneralState → Bool
  | .timeSyncing | .activating | .starting | .sleeping | .wakingUp | .stopping => true
  | .ready | .activated | .started | .slept => false

/-- `none` for `Max`. -/
def getTransientStateTargetEvent : GeneralState → Option GeneralEvent
  | .activating => some .activated
  | .starting => some .started
  | .sleeping => some .slept
  | .wakingUp => some .awake
  | .stopping => some .stopped
  | _ => none

/-- The timeouts set by `StateMachine::start`. -/
def AgentAttributes.timeoutOf (attributes : AgentAttributes) : GeneralState → ℕ
  | .activating => attributes.operationTimeout.activate
  | .starting => attributes.operationTimeout.start
  | .stopping => attributes.operationTimeout.stop
  | .sleeping => attributes.operationTimeout.sleep
  | .wakingUp => attributes.operationTimeout.wakeUp
  | _ => 0

/-- The table of `StateMachine::init`. -/
def transition : GeneralState → MachineAction → Option GeneralState
  -- from stable states to transient states
  | .ready, .general .activate => some .activating
  | .activated, .general .start => some .starting
  | .started, .general .sleep => some .sleeping
  | .slept, .general .wakeUp => some .wakingUp
  | .activated, .general .stop => some .stopping
  | .started, .general .stop => some .stopping
  | .slept, .general .stop => some .stopping
  -- from transient states to stable states
  | .timeSyncing, .extra .success => some .ready
  | .activating, .extra .success => some .activated
  | .starting, .extra .success => some .started
  | .sleeping, .extra .success => some .slept
  | .wakingUp, .extra .success => some .started
  | .stopping, .extra .success => some .ready
  -- from transient states to `Stopping`
  | .activating, .general .stop => some .stopping
  | .starting, .general .stop => some .stopping
  | .sleeping, .general .stop => some .stopping
  | .wakingUp, .general .stop => some .stopping
  -- from transient states to `Ready`
  | .activating, .extra .timeout => some .ready
  | .activating, .extra .failed => some .ready
  | .starting, .extra .timeout => some .ready
  | .starting, .extra .failed => some .ready
  | .sleeping, .extra .timeout => some .ready
  | .sleeping, .extra .failed => some .ready
  | .wakingUp, .extra .timeout => some .ready
  | .wakingUp, .extra .failed => some .ready
  -- self transitions
  | .activating, .general .activate => some .activating
  | .activated, .general .activate => some .activated
  | .starting, .general .start => some .starting
  | .starting, .general .wakeUp => some .starting
  | .started, .general .start => some .started
  | .started, .general .wakeUp => some .started
  | .sleeping, .general .sleep => some .sleeping
  | .slept, .general .sleep => some .slept
  | .slept, .general .start => some .slept
  | .wakingUp, .general .wakeUp => some .wakingUp
  | .wakingUp, .general .start => some .wakingUp
  | .stopping, .general .stop => some .stopping
  | _, _ => none

/-- A transition task of the group. `watch` is kept for the statements only: the transient state that the
transition is to leave because of a timeout or of an error. -/
structure Posted where
  action : MachineAction
  watch : Option GeneralState := none
  deriving DecidableEq

/-- What `transition_to` does next. -/
inductive JobStage
  | entering
  | assigning
  | arming
  deriving DecidableEq

/-- The transition that is being made, past its `on_exit`. -/
structure Job where
  action : MachineAction
  watch : Option GeneralState
  last : GeneralState
  next : GeneralState
  stage : JobStage
  deriving DecidableEq

/-- The task of the queue: not there or finished; between two runs; past `trigger_action`; past the check that ends it,
before `general_action_queue_task_ = 0`; returned `false` with nothing in the queue, not yet marked as finished. -/
inductive QueueTask
  | idle
  | waiting
  | popped
  | leaving
  | returned
  deriving DecidableEq

/-- Where a call of `trigger_general_action` is: before its look at what is running; past its push; past the decision
to trigger directly. -/
inductive CallStage
  | checking
  | posting
  | direct
  deriving DecidableEq

/-- A call, with its action after the action that it needs first. -/
structure Call where
  todo : List GeneralAction
  stage : CallStage
  deriving DecidableEq

/-- How a watched transition ended. -/
structure Exit where
  left : GeneralState
  current : GeneralState
  running : Option GeneralAction
  updating : Bool
  deriving DecidableEq

/-- `posted` and `job` make up `transition_count_`. For the statements only: the actions handed to the state machine, the reads
of the front of an empty queue, the last request and whether it was running with nothing behind it, the ends of
watched transitions. -/
structure State where
  base : Base
  posted : List Posted := []
  job : Option Job := none
  queue : List GeneralAction := []
  queueTask : QueueTask := .idle
  calls : List Call := []
  handed : List GeneralAction := []
  badReads : ℕ := 0
  lastRequest : Option GeneralAction := none
  wasRunning : Bool := false
  exits : List Exit := []
  deriving DecidableEq

inductive Label
  /-- A call of `trigger_general_action`. -/
  | request (action : GeneralAction)
  /-- Call `k` looks at what is running and at the front of the queue; `garbage` is what stands there if it is empty. -/
  | check (k : ℕ) (garbage : GeneralAction)
  /-- Call `k` starts the task of the queue, or hands its action over. -/
  | finish (k : ℕ)
  | queueStep
  | begin
  /-- `on_enter`. -/
  | enter (reply : Reply)
  /-- `current_state_ = next`. -/
  | assign
  /-- `setup_state_tasks`. -/
  | arm
  | tick (synced : Bool)
  | timeout
  | event (report : Report)
  | manualStartListening (reply : Reply) (ok : Bool)
  | manualStopListening (ok : Bool)
  | suspend (ok : Bool)
  | resume (ok : Bool)
  deriving DecidableEq

namespace State

variable (s : State)

def hasTransitionRunning : Bool :=
  !s.posted.isEmpty || s.job.isSome

def isActionRunning : Bool :=
  s.base.flags.getRunningGeneralAction.isSome || s.hasTransitionRunning || s.base.updateTask.isSome

/-- `is_general_action_queue_task_running`: the id is kept and the scheduler has the task as running. -/
def isGeneralActionQueueTaskRunning : Bool :=
  s.queueTask != .idle

/-- `StateMachine::trigger_action`, posted. -/
def triggerAction (action : MachineAction) (watch : Option GeneralState := none) : State :=
  { s with posted := s.posted ++ [{ action := action, watch := watch }] }

def hand (action : GeneralAction) : State :=
  { s.triggerAction (.general action) with handed := s.handed ++ [action] }

/-! ### Requests -/

/-- The general actions that the state machine has before it. -/
def pending : List MachineAction :=
  (s.job.map Job.action).toList ++ s.posted.map Posted.action

/-- The actions of a call: an agent that is not activated is activated before it is started. -/
def todoOf (action : GeneralAction) : List GeneralAction :=
  if action = .start ∧ s.base.flags.isGeneralEventReady .activated = false then [.activate, .start] else [action]

def request (action : GeneralAction) : State :=
  { s with
    calls := s.calls ++ [{ todo := s.todoOf action, stage := .checking }]
    lastRequest := some action
    wasRunning := false }

def Call.rest (call : Call) : List Call :=
  match call.todo.tail with
  | [] => []
  | todo => [{ todo := todo, stage := .checking }]

def setCall (k : ℕ) (calls : List Call) : State :=
  { s with calls := s.calls.take k ++ calls ++ s.calls.drop (k + 1) }

def isBusy : Bool :=
  s.isActionRunning || s.isGeneralActionQueueTaskRunning || !s.queue.isEmpty

/-- That `action` is running with nothing queued behind it. -/
def isRunningLast (action : GeneralAction) : Bool :=
  s.base.flags.isGeneralActionRunning action && s.queue.isEmpty && s.pending.all fun
      | .general other => other == action
      | .extra _ => true

def skips (action garbage : GeneralAction) : Bool :=
  action == s.queue.headD garbage || s.base.flags.isGeneralActionRunning action

/-- `general_action_queue_.front()`. -/
def readFront : State :=
  { s with badReads := if s.queue.isEmpty then s.badReads + 1 else s.badReads }

def check (k : ℕ) (garbage : GeneralAction) : Option State :=
  match s.calls[k]? with
  | some { todo := action :: todo, stage := .checking } =>
    if s.isBusy = false then
      some (s.setCall k [{ todo := action :: todo, stage := .direct }])
    else if s.skips action garbage then
      some { s.readFront.setCall k (Call.rest { todo := action :: todo, stage := .checking }) with
        wasRunning := s.wasRunning || (todo.isEmpty && s.isRunningLast action) }
    else
      some { s.readFront.setCall k [{ todo := action :: todo, stage := .posting }] with queue := s.queue ++ [action] }
  | _ => none

def startGeneralActionQueueTask : State :=
  if s.isGeneralActionQueueTaskRunning then s else { s with queueTask := .waiting }

def finish (k : ℕ) : Option State :=
  match s.calls[k]? with
  | some { todo := action :: todo, stage := .posting } =>
    some (s.startGeneralActionQueueTask.setCall k (Call.rest { todo := action :: todo, stage := .posting }))
  | some { todo := action :: todo, stage := .direct } =>
    some ((s.hand action).setCall k (Call.rest { todo := action :: todo, stage := .direct }))
  | _ => none

/-! ### The serial group -/

def groupIsFree : Bool :=
  s.job.isNone && (s.queueTask == .idle || s.queueTask == .waiting)

def queueStep : Option State :=
  match s.queueTask with
  | .idle => none
  | .waiting =>
    if s.job.isSome then none
    else if s.isActionRunning then some s
    else
      match s.queue with
      | [] => some { s with queueTask := .returned }
      | action :: queue => some { { s with queue := queue }.hand action with queueTask := .popped }
  | .popped => some { s with queueTask := if s.queue.isEmpty then .leaving else .waiting }
  | .leaving | .returned => some { s with queueTask := .idle }

def stopGeneralActionQueueTask : State :=
  { s with queueTask := .idle, queue := [] }

def processErrorState : State :=
  { s.stopGeneralActionQueueTask with base := s.base.triggerGeneralEvent { event := .stopped, ok := true } }

def onExit (action : MachineAction) : State :=
  if isTransient s.base.currentState ∧ (action = .extra .timeout ∨ action = .extra .failed) then s.processErrorState else s

/-- The end of a transition task, or of an update that calls for none. -/
def finishTransition (watch : Option GeneralState) : State :=
  match watch with
  | none => s
  | some left =>
    { s with exits := s.exits ++ [{
        left := left
        current := s.base.currentState
        running := s.base.flags.getRunningGeneralAction
        updating := s.base.updateTask.isSome }] }

/-- The start of a transition task, up to `cancel_current_tasks`. -/
def startTransition (action : MachineAction) (watch : Option GeneralState) : State :=
  match transition s.base.currentState action with
  | none => s.finishTransition watch
  | some next =>
    if next = s.base.currentState then s.finishTransition watch
    else
      let left := s.onExit action
      { left with
        base := left.base.cancelCurrentTasks
        job := some { action := action, watch := watch, last := s.base.currentState, next := next, stage := .entering } }

def begin : Option State :=
  match s.posted with
  | [] => none
  | task :: posted =>
    if s.groupIsFree then some ({ s with posted := posted }.startTransition task.action task.watch) else none

def onEnter (next : GeneralState) (action : MachineAction) (reply : Reply) : Base :=
  match action with
  | .general action => if isTransient next then (s.base.doGeneralAction action reply).1 else s.base
  | .extra _ => s.base

def enter (reply : Reply) : Option State :=
  match s.job with
  | some { action, watch, last, next, stage := .entering } =>
    some { s with
      base := s.onEnter next action reply
      job := some { action, watch, last, next, stage := .assigning } }
  | _ => none

def assign : Option State :=
  match s.job with
  | some { action, watch, last, next, stage := .assigning } =>
    some { s with
      base := { s.base with currentState := next }
      job := some { action, watch, last, next, stage := .arming } }
  | _ => none

def setupStateTasks (attributes : AgentAttributes) (base : Base) (name : GeneralState) : Base :=
  { base with
    updateTask := if isTransient name then some name else base.updateTask
    timeoutTask := if 0 < attributes.timeoutOf name then some name else base.timeoutTask }

def arm (attributes : AgentAttributes) : Option State :=
  match s.job with
  | some { action := _, watch, last := _, next, stage := .arming } =>
    some ({ s with base := setupStateTasks attributes s.base next, job := none }.finishTransition watch)
  | _ => none

/-- `GeneralStateClass::on_update` of the state `name`. -/
def onUpdate (name : GeneralState) (synced : Bool) : State :=
  let watch := if s.base.flags.error then some name else none
  if name = .timeSyncing then
    if synced then s.triggerAction (.extra .success) watch else s.finishTransition watch
  else
    match getTransientStateTargetEvent name with
    | none => s.finishTransition watch
    | some event =>
      if s.base.flags.isGeneralEventReady event then s.triggerAction (.extra .success) watch
      else if s.base.flags.error then s.triggerAction (.extra .failed) watch
      else s

/-- The group is first in, first out: what an update has posted runs before the next update. -/
def tick (synced : Bool) : Option State :=
  match s.base.updateTask with
  | none => none
  | some name =>
    if s.groupIsFree && s.posted.all (fun task => task.action != .extra .success && task.action != .extra .failed) then
      some (s.onUpdate name synced)
    else none

/-- The timeout task dispatches, so its transition starts at once. -/
def timeout : Option State :=
  match s.base.timeoutTask with
  | none => none
  | some name =>
    if s.groupIsFree then
      some ({ s with base := { s.base with timeoutTask := none } }.startTransition (.extra .timeout) (some name))
    else none

end State

def step (attributes : AgentAttributes) (s : State) : Label → Option State
  | .request action => some (s.request action)
  | .check k garbage => s.check k garbage
  | .finish k => s.finish k
  | .queueStep => s.queueStep
  | .begin => s.begin
  | .enter reply => s.enter reply
  | .assign => s.assign
  | .arm => s.arm attributes
  | .tick synced => s.tick synced
  | .timeout => s.timeout
  | .event report => some { s with base := s.base.triggerGeneralEvent report }
  | .manualStartListening reply ok => some { s with base := s.base.manualStartListening reply ok }
  | .manualStopListening ok => some { s with base := s.base.doManualStopListening ok }
  | .suspend ok => some { s with base := s.base.doSuspend ok }
  | .resume ok => some { s with base := s.base.doResume ok }

/-- What `StateMachine::start` leaves. -/
def started (attributes : AgentAttributes) : State :=
  let state := if attributes.requireTimeSync then GeneralState.timeSyncing else .ready
  { base := State.setupStateTasks attributes { currentState := state } state }

def machine (attributes : AgentAttributes) : Machine State Label where
  init s := s = started attributes
  step := step attributes

/-! ### The steps of the calls and of the queue task -/

def Label.isRequest : Label → Bool
  | .request _ | .check _ _ | .finish _ | .queueStep => true
  | _ => false

/-- They leave the agent and the transition alone, and hand over at most an action. -/
structure HandsOver (s s' : State) : Prop where
  base : s'.base = s.base
  job : s'.job = s.job
  exits : s'.exits = s.exits
  posted : s'.posted = s.posted ∨ ∃ action, s'.posted = s.posted ++ [{ action := .general action, watch := none }]

theorem startGeneralActionQueueTask_handsOver (s : State) : HandsOver s s.startGeneralActionQueueTask := by
  unfold State.startGeneralActionQueueTask
  split
  · exact ⟨rfl, rfl, rfl, .inl rfl⟩
  · exact ⟨rfl, rfl, rfl, .inl rfl⟩

theorem step_handsOver {attributes : AgentAttributes} {s s' : State} {label : Label} (hl : label.isRequest = true)
    (hst : step attributes s label = some s') : HandsOver s s' := by
  cases label with
  | request action =>
    cases hst
    exact ⟨rfl, rfl, rfl, .inl rfl⟩
  | check k garbage =>
    have hst : s.check k garbage = some s' := hst
    unfold State.check at hst
    split at hst
    · split at hst
      · cases hst
        exact ⟨rfl, rfl, rfl, .inl rfl⟩
      split at hst
      · cases hst
        exact ⟨rfl, rfl, rfl, .inl rfl⟩
      · cases hst
        exact ⟨rfl, rfl, rfl, .inl rfl⟩
    · cases hst
  | finish k =>
    have hst : s.finish k = some s' := hst
    unfold State.finish at hst
    split at hst
    · cases hst
      obtain ⟨h1, h2, h3, h4⟩ := startGeneralActionQueueTask_handsOver s
      exact ⟨h1, h2, h3, h4⟩
    next action todo hcall =>
      cases hst
      exact ⟨rfl, rfl, rfl, .inr ⟨action, rfl⟩⟩
    · cases hst
  | queueStep =>
    have hst : s.queueStep = some s' := hst
    unfold State.queueStep at hst
    split at hst
    · cases hst
    · split at hst
      · cases hst
      split at hst
      · cases hst
        exact ⟨rfl, rfl, rfl, .inl rfl⟩
      split at hst
      · cases hst
        exact ⟨rfl, rfl, rfl, .inl rfl⟩
      next action queue hque =>
        cases hst
        exact ⟨rfl, rfl, rfl, .inr ⟨action, rfl⟩⟩
    all_goals
      cases hst
      exact ⟨rfl, rfl, rfl, .inl rfl⟩
  | _ => cases hl

/-! ### Parts of runs -/

namespace Runs

def timedAgent : AgentAttributes where
  operationTimeout := { activate := 60000, start := 10000, sleep := 5000, wakeUp := 5000, stop := 5000 }
  requireTimeSync := false

/-- A transition past its start, with a callback that succeeds and reports `reports`. -/
def transitionRun (reports : List Report) : List Label :=
  [.enter { ok := true, reports := reports }, .assign, .arm]

def directRun (action : GeneralAction) (reports : List Report) : List Label :=
  [.request action, .check 0 .timeSync, .finish 0, .begin] ++ transitionRun reports

def tickRun : List Label :=
  [.tick false, .begin] ++ transitionRun []

end Runs

end Brookesia.Agent
