import Mathlib.Data.List.Basic
import Brookesia.Transition.Machine

/-! # Wi-Fi: the general actions

The Wi-Fi service with its queue of actions, its state machine and the HAL below. A label is one step of one party:
a call of `trigger_general_action` (each access to the queues or to the scheduler is a step), the task of the
queue, a transition or the timeout of a state on the serial group, or the HAL.

* The HAL is what its interface says: an action that is not running, and whose event is not ready, begins to run, and is
  answered at some later time, by its event or by an error. It may also report an event on its own.
* The connection data, the policies and the scan and SoftAP functions are left out; their requests are calls like all
  others. -/

namespace Brookesia.Wifi.Actions

open Transition

inductive GeneralAction
  | init
  | deinit
  | start
  | stop
  | connect
  | disconnect
  deriving DecidableEq

inductive GeneralEvent
  | inited
  | deinited
  | started
  | stopped
  | connected
  | disconnected
  deriving DecidableEq

inductive ExtraAction
  | success
  | failure
  | timeout
  deriving DecidableEq

inductive GeneralState
  | idle
  | initing
  | inited
  | deiniting
  | starting
  | started
  | stopping
  | connecting
  | connected
  | disconnecting
  deriving DecidableEq

/-- The actions of the state machine; in the source both kinds by their names. -/
inductive MachineAction
  | general (action : GeneralAction)
  | extra (action : ExtraAction)
  deriving DecidableEq

/-! ### The table -/

/-- `get_transient_state_target_action`; `none` for `Max`, of the states that are not transient. -/
def getTransientStateTargetAction : GeneralState → Option GeneralAction
  | .initing => some .init
  | .deiniting => some .deinit
  | .starting => some .start
  | .stopping => some .stop
  | .connecting => some .connect
  | .disconnecting => some .disconnect
  | _ => none

def isTransient (state : GeneralState) : Bool :=
  (getTransientStateTargetAction state).isSome

def getGeneralEventTargetState : GeneralEvent → GeneralState
  | .inited => .inited
  | .deinited => .idle
  | .started => .started
  | .stopped => .inited
  | .connected => .connected
  | .disconnected => .started

/-- The transitions of `StateMachine::init`. -/
def transition : GeneralState → MachineAction → Option GeneralState
  | .idle, .general .init => some .initing
  | .initing, .extra .success => some .inited
  | .initing, .extra .failure => some .idle
  | .initing, .extra .timeout => some .deiniting
  | .inited, .general .start => some .starting
  | .inited, .general .deinit => some .deiniting
  | .deiniting, .extra _ => some .idle
  | .starting, .extra .success => some .started
  | .starting, .extra .failure => some .inited
  | .starting, .extra .timeout => some .stopping
  | .started, .general .connect => some .connecting
  | .started, .general .stop => some .stopping
  | .connecting, .extra .success => some .connected
  | .connecting, .extra .failure => some .started
  | .connecting, .extra .timeout => some .disconnecting
  | .connected, .general .disconnect => some .disconnecting
  | .connected, .general .stop => some .stopping
  | .disconnecting, .extra _ => some .started
  | .stopping, .extra _ => some .inited
  -- self transitions for stable states
  | .idle, .general .deinit => some .idle
  | .inited, .general .init => some .inited
  | .started, .general .start => some .started
  | .started, .general .disconnect => some .started
  | .connected, .general .start => some .connected
  | .connected, .general .connect => some .connected
  -- self transitions for transient states
  | .initing, .general .init => some .initing
  | .deiniting, .general .deinit => some .deiniting
  | .starting, .general .start => some .starting
  | .stopping, .general .stop => some .stopping
  | .connecting, .general .start => some .connecting
  | .connecting, .general .connect => some .connecting
  | .disconnecting, .general .start => some .disconnecting
  | .disconnecting, .general .disconnect => some .disconnecting
  | _, _ => none

/-! ### The HAL -/

def getGeneralActionTargetEvent : GeneralAction → GeneralEvent
  | .init => .inited
  | .deinit => .deinited
  | .start => .started
  | .stop => .stopped
  | .connect => .connected
  | .disconnect => .disconnected

def getGeneralActionFromTargetEvent : GeneralEvent → GeneralAction
  | .inited => .init
  | .deinited => .deinit
  | .started => .start
  | .stopped => .stop
  | .connected => .connect
  | .disconnected => .disconnect

/-- The bits `Inited`, `Started` and `Connected`. -/
structure Bits where
  inited : Bool := false
  started : Bool := false
  connected : Bool := false
  deriving DecidableEq

namespace Bits

/-- The bit of the event has the value that the event gives it. -/
def test (bits : Bits) : GeneralEvent → Bool
  | .inited => bits.inited
  | .deinited => !bits.inited
  | .started => bits.started
  | .stopped => !bits.started
  | .connected => bits.connected
  | .disconnected => !bits.connected

/-- `update_general_event_state_bit`. -/
def set (bits : Bits) : GeneralEvent → Bits
  | .inited => { bits with inited := true }
  | .deinited => { bits with inited := false }
  | .started => { bits with started := true }
  | .stopped => { bits with started := false }
  | .connected => { bits with connected := true }
  | .disconnected => { bits with connected := false }

end Bits

/-- The bits, and the actions that are running. -/
structure Hal where
  bits : Bits := {}
  running : List GeneralAction := []
  deriving DecidableEq

namespace Hal

variable (hal : Hal)

def isGeneralEventConflicting : GeneralEvent → Bool
  | .deinited => hal.running.contains .init
  | .stopped => hal.running.contains .start
  | .disconnected => hal.running.contains .connect
  | .connected => hal.running.contains .disconnect
  | _ => false

def isGeneralEventReady (event : GeneralEvent) : Bool :=
  !hal.running.contains (getGeneralActionFromTargetEvent event) && !hal.isGeneralEventConflicting event &&
    hal.bits.test event

/-- `do_general_action`, not forced. -/
def doGeneralAction (action : GeneralAction) : Hal :=
  if hal.running.contains action ∨ hal.isGeneralEventReady (getGeneralActionTargetEvent action) then hal
  else { hal with running := hal.running ++ [action] }

end Hal

/-! ### The service -/

/-- Where a call of `trigger_general_action` is: before its look at the front of the queue; before its push; before its look
at the task of the queue; before it posts one. -/
inductive CallStage
  | checking
  | pushing
  | looking
  | posting
  deriving DecidableEq

structure Call where
  action : GeneralAction
  stage : CallStage
  deriving DecidableEq

/-- Where the task of the queue is: about to make a popped action ready; about to take a ready action; past
`trigger_general_action`; past its decision to end, the scheduler has not yet marked it as finished. -/
inductive TaskStage
  | making (action : GeneralAction)
  | picking
  | deciding
  | leaving
  deriving DecidableEq

/-- What the serial group does: nothing; a transition past `on_enter` of the next state; a task of the queue. -/
inductive Strand
  | free
  | entering (next : GeneralState)
  | task (id : ℕ) (stage : TaskStage)
  deriving DecidableEq

/-- `posted` are the transition tasks that wait. `tasks` are the tasks of the queue that the scheduler has as
running, `taskId` is `general_action_queue_processing_task_`; ids start at 1. For the statements only: the last action that
has been pushed or found at the front, and the last one that has been popped. -/
structure State where
  currentState : GeneralState := .idle
  posted : List MachineAction := []
  timeoutTask : Option GeneralState := none
  strand : Strand := .free
  hal : Hal := {}
  pending : List GeneralAction := []
  ready : List GeneralAction := []
  tasks : List ℕ := []
  taskId : ℕ := 0
  nextId : ℕ := 1
  calls : List Call := []
  lastRequest : Option GeneralAction := none
  popped : Option GeneralAction := none
  deriving DecidableEq

inductive Label
  /-- A call of `trigger_general_action`. -/
  | request (action : GeneralAction)
  /-- Call `k` moves on. -/
  | call (k : ℕ)
  /-- The task `id` of the queue runs. -/
  | run (id : ℕ)
  | task
  /-- The next transition task runs, up to `on_enter`. -/
  | begin
  /-- `current_state_ = next` and `setup_state_tasks`. -/
  | assign
  | timeout
  /-- The HAL reports the event of an action that is running. -/
  | report (action : GeneralAction)
  /-- The HAL reports an error of an action that is running. -/
  | fail (action : GeneralAction)
  | unexpected (event : GeneralEvent)
  deriving DecidableEq

namespace State

variable (s : State)

def isActionRunning : Bool :=
  isTransient s.currentState || !s.posted.isEmpty || (s.strand matches .entering _)

/-! #### Calls -/

def setCall (k : ℕ) (calls : List Call) : State :=
  { s with calls := s.calls.take k ++ calls ++ s.calls.drop (k + 1) }

def isGeneralActionQueueTaskRunning : Bool :=
  s.taskId ≠ 0 && s.tasks.contains s.taskId

def check (k : ℕ) (action : GeneralAction) : State :=
  if s.pending.head? = some action then { s.setCall k [] with lastRequest := some action }
  else s.setCall k [⟨action, .pushing⟩]

def push (k : ℕ) (action : GeneralAction) : State :=
  { s.setCall k [⟨action, .looking⟩] with
    pending := s.pending ++ [action]
    lastRequest := some action }

def look (k : ℕ) (action : GeneralAction) : State :=
  if s.isGeneralActionQueueTaskRunning then s.setCall k [] else s.setCall k [⟨action, .posting⟩]

def post (k : ℕ) : State :=
  { s.setCall k [] with
    tasks := s.tasks ++ [s.nextId]
    taskId := s.nextId
    nextId := s.nextId + 1 }

def call (k : ℕ) : Option State :=
  match s.calls[k]? with
  | none => none
  | some ⟨action, .checking⟩ => some (s.check k action)
  | some ⟨action, .pushing⟩ => some (s.push k action)
  | some ⟨action, .looking⟩ => some (s.look k action)
  | some ⟨_, .posting⟩ => some (s.post k)

/-! #### The task of the queue -/

/-- The action that `action` needs first. -/
def preAction (hal : Hal) : GeneralAction → Option GeneralAction
  | .deinit => if hal.isGeneralEventReady .started || hal.isGeneralEventReady .connected then some .stop else none
  | .start => if hal.isGeneralEventReady .deinited then some .init else none
  | .stop => if hal.isGeneralEventReady .connected then some .disconnect else none
  | .connect =>
    if hal.isGeneralEventReady .stopped || hal.isGeneralEventReady .deinited then some .start
    else if hal.isGeneralEventReady .connected then some .disconnect
    else none
  | .init | .disconnect => none

/-- `make_general_action_ready_queue`, what it pushes; the chains are at most three actions long. -/
def makeReady (hal : Hal) : ℕ → GeneralAction → List GeneralAction
  | 0, action => [action]
  | depth + 1, action =>
    match preAction hal action with
    | none => [action]
    | some pre => makeReady hal depth pre ++ [action]

def makeGeneralActionReadyQueue (action : GeneralAction) : State :=
  { s with ready := s.ready ++ makeReady s.hal 3 action }

def run (id : ℕ) : Option State :=
  if s.strand = .free ∧ id ∈ s.tasks then
    if s.isActionRunning then some s
    else if s.ready ≠ [] then some { s with strand := .task id .picking }
    else
      match s.pending with
      | [] => some { s with strand := .task id .leaving }
      | action :: pending =>
        some { s with pending := pending, popped := some action, strand := .task id (.making action) }
  else none

def pick (id : ℕ) : State :=
  match s.ready with
  | [] => { s with strand := .task id .leaving }
  | action :: ready =>
    { s with ready := ready, posted := s.posted ++ [.general action], strand := .task id .deciding }

def decideEnd (id : ℕ) : State :=
  if s.pending.isEmpty && s.ready.isEmpty then { s with strand := .task id .leaving } else { s with strand := .free }

def task : Option State :=
  match s.strand with
  | .task id (.making action) => some { s.makeGeneralActionReadyQueue action with strand := .task id .picking }
  | .task id .picking => some (s.pick id)
  | .task id .deciding => some (s.decideEnd id)
  | .task id .leaving => some { s with tasks := s.tasks.erase id, strand := .free }
  | _ => none

/-! #### Transitions -/

def onEnter (next : GeneralState) : Hal :=
  match getTransientStateTargetAction next with
  | none => s.hal
  | some action => s.hal.doGeneralAction action

/-- A transition task, up to `on_enter`. -/
def startTransition (action : MachineAction) : State :=
  match transition s.currentState action with
  | none => s
  | some next =>
    if next = s.currentState then s
    else { s with timeoutTask := none, hal := s.onEnter next, strand := .entering next }

def begin : Option State :=
  match s.posted with
  | [] => none
  | action :: posted => if s.strand = .free then some ({ s with posted := posted }.startTransition action) else none

def assign : Option State :=
  match s.strand with
  | .entering next =>
    some { s with
      currentState := next
      timeoutTask := if isTransient next then some next else none
      strand := .free }
  | _ => none

/-- The timeout task dispatches, so its transition starts at once. -/
def timeout : Option State :=
  if s.strand = .free ∧ s.timeoutTask.isSome then
    some ({ s with timeoutTask := none }.startTransition (.extra .timeout))
  else none

/-! #### The HAL -/

/-- An action of the HAL ends, and the callback triggers `extra`. -/
def answer (action : GeneralAction) (extra : ExtraAction) : State :=
  { s with
    hal := { s.hal with running := s.hal.running.erase action }
    posted := s.posted ++ [.extra extra] }

def report (action : GeneralAction) : Option State :=
  if action ∈ s.hal.running then
    let answered := s.answer action .success
    some { answered with
      hal := { answered.hal with bits := answered.hal.bits.set (getGeneralActionTargetEvent action) } }
  else none

def fail (action : GeneralAction) : Option State :=
  if action ∈ s.hal.running then some (s.answer action .failure) else none

/-- `force_transition_to`. -/
def unexpected (event : GeneralEvent) : State :=
  { s with
    hal := { s.hal with bits := s.hal.bits.set event }
    timeoutTask := none
    currentState := getGeneralEventTargetState event }

end State

def step (s : State) : Label → Option State
  | .request action => some { s with calls := s.calls ++ [⟨action, .checking⟩] }
  | .call k => s.call k
  | .run id => s.run id
  | .task => s.task
  | .begin => s.begin
  | .assign => s.assign
  | .timeout => s.timeout
  | .report action => s.report action
  | .fail action => s.fail action
  | .unexpected event => some (s.unexpected event)

/-- The service after `on_start`. -/
def machine : Machine State Label where
  init s := s = {}
  step := step

end Brookesia.Wifi.Actions
