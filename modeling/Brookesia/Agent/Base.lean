import Mathlib.Data.List.Basic

/-! # Agents: the flags of the lifecycle

`agent::Base`: what an agent keeps of its own lifecycle (`state_flags_`), the actions that change it and the
events that the agent reports. The callbacks of the agent are labels: whether they succeed, and which events
they, or other threads while they run, report. -/

namespace Brookesia.Agent

inductive GeneralAction
  | timeSync
  | activate
  | start
  | sleep
  | wakeUp
  | stop
  deriving DecidableEq

inductive GeneralEvent
  | timeSynced
  | activated
  | started
  | slept
  | awake
  | stopped
  deriving DecidableEq

inductive GeneralState
  | timeSyncing
  | ready
  | activating
  | activated
  | starting
  | started
  | sleeping
  | slept
  | wakingUp
  | stopping
  deriving DecidableEq

/-- The bits of `state_flags_`. `Ready` is left out: it is written by `reset_general_state_flag_bits` and
read nowhere. -/
inductive GeneralStateFlagBit
  | timeSyncing
  | activating
  | activated
  | starting
  | stopping
  | started
  | sleeping
  | wakingUp
  | slept
  | error
  deriving DecidableEq

structure GeneralStateFlags where
  timeSyncing : Bool := false
  activating : Bool := false
  activated : Bool := false
  starting : Bool := false
  stopping : Bool := false
  started : Bool := false
  sleeping : Bool := false
  wakingUp : Bool := false
  slept : Bool := false
  error : Bool := false
  deriving DecidableEq

namespace GeneralStateFlags

def test (flags : GeneralStateFlags) : GeneralStateFlagBit → Bool
  | .timeSyncing => flags.timeSyncing
  | .activating => flags.activating
  | .activated => flags.activated
  | .starting => flags.starting
  | .stopping => flags.stopping
  | .started => flags.started
  | .sleeping => flags.sleeping
  | .wakingUp => flags.wakingUp
  | .slept => flags.slept
  | .error => flags.error

def set (flags : GeneralStateFlags) (bit : GeneralStateFlagBit) (value : Bool) : GeneralStateFlags :=
  match bit with
  | .timeSyncing => { flags with timeSyncing := value }
  | .activating => { flags with activating := value }
  | .activated => { flags with activated := value }
  | .starting => { flags with starting := value }
  | .stopping => { flags with stopping := value }
  | .started => { flags with started := value }
  | .sleeping => { flags with sleeping := value }
  | .wakingUp => { flags with wakingUp := value }
  | .slept => { flags with slept := value }
  | .error => { flags with error := value }

end GeneralStateFlags

def getGeneralActionTargetEvent : GeneralAction → GeneralEvent
  | .timeSync => .timeSynced
  | .activate => .activated
  | .start => .started
  | .stop => .stopped
  | .sleep => .slept
  | .wakeUp => .awake

def getGeneralActionFromTargetEvent : GeneralEvent → GeneralAction
  | .timeSynced => .timeSync
  | .activated => .activate
  | .started => .start
  | .stopped => .stop
  | .slept => .sleep
  | .awake => .wakeUp

def getGeneralActionStateFlagBit : GeneralAction → GeneralStateFlagBit
  | .timeSync => .timeSyncing
  | .activate => .activating
  | .start => .starting
  | .stop => .stopping
  | .sleep => .sleeping
  | .wakeUp => .wakingUp

def getGeneralEventStateFlagBit : GeneralEvent → GeneralStateFlagBit × Bool
  | .timeSynced => (.timeSyncing, true)
  | .activated => (.activated, true)
  | .started => (.started, true)
  | .stopped => (.activated, false)
  | .slept => (.slept, true)
  | .awake => (.slept, false)

/-- `StateMachine::get_general_event_target_state`; `none` for `Max`. -/
def getGeneralEventTargetState : GeneralEvent → Option GeneralState
  | .activated => some .activated
  | .started => some .started
  | .stopped => some .ready
  | .slept => some .slept
  | .awake => some .started
  | .timeSynced => none

namespace GeneralStateFlags

/-- The first action, in the order of the enumeration, whose bit is set. -/
def getRunningGeneralAction (flags : GeneralStateFlags) : Option GeneralAction :=
  [GeneralAction.timeSync, .activate, .start, .sleep, .wakeUp, .stop].find? fun action =>
    flags.test (getGeneralActionStateFlagBit action)

def isGeneralActionRunning (flags : GeneralStateFlags) (action : GeneralAction) : Bool :=
  flags.getRunningGeneralAction == some action

def isGeneralEventReady (flags : GeneralStateFlags) (event : GeneralEvent) : Bool :=
  if event = .stopped ∧ flags.isGeneralActionRunning .activate then
    false
  else
    flags.test (getGeneralEventStateFlagBit event).1 == (getGeneralEventStateFlagBit event).2

def isGeneralEventUnexpected (flags : GeneralStateFlags) (event : GeneralEvent) : Bool :=
  if flags.getRunningGeneralAction = some (getGeneralActionFromTargetEvent event) then
    false
  else
    match event with
    | .stopped => flags.isGeneralActionRunning .activate || flags.isGeneralEventReady .activated
    | .slept => flags.isGeneralActionRunning .wakeUp || flags.isGeneralEventReady .awake
    | _ => false

def updateGeneralActionStateBit (flags : GeneralStateFlags) (action : Option GeneralAction) (enable : Bool) :
    GeneralStateFlags :=
  match action with
  | none => flags
  | some action => flags.set (getGeneralActionStateFlagBit action) enable

def updateGeneralEventStateBit (flags : GeneralStateFlags) (event : GeneralEvent) (enable : Bool) :
    GeneralStateFlags :=
  let (bit, value) := getGeneralEventStateFlagBit event
  flags.set bit (if enable then value else !value)

/-- What `trigger_general_event` makes of the bits once the event is accepted. -/
def settle (flags : GeneralStateFlags) (event : GeneralEvent) : GeneralStateFlags :=
  let flags :=
    if event = .stopped then {}
    else flags.updateGeneralActionStateBit (some (getGeneralActionFromTargetEvent event)) false
  flags.updateGeneralEventStateBit event true

end GeneralStateFlags

/-- The agent together with what the state machine keeps of its current state: the callback of an unexpected
event forces the state machine from inside of `trigger_general_event`. The two tasks are named by the state
they were set up for. -/
structure Base where
  flags : GeneralStateFlags := {}
  isSuspended : Bool := false
  isManualListening : Bool := false
  currentState : GeneralState
  updateTask : Option GeneralState := none
  timeoutTask : Option GeneralState := none
  deriving DecidableEq

/-- An event that the agent reports, and whether the callback succeeds that is called if the event is unexpected. -/
structure Report where
  event : GeneralEvent
  ok : Bool
  deriving DecidableEq

/-- How the callback of an action ends, and what is reported until then. -/
structure Reply where
  ok : Bool
  reports : List Report
  deriving DecidableEq

namespace Base

def cancelCurrentTasks (base : Base) : Base :=
  { base with updateTask := none, timeoutTask := none }

def forceTransitionTo (base : Base) (target : GeneralState) : Base :=
  { base.cancelCurrentTasks with currentState := target }

/-- `do_activate`, `do_start`, `do_sleep`, `do_wakeup`, `do_stop`, with `report` for the events reported meanwhile. -/
def doCallback (report : Base → Report → Base) (base : Base) (action : GeneralAction) (reply : Reply) : Base × Bool :=
  match action with
  | .timeSync => (base, false)
  | .activate | .start => (reply.reports.foldl report base, reply.ok)
  | .sleep =>
    let base := reply.reports.foldl report base
    (if reply.ok then { base with isManualListening := false } else base, reply.ok)
  | .wakeUp => if base.isSuspended then (base, false) else (reply.reports.foldl report base, reply.ok)
  | .stop => ({ reply.reports.foldl report base with isManualListening := false, isSuspended := false }, true)

def doGeneralActionWith (report : Base → Report → Base) (base : Base) (action : GeneralAction) (isForce : Bool)
    (reply : Reply) : Base × Bool :=
  if base.flags.isGeneralActionRunning action then
    (base, true)
  else if !isForce && base.flags.isGeneralEventReady (getGeneralActionTargetEvent action) then
    (base, true)
  else
    let base := { base with flags := base.flags.updateGeneralActionStateBit (some action) true }
    let (base, result) := doCallback report base action reply
    if result then (base, true) else ({ base with flags := base.flags.set .error true }, false)

/-- The action that an unexpected event forces; while it is processed (`is_unexpected_event_processing_`) other
events are skipped. -/
def forceGeneralAction (base : Base) (action : GeneralAction) (ok : Bool) : Base :=
  (doGeneralActionWith (fun base _ => base) base action true { ok := ok, reports := [] }).1

/-- The callback of `Manager::on_init` for unexpected events. -/
def unexpectedGeneralEventHappened (base : Base) (event : GeneralEvent) : Base :=
  match getGeneralEventTargetState event with
  | none => base
  | some state => base.forceTransitionTo state

def triggerGeneralEvent (base : Base) (report : Report) : Base :=
  if base.flags.isGeneralEventReady report.event then
    base
  else if base.flags.isGeneralEventUnexpected report.event then
    let base := { base with flags := base.flags.updateGeneralActionStateBit base.flags.getRunningGeneralAction false }
    let base := base.forceGeneralAction (getGeneralActionFromTargetEvent report.event) report.ok
    unexpectedGeneralEventHappened { base with flags := base.flags.settle report.event } report.event
  else
    { base with flags := base.flags.settle report.event }

def doGeneralAction (base : Base) (action : GeneralAction) (reply : Reply) : Base × Bool :=
  doGeneralActionWith triggerGeneralEvent base action false reply

/-- `do_suspend`; `ok` says whether the agent stays suspended: if its callback fails it is resumed again, which
may fail as well. -/
def doSuspend (base : Base) (ok : Bool) : Base :=
  if base.isSuspended then base
  else if !base.flags.isGeneralEventReady .started || base.flags.isGeneralActionRunning .stop then base
  else { base with isSuspended := ok }

def doResume (base : Base) (ok : Bool) : Base :=
  if base.isSuspended && ok then { base with isSuspended := false } else base

def doManualStartListening (base : Base) (ok : Bool) : Base :=
  if base.isSuspended || base.isManualListening then base
  else if !base.flags.isGeneralEventReady .started || base.flags.isGeneralActionRunning .stop then base
  else if ok then { base with isManualListening := true } else base

def doManualStopListening (base : Base) (ok : Bool) : Base :=
  if base.isManualListening && ok then { base with isManualListening := false } else base

/-- Whether `function_manual_start_listening` calls `do_general_action(WakeUp)`. -/
def wakesUpFirst (base : Base) : Bool :=
  base.flags.isGeneralEventReady .slept || base.flags.isGeneralActionRunning .sleep

/-- `Manager::function_manual_start_listening` in the chat mode `Manual`. -/
def manualStartListening (base : Base) (reply : Reply) (ok : Bool) : Base :=
  if base.wakesUpFirst then
    let (base, result) := base.doGeneralAction .wakeUp reply
    if result then base.doManualStartListening ok else base
  else
    base.doManualStartListening ok

end Base

/-! ### An event, by its effects -/

namespace GeneralStateFlags

def force (flags : GeneralStateFlags) (action : GeneralAction) (ok : Bool) : GeneralStateFlags :=
  if flags.isGeneralActionRunning action then flags
  else
    let flags := flags.set (getGeneralActionStateFlagBit action) true
    if ok || action == .stop then flags else flags.set .error true

def afterEvent (flags : GeneralStateFlags) (report : Report) : GeneralStateFlags :=
  if flags.isGeneralEventReady report.event then flags
  else if flags.isGeneralEventUnexpected report.event then
    ((flags.updateGeneralActionStateBit flags.getRunningGeneralAction false).force
      (getGeneralActionFromTargetEvent report.event) report.ok).settle report.event
  else flags.settle report.event

def forcedState (flags : GeneralStateFlags) (event : GeneralEvent) : Option GeneralState :=
  if flags.isGeneralEventReady event then none
  else if flags.isGeneralEventUnexpected event then getGeneralEventTargetState event
  else none

theorem unexpected_cases {flags : GeneralStateFlags} {event : GeneralEvent}
    (h : flags.isGeneralEventUnexpected event = true) : event = .stopped ∨ event = .slept := by
  unfold isGeneralEventUnexpected at h
  split at h
  · cases h
  · cases event with
    | stopped => exact .inl rfl
    | slept => exact .inr rfl
    | _ => cases h

theorem forcedState_cases {flags : GeneralStateFlags} {event : GeneralEvent} {state : GeneralState}
    (h : flags.forcedState event = some state) :
    flags.isGeneralEventReady event = false ∧ flags.isGeneralEventUnexpected event = true ∧
      (event = .stopped ∧ state = .ready ∨ event = .slept ∧ state = .slept) := by
  unfold forcedState at h
  split at h
  · cases h
  next hrdy =>
    split at h
    next hunexpected =>
      refine ⟨eq_false_of_ne_true hrdy, hunexpected, ?_⟩
      rcases unexpected_cases hunexpected with rfl | rfl
      · exact .inl ⟨rfl, (Option.some.inj h).symm⟩
      · exact .inr ⟨rfl, (Option.some.inj h).symm⟩
    · cases h

end GeneralStateFlags

/-- What an event does to the state machine. -/
structure Base.Forced (base : Base) (state : Option GeneralState) (base' : Base) : Prop where
  currentState : base'.currentState = state.getD base.currentState
  updateTask : base'.updateTask = if state.isSome then none else base.updateTask
  timeoutTask : base'.timeoutTask = if state.isSome then none else base.timeoutTask

theorem forceGeneralAction_eq {base : Base} {event : GeneralEvent} {ok : Bool} (h : event = .stopped ∨ event = .slept) :
    ((base.forceGeneralAction (getGeneralActionFromTargetEvent event) ok).flags =
      base.flags.force (getGeneralActionFromTargetEvent event) ok) ∧
    base.Forced none (base.forceGeneralAction (getGeneralActionFromTargetEvent event) ok) := by
  unfold Base.forceGeneralAction Base.doGeneralActionWith GeneralStateFlags.force
  rcases h with rfl | rfl
  · split
    · exact ⟨rfl, rfl, rfl, rfl⟩
    · cases ok with
      | true => exact ⟨rfl, rfl, rfl, rfl⟩
      | false => exact ⟨rfl, rfl, rfl, rfl⟩
  · split
    · exact ⟨rfl, rfl, rfl, rfl⟩
    · cases ok with
      | true => exact ⟨rfl, rfl, rfl, rfl⟩
      | false => exact ⟨rfl, rfl, rfl, rfl⟩

theorem triggerGeneralEvent_eq (base : Base) (report : Report) :
    (base.triggerGeneralEvent report).flags = base.flags.afterEvent report ∧
      base.Forced (base.flags.forcedState report.event) (base.triggerGeneralEvent report) := by
  unfold Base.triggerGeneralEvent GeneralStateFlags.afterEvent GeneralStateFlags.forcedState
  split
  · exact ⟨rfl, rfl, rfl, rfl⟩
  split
  next hunexpected =>
    have hfor := @forceGeneralAction_eq { base with
      flags := base.flags.updateGeneralActionStateBit base.flags.getRunningGeneralAction false } _ report.ok
      (GeneralStateFlags.unexpected_cases hunexpected)
    rcases GeneralStateFlags.unexpected_cases hunexpected with he | he
    · rw [he] at hfor ⊢
      exact ⟨congrArg (GeneralStateFlags.settle · .stopped) hfor.1, rfl, rfl, rfl⟩
    · rw [he] at hfor ⊢
      exact ⟨congrArg (GeneralStateFlags.settle · .slept) hfor.1, rfl, rfl, rfl⟩
  · exact ⟨rfl, rfl, rfl, rfl⟩

/-! ### What else is kept -/

namespace Base

/-- The bits and the state machine are left alone. -/
structure SameMachine (base base' : Base) : Prop where
  flags : base'.flags = base.flags
  currentState : base'.currentState = base.currentState
  updateTask : base'.updateTask = base.updateTask
  timeoutTask : base'.timeoutTask = base.timeoutTask

variable (base : Base)

theorem doSuspend_same (ok : Bool) : base.SameMachine (base.doSuspend ok) := by
  unfold doSuspend
  split
  · exact ⟨rfl, rfl, rfl, rfl⟩
  split
  · exact ⟨rfl, rfl, rfl, rfl⟩
  · exact ⟨rfl, rfl, rfl, rfl⟩

theorem doResume_same (ok : Bool) : base.SameMachine (base.doResume ok) := by
  unfold doResume
  split
  · exact ⟨rfl, rfl, rfl, rfl⟩
  · exact ⟨rfl, rfl, rfl, rfl⟩

theorem doManualStartListening_same (ok : Bool) : base.SameMachine (base.doManualStartListening ok) := by
  unfold doManualStartListening
  split
  · exact ⟨rfl, rfl, rfl, rfl⟩
  split
  · exact ⟨rfl, rfl, rfl, rfl⟩
  split
  · exact ⟨rfl, rfl, rfl, rfl⟩
  · exact ⟨rfl, rfl, rfl, rfl⟩

theorem doManualStopListening_same (ok : Bool) : base.SameMachine (base.doManualStopListening ok) := by
  unfold doManualStopListening
  split
  · exact ⟨rfl, rfl, rfl, rfl⟩
  · exact ⟨rfl, rfl, rfl, rfl⟩

/-- No task is set up: the tasks stay or are cancelled. -/
structure KeepsTasks (base base' : Base) : Prop where
  updateTask : base'.updateTask = base.updateTask ∨ base'.updateTask = none
  timeoutTask : base'.timeoutTask = base.timeoutTask ∨ base'.timeoutTask = none

variable {base} {base' base'' : Base}

theorem SameMachine.keepsTasks (h : base.SameMachine base') : base.KeepsTasks base' :=
  ⟨.inl h.updateTask, .inl h.timeoutTask⟩

theorem KeepsTasks.trans (h : base.KeepsTasks base') (h' : base'.KeepsTasks base'') : base.KeepsTasks base'' := by
  refine ⟨?_, ?_⟩
  · rcases h'.updateTask with hu | hu
    · rw [hu]
      exact h.updateTask
    · exact .inr hu
  · rcases h'.timeoutTask with ht | ht
    · rw [ht]
      exact h.timeoutTask
    · exact .inr ht

theorem triggerGeneralEvent_keepsTasks (base : Base) (report : Report) :
    base.KeepsTasks (base.triggerGeneralEvent report) := by
  have h := (triggerGeneralEvent_eq base report).2
  refine ⟨?_, ?_⟩
  · rw [h.updateTask]
    split
    · exact .inr rfl
    · exact .inl rfl
  · rw [h.timeoutTask]
    split
    · exact .inr rfl
    · exact .inl rfl

theorem reports_keepsTasks (reports : List Report) (base : Base) :
    base.KeepsTasks (reports.foldl triggerGeneralEvent base) := by
  induction reports generalizing base with
  | nil => exact ⟨.inl rfl, .inl rfl⟩
  | cons report reports ih => exact (triggerGeneralEvent_keepsTasks base report).trans (ih _)

theorem doCallback_keepsTasks (base : Base) (action : GeneralAction) (reply : Reply) :
    base.KeepsTasks (doCallback triggerGeneralEvent base action reply).1 := by
  have h := reports_keepsTasks reply.reports base
  unfold doCallback
  cases action with
  | timeSync => exact ⟨.inl rfl, .inl rfl⟩
  | activate | start => exact h
  | sleep =>
    dsimp only
    split
    · exact ⟨h.updateTask, h.timeoutTask⟩
    · exact h
  | wakeUp =>
    dsimp only
    split
    · exact ⟨.inl rfl, .inl rfl⟩
    · exact h
  | stop => exact ⟨h.updateTask, h.timeoutTask⟩

theorem doGeneralAction_keepsTasks (base : Base) (action : GeneralAction) (reply : Reply) :
    base.KeepsTasks (base.doGeneralAction action reply).1 := by
  unfold doGeneralAction doGeneralActionWith
  split
  · exact ⟨.inl rfl, .inl rfl⟩
  split
  · exact ⟨.inl rfl, .inl rfl⟩
  · have h := doCallback_keepsTasks
      { base with flags := base.flags.updateGeneralActionStateBit (some action) true } action reply
    dsimp only
    split
    · exact ⟨h.updateTask, h.timeoutTask⟩
    · exact ⟨h.updateTask, h.timeoutTask⟩

theorem manualStartListening_keepsTasks (base : Base) (reply : Reply) (ok : Bool) :
    base.KeepsTasks (base.manualStartListening reply ok) := by
  unfold manualStartListening
  split
  · dsimp only
    split
    · exact (doGeneralAction_keepsTasks base .wakeUp reply).trans (doManualStartListening_same _ ok).keepsTasks
    · exact doGeneralAction_keepsTasks base .wakeUp reply
  · exact (doManualStartListening_same base ok).keepsTasks

end Base

end Brookesia.Agent
