import Brookesia.Audio.WakeTimer
import Brookesia.Transition.Machine

/-! # The audio encoder and its capture operations

`start_encoder` and `stop_encoder` are cut into the sections that other threads can come between (`EncoderCall`). A capture
operation makes them under its own mutex, so that it is in one call at a time (`OperationPhase`), and the functions of the
service make them on threads of their own. An event of the front end is published by `on_afe_event` and waits in `raised` for
the mutex of the timer.

`holds`, `gone` and `trespass` are for the statements: an operation that `try_reserve` has answered with true and that has not
given the lease back, one whose `close` or destructor has come to its end, and whether an operation has started or stopped the
encoder without the lease. -/

namespace Brookesia.Audio

open Transition

/-- `AudioAFE_Event`. -/
inductive AfeEvent
  | vadStart | vadEnd | wakeStart | wakeEnd | max
deriving DecidableEq

/-- `AudioCaptureOperationLease`. -/
structure AudioCaptureOperationLease where
  owner : Option ℕ := none
  stopping : Bool := false
deriving DecidableEq

namespace AudioCaptureOperationLease

/-- `try_reserve`: the lease after it, or that it was refused. -/
def tryReserve (l : AudioCaptureOperationLease) (operation : ℕ) : Option AudioCaptureOperationLease :=
  if l.owner ≠ none ∧ l.owner ≠ some operation then none
  else if l.stopping then none
  else some { l with owner := some operation }

def beginStop (l : AudioCaptureOperationLease) (operation : ℕ) : Option AudioCaptureOperationLease :=
  if l.owner ≠ some operation ∨ l.stopping then none else some { l with stopping := true }

def finishStop (l : AudioCaptureOperationLease) (operation : ℕ) : AudioCaptureOperationLease :=
  if l.owner ≠ some operation then l else { owner := none, stopping := false }

def release (l : AudioCaptureOperationLease) (operation : ℕ) : AudioCaptureOperationLease :=
  if l.owner ≠ some operation then l else { owner := none, stopping := false }

end AudioCaptureOperationLease

/-- The next section of a call of `start_encoder` or `stop_encoder`. -/
inductive EncoderCall
  | check (config : EncoderConfig)
  | reset (config : EncoderConfig)
  | openIface
  | postFetch
  | abort
  | cancel
  | closeIface
deriving DecidableEq

/-- Where an operation is in the call that holds its mutex. -/
inductive OperationPhase
  | idle
  | reserving (config : Option EncoderConfig)
  | reserved (config : EncoderConfig)
  | starting (call : EncoderCall)
  | releasing
  | begun
  | stopping (call : EncoderCall)
  | finishing
deriving DecidableEq

/-- `AudioCaptureDataFlowOperation`. Before it is made, and after it is destroyed, it is closed and gone. -/
structure CaptureOperation where
  available : Bool := false
  closed : Bool := true
  startedByOperation : Bool := false
  phase : OperationPhase := .idle
  holds : Bool := false
  gone : Bool := true
deriving DecidableEq

structure AudioEncoder where
  iface : Bool := false
  started : Bool := false
  config : EncoderConfig := {}
  timer : WakeTimer := {}
  raised : List (AfeEvent × ℕ) := []
  lease : AudioCaptureOperationLease := {}
  operation : ℕ → CaptureOperation := fun _ => {}
  service : ℕ → Option EncoderCall := fun _ => none
  trespass : Bool := false

namespace AudioEncoder

/-- `encoder_iface_ && encoder_iface_->is_started()`. -/
def isStarted (s : AudioEncoder) : Bool := s.iface && s.started

/-- A section of `start_encoder` or `stop_encoder`, and then the next one or what the call returns. `ok` is the answer of the
HAL, or of the scheduler. -/
def encoderSection (s : AudioEncoder) (call : EncoderCall) (ok : Bool) : AudioEncoder × (EncoderCall ⊕ Bool) :=
  match call with
  | .check config =>
    if !s.iface then (s, .inr false)
    else if s.started then (s, .inr true)
    else (s, .inl (.reset config))
  | .reset config => ({ s with config := config, timer := s.timer.reset }, .inl .openIface)
  | .openIface => if ok then ({ s with started := true }, .inl .postFetch) else (s, .inr false)
  | .postFetch => if ok then (s, .inr true) else (s, .inl .abort)
  | .abort => ({ s with started := false, timer := s.timer.endDue }, .inr false)
  | .cancel => ({ s with timer := s.timer.cancelWakeEnd }, .inl .closeIface)
  | .closeIface =>
    if s.isStarted then ({ s with started := false, timer := s.timer.endDue }, .inr true) else (s, .inr true)

def setOperation (s : AudioEncoder) (i : ℕ) (operation : CaptureOperation) : AudioEncoder :=
  { s with operation := Function.update s.operation i operation }

/-- The operation `i` acts on the encoder. -/
def act (s : AudioEncoder) (i : ℕ) (call : EncoderCall) (ok : Bool) : AudioEncoder × (EncoderCall ⊕ Bool) :=
  ({ s with trespass := s.trespass || decide (s.lease.owner ≠ some i) } : AudioEncoder).encoderSection call ok

/-- `make_shared<AudioCaptureDataFlowOperation>`, at an address where no operation is. -/
def construct (s : AudioEncoder) (i : ℕ) : AudioEncoder :=
  s.setOperation i { available := true, closed := false, gone := false }

def setState (s : AudioEncoder) (i : ℕ) (available : Bool) : AudioEncoder :=
  if (s.operation i).closed then s else s.setOperation i { s.operation i with available := available }

/-- The part of `close` before `on_close`. -/
def close (s : AudioEncoder) (i : ℕ) : AudioEncoder :=
  s.setOperation i { s.operation i with closed := true, available := false }

/-- `reserve` and `start`, up to the answer of `is_available`. -/
def call (s : AudioEncoder) (i : ℕ) (config : Option EncoderConfig) : AudioEncoder :=
  if (s.operation i).available then s.setOperation i { s.operation i with phase := .reserving config } else s

/-- `stop`, up to the answer of `begin_stop`. -/
def stop (s : AudioEncoder) (i : ℕ) : AudioEncoder :=
  match s.lease.beginStop i with
  | none => s.setOperation i { s.operation i with gone := (s.operation i).closed }
  | some lease => { s with lease := lease }.setOperation i { s.operation i with phase := .begun }

/-- `try_reserve` of `reserve_locked`. -/
def tryReserve (s : AudioEncoder) (i : ℕ) (config : Option EncoderConfig) : AudioEncoder :=
  match s.lease.tryReserve i with
  | none => s.setOperation i { s.operation i with phase := .idle }
  | some lease =>
    { s with lease := lease }.setOperation i
      { s.operation i with holds := true, phase := config.elim .idle .reserved }

/-- What `start` does next, after a section of `start_encoder`. -/
def afterStart (operation : CaptureOperation) : EncoderCall ⊕ Bool → CaptureOperation
  | .inl call => { operation with phase := .starting call }
  | .inr true => { operation with phase := .idle, startedByOperation := true }
  | .inr false => { operation with phase := .releasing }

/-- What `stop` does next, after a section of `stop_encoder`. -/
def afterStop (operation : CaptureOperation) : EncoderCall ⊕ Bool → CaptureOperation
  | .inl call => { operation with phase := .stopping call }
  | .inr _ => { operation with phase := .finishing }

/-- The next section of the call that the operation `i` is in. -/
def advance (s : AudioEncoder) (i : ℕ) (ok : Bool) : AudioEncoder :=
  let operation := s.operation i
  match operation.phase with
  | .idle => s
  | .reserving config => s.tryReserve i config
  | .reserved config =>
    s.setOperation i { operation with phase := if s.isStarted then .idle else .starting (.check config) }
  | .starting call => (s.act i call ok).1.setOperation i (afterStart operation (s.act i call ok).2)
  | .releasing =>
    { s with lease := s.lease.release i }.setOperation i { operation with phase := .idle, holds := false }
  | .begun =>
    s.setOperation i { operation with phase := if operation.startedByOperation then .stopping .cancel else .finishing }
  | .stopping call => (s.act i call ok).1.setOperation i (afterStop operation (s.act i call ok).2)
  | .finishing =>
    { s with lease := s.lease.finishStop i }.setOperation i
      { operation with phase := .idle, startedByOperation := false, holds := false, gone := operation.closed }

/-- The next section of the call that a thread of the service is in. -/
def serve (s : AudioEncoder) (thread : ℕ) (call : EncoderCall) (ok : Bool) : AudioEncoder :=
  { (s.encoderSection call ok).1 with
    service := Function.update s.service thread ((s.encoderSection call ok).2.elim some fun _ => none) }

/-- `on_afe_event`, up to its `switch`. -/
def onAfeEvent (s : AudioEncoder) (event : AfeEvent) : AudioEncoder :=
  match event with
  | .wakeStart => { s with raised := s.raised ++ [(event, s.config.afeWakeStartTimeoutMs)] }
  | .vadEnd => { s with raised := s.raised ++ [(event, s.config.afeWakeEndTimeoutMs)] }
  | .vadStart => { s with raised := s.raised ++ [(event, 0)] }
  | .wakeEnd | .max => s

/-- The `switch` of `on_afe_event`. -/
def handle (s : AudioEncoder) (event : AfeEvent) (timeoutMs : ℕ) (posting : Posting) (nowMs : ℤ) : WakeTimer :=
  match event with
  | .wakeStart | .vadEnd => s.timer.scheduleWakeEnd s.config.enableAfe timeoutMs posting nowMs
  | .vadStart => s.timer.cancelWakeEnd
  | .wakeEnd | .max => s.timer

/-- The threads of the encoder and what they are told. -/
inductive Label
  | attach (iface : Bool)
  | construct (i : ℕ)
  | setState (i : ℕ) (available : Bool)
  | close (i : ℕ)
  | reserve (i : ℕ)
  | start (i : ℕ) (config : EncoderConfig)
  | stop (i : ℕ)
  | advance (i : ℕ) (ok : Bool)
  | functionStart (thread : ℕ) (config : EncoderConfig)
  | functionStop (thread : ℕ)
  | serve (thread : ℕ) (ok : Bool)
  | afe (event : AfeEvent)
  | handle (posting : Posting) (nowMs : ℤ)
  | pauseWakeEnd (nowMs : ℤ)
  | resumeWakeEnd (posting : Posting) (nowMs : ℤ)
  | expire (task : DelayedTask)
  | timeout (task : DelayedTask)
  | publish (arming : ℕ)

/-- A call of an operation waits for the mutex, so it begins when the call before it has ended. -/
def step (s : AudioEncoder) : Label → Option AudioEncoder
  | .attach iface => some { s with iface := iface }
  | .construct i =>
    if (s.operation i).gone = true ∧ (s.operation i).phase = .idle then some (s.construct i) else none
  | .setState i available => some (s.setState i available)
  | .close i => some (s.close i)
  | .reserve i => if (s.operation i).phase = .idle then some (s.call i none) else none
  | .start i config => if (s.operation i).phase = .idle then some (s.call i (some config)) else none
  | .stop i => if (s.operation i).phase = .idle then some (s.stop i) else none
  | .advance i ok => some (s.advance i ok)
  | .functionStart thread config =>
    if s.service thread = none then some { s with service := Function.update s.service thread (some (.check config)) }
    else none
  | .functionStop thread =>
    if s.service thread = none then some { s with service := Function.update s.service thread (some .cancel) } else none
  | .serve thread ok => (s.service thread).map fun call => s.serve thread call ok
  | .afe event => some (s.onAfeEvent event)
  | .handle posting nowMs =>
    match s.raised with
    | [] => none
    | (event, timeoutMs) :: rest => some { s with raised := rest, timer := s.handle event timeoutMs posting nowMs }
  | .pauseWakeEnd nowMs => some { s with timer := s.timer.pauseWakeEnd nowMs }
  | .resumeWakeEnd posting nowMs => some { s with timer := s.timer.resumeWakeEnd posting nowMs }
  | .expire task =>
    if task ∈ s.timer.tasks ∧ task.running = false then some { s with timer := s.timer.expire task } else none
  | .timeout task =>
    if task ∈ s.timer.tasks ∧ task.running = true then some { s with timer := s.timer.onWakeEndTimeout task } else none
  | .publish arming =>
    if arming ∈ s.timer.publishing then some { s with timer := s.timer.publishWakeEnd arming } else none

end AudioEncoder

def encoderMachine : Machine AudioEncoder AudioEncoder.Label where
  init s := s = {}
  step := AudioEncoder.step

end Brookesia.Audio
