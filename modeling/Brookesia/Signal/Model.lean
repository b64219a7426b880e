import Brookesia.Transition.Machine

/-! # Signals

`signal`, `connection` and `scoped_connection` of `signal.hpp`, for any number of threads. A label is
one thing a thread does that the others can see: a load or store of a slot's flag, a section under
`mutex_` (the loops of `prune` and `disconnect_all_slots` go one slot a step while they hold it), the
beginning and the end of a slot. Inside a slot its thread may do anything again. Slots return
normally, and every other step may come at any time. `history`, the numbers of the emissions and what
they have called are not in the source. -/

namespace Brookesia.Signal

open Transition

abbrev Thread := Nat

/-- The slots of a signal in the order in which they were connected. -/
abbrev Slot := Nat

/-- Where an emission is. -/
inductive Phase
  /-- Before the test of the first slot of `rest`. -/
  | testing
  /-- It has found `slot` connected. -/
  | starting (slot : Slot)
  | running (slot : Slot)
  /-- In `prune`, before the slot at `index`. -/
  | pruning (index : Nat)
  deriving DecidableEq

/-- An emission (`operator()`). -/
structure Emission where
  id : Nat
  began : Slot
  rest : List Slot
  stale : Bool := false
  called : List Slot := []
  phase : Phase := .testing
  deriving DecidableEq

inductive Activity
  | emission (emission : Emission)
  /-- In `disconnect_all_slots`, before the slot at `index`. -/
  | clearing (index : Nat)
  deriving DecidableEq

/-- The slot whose function the activity is in, or will be in without another test. -/
def Activity.inside (slot : Slot) : Activity → Bool
  | .emission e => e.phase == .starting slot || e.phase == .running slot
  | .clearing _ => false

def Activity.isRunning : Activity → Bool
  | .emission e => match e.phase with
    | .running _ => true
    | _ => false
  | .clearing _ => false

/-- The activity holds `mutex_`. -/
def Activity.locks : Activity → Bool
  | .emission e => match e.phase with
    | .pruning _ => true
    | _ => false
  | .clearing _ => true

inductive Event
  /-- An emission that began with the slots below `began` has returned. -/
  | emitted (began : Slot) (called : List Slot)
  deriving DecidableEq

structure State where
  slots : List Slot
  connected : Slot → Bool
  nextSlot : Slot
  mutex : Option Thread
  /-- `scoped_connection` objects. -/
  scopedConnections : Nat → Option Slot
  activities : Thread → List Activity
  nextEmission : Nat
  history : List Event

def init : State where
  slots := []
  connected := fun _ => false
  nextSlot := 0
  mutex := none
  scopedConnections := fun _ => none
  activities := fun _ => []
  nextEmission := 0
  history := []

variable (s : State)

/-- The thread is in no operation of the signal, or in a slot. -/
def free (t : Thread) : Bool :=
  match s.activities t with
  | [] => true
  | activity :: _ => activity.isRunning

/-- The thread's innermost activity becomes `activities`. -/
def replaceTop (t : Thread) (activities : List Activity) : State :=
  { s with activities := Function.update s.activities t (activities ++ (s.activities t).tail) }

def connect : State :=
  { s with
    slots := s.slots ++ [s.nextSlot]
    connected := Function.update s.connected s.nextSlot true
    nextSlot := s.nextSlot + 1 }

def disconnect (slot : Slot) : State :=
  { s with connected := Function.update s.connected slot false }

/-- `scoped_connection::disconnect`. -/
def disconnectScoped (object : Nat) : State :=
  match s.scopedConnections object with
  | none => s
  | some slot => disconnect s slot

def setScoped (object : Nat) (slot : Option Slot) : State :=
  { s with scopedConnections := Function.update s.scopedConnections object slot }

/-- `scoped_connection::operator=(const connection &)`. -/
def assign (object : Nat) (slot : Slot) : State :=
  setScoped (disconnectScoped s object) object (some slot)

/-- `scoped_connection::operator=(scoped_connection &&)`. -/
def moveAssign (object source : Nat) : State :=
  if object = source then s
  else setScoped (setScoped (disconnectScoped s object) object (s.scopedConnections source)) source none

/-- `~scoped_connection()`. -/
def destroy (object : Nat) : State :=
  setScoped (disconnectScoped s object) object none

def release (object : Nat) : State :=
  setScoped s object none

/-- `disconnect_all_slots` takes the lock. -/
def disconnectAllSlots (t : Thread) : State :=
  { s with
    mutex := some t
    activities := Function.update s.activities t (.clearing 0 :: s.activities t) }

/-- `operator()` takes its snapshot. -/
def emit (t : Thread) : State :=
  { s with
    activities := Function.update s.activities t
      (.emission { id := s.nextEmission, began := s.nextSlot, rest := s.slots } :: s.activities t)
    nextEmission := s.nextEmission + 1 }

/-- `operator()` returns. -/
def returnEmission (t : Thread) (e : Emission) : State :=
  replaceTop { s with history := .emitted e.began e.called :: s.history } t []

/-- The next step of an emission of `t`. -/
def advanceEmission (t : Thread) (e : Emission) : Option State :=
  match e.phase with
  | .testing =>
    match e.rest with
    | slot :: rest =>
      if s.connected slot then
        some (replaceTop s t [.emission { e with rest := rest, phase := .starting slot }])
      else some (replaceTop s t [.emission { e with rest := rest, stale := true }])
    | [] =>
      if e.stale then
        if s.mutex = none then
          some (replaceTop { s with mutex := some t } t [.emission { e with phase := .pruning 0 }])
        else none
      else some (returnEmission s t e)
  | .starting slot =>
    some (replaceTop s t [.emission { e with called := e.called ++ [slot], phase := .running slot }])
  | .running _ => some (replaceTop s t [.emission { e with phase := .testing }])
  | .pruning index =>
    match s.slots[index]? with
    | some slot =>
      if s.connected slot then some (replaceTop s t [.emission { e with phase := .pruning (index + 1) }])
      else some { s with slots := s.slots.eraseIdx index }
    | none => some (returnEmission { s with mutex := none } t e)

/-- The next step of `disconnect_all_slots` of `t`. -/
def advanceClearing (t : Thread) (index : Nat) : State :=
  match s.slots[index]? with
  | some slot => replaceTop (disconnect s slot) t [.clearing (index + 1)]
  | none => replaceTop { s with slots := [], mutex := none } t []

inductive Label
  | connect (t : Thread)
  | disconnect (t : Thread) (slot : Slot)
  | assign (t : Thread) (object : Nat) (slot : Slot)
  | moveAssign (t : Thread) (object source : Nat)
  | destroy (t : Thread) (object : Nat)
  | release (t : Thread) (object : Nat)
  | disconnectAllSlots (t : Thread)
  | emit (t : Thread)
  | advance (t : Thread)
  deriving DecidableEq

def step : Label → Option State
  | .connect t => if free s t ∧ s.mutex = none then some (connect s) else none
  | .disconnect t slot => if free s t ∧ slot < s.nextSlot then some (disconnect s slot) else none
  | .assign t object slot => if free s t ∧ slot < s.nextSlot then some (assign s object slot) else none
  | .moveAssign t object source => if free s t then some (moveAssign s object source) else none
  | .destroy t object => if free s t then some (destroy s object) else none
  | .release t object => if free s t then some (release s object) else none
  | .disconnectAllSlots t => if free s t ∧ s.mutex = none then some (disconnectAllSlots s t) else none
  | .emit t => if free s t ∧ s.mutex = none then some (emit s t) else none
  | .advance t =>
    match s.activities t with
    | [] => none
    | .emission e :: _ => advanceEmission s t e
    | .clearing index :: _ => some (advanceClearing s t index)

def machine : Machine State Label where
  init s := s = init
  step := step

end Brookesia.Signal
