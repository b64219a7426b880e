import Brookesia.Filesystem.Path
import Brookesia.Transition.Machine

/-! # The binding updates of an app, step by step

`gui_set_binding_value(s)`, `gui_execute_batch`, `flush_pending_gui_bindings` and the two GUI task groups,
for one app whose document is loaded. A step is one section under `gui_binding_mutex_`, one post, or one
change of the bindings of the document.

* Both GUI groups run a task under `gui_runtime_mutex_`, so one task runs at a time; the app and the
  posts go on meanwhile.
* The app makes its calls one after the other, outside the GUI groups. A batch is waited for.
* A flush that finds new updates posts the next flush from a GUI task, which runs it at once.
* `shown` is what was applied last, `called` what the app has last asked for. -/

namespace Brookesia.SystemCore.GuiBindings

open Filesystem.Path (Bytes)
open Transition

/-- `BindingValueUpdate`. -/
structure Update where
  absolutePath : Bytes
  key : Bytes
  value : Bytes
  deriving DecidableEq

def Update.target (u : Update) : Bytes × Bytes := (u.absolutePath, u.key)

def makeBindingUpdateKey (absolutePath key : Bytes) : Bytes := absolutePath ++ 0x1f :: key

def Update.updateKey (u : Update) : Bytes := makeBindingUpdateKey u.absolutePath u.key

/-- `PendingBindingBuffer`. Its `indexes` say where the update of an update key is. -/
structure PendingBindingBuffer where
  updates : List Update
  flushPosted : Bool
  deriving DecidableEq

/-- One round of the loop in `enqueue_gui_binding_updates`. -/
def put (updates : List Update) (u : Update) : List Update :=
  if updates.any (·.updateKey = u.updateKey) then
    updates.map fun old => if old.updateKey = u.updateKey then u else old
  else updates ++ [u]

/-- A command of a batch, with its success where it may fail. -/
inductive Command
  | setBindings (updates : List Update)
  /-- `ScrollTo` and `ScrollToView`, which flush first. -/
  | scroll (success : Bool)
  | other (success : Bool)
  deriving DecidableEq

inductive GuiTask
  | flush
  | batch (commands : List Command)
  | operation (flushes : Bool)
  deriving DecidableEq

inductive Group
  | gui
  | guiInput
  deriving DecidableEq

/-- Where a flush is. -/
inductive FlushPoint
  | start
  | moved (updates : List Update)
  | applied
  deriving DecidableEq

/-- Where the task is that runs: in a flush, or before the commands that it has left. -/
inductive TaskPoint
  | flushing (point : FlushPoint) (commands : List Command)
  | executing (commands : List Command)
  deriving DecidableEq

inductive AppPoint
  | idle
  | posting
  | waiting
  deriving DecidableEq

structure State where
  /-- `pending_gui_bindings_` of the app. -/
  pending : Option PendingBindingBuffer := none
  app : AppPoint := .idle
  guiQueue : List GuiTask := []
  guiInputQueue : List GuiTask := []
  running : Option (GuiTask × TaskPoint) := none
  shown : Bytes × Bytes → Option Bytes := fun _ => none
  called : Bytes × Bytes → Option Bytes := fun _ => none

def assign (values : Bytes × Bytes → Option Bytes) (updates : List Update) : Bytes × Bytes → Option Bytes :=
  updates.foldl (fun values u => Function.update values u.target (some u.value)) values

namespace State

/-- `buffer.updates`, for the empty buffer that an enqueue makes too. -/
def updates (s : State) : List Update := (s.pending.map (·.updates)).getD []

def flushPosted (s : State) : Bool := (s.pending.map (·.flushPosted)).getD false

/-! #### The app -/

/-- The section of `enqueue_gui_binding_updates`. -/
def enqueue (s : State) (updates : List Update) : State :=
  { s with
    pending := some ⟨updates.foldl put s.updates, true⟩
    app := if s.flushPosted then .idle else .posting
    called := assign s.called updates }

/-- The post of the flush, and the section after a failed one. -/
def post (s : State) (posted : Bool) : State :=
  if posted then { s with app := .idle, guiQueue := s.guiQueue ++ [.flush] }
  else { s with app := .idle, pending := s.pending.map ({ · with flushPosted := false }) }

def executeBatch (s : State) (commands : List Command) : State :=
  { s with app := .waiting, guiInputQueue := s.guiInputQueue ++ [.batch commands] }

/-! #### The GUI groups -/

def queue (s : State) : Group → List GuiTask
  | .gui => s.guiQueue
  | .guiInput => s.guiInputQueue

def setQueue (s : State) (tasks : List GuiTask) : Group → State
  | .gui => { s with guiQueue := tasks }
  | .guiInput => { s with guiInputQueue := tasks }

def startPoint : GuiTask → TaskPoint
  | .flush => .flushing .start []
  | .batch commands => .executing commands
  | .operation flushes => if flushes then .flushing .start [] else .executing []

/-- The first section of `flush_pending_gui_bindings`. -/
def moveUpdates (s : State) (task : GuiTask) (commands : List Command) : State :=
  match s.pending with
  | none => { s with running := some (task, .executing commands) }
  | some buffer =>
    { s with
      pending := some { buffer with updates := [] }
      running := some (task, .flushing (.moved buffer.updates) commands) }

def checkUpdates (s : State) (task : GuiTask) (commands : List Command) : State :=
  match s.pending with
  | none => { s with running := some (task, .executing commands) }
  | some buffer =>
    if buffer.updates = [] then { s with pending := none, running := some (task, .executing commands) }
    else { s with running := some (task, .flushing .start commands) }

/-- `SetBindings` of a batch. The app waits, so this is its last call. -/
def setBindings (s : State) (task : GuiTask) (updates : List Update) (commands : List Command) : State :=
  { s with
    shown := assign s.shown updates
    called := assign s.called updates
    running := some (task, .executing commands) }

def endTask (s : State) (task : GuiTask) : State :=
  match task with
  | .batch _ => { s with running := none, app := .idle }
  | _ => { s with running := none }

def proceed (s : State) (task : GuiTask) : TaskPoint → State
  | .flushing .start commands => s.moveUpdates task commands
  | .flushing (.moved updates) commands =>
    { s with shown := assign s.shown updates, running := some (task, .flushing .applied commands) }
  | .flushing .applied commands => s.checkUpdates task commands
  | .executing [] => s.endTask task
  | .executing (.setBindings updates :: commands) => s.setBindings task updates commands
  | .executing (.scroll success :: commands) =>
    { s with running := some (task, .flushing .start (if success then commands else [])) }
  | .executing (.other success :: commands) =>
    { s with running := some (task, .executing (if success then commands else [])) }

end State

/-! ### Steps -/

inductive Action
  | enqueue (updates : List Update)
  | post (posted : Bool)
  | executeBatch (commands : List Command)
  | operation (group : Group) (flushes : Bool)
  | beginTask (group : Group)
  | proceed
  deriving DecidableEq

def step (s : State) : Action → Option State
  | .enqueue updates => if s.app = .idle ∧ updates ≠ [] then some (s.enqueue updates) else none
  | .post posted => if s.app = .posting then some (s.post posted) else none
  | .executeBatch commands => if s.app = .idle then some (s.executeBatch commands) else none
  | .operation group flushes => some (s.setQueue (s.queue group ++ [.operation flushes]) group)
  | .beginTask group =>
    match s.queue group, s.running with
    | task :: tasks, none =>
      some { s.setQueue tasks group with running := some (task, State.startPoint task) }
    | _, _ => none
  | .proceed =>
    match s.running with
    | some (task, point) => some (s.proceed task point)
    | none => none

def guiBindings : Machine State Action where
  init s := s = {}
  step := step

end Brookesia.SystemCore.GuiBindings
