import Brookesia.DisplayService.Sections
import Brookesia.Transition.Machine
import Brookesia.Transition.Outbox

/-! # A data-flow operation on the display

`DisplayVisualOperation` with its calls under way, and others that unregister outputs. The operation has a mutex of its
own: what a call does to `requested_outputs_` comes after its section in the display, at any time (`Update`). The state
of the operation has a third one (`set_state`). The frames' tasks are left out: they only take frames away. -/

namespace Brookesia.DisplayService.Operation

open Transition

/-- What is due to `requested_outputs_` after a section in the display. -/
inductive Update
  | insert (name : String)
  | erase (name : String)
  | handleOutputUnregistered (name : String)
  deriving DecidableEq

/-- A call under way, by what it does next. The operation's own calls have their route; `releaseAll` is the loop of
`on_close`, over what is left of the names. -/
inductive Call
  | requestOutput (name : String)
  | releaseOutput (name : String)
  | setActiveSource (name : String)
  | presentFrameAsync (name : String) (valid posts : Bool)
  | setUnavailable
  | onClose
  | releaseAll (names : Finset String)
  deriving DecidableEq

/-- `unregistered`: an output that the source had requested has been unregistered. -/
structure State where
  display : Display
  sourceId : SourceId
  sourceName : String
  requestedOutputs : Finset String := ∅
  closed : Bool := false
  unavailable : Bool := false
  calls : List Call := []
  updates : List (List Update) := []
  unregistered : Bool := false

def requestedBy (d : Display) (id : SourceId) : Option (Finset String) :=
  (d.source? id).map SourceContext.requestedOutputs

namespace State

variable (s : State)

/-- `get_route`: the display is there until the operation is closed. -/
def hasRoute : Bool :=
  !s.closed && !s.unavailable

def start (call : Call) : State :=
  if s.hasRoute then { s with calls := s.calls ++ [call] } else s

/-- The section of `request_output` or `release_output`, and its update where it returns no error. -/
def pass (outcome : Display × List Work) (name : String) (update : Update) : State :=
  { s with
    display := outcome.1
    updates := if (s.display.source? s.sourceId).isSome ∧ (s.display.findOutput name).isSome then s.updates ++ [[update]]
      else s.updates }

/-- What a call does next; nothing where it waits for its loop. -/
def advance (k : ℕ) : Option State :=
  match s.calls[k]? with
  | some (.requestOutput name) =>
    some ({ s with calls := s.calls.eraseIdx k }.pass (s.display.requestOutput s.sourceId name) name (.insert name))
  | some (.releaseOutput name) =>
    some ({ s with calls := s.calls.eraseIdx k }.pass (s.display.releaseOutput s.sourceId name) name (.erase name))
  | some (.setActiveSource name) =>
    some { s with calls := s.calls.eraseIdx k, display := (s.display.setActiveSource name s.sourceName).1 }
  | some (.presentFrameAsync name valid posts) =>
    some { s with
      calls := s.calls.eraseIdx k
      display := (s.display.presentFrameAsync s.sourceId name valid posts).display }
  | some .setUnavailable => some { s with calls := s.calls.eraseIdx k, unavailable := s.unavailable || !s.closed }
  | some .onClose =>
    some { s with calls := s.calls.set k (.releaseAll s.requestedOutputs), requestedOutputs := ∅ }
  | some (.releaseAll names) =>
    if names = ∅ then some { s with calls := s.calls.eraseIdx k, display := (s.display.unregisterSource s.sourceId).1 }
    else none
  | none => none

/-- The loop of `on_close` goes through the names in some order. -/
def releaseNext (k : ℕ) (name : String) : Option State :=
  match s.calls[k]? with
  | some (.releaseAll names) =>
    if name ∈ names then
      some { s with
        calls := s.calls.set k (.releaseAll (names.erase name))
        display := (s.display.releaseOutput s.sourceId name).1 }
    else none
  | _ => none

/-- An output is unregistered by others; the operation is connected to the event. -/
def unregisterOutput (id : OutputId) : State :=
  match s.display.output? id with
  | none => s
  | some output =>
    if output.dynamicOutput then
      { s with
        display := (s.display.unregisterOutput id).1
        updates := s.updates ++ [[.handleOutputUnregistered output.name]]
        unregistered := s.unregistered || decide (∃ names ∈ requestedBy s.display s.sourceId, output.name ∈ names) }
    else s

def update : Update → State
  | .insert name => { s with requestedOutputs := insert name s.requestedOutputs }
  | .erase name => { s with requestedOutputs := s.requestedOutputs.erase name }
  | .handleOutputUnregistered name =>
    { s with
      requestedOutputs := s.requestedOutputs.erase name
      calls := if name ∈ s.requestedOutputs then s.calls ++ [.setUnavailable] else s.calls }

end State

inductive Label
  | requestOutput (name : String)
  | releaseOutput (name : String)
  | setActiveSource (name : String)
  | presentFrameAsync (name : String) (valid posts : Bool)
  | close
  | unregisterOutput (id : OutputId)
  | advance (k : ℕ)
  | releaseNext (k : ℕ) (name : String)
  | deliver (k : ℕ)
  deriving DecidableEq

def step (s : State) : Label → Option State
  | .requestOutput name => some (s.start (.requestOutput name))
  | .releaseOutput name => some (s.start (.releaseOutput name))
  | .setActiveSource name => some (s.start (.setActiveSource name))
  | .presentFrameAsync name valid posts => some (s.start (.presentFrameAsync name valid posts))
  | .close => if s.closed then some s else some { s with closed := true, calls := s.calls ++ [.onClose] }
  | .unregisterOutput id => some (s.unregisterOutput id)
  | .advance k => s.advance k
  | .releaseNext k name => s.releaseNext k name
  | .deliver k => (takeHead s.updates k).map fun (update, updates) => { s with updates := updates }.update update

/-- The operation has been opened: its source is registered and has requested nothing. -/
structure State.Opened (s : State) : Prop where
  wellFormed : s.display.WellFormed
  source : ∃ source ∈ s.display.sources, source.id = s.sourceId ∧ source.requestedOutputs = ∅
  fresh : s = { display := s.display, sourceId := s.sourceId, sourceName := s.sourceName }

def machine : Machine State Label where
  init := State.Opened
  step := step

/-! ### The property and its condition -/

/-- No source, no active source and no pending frame of this id. -/
structure Absent (d : Display) (id : SourceId) : Prop where
  source : ∀ source ∈ d.sources, source.id ≠ id
  active : ∀ output ∈ d.outputs, output.activeSourceId ≠ id
  pending : ∀ output ∈ d.outputs, ∀ frame ∈ output.pendingFrame, frame.sourceId ≠ id

def State.Mirrors (s : State) : Prop :=
  s.calls = [] → (∀ updates ∈ s.updates, updates = []) →
    (s.closed = false → requestedBy s.display s.sourceId = some s.requestedOutputs ∧ s.unavailable = s.unregistered) ∧
    (s.closed = true → Absent s.display s.sourceId)

def Update.name : Update → String
  | .insert name => name
  | .erase name => name
  | .handleOutputUnregistered name => name

/-- The name is the output's own, not the empty one; and a source is made active on an output that it has requested. -/
def Call.Matches (s : State) : Call → Prop
  | .requestOutput name => ∀ output ∈ (s.display.findOutput name).toList, output.name = name
  | .releaseOutput name => ∀ output ∈ (s.display.findOutput name).toList, output.name = name
  | .setActiveSource name => ∀ output ∈ (s.display.findOutput name).toList,
    ∀ names ∈ (requestedBy s.display s.sourceId).toList, output.name ∈ names
  | _ => True

instance (s : State) (call : Call) : Decidable (call.Matches s) :=
  match call with
  | .requestOutput _ => inferInstanceAs (Decidable (∀ _ ∈ _, _))
  | .releaseOutput _ => inferInstanceAs (Decidable (∀ _ ∈ _, _))
  | .setActiveSource _ => inferInstanceAs (Decidable (∀ _ ∈ _, _))
  | .presentFrameAsync _ _ _ => .isTrue trivial
  | .setUnavailable => .isTrue trivial
  | .onClose => .isTrue trivial
  | .releaseAll _ => .isTrue trivial

def Label.advanced? : Label → Option ℕ
  | .advance k => some k
  | _ => none

def Label.delivered? : Label → Option ℕ
  | .deliver k => some k
  | _ => none

/-- While the operation is open: calls match, and the updates for an output are made in the order of the sections. -/
def Follows (s : State) (label : Label) : Prop :=
  s.closed = false → (∀ k ∈ label.advanced?.toList, ∀ call ∈ s.calls[k]?.toList, call.Matches s) ∧
    ∀ k ∈ label.delivered?.toList, ∀ due ∈ (takeHead s.updates k).toList, ∀ other ∈ earlier s.updates k,
      other.name ≠ due.1.name

instance (s : State) (label : Label) : Decidable (Follows s label) := inferInstanceAs (Decidable (_ → _))

end Brookesia.DisplayService.Operation
