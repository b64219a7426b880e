import Brookesia.Transition.Counting
import Brookesia.Transition.Keyed

/-! # The display service: outputs, sources and frames

`Display` holds what `mutex_` guards. A call is a section under the mutex, a pure function here, and what it still
has to do after it has released it (`Work`): events and completion callbacks, in its order.

Ids and frame ids are unbounded. Of an output this keeps what decides about sources and asynchronous frames; what is
drawn, touches and the backlight are left out. -/

namespace Brookesia.DisplayService

open Transition

abbrev OutputId := ℕ

abbrev SourceId := ℕ

abbrev FrameId := ℕ

def INVALID_SOURCE_ID : SourceId := 0

inductive SourceState
  | registered
  | requested
  | granted
  | dummy
  | revoked
  deriving DecidableEq

inductive PresentResult
  | presented
  | droppedNotActive
  | droppedInvalidFrame
  | droppedQueueFull
  | error
  deriving DecidableEq

inductive PresentSubmitState
  | queued
  | droppedNotActive
  | droppedInvalidFrame
  | error
  deriving DecidableEq

structure AsyncFrame where
  frameId : FrameId
  sourceId : SourceId
  deriving DecidableEq

structure OutputContext where
  id : OutputId
  name : String
  dynamicOutput : Bool
  activeSourceId : SourceId := INVALID_SOURCE_ID
  pendingFrame : Option AsyncFrame := none
  renderScheduled : Bool := false
  inflightFrameId : FrameId := 0
  deriving DecidableEq

structure SourceContext where
  id : SourceId
  name : String
  requestedOutputs : Finset String := ∅
  deriving DecidableEq

/-- The maps are lists in the order of their keys. -/
structure Display where
  outputs : List OutputContext := []
  sources : List SourceContext := []
  nextOutputId : OutputId := 1
  nextSourceId : SourceId := 1
  nextFrameId : FrameId := 1
  deriving DecidableEq

/-- One thing that a call does without the mutex. -/
inductive Work
  | emitActiveSourceChanged (output source : String)
  | emitSourceStateChanged (source output : String) (state : SourceState)
  | emitOutputRegistered (output : String)
  | emitOutputUnregistered (output : String)
  | completeAsyncFrame (frame : AsyncFrame) (result : PresentResult)
  deriving DecidableEq

def OutputContext.pendingOf (output : OutputContext) (source : SourceId) : List AsyncFrame :=
  output.pendingFrame.toList.filter (·.sourceId == source)

def OutputContext.dropPendingOf (output : OutputContext) (source : SourceId) : OutputContext :=
  { output with pendingFrame := output.pendingFrame.filter (·.sourceId != source) }

def OutputContext.clearActive (output : OutputContext) (source : SourceId) : OutputContext :=
  { output with
    activeSourceId := if output.activeSourceId = source then INVALID_SOURCE_ID else output.activeSourceId }

/-- There is an active source, and another is to be active, or none. -/
def OutputContext.leaves (output : OutputContext) (next : SourceId) : Bool :=
  output.activeSourceId != INVALID_SOURCE_ID && output.activeSourceId != next

/-- The output with its next active source; the frame of one that leaves is dropped. -/
def OutputContext.activate (output : OutputContext) (next : SourceId) : OutputContext :=
  if output.leaves next then { output with activeSourceId := next }.dropPendingOf output.activeSourceId
  else { output with activeSourceId := next }

def completeAll (frames : List AsyncFrame) (result : PresentResult) : List Work :=
  frames.map (Work.completeAsyncFrame · result)

/-- The section of `present_frame_async`: the frame that it stored, and the output of the task that it posted. -/
structure Submission where
  display : Display
  work : List Work := []
  state : PresentSubmitState
  frame : Option AsyncFrame := none
  posted : Option OutputId := none

namespace Display

variable (d : Display)

def output? (id : OutputId) : Option OutputContext :=
  d.outputs.find? (·.id == id)

def source? (id : SourceId) : Option SourceContext :=
  d.sources.find? (·.id == id)

/-- `find_output_id_locked`: the empty name is the first output. -/
def findOutput (name : String) : Option OutputContext :=
  if name = "" then d.outputs.head? else d.outputs.find? (·.name == name)

/-- `find_source_id_locked`. -/
def findSource (name : String) : Option SourceContext :=
  if name = "" then none else d.sources.find? (·.name == name)

def setOutput (output : OutputContext) : Display :=
  { d with outputs := replace OutputContext.id output d.outputs }

def setSource (source : SourceContext) : Display :=
  { d with sources := replace SourceContext.id source d.sources }

/-! ### Sections -/

def registerOutput (name : String) : Display × List Work :=
  if name = "" ∨ d.outputs.any (·.name == name) then (d, [])
  else
    ({ d with
        outputs := d.outputs ++ [{ id := d.nextOutputId, name := name, dynamicOutput := true }]
        nextOutputId := d.nextOutputId + 1 },
      [.emitOutputRegistered name])

/-- The sources that lose an output, the active one first. -/
def revokedSources (output : OutputContext) : List String :=
  let active := ((d.source? output.activeSourceId).map SourceContext.name).toList
  active ++ ((d.sources.filter (output.name ∈ ·.requestedOutputs)).map SourceContext.name).filter (· ∉ active)

/-- The second section of `unregister_output`; the first only finds the id. -/
def unregisterOutput (id : OutputId) : Display × List Work :=
  match d.output? id with
  | none => (d, [])
  | some output =>
    if output.dynamicOutput then
      ({ d with
          outputs := d.outputs.filter (·.id != id)
          sources := d.sources.map fun s => { s with requestedOutputs := s.requestedOutputs.erase output.name } },
        (if (d.source? output.activeSourceId).isSome then [.emitActiveSourceChanged output.name ""] else []) ++
          (d.revokedSources output).map (.emitSourceStateChanged · output.name .revoked) ++
          completeAll output.pendingFrame.toList .error ++
          [.emitOutputUnregistered output.name])
    else (d, [])

def registerSource (name : String) : Display × List Work :=
  if name = "" ∨ d.sources.any (·.name == name) then (d, [])
  else
    ({ d with
        sources := d.sources ++ [{ id := d.nextSourceId, name := name }]
        nextSourceId := d.nextSourceId + 1 },
      [.emitSourceStateChanged name "" .registered])

def unregisterSource (id : SourceId) : Display × List Work :=
  match d.source? id with
  | none => (d, [])
  | some source =>
    let cleared := (d.outputs.filter (·.activeSourceId == id)).map OutputContext.name
    ({ d with
        sources := d.sources.filter (·.id != id)
        outputs := d.outputs.map fun o => (o.clearActive id).dropPendingOf id },
      cleared.flatMap (fun name => [.emitActiveSourceChanged name "", .emitSourceStateChanged source.name name .revoked]) ++
        [.emitSourceStateChanged source.name "" .revoked] ++
        completeAll (d.outputs.flatMap (·.pendingOf id)) .droppedNotActive)

def requestOutput (id : SourceId) (outputName : String) : Display × List Work :=
  match d.source? id, d.findOutput outputName with
  | some source, some output =>
    (d.setSource { source with requestedOutputs := insert output.name source.requestedOutputs },
      [.emitSourceStateChanged source.name output.name .requested])
  | _, _ => (d, [])

def releaseOutput (id : SourceId) (outputName : String) : Display × List Work :=
  match d.source? id, d.findOutput outputName with
  | some source, some output =>
    ((d.setSource { source with requestedOutputs := source.requestedOutputs.erase output.name }).setOutput
        ((output.clearActive id).dropPendingOf id),
      (if output.activeSourceId = id then [.emitActiveSourceChanged output.name ""] else []) ++
        [.emitSourceStateChanged source.name output.name .revoked] ++
        completeAll (output.pendingOf id) .droppedNotActive)
  | _, _ => (d, [])

/-- The end of the section of `set_active_source`: `previous` is the source that was active and `next` the one that is
to be, where there is one. -/
def activate (output : OutputContext) (previous next : Option SourceContext) : Display × List Work :=
  let nextId := (next.map SourceContext.id).getD INVALID_SOURCE_ID
  let requested := match next with
    | some source => d.setSource { source with requestedOutputs := insert output.name source.requestedOutputs }
    | none => d
  (requested.setOutput (output.activate nextId),
    (if output.leaves nextId then previous.toList.map (.emitSourceStateChanged ·.name output.name .dummy) else []) ++
      next.toList.map (.emitSourceStateChanged ·.name output.name .granted) ++
      [.emitActiveSourceChanged output.name ((next.map SourceContext.name).getD "")] ++
      (if output.leaves nextId then completeAll (output.pendingOf output.activeSourceId) .droppedNotActive else []))

def setActiveSource (outputName sourceName : String) : Display × List Work :=
  match d.findOutput outputName with
  | none => (d, [])
  | some output =>
    let previous := d.source? output.activeSourceId
    if sourceName = "" then d.activate output previous none
    else
      match d.findSource sourceName with
      | none => (d, [])
      | some next => d.activate output previous (some next)

/-- `valid`: there is data, and the frame fits the output; `posts`: a running scheduler takes the task. -/
def presentFrameAsync (id : SourceId) (outputName : String) (valid posts : Bool) : Submission :=
  match d.source? id, d.findOutput outputName with
  | some _, some output =>
    if output.activeSourceId ≠ id then { display := d, state := .droppedNotActive }
    else if !valid then { display := d, state := .droppedInvalidFrame }
    else
      let frame : AsyncFrame := { frameId := d.nextFrameId, sourceId := id }
      let allocated := { d with nextFrameId := d.nextFrameId + 1 }
      let full := completeAll output.pendingFrame.toList .droppedQueueFull
      if output.renderScheduled then
        { display := allocated.setOutput { output with pendingFrame := some frame }
          work := full, state := .queued, frame := some frame }
      else if posts then
        { display := allocated.setOutput { output with pendingFrame := some frame, renderScheduled := true }
          work := full, state := .queued, frame := some frame, posted := some output.id }
      else
        { display := allocated.setOutput { output with pendingFrame := none }
          work := full ++ completeAll [frame] .error, state := .error, frame := some frame }
  | _, _ => { display := d, state := .error }

/-- `drop_pending_frames_locked`. -/
def dropPendingFrames : Display × List AsyncFrame :=
  ({ d with
      outputs := d.outputs.map fun o =>
        if o.pendingFrame.isSome then
          { o with pendingFrame := none, renderScheduled := o.renderScheduled && o.inflightFrameId != 0 }
        else o },
    d.outputs.flatMap (·.pendingFrame.toList))

end Display

end Brookesia.DisplayService
