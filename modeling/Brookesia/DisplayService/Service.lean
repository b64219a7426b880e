import Brookesia.DisplayService.Sections
import Brookesia.Transition.Machine
import Brookesia.Transition.Outbox

/-! # Runs of the display service

Any number of calls, render tasks and cycles of `on_stop` and `on_start`. A step is a section under the mutex, one
thing that a call does after it (`work`), or a part of a render task between two locks. Nothing is assumed of the order
in which the scheduler runs the tasks, nor that they are over when `on_stop` has waited for them; a task that
it cancels is one that has not begun. The output's draw mutex only takes some of these runs away. -/

namespace Brookesia.DisplayService

open Transition

/-- Where a render task is in `render_output`. -/
inductive Phase
  | posted
  | looking
  | drawing (frame : AsyncFrame)
  | drawn (frame : AsyncFrame) (result : PresentResult)
  | completing (frame : AsyncFrame) (result : PresentResult)
  deriving DecidableEq

structure RenderTask where
  output : OutputId
  phase : Phase := .posted
  deriving DecidableEq

inductive ServiceState
  | running
  | stopping
  | stopped
  deriving DecidableEq

/-- What a listener knows who hears all events: the last ones about each output, and each source on it. -/
structure Listener where
  active : String → String := fun _ => ""
  state : String → String → Option SourceState := fun _ _ => none

def Listener.hear (listener : Listener) : Work → Listener
  | .emitActiveSourceChanged output source =>
    { listener with active := Function.update listener.active output source }
  | .emitSourceStateChanged source output state =>
    -- an event without an output is about the source alone
    if output = "" then listener
    else { listener with
      state := Function.update listener.state output (Function.update (listener.state output) source (some state)) }
  | _ => listener

/-- `calls`: what each call has still to do, in the order of their sections; `stored` and `queued`: the frames that have
been the pending frame of an output, and those whose submission returned `Queued`. -/
structure State where
  display : Display
  service : ServiceState := .running
  calls : List (List Work) := []
  tasks : List RenderTask := []
  listener : Listener := {}
  completed : List (FrameId × PresentResult) := []
  stored : List FrameId := []
  queued : List FrameId := []

inductive Label
  | registerOutput (name : String)
  | unregisterOutput (id : OutputId)
  | registerSource (name : String)
  | unregisterSource (id : SourceId)
  | requestOutput (id : SourceId) (output : String)
  | releaseOutput (id : SourceId) (output : String)
  | setActiveSource (output source : String)
  | presentFrameAsync (id : SourceId) (output : String) (valid posts : Bool)
  | work (k : ℕ)
  | begin (k : ℕ)
  | look (k : ℕ)
  | draw (k : ℕ) (result : PresentResult)
  | clear (k : ℕ)
  | complete (k : ℕ)
  | cancelTasks
  | dropFrames
  | start
  deriving DecidableEq

namespace State

variable (s : State)

def call (outcome : Display × List Work) : State :=
  { s with display := outcome.1, calls := s.calls ++ [outcome.2] }

def submit (submission : Submission) : State :=
  { s with
    display := submission.display
    calls := s.calls ++ [submission.work]
    tasks := s.tasks ++ submission.posted.toList.map fun output => { output := output }
    stored := s.stored ++ submission.frame.toList.map AsyncFrame.frameId
    queued := if submission.state = .queued then s.queued ++ submission.frame.toList.map AsyncFrame.frameId else s.queued }

def completeAsyncFrame (frame : AsyncFrame) (result : PresentResult) : State :=
  { s with completed := s.completed ++ [(frame.frameId, result)] }

def doWork (work : Work) : State :=
  match work with
  | .completeAsyncFrame frame result => s.completeAsyncFrame frame result
  | event => { s with listener := s.listener.hear event }

/-! ### The render task -/

def setPhase (k : ℕ) (task : RenderTask) (phase : Phase) : State :=
  { s with tasks := s.tasks.set k { task with phase := phase } }

def takeFrame (k : ℕ) (task : RenderTask) : State :=
  match s.display.output? task.output with
  | none => { s with tasks := s.tasks.eraseIdx k }
  | some output =>
    match output.pendingFrame with
    | none =>
      { s with
        display := s.display.setOutput { output with renderScheduled := false }
        tasks := s.tasks.eraseIdx k }
    | some frame =>
      { s with display := s.display.setOutput { output with pendingFrame := none, inflightFrameId := frame.frameId } }.setPhase
        k task (.drawing frame)

/-- What becomes of a frame, where drawing it comes to `result`. -/
def drawResult (output : OutputId) (frame : AsyncFrame) (result : PresentResult) : PresentResult :=
  match s.display.output? output with
  | none => .error
  | some context => if context.activeSourceId = frame.sourceId then result else .droppedNotActive

def clearInflight (id : OutputId) (frame : AsyncFrame) : Display :=
  match s.display.output? id with
  | none => s.display
  | some output =>
    if output.inflightFrameId = frame.frameId then s.display.setOutput { output with inflightFrameId := 0 } else s.display

def begin (k : ℕ) : Option State :=
  match s.tasks[k]? with
  | some { output, phase := .posted } => some (s.setPhase k { output := output } .looking)
  | _ => none

def look (k : ℕ) : Option State :=
  match s.tasks[k]? with
  | some { output, phase := .looking } => some (s.takeFrame k { output := output, phase := .looking })
  | _ => none

def draw (k : ℕ) (result : PresentResult) : Option State :=
  match s.tasks[k]? with
  | some { output, phase := .drawing frame } =>
    some (s.setPhase k { output := output } (.drawn frame (s.drawResult output frame result)))
  | _ => none

def clear (k : ℕ) : Option State :=
  match s.tasks[k]? with
  | some { output, phase := .drawn frame result } =>
    some ({ s with display := s.clearInflight output frame }.setPhase k { output := output } (.completing frame result))
  | _ => none

def complete (k : ℕ) : Option State :=
  match s.tasks[k]? with
  | some { output, phase := .completing frame result } =>
    some ((s.setPhase k { output := output } .looking).completeAsyncFrame frame result)
  | _ => none

end State

def step (s : State) : Label → Option State
  | .registerOutput name => some (s.call (s.display.registerOutput name))
  | .unregisterOutput id => some (s.call (s.display.unregisterOutput id))
  | .registerSource name => some (s.call (s.display.registerSource name))
  | .unregisterSource id => some (s.call (s.display.unregisterSource id))
  | .requestOutput id output => some (s.call (s.display.requestOutput id output))
  | .releaseOutput id output => some (s.call (s.display.releaseOutput id output))
  | .setActiveSource output source => some (s.call (s.display.setActiveSource output source))
  | .presentFrameAsync id output valid posts => some (s.submit (s.display.presentFrameAsync id output valid posts))
  | .work k => (takeHead s.calls k).map fun (work, calls) => { s with calls := calls }.doWork work
  | .begin k => s.begin k
  | .look k => s.look k
  | .draw k result => s.draw k result
  | .clear k => s.clear k
  | .complete k => s.complete k
  | .cancelTasks =>
    if s.service = .running then
      some { s with service := .stopping, tasks := s.tasks.filter (·.phase != .posted) }
    else none
  | .dropFrames =>
    if s.service = .stopping then
      some { s.call (s.display.dropPendingFrames.1, completeAll s.display.dropPendingFrames.2 .error) with
        service := .stopped }
    else none
  | .start => if s.service = .stopped then some { s with service := .running } else none

/-- Sources and outputs as they may be registered, and no output in use. -/
structure Display.Fresh (d : Display) : Prop where
  wellFormed : d.WellFormed
  frameIdNew : d.nextFrameId ≠ 0
  idle : ∀ output ∈ d.outputs, output.activeSourceId = INVALID_SOURCE_ID ∧ output.pendingFrame = none ∧
    output.renderScheduled = false ∧ output.inflightFrameId = 0

/-- The service with some outputs and sources, before the first call on them. -/
def machine : Machine State Label where
  init s := s.display.Fresh ∧ s = { display := s.display }
  step := step

end Brookesia.DisplayService
