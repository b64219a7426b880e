import Brookesia.Transition.Keyed
import Brookesia.Transition.Machine

/-! # The audio decoder

`AudioDecoder`: sources write chunks into the queues of their streams, and a task takes them from the stream of the active
source and feeds them to the HAL decoder. A label of `decoderMachine` is one section under `decoder_state_mutex_`, or under
`decoder_hal_mutex_` for the feeding; calls by the name of a source look up its id in a section of their own, which changes
nothing.

* Signals are left out, and `active_hal_config_`, which nothing reads. Sizes are unbounded, source ids are `uint32_t`.
* The HAL decoder may end by itself; whether it starts or takes data is in the labels.
* `call` numbers the writes. What has been accepted, fed, released and returned is kept for the statements, as are
  `misfiled` (a source has been given the id of another) and `mixed` (a chunk has been fed to a decoder that is started for
  another source or with another configuration than its stream has). -/

namespace Brookesia.Audio

open Transition

inductive AudioWriteResult
  | written
  | droppedNotActive
  | droppedQueueFull
  | droppedInvalidData
  | error
  deriving DecidableEq

inductive CodecFormat
  | pcm
  | opus
  | g711a
  deriving DecidableEq

structure CodecGeneralConfig where
  channels : ℕ
  sampleBits : ℕ
  sampleRate : ℕ
  frameDuration : ℕ
  deriving DecidableEq

/-- What the HAL decoder is started with. -/
structure AudioDecoderDynamicConfig where
  type : CodecFormat
  general : CodecGeneralConfig
  deriving DecidableEq

structure AudioStreamConfig extends AudioDecoderDynamicConfig where
  queueSizeBytes : ℕ
  deriving DecidableEq

def DECODER_OUTPUT_NAME : String := "Speaker0"

def DECODER_STREAM_QUEUE_SIZE_DEFAULT : ℕ := 32 * 1024

abbrev SourceId := ℕ

/-- The entry of a stream in the maps of the sources. -/
structure StreamKey where
  sourceId : SourceId
  outputName : String
  deriving DecidableEq

structure Chunk where
  call : ℕ
  key : StreamKey
  size : ℕ
  borrowed : Bool
  deriving DecidableEq

structure StreamContext where
  key : StreamKey
  config : AudioStreamConfig
  queue : List Chunk := []
  queuedBytes : ℕ := 0
  opened : Bool := false
  deriving DecidableEq

structure SourceContext where
  id : SourceId
  name : String
  requestedOutputs : List String := []
  deriving DecidableEq

structure OutputContext where
  name : String
  activeSourceId : SourceId := 0
  deriving DecidableEq

def AudioStreamConfig.withDefault (config : AudioStreamConfig) : AudioStreamConfig :=
  if config.queueSizeBytes = 0 then { config with queueSizeBytes := DECODER_STREAM_QUEUE_SIZE_DEFAULT } else config

def StreamContext.cleared (stream : StreamContext) : StreamContext :=
  { stream with queue := [], queuedBytes := 0 }

/-- `streams` has the streams of all sources. `halDecoder` is what the HAL decoder is started with, if it is; `flight` is the
chunk that the task has taken and not yet fed, `waiting` are the writes that sleep. -/
structure AudioDecoder where
  decoderIface : Bool := false
  halDecoder : Option AudioDecoderDynamicConfig := none
  outputs : List OutputContext := []
  sources : List SourceContext := []
  streams : List StreamContext := []
  nextSourceId : SourceId := 1
  activeHalKey : StreamKey := ⟨0, ""⟩
  flight : Option Chunk := none
  waiting : List Chunk := []
  calls : ℕ := 0
  accepted : List Chunk := []
  fed : List Chunk := []
  released : List (ℕ × AudioWriteResult) := []
  returned : List (ℕ × AudioWriteResult) := []
  misfiled : Bool := false
  mixed : Bool := false
  deriving DecidableEq

namespace AudioDecoder

variable (s : AudioDecoder)

def findSourceById (sourceId : SourceId) : Option SourceContext :=
  s.sources.find? (·.id == sourceId)

def findSourceByName (sourceName : String) : Option SourceContext :=
  s.sources.find? (·.name == sourceName)

def findOutput (outputName : String) : Option OutputContext :=
  s.outputs.find? (·.name == outputName)

def findStream (key : StreamKey) : Option StreamContext :=
  s.streams.find? (·.key == key)

def isSourceActive (key : StreamKey) : Bool :=
  match s.findOutput key.outputName with
  | none => false
  | some output => output.activeSourceId == key.sourceId

/-- `Chunk::release` of chunks; only borrowed ones have a callback. -/
def release (chunks : List Chunk) (result : AudioWriteResult) : AudioDecoder :=
  { s with released := s.released ++ (chunks.filter (·.borrowed)).map fun chunk => (chunk.call, result) }

/-- `clear_stream_queue_locked` of the streams with `p`, which are erased. -/
def eraseStreams (p : StreamContext → Bool) : AudioDecoder :=
  { s with streams := s.streams.filter fun stream => !p stream }.release
    ((s.streams.filter p).flatMap StreamContext.queue) .droppedNotActive

def clearAllQueues : AudioDecoder :=
  { s with streams := s.streams.map StreamContext.cleared }.release (s.streams.flatMap StreamContext.queue) .droppedNotActive

def stopHalDecoder : AudioDecoder :=
  { s with halDecoder := none, activeHalKey := ⟨0, ""⟩ }

/-- `ensure_hal_decoder_for_active_stream_locked`. -/
def ensureHalDecoder (key : StreamKey) (starts : Bool) : Bool × AudioDecoder :=
  match s.findStream key with
  | none => (true, s)
  | some stream =>
    if stream.opened = false then (true, s)
    else if s.activeHalKey = key ∧ s.decoderIface ∧ s.halDecoder.isSome then (true, s)
    else if s.decoderIface = false then (false, s)
    else if starts then
      (true, { s with halDecoder := some stream.config.toAudioDecoderDynamicConfig, activeHalKey := key })
    else (false, s.stopHalDecoder)

/-! ### Sources and outputs -/

/-- `register_source`, with the id that it returns. -/
def registerSource (id : SourceId) (name : String) : Option SourceId × AudioDecoder :=
  if name = "" then (none, s)
  else if (s.findSourceByName name).isSome then (none, s)
  else if id = 0 then
    let next := { s with nextSourceId := (s.nextSourceId + 1) % 2 ^ 32 }
    if (s.findSourceById s.nextSourceId).isSome then (some s.nextSourceId, { next with misfiled := true })
    else (some s.nextSourceId, { next with sources := s.sources ++ [{ id := s.nextSourceId, name := name }] })
  else if (s.findSourceById id).isSome then (none, s)
  else (some id, { s with sources := s.sources ++ [{ id := id, name := name }] })

/-- The outputs without this active source; if it was active the HAL decoder is stopped. -/
def deactivate (p : OutputContext → Bool) : AudioDecoder :=
  if s.outputs.any p then
    { s.stopHalDecoder with
      outputs := s.outputs.map fun output => if p output then { output with activeSourceId := 0 } else output }
  else s

def unregisterSource (sourceId : SourceId) : AudioDecoder :=
  match s.findSourceById sourceId with
  | none => s
  | some _ =>
    let erased := (s.deactivate (·.activeSourceId == sourceId)).eraseStreams (·.key.sourceId == sourceId)
    { erased with sources := s.sources.filter (·.id != sourceId) }

def setSource (source : SourceContext) : AudioDecoder :=
  { s with sources := replace SourceContext.id source s.sources }

def requestOutput (key : StreamKey) : AudioDecoder :=
  match s.findSourceById key.sourceId, s.findOutput key.outputName with
  | some source, some _ => s.setSource { source with requestedOutputs := source.requestedOutputs.insert key.outputName }
  | _, _ => s

def releaseOutput (key : StreamKey) : AudioDecoder :=
  match s.findSourceById key.sourceId, s.findOutput key.outputName with
  | some source, some _ =>
    let inactive := s.deactivate fun output => output.name == key.outputName && output.activeSourceId == key.sourceId
    let erased := inactive.eraseStreams (·.key == key)
    erased.setSource { source with requestedOutputs := source.requestedOutputs.filter (· != key.outputName) }
  | _, _ => s

def activate (outputName : String) (sourceId : SourceId) : AudioDecoder :=
  { s.stopHalDecoder.clearAllQueues with
    outputs := s.outputs.map fun output =>
      if output.name = outputName then { output with activeSourceId := sourceId } else output }

def setActiveSource (outputName sourceName : String) (starts : Bool) : AudioDecoder :=
  match s.findOutput outputName, s.findSourceByName sourceName with
  | some output, some source =>
    if source.requestedOutputs.contains outputName = false then s
    else if output.activeSourceId = source.id then s
    else ((s.activate outputName source.id).ensureHalDecoder ⟨source.id, outputName⟩ starts).2
  | _, _ => s

/-! ### Streams -/

def putStream (key : StreamKey) (config : AudioStreamConfig) : AudioDecoder :=
  let erased := s.eraseStreams (·.key == key)
  { erased with streams := erased.streams ++ [{ key := key, config := config.withDefault, opened := true }] }

/-- `open_stream`; whether its task can be posted does not matter here. -/
def openStream (key : StreamKey) (config : AudioStreamConfig) (starts : Bool) : AudioDecoder :=
  match s.findSourceById key.sourceId, s.findOutput key.outputName with
  | some source, some _ =>
    if source.requestedOutputs.contains key.outputName = false then s
    else
      let opened := s.putStream key config
      if opened.isSourceActive key then (opened.ensureHalDecoder key starts).2 else opened
  | _, _ => s

def closeStream (key : StreamKey) : AudioDecoder :=
  match s.findSourceById key.sourceId, s.findStream key with
  | some _, some _ =>
    let stopped := if s.isSourceActive key then s.stopHalDecoder else s
    stopped.eraseStreams (·.key == key)
  | _, _ => s

/-! ### Writing -/

/-- The stream for a chunk, or the result without one (`find_stream` in `reserve_stream_queue_space_locked`). -/
def streamFor (chunk : Chunk) : Except AudioWriteResult StreamContext :=
  match s.findSourceById chunk.key.sourceId with
  | none => .error .error
  | some _ =>
    if s.isSourceActive chunk.key = false then .error .droppedNotActive
    else
      match s.findStream chunk.key with
      | none => .error .error
      | some stream =>
        if stream.opened = false then .error .error
        else if stream.config.queueSizeBytes < chunk.size then .error .droppedQueueFull
        else .ok stream

def finish (chunk : Chunk) (result : AudioWriteResult) : AudioDecoder :=
  { s with returned := s.returned ++ [(chunk.call, result)] }

def enqueue (stream : StreamContext) (chunk : Chunk) : AudioDecoder :=
  { s with
    streams := replace StreamContext.key
      { stream with queue := stream.queue ++ [chunk], queuedBytes := stream.queuedBytes + chunk.size } s.streams
    accepted := s.accepted ++ [chunk] }.finish chunk .written

/-- One look of a write at its stream; `waits` if it sleeps rather than to give up when the queue is full. -/
def tryWrite (chunk : Chunk) (waits : Bool) : AudioDecoder :=
  match s.streamFor chunk with
  | .error result => s.finish chunk result
  | .ok stream =>
    if stream.queuedBytes + chunk.size ≤ stream.config.queueSizeBytes then s.enqueue stream chunk
    else if waits then { s with waiting := s.waiting ++ [chunk] }
    else s.finish chunk .droppedQueueFull

/-- `write_stream` and `write_stream_borrowed`, up to the first sleep. -/
def write (key : StreamKey) (size : ℕ) (borrowed waits : Bool) : AudioDecoder :=
  let called := { s with calls := s.calls + 1 }
  let chunk : Chunk := ⟨s.calls, key, size, borrowed⟩
  if size = 0 then called.finish chunk .droppedInvalidData else called.tryWrite chunk waits

def wake (i : ℕ) (timedOut : Bool) : Option AudioDecoder :=
  s.waiting[i]?.map fun chunk => { s with waiting := s.waiting.eraseIdx i }.tryWrite chunk !timedOut

/-! ### The task -/

/-- The stream of the first output with something to play. -/
def nextStream : Option StreamContext :=
  s.outputs.findSome? fun output =>
    if output.activeSourceId = 0 then none
    else
      (s.findSourceById output.activeSourceId).bind fun source =>
        (s.findStream ⟨source.id, output.name⟩).filter (·.queue ≠ [])

/-- The first section of `decoder_stream_task`. -/
def take : Option AudioDecoder :=
  match s.flight, s.nextStream with
  | none, some stream =>
    match stream.queue with
    | [] => none
    | chunk :: rest =>
      some { s with
        streams := replace StreamContext.key
          { stream with queue := rest, queuedBytes := stream.queuedBytes - chunk.size } s.streams
        flight := some chunk }
  | _, _ => none

/-- The HAL decoder is started for the source of the chunk, with the configuration that its stream has. -/
def suits (chunk : Chunk) : Bool :=
  s.activeHalKey == chunk.key && (match s.findStream chunk.key with
    | none => false
    | some stream => s.halDecoder == some stream.config.toAudioDecoderDynamicConfig)

/-- The second section of `decoder_stream_task`; `takes` if the HAL decoder takes the data. -/
def feed (takes : Bool) : Option AudioDecoder :=
  match s.flight with
  | none => none
  | some chunk =>
    let landed := { s with flight := none }
    if s.decoderIface = false ∨ s.halDecoder.isNone then some (landed.release [chunk] .error)
    else
      some ({ landed with fed := s.fed ++ [chunk], mixed := s.mixed || !s.suits chunk }.release [chunk]
        (if takes then .written else .error))

/-! ### The service -/

def onStart : Option AudioDecoder :=
  if s.decoderIface then none else some { s with decoderIface := true, outputs := [{ name := DECODER_OUTPUT_NAME }] }

def onStop : AudioDecoder :=
  { s.stopHalDecoder.eraseStreams (fun _ => true) with sources := [], outputs := [], decoderIface := false }

end AudioDecoder

/-! ### Runs -/

inductive Label
  | onStart
  | onStop
  | registerSource (id : SourceId) (name : String)
  | unregisterSource (sourceId : SourceId)
  | requestOutput (key : StreamKey)
  | releaseOutput (key : StreamKey)
  | setActiveSource (outputName sourceName : String) (starts : Bool)
  | openStream (key : StreamKey) (config : AudioStreamConfig) (starts : Bool)
  | closeStream (key : StreamKey)
  | write (key : StreamKey) (size : ℕ) (borrowed waits : Bool)
  | wake (i : ℕ) (timedOut : Bool)
  | take
  | feed (takes : Bool)
  | halEnds
  deriving DecidableEq

def AudioDecoder.step (s : AudioDecoder) : Label → Option AudioDecoder
  | .onStart => s.onStart
  | .onStop => some s.onStop
  | .registerSource id name => some (s.registerSource id name).2
  | .unregisterSource sourceId => some (s.unregisterSource sourceId)
  | .requestOutput key => some (s.requestOutput key)
  | .releaseOutput key => some (s.releaseOutput key)
  | .setActiveSource outputName sourceName starts => some (s.setActiveSource outputName sourceName starts)
  | .openStream key config starts => some (s.openStream key config starts)
  | .closeStream key => some (s.closeStream key)
  | .write key size borrowed waits => some (s.write key size borrowed waits)
  | .wake i timedOut => s.wake i timedOut
  | .take => s.take
  | .feed takes => s.feed takes
  | .halEnds => some { s with halDecoder := none }

def decoderMachine : Machine AudioDecoder Label where
  init s := s = {}
  step := AudioDecoder.step

end Brookesia.Audio
