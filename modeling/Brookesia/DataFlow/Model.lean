import Brookesia.Transition.Machine

/-! # The data-flow registry

`DataFlowRegistry` and the part of `DataFlowOperation` it relies on. Any number of threads open
operations, register, unregister and invalidate providers and close operations; a step is one section
under the mutex of the registry or under that of an operation, or one call to what is outside.

* A thread is a stack of frames. What is outside answers: `ServiceManager::bind`, and the provider that
  opens an operation.
* Each open has a new operation object, and `utils_generate_uuid` is taken to give every operation
  another id: the id of an operation is its number, and `none` the empty id it is made with.
* A service binding is a number as well; `released` has those that have been released. -/

namespace Brookesia.DataFlow.Model

open Transition

abbrev ThreadId := ℕ

/-- A `DataFlowProvider` object. -/
abbrev ProviderObject := ℕ

/-- A `DataFlowOperation` object. -/
abbrev OperationId := ℕ

abbrev BindingId := ℕ

inductive DataModel
  | visual
  | audioPlayback
  | audioCapture
  deriving DecidableEq

inductive OperationState
  | ready
  | active
  | unavailable
  | closed
  | error
  deriving DecidableEq

structure ProviderInfo where
  id : String
  serviceName : String
  models : List DataModel
  priority : ℤ := 0
  available : Bool := true
  deriving DecidableEq

structure SourceInfo where
  name : String := ""
  role : String := ""
  preferredOutputs : List String := []
  priority : ℤ := 0
  deriving DecidableEq

structure OperationConfig where
  owner : String := ""
  providerId : String := ""
  model : DataModel := .visual
  source : SourceInfo := {}
  outputName : String := ""
  deriving DecidableEq

structure OperationInfo where
  id : Option OperationId := none
  owner : String := ""
  providerId : String := ""
  model : DataModel := .visual
  source : SourceInfo := {}
  outputName : String := ""
  state : OperationState := .ready
  deriving DecidableEq

/-! ### An operation -/

/-- `DataFlowOperation::Impl`: whether there is a callback is all that is said about it. -/
structure Operation where
  info : OperationInfo := {}
  closed : Bool := false
  releaseCallback : Bool := false
  deriving DecidableEq

/-- The locked section of a `close()` of an operation that is not closed. -/
def Operation.close (o : Operation) : Operation where
  info := if o.info.state = .unavailable ∨ o.info.state = .error then o.info
    else { o.info with state := .closed }
  closed := true
  releaseCallback := false

def Operation.setState (o : Operation) (state : OperationState) : Operation :=
  if o.closed then o else { o with info := { o.info with state := state } }

def Operation.setRegistryMetadata (o : Operation) (info : OperationInfo) (callbacks : Bool) :
    Operation :=
  if o.closed then o
  else { o with info := { info with state := o.info.state }, releaseCallback := callbacks }

/-! ### The registry -/

structure ProviderRecord where
  info : ProviderInfo
  provider : ProviderObject
  generation : ℕ
  deriving DecidableEq

structure OperationRecord where
  operation : OperationId
  binding : BindingId
  providerGeneration : ℕ
  deriving DecidableEq

structure ProviderSelection where
  provider : ProviderObject
  info : ProviderInfo
  generation : ℕ
  deriving DecidableEq

/-- The providers are in the order of their ids: the first of the highest priority is selected. -/
def selectProvider (providers : List ProviderRecord) (model : DataModel) (providerId : String) :
    Option ProviderSelection :=
  providers.foldl (fun selected record =>
      if providerId ≠ "" ∧ record.info.id ≠ providerId then selected
      else if record.info.available = false ∨ model ∉ record.info.models then selected
      else match selected with
        | some best => if best.info.priority < record.info.priority then
            some ⟨record.provider, record.info, record.generation⟩ else some best
        | none => some ⟨record.provider, record.info, record.generation⟩)
    none

def isSelectionCurrent (providers : List ProviderRecord) (selection : ProviderSelection) : Bool :=
  match providers.find? (·.info.id = selection.info.id) with
  | none => false
  | some record =>
    record.generation = selection.generation && record.provider = selection.provider

/-! ### Where the threads are -/

inductive OpenStage
  | selecting
  | binding (selection : ProviderSelection)
  | opening (selection : ProviderSelection) (binding : BindingId)
  | checking (selection : ProviderSelection) (binding : BindingId) (operation : OperationId)
  | describing (selection : ProviderSelection) (binding : BindingId) (operation : OperationId)
  | attaching (selection : ProviderSelection) (binding : BindingId) (operation : OperationId)
      (info : OperationInfo)
  | inserting (selection : ProviderSelection) (binding : BindingId) (operation : OperationId)
  | detaching (binding : Option BindingId) (operation : OperationId)
  | clearing (binding : Option BindingId) (operation : OperationId) (info : OperationInfo)
  | failing (binding : Option BindingId)
  | returning (operation : OperationId)
  deriving DecidableEq

/-- `close()`, with `remove_operation_record` from `releasing` on. -/
inductive CloseStage
  | entered
  /-- In `on_close` and the state callback; with the id for the release callback if there is one. -/
  | onClose (release : Option (Option OperationId))
  | releasing (id : Option OperationId)
  | dropping (binding : BindingId)
  deriving DecidableEq

inductive Frame
  | «open» (config : OperationConfig) (stage : OpenStage)
  | close (operation : OperationId) (stage : CloseStage)
  | register (provider : ProviderObject) (info : ProviderInfo)
  | unregister (providerId : String)
  | invalidate (providerId : String)
  /-- The operations of a provider are marked and closed, and then their records dropped. -/
  | revoking (operations : List OperationId) (isMarked : Bool) (bindings : List BindingId)
  | releaseOperation (id : OperationId)
  deriving DecidableEq

structure State where
  providers : List ProviderRecord := []
  operations : List OperationRecord := []
  nextGeneration : ℕ := 1
  heap : OperationId → Operation := fun _ => {}
  nextOperation : ℕ := 0
  nextBinding : ℕ := 0
  released : List BindingId := []
  /-- What has been added to `operations`, and what an open has returned. -/
  added : List OperationId := []
  returned : List OperationId := []
  threads : List (List Frame)

def State.setOperation (s : State) (operation : OperationId) (o : Operation) : State :=
  { s with heap := Function.update s.heap operation o }

/-- What is outside answers: nothing, something that is no use, or what was asked for. -/
inductive Answer
  | refused
  | invalid
  | granted
  deriving DecidableEq

/-! ### Steps of a frame -/

/-- The next step of `open_visual_operation`, and of its two siblings. -/
def openStep (s : State) (config : OperationConfig) (answer : Answer) (frames : List Frame) :
    OpenStage → State × List Frame
  | .selecting =>
    match selectProvider s.providers config.model config.providerId with
    | none => (s, frames)
    | some selection => (s, .open config (.binding selection) :: frames)
  | .binding selection =>
    match answer with
    | .refused => (s, frames)
    | .invalid =>
      ({ s with nextBinding := s.nextBinding + 1 }, .open config (.failing s.nextBinding) :: frames)
    | .granted =>
      ({ s with nextBinding := s.nextBinding + 1 }, .open config (.opening selection s.nextBinding) :: frames)
  | .opening selection binding =>
    match answer with
    | .refused | .invalid => (s, .open config (.failing binding) :: frames)
    | .granted =>
      ({ s.setOperation s.nextOperation {} with nextOperation := s.nextOperation + 1 },
        .open config (.checking selection binding s.nextOperation) :: frames)
  | .checking selection binding operation =>
    (s, if isSelectionCurrent s.providers selection then
        .open config (.describing selection binding operation) :: frames
      else .close operation .entered :: .open config (.failing binding) :: frames)
  | .describing selection binding operation =>
    (s, .open config (.attaching selection binding operation
      { id := operation, owner := config.owner, providerId := selection.info.id
        model := config.model, source := config.source, outputName := config.outputName
        state := (s.heap operation).info.state }) :: frames)
  | .attaching selection binding operation info =>
    (s.setOperation operation ((s.heap operation).setRegistryMetadata info true),
      .open config (.inserting selection binding operation) :: frames)
  | .inserting selection binding operation =>
    if isSelectionCurrent s.providers selection then
      if s.operations.any (·.operation = operation) then
        -- `emplace` has taken the binding and drops it
        ({ s with released := binding :: s.released }, .open config (.detaching none operation) :: frames)
      else
        ({ s with
            operations := s.operations ++ [⟨operation, binding, selection.generation⟩]
            added := operation :: s.added },
          .open config (.returning operation) :: frames)
    else (s, .open config (.detaching binding operation) :: frames)
  | .detaching binding operation =>
    (s, .open config (.clearing binding operation (s.heap operation).info) :: frames)
  | .clearing binding operation info =>
    (s.setOperation operation ((s.heap operation).setRegistryMetadata info false),
      .close operation .entered :: .open config (.failing binding) :: frames)
  | .failing binding => ({ s with released := binding.toList ++ s.released }, frames)
  | .returning operation => ({ s with returned := operation :: s.returned }, frames)

/-- The next step of `close()`. -/
def closeStep (s : State) (operation : OperationId) (frames : List Frame) : CloseStage → State × List Frame
  | .entered =>
    let o := s.heap operation
    if o.closed then (s, frames)
    else (s.setOperation operation o.close,
      .close operation (.onClose (if o.releaseCallback then some o.close.info.id else none)) :: frames)
  | .onClose none => (s, frames)
  | .onClose (some id) => (s, .close operation (.releasing id) :: frames)
  | .releasing id =>
    match s.operations.find? (some ·.operation = id) with
    | none => (s, frames)
    | some record =>
      ({ s with operations := s.operations.filter (some ·.operation ≠ id) },
        .close operation (.dropping record.binding) :: frames)
  | .dropping binding => ({ s with released := binding :: s.released }, frames)

def takeOperations (s : State) (providerId : String) : State × List OperationRecord :=
  let isOwn := fun r : OperationRecord => (s.heap r.operation).info.providerId = providerId
  ({ s with operations := s.operations.filter (!isOwn ·) }, s.operations.filter isOwn)

def revokeFrame (records : List OperationRecord) : Frame :=
  .revoking (records.map (·.operation)) false (records.map (·.binding))

/-- The next step of the frame on top of a stack, over the other `frames`. -/
def frameStep (s : State) (answer : Answer) (frames : List Frame) : Frame → State × List Frame
  | .open config stage => openStep s config answer frames stage
  | .close operation stage => closeStep s operation frames stage
  | .register provider info =>
    if info.id = "" ∨ info.serviceName = "" ∨ info.models = [] then (s, frames)
    else if s.providers.any (·.info.id = info.id) then (s, frames)
    else
      ({ s with
          providers := s.providers.orderedInsert (fun x y => x.info.id ≤ y.info.id) ⟨info, provider, s.nextGeneration⟩
          nextGeneration := s.nextGeneration + 1 }, frames)
  | .unregister providerId =>
    if s.providers.any (·.info.id = providerId) then
      let (s', records) := takeOperations s providerId
      ({ s' with providers := s.providers.filter (·.info.id ≠ providerId) }, revokeFrame records :: frames)
    else (s, frames)
  | .invalidate providerId =>
    if s.providers.any (·.info.id = providerId) then
      let (s', records) := takeOperations s providerId
      ({ s' with
          providers := s.providers.map fun record =>
            if record.info.id = providerId then { record with generation := s.nextGeneration }
            else record
          nextGeneration := s.nextGeneration + 1 },
        revokeFrame records :: frames)
    else (s, frames)
  | .revoking [] _ [] => (s, frames)
  | .revoking [] isMarked (binding :: bindings) =>
    ({ s with released := binding :: s.released }, .revoking [] isMarked bindings :: frames)
  | .revoking (operation :: operations) false bindings =>
    (s.setOperation operation ((s.heap operation).setState .unavailable),
      .revoking (operation :: operations) true bindings :: frames)
  | .revoking (operation :: operations) true bindings =>
    (s, .close operation .entered :: .revoking operations false bindings :: frames)
  | .releaseOperation id =>
    (s, if s.operations.any (·.operation = id) then .close id .entered :: frames else frames)

/-! ### Steps -/

inductive Call
  | «open» (config : OperationConfig)
  | close (operation : OperationId)
  /-- With what `get_provider_info` returns. -/
  | register (provider : ProviderObject) (info : ProviderInfo)
  | unregister (providerId : String)
  | invalidate (providerId : String)
  | releaseOperation (id : OperationId)
  deriving DecidableEq

inductive Action
  | call (t : ThreadId) (c : Call)
  | advance (t : ThreadId) (answer : Answer)
  | setState (operation : OperationId) (state : OperationState)
  deriving DecidableEq

/-- An operation may be closed as soon as it has been made. -/
def callFrame (s : State) : Call → Option Frame
  | .open config => some (.open config .selecting)
  | .close operation => if operation < s.nextOperation then some (.close operation .entered) else none
  | .register provider info => some (.register provider info)
  | .unregister providerId => some (.unregister providerId)
  | .invalidate providerId => some (.invalidate providerId)
  | .releaseOperation id => some (.releaseOperation id)

def step (s : State) : Action → Option State
  | .call t c =>
    if s.threads[t]? = some [] then
      (callFrame s c).map fun frame => { s with threads := s.threads.set t [frame] }
    else none
  | .advance t answer =>
    match s.threads[t]? with
    | some (frame :: frames) =>
      let (s', frames') := frameStep s answer frames frame
      some { s' with threads := s'.threads.set t frames' }
    | _ => none
  | .setState operation state =>
    if operation < s.nextOperation then
      some (s.setOperation operation ((s.heap operation).setState state))
    else none

def State.initial (threads : ℕ) : State := { threads := List.replicate threads [] }

def dataFlowRegistry : Machine State Action where
  init s := ∃ threads, s = State.initial threads
  step := step

end Brookesia.DataFlow.Model
