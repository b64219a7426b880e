import Brookesia.Transition.Machine

/-! # The requests of the HTTP service

A call of `request` or `request_async` counts its request and posts a task; a worker of the scheduler runs it, and the counter is
lowered by the task. The service is started, stopped and deinitialized with `state_mutex` held exclusively, the functions of the
service hold it shared: `transition` says how far a stop or a deinitialization is that has it. The workers do not ask for it.

A step is what one thread does up to the end of a section under a mutex, or up to the end of a call of `publish_event`. `contexts`
has a `RequestContext` for each number, `ids` the numbers that are in use, and `registered` those that are in `contexts_`; `log` has
what `publish_event` has handed over to the event task group. What the HAL answers, and whether a task can be posted, is from
outside. Requests are numbered by a 64-bit counter, which is a natural number here. The bodies and the headers of requests and
responses, the statistics, and the time that a synchronous call waits, are not modelled. -/

namespace Brookesia.Http

open Transition

inductive ErrorCode
  | ok | invalidArgument | notStarted | unsupportedTransport | bodyTooLarge | fileTooLarge | fileOpenFailed | clientInitFailed
  | requestFailed | canceled | timeout
deriving DecidableEq

inductive RequestState
  | queued | running | completed | failed | canceled
deriving DecidableEq

inductive GeneralState
  | idle | initing | inited | timeSyncing | starting | started | stopping | stopped | deiniting
deriving DecidableEq

def GeneralState.text : GeneralState → String
  | .idle => "Idle"
  | .initing => "Initing"
  | .inited => "Inited"
  | .timeSyncing => "TimeSyncing"
  | .starting => "Starting"
  | .started => "Started"
  | .stopping => "Stopping"
  | .stopped => "Stopped"
  | .deiniting => "Deiniting"

def ErrorCode.text : ErrorCode → String
  | .ok => "Ok"
  | .invalidArgument => "InvalidArgument"
  | .notStarted => "NotStarted"
  | .unsupportedTransport => "UnsupportedTransport"
  | .bodyTooLarge => "BodyTooLarge"
  | .fileTooLarge => "FileTooLarge"
  | .fileOpenFailed => "FileOpenFailed"
  | .clientInitFailed => "ClientInitFailed"
  | .requestFailed => "RequestFailed"
  | .canceled => "Canceled"
  | .timeout => "Timeout"

/-- The options of the build. `sizeMax` is the number of values of a `size_t`. -/
structure Config where
  enableHttp : Bool
  enableHttps : Bool
  ownScheduler : Bool
  maxConcurrentRequests : ℕ
  sizeMax : ℕ
  positive : 0 < maxConcurrentRequests
  fits : maxConcurrentRequests < sizeMax

structure HttpRequest where
  url : String
  retryCount : ℕ := 0
  retryOnStatusCodes : List ℤ := []
deriving DecidableEq

structure HttpResponse where
  statusCode : ℤ := 0
  error : ErrorCode := .ok
  errorMessage : String := ""
deriving DecidableEq

structure RequestProgress where
  requestId : ℕ
  downloaded : ℕ
  total : ℕ
deriving DecidableEq

/-- Where the task of a request is. -/
inductive Task
  | reserved
  | queued
  /-- At the head of the loop of `perform_request`. -/
  | attempting (attempt : ℕ)
  /-- In `perform_once`. -/
  | performing (attempt : ℕ)
  | performed (response : HttpResponse)
  /-- After the first section of `finish_context`, and after the second one. -/
  | recorded
  | lowered
  | published
  | resolved
  | ended
  | unposted
  | dropped
deriving DecidableEq

/-- Where the call is that has submitted the request, if it waits for the response. -/
inductive Caller
  | away
  | waiting
  | answered (response : HttpResponse)
  | refused (message : String)
deriving DecidableEq

structure RequestContext where
  request : HttpRequest := { url := "" }
  response : HttpResponse := {}
  state : RequestState := .queued
  downloaded : ℕ := 0
  total : ℕ := 0
  cancelRequested : Bool := false
  sync : Bool := false
  promise : Option HttpResponse := none
  task : Task := .ended
  caller : Caller := .away

inductive Event
  | started (id : ℕ)
  | progress (p : RequestProgress)
  | finished (id : ℕ) (state : RequestState)
deriving DecidableEq

/-- How far the call is that has `state_mutex` exclusively. -/
inductive ServiceTransition
  | none | stopping | stopCleared | deinitializing | deinitCleared
deriving DecidableEq

structure Service where
  initialized : Bool := false
  running : Bool := false
  generalState : GeneralState := .idle
  scheduler : Bool := false
  emitterTask : Bool := false
  transition : ServiceTransition := .none
  /-- `TaskScheduler::stop` has not returned. -/
  draining : Bool := false
  contexts : ℕ → RequestContext := fun _ => {}
  ids : List ℕ := []
  registered : List ℕ := []
  nextRequestId : ℕ := 1
  runningRequestCount : ℕ := 0
  pendingProgress : Option RequestProgress := none
  /-- What `emit_pending_progress` has taken and not published yet. -/
  emitting : Option RequestProgress := none
  log : List Event := []

namespace RequestState

/-- The states that `cleanup_finished_requests` asks for. -/
def isFinished : RequestState → Bool
  | .completed | .failed | .canceled => true
  | .queued | .running => false

def ofError (error : ErrorCode) : RequestState :=
  if error = .ok then .completed else if error = .canceled then .canceled else .failed

end RequestState

namespace Task

def isOutstanding : Task → Bool
  | .reserved | .queued | .attempting _ | .performing _ | .performed _ | .recorded => true
  | .lowered | .published | .resolved | .ended | .unposted | .dropped => false

def isOver : Task → Bool
  | .ended | .unposted | .dropped => true
  | _ => false

end Task

/-- `validate_request`: the message, if the request is not valid. -/
def validateRequest (c : Config) (request : HttpRequest) : Option String :=
  if request.url = "" then some "URL is empty"
  else if "http://".toList.isPrefixOf request.url.toList then
    if c.enableHttp then none else some "HTTP transport is disabled"
  else if "https://".toList.isPrefixOf request.url.toList then
    if c.enableHttps then none else some "HTTPS transport is disabled"
  else some "Unsupported URL scheme"

/-- The number of the attempt is a `uint32_t`. -/
def nextAttempt (request : HttpRequest) (attempt : ℕ) (response : HttpResponse) : Task :=
  if (attempt + 1) % 2 ^ 32 ≤ request.retryCount then .attempting ((attempt + 1) % 2 ^ 32) else .performed response

/-- The loop of `perform_request`, after `perform_once`. -/
def afterAttempt (request : HttpRequest) (attempt : ℕ) (response : HttpResponse) : Task :=
  if response.error = .canceled then .performed response
  else if response.error = .ok then
    if response.statusCode ∉ request.retryOnStatusCodes ∨ request.retryCount ≤ attempt then .performed response
    else nextAttempt request attempt response
  else nextAttempt request attempt response

namespace Service

/-! ### The functions -/

/-- What `submit_request` says before it takes a number. -/
def notReady (c : Config) (s : Service) (request : HttpRequest) : Option String :=
  if s.scheduler = false then some "HTTP service is not started"
  else if s.generalState ≠ .started then some ("HTTP service is not ready: state(" ++ s.generalState.text ++ ")")
  else validateRequest c request

def tooMany : String := "Too many concurrent HTTP requests"

/-- The error of `submit_request`, up to the posting. -/
def submitError (c : Config) (s : Service) (request : HttpRequest) : Option String :=
  (s.notReady c request).or (if c.maxConcurrentRequests ≤ s.runningRequestCount then some tooMany else none)

/-- `submit_request` up to the posting: the request is refused, or counted and registered. -/
def submit (c : Config) (s : Service) (request : HttpRequest) (sync : Bool) : Service :=
  if s.notReady c request ≠ none then s
  else if c.maxConcurrentRequests ≤ s.runningRequestCount then { s with nextRequestId := s.nextRequestId + 1 }
  else
    { s with
      contexts := Function.update s.contexts s.nextRequestId
        { request := request, sync := sync, task := .reserved }
      ids := s.ids ++ [s.nextRequestId]
      registered := s.registered ++ [s.nextRequestId]
      nextRequestId := s.nextRequestId + 1
      runningRequestCount := s.runningRequestCount + 1 }

def put (s : Service) (id : ℕ) (context : RequestContext) : Service :=
  { s with contexts := Function.update s.contexts id context }

/-- `running_request_count_--`. -/
def lower (c : Config) (s : Service) : Service :=
  { s with runningRequestCount := (s.runningRequestCount + c.sizeMax - 1) % c.sizeMax }

/-- The posting of `submit_request`, and the return. A synchronous call waits then. -/
def post (c : Config) (s : Service) (id : ℕ) (posts : Bool) : Service :=
  let context := s.contexts id
  if posts then s.put id { context with task := .queued, caller := if context.sync then .waiting else .away }
  else
    let s := s.lower c
    { s with registered := s.registered.erase id }.put id
      { context with
        task := .unposted, caller := if context.sync then .refused "Failed to post HTTP request task" else .away }

/-- `publish_event`: nothing is published when the service is not running. -/
def publish (s : Service) (event : Event) (posts : Bool) : Service :=
  if s.initialized = true ∧ s.running = true ∧ posts = true then { s with log := s.log ++ [event] } else s

/-! ### The task of a request -/

/-- The head of `execute_request`. -/
def begin (s : Service) (id : ℕ) (posts : Bool) : Service :=
  (s.put id { s.contexts id with state := .running, task := .attempting 0 }).publish (.started id) posts

/-- The head of the loop of `perform_request`. -/
def check (s : Service) (id attempt : ℕ) : Service :=
  let context := s.contexts id
  s.put id
    { context with
      task := if context.cancelRequested then .performed { error := .canceled, errorMessage := "Request canceled" }
        else .performing attempt }

/-- What was read is added, and `publish_request_progress` is called. -/
def read (s : Service) (id length : ℕ) : Service :=
  let context := { s.contexts id with downloaded := ((s.contexts id).downloaded + length) % 2 ^ 32 }
  { s.put id context with pendingProgress := some { requestId := id, downloaded := context.downloaded, total := context.total } }

/-- The first section of `finish_context`. -/
def record (s : Service) (id : ℕ) (response : HttpResponse) : Service :=
  s.put id { s.contexts id with response := response, state := .ofError response.error, task := .recorded }

def resolve (s : Service) (id : ℕ) : Service :=
  let context := s.contexts id
  s.put id { context with promise := if context.sync then some context.response else none, task := .resolved }

/-- `cleanup_finished_requests`: the contexts of asynchronous calls are retained. -/
def cleanup (s : Service) (id : ℕ) : Service :=
  { s.put id { s.contexts id with task := .ended } with
    registered := s.registered.filter fun other =>
      !((s.contexts other).sync && (s.contexts other).state.isFinished) }

/-! ### The service -/

/-- `cancel_all_requests`. -/
def cancelAll (s : Service) : Service :=
  { s with
    contexts := fun id =>
      if id ∈ s.registered then { s.contexts id with cancelRequested := true } else s.contexts id }

def Quiet (s : Service) : Prop :=
  s.transition = .none ∧ ∀ id ∈ s.ids, (s.contexts id).task ≠ .reserved ∧ (s.contexts id).caller ≠ .waiting

instance (s : Service) : Decidable s.Quiet := inferInstanceAs (Decidable (_ ∧ _))

inductive Label
  | submit (request : HttpRequest) (sync : Bool)
  | post (id : ℕ) (posts : Bool)
  | receive (id : ℕ)
  | timeout (id : ℕ)
  | cancelRequest (id : ℕ)
  | begin (id : ℕ) (posts : Bool)
  | check (id : ℕ)
  | opened (id contentLength : ℕ)
  | read (id length : ℕ)
  | answer (id : ℕ) (response : HttpResponse)
  | record (id : ℕ)
  | lower (id : ℕ)
  | publishFinished (id : ℕ) (posts : Bool)
  | resolve (id : ℕ)
  | cleanup (id : ℕ)
  | takeProgress
  | emitProgress (posts : Bool)
  | init
  | start (timeSync : Bool)
  | timeSynced
  | stop
  | stopClear
  | stopEnd
  | drop (id : ℕ)
  | drained
  | deinit
  | deinitClear
  | deinitEnd

def callStep (c : Config) (s : Service) : Label → Option Service
  | .submit request sync => if s.transition = .none then some (s.submit c request sync) else none
  | .post id posts => if id ∈ s.ids ∧ (s.contexts id).task = .reserved then some (s.post c id posts) else none
  | .receive id =>
    if id ∈ s.ids ∧ (s.contexts id).caller = .waiting then
      (s.contexts id).promise.map fun response => s.put id { s.contexts id with caller := .answered response }
    else none
  | .timeout id =>
    if id ∈ s.ids ∧ (s.contexts id).caller = .waiting ∧ (s.contexts id).promise = none then
      some (s.put id
        { s.contexts id with
          cancelRequested := true, caller := .refused ("HTTP request timeout: id(" ++ toString id ++ ")") })
    else none
  | .cancelRequest id =>
    if s.transition = .none ∧ id ∈ s.registered then some (s.put id { s.contexts id with cancelRequested := true }) else none
  | _ => none

def taskStep (c : Config) (s : Service) : Label → Option Service
  | .begin id posts => if id ∈ s.ids ∧ (s.contexts id).task = .queued then some (s.begin id posts) else none
  | .check id =>
    if id ∈ s.ids then
      match (s.contexts id).task with
      | .attempting attempt => some (s.check id attempt)
      | _ => none
    else none
  | .opened id contentLength =>
    if id ∈ s.ids then
      match (s.contexts id).task with
      | .performing _ => some (s.put id { s.contexts id with total := contentLength })
      | _ => none
    else none
  | .read id length =>
    if id ∈ s.ids then
      match (s.contexts id).task with
      | .performing _ => some (s.read id length)
      | _ => none
    else none
  | .answer id response =>
    if id ∈ s.ids then
      match (s.contexts id).task with
      | .performing attempt =>
        some (s.put id { s.contexts id with task := afterAttempt (s.contexts id).request attempt response })
      | _ => none
    else none
  | .record id =>
    if id ∈ s.ids then
      match (s.contexts id).task with
      | .performed response => some (s.record id response)
      | _ => none
    else none
  | .lower id =>
    if id ∈ s.ids ∧ (s.contexts id).task = .recorded then some ((s.lower c).put id { s.contexts id with task := .lowered })
    else none
  | .publishFinished id posts =>
    if id ∈ s.ids ∧ (s.contexts id).task = .lowered then
      some ((s.put id { s.contexts id with task := .published }).publish (.finished id (s.contexts id).state) posts)
    else none
  | .resolve id => if id ∈ s.ids ∧ (s.contexts id).task = .published then some (s.resolve id) else none
  | .cleanup id => if id ∈ s.ids ∧ (s.contexts id).task = .resolved then some (s.cleanup id) else none
  | _ => none

/-- The steps of the emitter, and of the service as a whole. -/
def serviceStep (c : Config) (s : Service) : Label → Option Service
  | .takeProgress =>
    if s.emitterTask = true ∧ s.emitting = none then some { s with emitting := s.pendingProgress, pendingProgress := none }
    else none
  | .emitProgress posts => s.emitting.map fun progress => { s.publish (.progress progress) posts with emitting := none }
  | .init =>
    if s.initialized = false ∧ s.Quiet then some { s with initialized := true, generalState := .inited } else none
  | .start timeSync =>
    if s.initialized = true ∧ s.running = false ∧ s.Quiet then
      some
        { s with
          running := true, scheduler := true, emitterTask := true
          generalState := if timeSync then .timeSyncing else .started }
    else none
  | .timeSynced => if s.generalState = .timeSyncing then some { s with generalState := .started } else none
  | .stop =>
    if s.running = true ∧ s.Quiet then
      some { s.cancelAll with generalState := .stopping, emitterTask := false, transition := .stopping }
    else none
  | .stopClear =>
    if s.transition = .stopping then some { s with pendingProgress := none, transition := .stopCleared } else none
  | .stopEnd =>
    if s.transition = .stopCleared then
      some
        { s with
          scheduler := false, generalState := .stopped, running := false, transition := .none, draining := c.ownScheduler }
    else none
  | .drop id =>
    if s.draining = true ∧ id ∈ s.ids ∧ (s.contexts id).task = .queued then
      some (s.put id { s.contexts id with task := .dropped })
    else none
  | .drained =>
    if s.draining = true ∧ ∀ id ∈ s.ids, (s.contexts id).task.isOver = true then some { s with draining := false } else none
  | .deinit =>
    if s.initialized = true ∧ s.running = false ∧ s.Quiet then some { s.cancelAll with transition := .deinitializing } else none
  | .deinitClear =>
    if s.transition = .deinitializing then
      some { s with registered := [], runningRequestCount := 0, transition := .deinitCleared }
    else none
  | .deinitEnd =>
    if s.transition = .deinitCleared then
      some { s with initialized := false, generalState := .idle, transition := .none }
    else none
  | _ => none

def step (c : Config) (s : Service) (label : Label) : Option Service :=
  ((s.callStep c label).or (s.taskStep c label)).or (s.serviceStep c label)

end Service

def httpMachine (c : Config) : Machine Service Service.Label where
  init s := s = {}
  step := Service.step c

end Brookesia.Http
