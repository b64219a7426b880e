import Brookesia.Transition.Machine

/-! # The runtime host bridge, step by step

`start_service`, `stop_service`, `subscribe_event`, `subscribe_service_event`, `unsubscribe_event`,
`call_function_async` with `call_service_function_async`, and `release_app_resources`, called by any
number of threads. A step is one section under `mutex_`, one call of the service manager or of a
service, or one call of a script callback.

* `HandleTable`: `services_` with `app_services_`, and `subscriptions_` with `app_subscriptions_`.
* The two asynchronous functions differ in the checks that they make before `create_async_call`; what
  they have in common is the call from there on.
* An app may be started again under its id. `run` numbers its runs, and a call belongs to the run that
  it was made in.
* `release_all_app_resources` calls `release_app_resources` for some apps, one after the other. -/

namespace Brookesia.SystemCore.HostBridge

open Transition

abbrev AppId := ℕ

abbrev Handle := ℕ

/-- A service binding or a signal connection, with the app that asked for it. -/
structure Resource where
  id : ℕ
  app : AppId
  deriving DecidableEq

/-- `ServiceRecord` or `SubscriptionRecord`. -/
structure HandleRecord where
  app : AppId
  resource : Resource
  deriving DecidableEq

/-! ### Tables of handles -/

/-- The records by their handles, and the handles of each app. -/
structure HandleTable where
  records : Handle → Option HandleRecord := fun _ => none
  handles : AppId → List Handle := fun _ => []

namespace HandleTable

/-- `emplace` in the one map and `insert` in the other. -/
def insert (t : HandleTable) (handle : Handle) (record : HandleRecord) : HandleTable where
  records := if t.records handle = none then Function.update t.records handle (some record) else t.records
  handles := Function.update t.handles record.app (handle :: (t.handles record.app).erase handle)

def erase (t : HandleTable) (handle : Handle) (record : HandleRecord) : HandleTable where
  records := Function.update t.records handle none
  handles := Function.update t.handles record.app ((t.handles record.app).filter (· ≠ handle))

/-- The part of `release_app_resources` for one of the two tables. -/
def release (t : HandleTable) (app : AppId) : HandleTable where
  records handle := if handle ∈ t.handles app then none else t.records handle
  handles := Function.update t.handles app []

/-- What `release` moves out of the table. -/
def released (t : HandleTable) (app : AppId) : List Resource :=
  (t.handles app).filterMap fun handle => (t.records handle).map (·.resource)

/-- The record of `handle`, if `app` owns it. -/
def find (t : HandleTable) (app : AppId) (handle : Handle) : Option HandleRecord :=
  (t.records handle).filter fun r => r.app = app

end HandleTable

/-! ### Requests for handles -/

inductive Request
  | startService
  | stopService (handle : Handle)
  | subscribeEvent (serviceHandle : Handle)
  | subscribeServiceEvent
  | unsubscribeEvent (handle : Handle)
  deriving DecidableEq

/-- Where a request is. -/
inductive RequestPoint
  | called (request : Request)
  /-- `start_service` has its binding, and no record of it. -/
  | bound (binding : Resource)
  /-- One of the two `subscribe` functions has its service. -/
  | serviceFound
  | connected (connection : Resource)
  /-- The local binding of `stop_service`. -/
  | unbinding (binding : Resource)
  /-- The local connection of `unsubscribe_event`. -/
  | disconnecting (connection : Resource)
  deriving DecidableEq

structure RequestCall where
  app : AppId
  point : RequestPoint
  deriving DecidableEq

/-! ### Asynchronous calls -/

/-- A call of one of the two asynchronous functions, with its script callback. -/
structure Call where
  id : ℕ
  app : AppId
  run : ℕ
  /-- `timeout_ms > 0`. -/
  timeout : Bool
  deriving DecidableEq

/-- `AsyncCallRecord`: `completed`, and whether it has its callback. -/
structure AsyncCallRecord where
  completed : Bool
  callback : Bool
  deriving DecidableEq

/-- Where a call is. -/
inductive CallPoint
  | notMade
  /-- In the checks before `create_async_call`. -/
  | entered
  /-- `complete_error` has been called. -/
  | refused
  | created
  | unscheduled
  /-- `call_function_async` of the service is next. -/
  | scheduled
  | submitted
  | returned
  deriving DecidableEq

/-- The argument of `complete_async_call`. -/
inductive Source
  | timeout
  | timeoutSchedule
  | service
  | submit
  deriving DecidableEq

inductive Event
  /-- The section of `complete_async_call`. -/
  | reported (call : Call) (source : Source)
  | invoked (call : Call)
  | released (app : AppId) (run : ℕ)
  deriving DecidableEq

/-- A release after its section, with what it has moved out. -/
structure Release where
  app : AppId
  run : ℕ
  services : List Resource
  subscriptions : List Resource
  deriving DecidableEq

/-! ### The state -/

structure State where
  services : HandleTable := {}
  subscriptions : HandleTable := {}
  nextHandleId : Handle := 1
  /-- The values of `async_calls_`. -/
  asyncCalls : List Call := []
  record : Call → AsyncCallRecord := fun _ => ⟨false, false⟩
  bindings : List Resource := []
  connections : List Resource := []
  nextResource : ℕ := 0
  requests : List RequestCall := []
  point : Call → CallPoint := fun _ => .notMade
  timeouts : List Call := []
  /-- The callbacks that `complete_async_call` has taken and not called. -/
  taken : List Call := []
  releasing : List Release := []
  run : AppId → ℕ := fun _ => 1
  /-- The last run of the app in which the section of a release has been. -/
  begun : AppId → ℕ := fun _ => 0
  /-- The last run of the app in which a release has returned. -/
  returned : AppId → ℕ := fun _ => 0
  history : List Event := []

namespace State

def log (s : State) (e : Event) : State := { s with history := e :: s.history }

def drop (s : State) (bindings connections : List Resource) : State :=
  { s with
    bindings := s.bindings.filter (· ∉ bindings)
    connections := s.connections.filter (· ∉ connections) }

/-! #### Requests -/

def beginRequest (s : State) (app : AppId) (request : Request) : State :=
  { s with requests := ⟨app, .called request⟩ :: s.requests }

def moveRequest (s : State) (c : RequestCall) (point : RequestPoint) : State :=
  { s with requests := ⟨c.app, point⟩ :: s.requests.erase c }

def endRequest (s : State) (c : RequestCall) : State := { s with requests := s.requests.erase c }

/-- `manager.bind`. -/
def bind (s : State) (c : RequestCall) : State :=
  { s.moveRequest c (.bound ⟨s.nextResource, c.app⟩) with
    bindings := ⟨s.nextResource, c.app⟩ :: s.bindings
    nextResource := s.nextResource + 1 }

/-- The section of `start_service`. -/
def insertService (s : State) (c : RequestCall) (binding : Resource) : State :=
  { s.endRequest c with
    services := s.services.insert s.nextHandleId ⟨c.app, binding⟩
    nextHandleId := s.nextHandleId + 1 }

/-- The section of `stop_service`. -/
def stopService (s : State) (c : RequestCall) (handle : Handle) : State :=
  match s.services.find c.app handle with
  | none => s.endRequest c
  | some r => { s.moveRequest c (.unbinding r.resource) with services := s.services.erase handle r }

/-- The first section of `subscribe_event`. -/
def findService (s : State) (c : RequestCall) (handle : Handle) : State :=
  match s.services.find c.app handle with
  | none => s.endRequest c
  | some _ => s.moveRequest c .serviceFound

/-- `service->subscribe_event`. -/
def subscribe (s : State) (c : RequestCall) : State :=
  { s.moveRequest c (.connected ⟨s.nextResource, c.app⟩) with
    connections := ⟨s.nextResource, c.app⟩ :: s.connections
    nextResource := s.nextResource + 1 }

/-- The last section of `subscribe_event` and `subscribe_service_event`. -/
def insertSubscription (s : State) (c : RequestCall) (connection : Resource) : State :=
  { s.endRequest c with
    subscriptions := s.subscriptions.insert s.nextHandleId ⟨c.app, connection⟩
    nextHandleId := s.nextHandleId + 1 }

/-- The section of `unsubscribe_event`. -/
def unsubscribe (s : State) (c : RequestCall) (handle : Handle) : State :=
  match s.subscriptions.find c.app handle with
  | none => s.endRequest c
  | some r =>
    { s.moveRequest c (.disconnecting r.resource) with
      subscriptions := s.subscriptions.erase handle r }

/-! #### Asynchronous calls -/

def setPoint (s : State) (c : Call) (point : CallPoint) : State :=
  { s with point := Function.update s.point c point }

def createAsyncCall (s : State) (c : Call) : State :=
  { s.setPoint c (if c.timeout then .created else .scheduled) with
    record := Function.update s.record c ⟨false, true⟩
    asyncCalls := c :: s.asyncCalls }

/-- The section of `complete_async_call`. -/
def completeAsyncCall (s : State) (c : Call) (source : Source) : State :=
  if (s.record c).completed ∨ (s.record c).callback = false then s.log (.reported c source)
  else
    { s.log (.reported c source) with
      record := Function.update s.record c ⟨true, false⟩
      asyncCalls := s.asyncCalls.erase c
      taken := c :: s.taken }

/-- `callback(std::move(result))`, for a callback that was taken. -/
def invoke (s : State) (c : Call) : State :=
  { s with taken := s.taken.erase c, history := .invoked c :: s.history }

/-- `post_delayed` for the timeout task, and the completion if it fails. -/
def schedule (s : State) (c : Call) (posted : Bool) : State :=
  if posted then { s.setPoint c .scheduled with timeouts := c :: s.timeouts }
  else (s.setPoint c .unscheduled).completeAsyncCall c .timeoutSchedule

/-- The answer of `service->call_function_async`. -/
def returnSubmitted (s : State) (c : Call) (accepted : Bool) : State :=
  if accepted then s.setPoint c .returned
  else (s.setPoint c .returned).completeAsyncCall c .submit

def fireTimeout (s : State) (c : Call) : State :=
  { s with timeouts := s.timeouts.erase c }.completeAsyncCall c .timeout

/-! #### Releases -/

/-- What the section of `release_app_resources` leaves of the record of a call. -/
def releasedRecord (s : State) (app : AppId) (c : Call) : AsyncCallRecord :=
  if c ∈ s.asyncCalls ∧ c.app = app then ⟨true, false⟩ else s.record c

/-- The section of `release_app_resources`. -/
def release (s : State) (app : AppId) : State :=
  { s with
    services := s.services.release app
    subscriptions := s.subscriptions.release app
    record := s.releasedRecord app
    asyncCalls := s.asyncCalls.filter (·.app ≠ app)
    releasing := ⟨app, s.run app, s.services.released app, s.subscriptions.released app⟩ :: s.releasing
    begun := Function.update s.begun app (s.run app) }

/-- The end of `release_app_resources`. -/
def releaseReturn (s : State) (r : Release) : State :=
  { s.drop r.services r.subscriptions with
    releasing := s.releasing.erase r
    returned := Function.update s.returned r.app (max (s.returned r.app) r.run)
    history := .released r.app r.run :: s.history }

end State

/-! ### Steps -/

inductive Action
  | startApp (app : AppId)
  | request (app : AppId) (request : Request)
  /-- The next step of a request, with the answer of the checks or of the service where there is one. -/
  | proceed (c : RequestCall) (ok : Bool)
  | enter (c : Call)
  /-- A check fails: `complete_error`. -/
  | refuse (c : Call)
  | create (c : Call)
  | schedule (c : Call) (posted : Bool)
  | submit (c : Call)
  | submitted (c : Call) (accepted : Bool)
  | report (c : Call)
  | fireTimeout (c : Call)
  | invoke (c : Call)
  | release (app : AppId)
  | releaseReturn (r : Release)
  deriving DecidableEq

def stepRequest (s : State) (c : RequestCall) (ok : Bool) : State :=
  match c.point with
  | .called request =>
    if ok then
      match request with
      | .startService => s.bind c
      | .stopService handle => s.stopService c handle
      | .subscribeEvent handle => s.findService c handle
      | .subscribeServiceEvent => s.moveRequest c .serviceFound
      | .unsubscribeEvent handle => s.unsubscribe c handle
    else s.endRequest c
  | .bound binding => s.insertService c binding
  | .serviceFound => if ok then s.subscribe c else s.endRequest c
  | .connected connection => s.insertSubscription c connection
  | .unbinding binding => (s.endRequest c).drop [binding] []
  | .disconnecting connection => (s.endRequest c).drop [] [connection]

def step (s : State) : Action → Option State
  | .startApp app => some { s with run := Function.update s.run app (s.run app + 1) }
  | .request app request => some (s.beginRequest app request)
  | .proceed c ok => if c ∈ s.requests then some (stepRequest s c ok) else none
  | .enter c =>
    if s.point c = .notMade ∧ c.run = s.run c.app then some (s.setPoint c .entered) else none
  | .refuse c =>
    if s.point c = .entered then some ((s.setPoint c .refused).log (.invoked c)) else none
  | .create c => if s.point c = .entered then some (s.createAsyncCall c) else none
  | .schedule c posted => if s.point c = .created then some (s.schedule c posted) else none
  | .submit c => if s.point c = .scheduled then some (s.setPoint c .submitted) else none
  | .submitted c accepted => if s.point c = .submitted then some (s.returnSubmitted c accepted) else none
  | .report c =>
    if s.point c = .submitted ∨ s.point c = .returned then some (s.completeAsyncCall c .service) else none
  | .fireTimeout c => if c ∈ s.timeouts then some (s.fireTimeout c) else none
  | .invoke c => if c ∈ s.taken then some (s.invoke c) else none
  | .release app => some (s.release app)
  | .releaseReturn r => if r ∈ s.releasing then some (s.releaseReturn r) else none

def hostBridge : Machine State Action where
  init s := s = {}
  step := step

/-! ### The order of releases -/

/-- What `returned`, `begun`, `run` and `releasing` of a state say fits together. -/
structure Ordered (returned begun run : AppId → ℕ) (releasing : List Release) : Prop where
  returnedLe : ∀ app, returned app ≤ begun app
  begunLe : ∀ app, begun app ≤ run app
  releasing : ∀ r ∈ releasing, r.run ≤ begun r.app

variable {returned begun run : AppId → ℕ} {releasing : List Release}

theorem le_startApp (run : AppId → ℕ) (app app' : AppId) : run app' ≤ Function.update run app (run app + 1) app' := by
  rw [Function.update_apply]
  split_ifs with heq
  · exact heq ▸ Nat.le_succ _
  · exact le_rfl

theorem Ordered.startApp (h : Ordered returned begun run releasing) (app : AppId) :
    Ordered returned begun (Function.update run app (run app + 1)) releasing :=
  { h with begunLe := fun app' => (h.begunLe app').trans (le_startApp run app app') }

theorem Ordered.begun_le_release (h : Ordered returned begun run releasing) (app app' : AppId) :
    begun app' ≤ Function.update begun app (run app) app' := by
  rw [Function.update_apply]
  split_ifs with heq
  · exact heq ▸ h.begunLe app'
  · exact le_rfl

theorem Ordered.release (h : Ordered returned begun run releasing) (app : AppId)
    (services subscriptions : List Resource) :
    Ordered returned (Function.update begun app (run app)) run
      (⟨app, run app, services, subscriptions⟩ :: releasing) where
  returnedLe app' := (h.returnedLe app').trans (h.begun_le_release app app')
  begunLe app' := by
    rw [Function.update_apply]
    split_ifs with heq
    · exact heq ▸ le_rfl
    · exact h.begunLe app'
  releasing r hr := by
    rcases List.mem_cons.mp hr with rfl | hr
    · rw [Function.update_self]
    · exact (h.releasing r hr).trans (h.begun_le_release app r.app)

theorem Ordered.releaseReturn (h : Ordered returned begun run releasing) {r : Release} (hr : r ∈ releasing) :
    Ordered (Function.update returned r.app (max (returned r.app) r.run)) begun run (releasing.erase r) where
  returnedLe app := by
    rw [Function.update_apply]
    split_ifs with heq
    · subst heq
      exact max_le (h.returnedLe _) (h.releasing r hr)
    · exact h.returnedLe app
  begunLe := h.begunLe
  releasing r' hr' := h.releasing r' (List.mem_of_mem_erase hr')

end Brookesia.SystemCore.HostBridge
