import Brookesia.Http.Requests

/-! # The refresh of the remote index of the App Store

A refresh checks the network, asks the HTTP service for the index (`RequestAsync`), and half a second after the answer has come it
reads it. Where the HTTP service waits for the time, the refresh waits with it. `refresh_request_id_` is the request that the refresh
waits for, and `watchdog`, `resultTimer`, `timeSyncTimer` and `closeTimer` are the timers of which it knows; `timers` are those that
may still fire, the stopped ones included, since a timer may be stopped too late.

The network checks that are asked for, the submissions that have no result yet, the requests that the HTTP service runs for the App
Store, and the events that wait in `pending_http_events_`, are kept as lists. The checks, the submissions and the requests are
answered in any order, the events are handled one after another. Refreshes are numbered: a check
or a submission has the number of the refresh that was the last one when it was made, `submitted` has the requests that the HTTP
service has taken, with the refresh of the submission, `processed` the answers that were read, and `ended` the endings.

What is shown, the icons and the sizes are not modelled. -/

namespace Brookesia.AppStore

open Transition

/-- A response, as far as it could be read from its JSON. -/
structure HttpResponse where
  error : Http.ErrorCode := .ok
  statusCode : ℤ := 200
  body : String := ""
  errorMessage : String := ""
deriving DecidableEq

inductive NetworkCheckPurpose
  | startupCache | startupRemoteRefresh | manualRemoteRefresh
deriving DecidableEq

structure NetworkCheck where
  purpose : NetworkCheckPurpose
  generation : ℕ
  refresh : ℕ
deriving DecidableEq

/-- A call of `RequestAsync`, and the number that the HTTP service has given it. -/
structure Submission where
  generation : ℕ
  refresh : ℕ
  accepted : Option ℕ := none
deriving DecidableEq

structure IndexRequest where
  id : ℕ
  refresh : ℕ
deriving DecidableEq

inductive RefreshAnswer
  | completed (response : Option HttpResponse)
  | failed (response : Option HttpResponse)
  | canceled
deriving DecidableEq

/-- A terminal event of the HTTP service. -/
structure HttpEvent where
  id : ℕ
  answer : RefreshAnswer
deriving DecidableEq

/-- The answer that is kept for the timer. The code does not keep the request with it. -/
structure PendingRefreshResult where
  answer : RefreshAnswer
  request : ℕ
deriving DecidableEq

inductive TimerName
  | refreshRequestTimeout | refreshResult | timeSyncTimeout | timeSyncSuccessClose
deriving DecidableEq

structure Timer where
  name : TimerName
  id : ℕ
deriving DecidableEq

inductive RefreshEnd
  | success
  | error (message : String)
  | timeSyncTimeout
  | networkUnavailable
  | canceled
deriving DecidableEq

/-- What is from outside at a step: whether timers can be started and calls submitted, and what the index says. -/
structure World where
  starts : Bool := true
  timerError : String := ""
  checks : Bool := true
  httpAvailable : Bool := true
  indexUrl : String := "http://index"
  submits : Bool := true
  parseIndex : String → Option String := fun _ => none

structure Refresh where
  context : Bool := false
  asyncGeneration : ℕ := 0
  startupLoading : Bool := false
  networkReady : Bool := true
  inProgress : Bool := false
  requestId : ℕ := 0
  watchdog : ℕ := 0
  resultTimer : ℕ := 0
  pendingResult : Option PendingRefreshResult := none
  timeSyncWaiting : Bool := false
  timeSyncTimer : ℕ := 0
  closeTimer : ℕ := 0
  lastTimer : ℕ := 0
  timers : List Timer := []
  checks : List NetworkCheck := []
  submissions : List Submission := []
  running : List IndexRequest := []
  events : List HttpEvent := []
  refreshes : ℕ := 0
  submitted : List IndexRequest := []
  processed : List IndexRequest := []
  ended : List (ℕ × RefreshEnd) := []

def isHttpTimeSyncingError (message : String) : Bool :=
  decide ("state(TimeSyncing)".toList <:+: message.toList)

namespace Refresh

/-- A timer is started; its number is `lastTimer` then. -/
def startTimer (s : Refresh) (name : TimerName) : Refresh :=
  { s with lastTimer := s.lastTimer + 1, timers := s.timers ++ [{ name := name, id := s.lastTimer + 1 }] }

def finish (s : Refresh) (how : RefreshEnd) : Refresh :=
  { s with requestId := 0, inProgress := false, ended := s.ended ++ [(s.refreshes - 1, how)] }

/-- `finish_remote_refresh_with_error`. -/
def finishError (s : Refresh) (message : String) : Refresh :=
  { s.finish (.error message) with watchdog := 0 }

/-- `finish_remote_refresh_success`. -/
def finishSuccess (s : Refresh) : Refresh :=
  { s.finish .success with watchdog := 0 }

/-- `refresh_in_progress_` is set. -/
def beginRefresh (s : Refresh) : Refresh :=
  { s with inProgress := true, requestId := 0, refreshes := s.refreshes + 1 }

/-- `submit_network_check`, for a refresh. -/
def submitNetworkCheck (s : Refresh) (purpose : NetworkCheckPurpose) (w : World) : Refresh :=
  if w.checks then
    { s with checks := s.checks ++ [{ purpose := purpose, generation := s.asyncGeneration, refresh := s.refreshes - 1 }] }
  else s.finishError "error.failed_check_network"

/-- `start_remote_refresh`, after `cancel_startup_load`. -/
def startRemoteRefresh (s : Refresh) (w : World) : Refresh :=
  let s := { s with startupLoading := false }
  if s.inProgress then s else s.beginRefresh.submitNetworkCheck .manualRemoteRefresh w

/-- `finish_cached_index_load_without_cache`. -/
def startupRefresh (s : Refresh) (w : World) : Refresh :=
  let s := { s with startupLoading := false }
  if w.indexUrl = "" then s else s.beginRefresh.submitNetworkCheck .startupRemoteRefresh w

/-- The end of `handle_cached_index_result`: the network is checked, and nothing depends on it. -/
def startupCached (s : Refresh) (w : World) : Refresh :=
  let s := { s with startupLoading := false }
  if w.indexUrl ≠ "" ∧ w.checks = true then
    { s with
      checks := s.checks ++ [{ purpose := .startupCache, generation := s.asyncGeneration, refresh := s.refreshes - 1 }] }
  else s

def startRemoteRefreshRequest (s : Refresh) (w : World) : Refresh :=
  if w.httpAvailable = false then s.finishError "error.http_unavailable"
  else if w.indexUrl = "" then s.finishError "error.index_url_not_configured"
  else if w.submits then
    { s with requestId := 0, submissions := s.submissions ++ [{ generation := s.asyncGeneration, refresh := s.refreshes - 1 }] }
  else ({ s with requestId := 0 } : Refresh).finishError "HTTP request failed: submit failed"

def Accepts (s : Refresh) (generation : ℕ) : Prop := s.context = true ∧ generation = s.asyncGeneration

instance (s : Refresh) (generation : ℕ) : Decidable (s.Accepts generation) := inferInstanceAs (Decidable (_ ∧ _))

/-- `handle_network_check_result`. -/
def handleNetworkCheck (s : Refresh) (check : NetworkCheck) (ready : Bool) (w : World) : Refresh :=
  if ¬ s.Accepts check.generation then s
  else if ready then
    if check.purpose = .startupCache then { s with networkReady := true }
    else ({ s with networkReady := true } : Refresh).startRemoteRefreshRequest w
  else
    if check.purpose = .startupCache then { s with networkReady := false }
    else ({ s with networkReady := false } : Refresh).finish .networkUnavailable

def beginTimeSyncWait (s : Refresh) (w : World) : Refresh :=
  let s := { s with closeTimer := 0, requestId := 0, timeSyncWaiting := true }
  if s.timeSyncTimer ≠ 0 then s
  else if w.starts then { s.startTimer .timeSyncTimeout with timeSyncTimer := s.lastTimer + 1 }
  else ({ s with timeSyncWaiting := false } : Refresh).finishError ("Failed to schedule time sync wait: " ++ w.timerError)

/-- The `success_handler` of the submission. Where it cancels the request, the HTTP service may still answer it. -/
def submitAccepted (s : Refresh) (id : ℕ) (w : World) : Refresh :=
  if s.inProgress = false ∨ s.requestId ≠ 0 then s
  else
    let s := { s with requestId := id, watchdog := 0 }
    if w.starts then { s.startTimer .refreshRequestTimeout with watchdog := s.lastTimer + 1 } else s

/-- The `failure_handler` of the submission. -/
def submitFailed (s : Refresh) (message : String) (w : World) : Refresh :=
  if isHttpTimeSyncingError message then s.beginTimeSyncWait w else s.finishError ("HTTP request failed: " ++ message)

/-- `handle_http_request_submit_result`. -/
def handleSubmitResult (s : Refresh) (submission : Submission) (message : String) (w : World) : Refresh :=
  if ¬ s.Accepts submission.generation then s
  else
    match submission.accepted with
    | some id => s.submitAccepted id w
    | none => s.submitFailed message w

/-- `handle_refresh_completed`, for a pending result. -/
def refreshCompleted (s : Refresh) (response : Option HttpResponse) (w : World) : Refresh :=
  match response with
  | none => s.finishError "Failed to parse HTTP response"
  | some response =>
    if response.error ≠ .ok ∨ response.statusCode < 200 ∨ 300 ≤ response.statusCode then
      s.finishError
        ("Index request failed: status(" ++ toString response.statusCode ++ "), error(" ++ response.error.text ++ ")")
    else if response.body = "" then s.finishError "Index response body is empty"
    else
      match w.parseIndex response.body with
      | some message => s.finishError message
      | none => s.finishSuccess

/-- `handle_refresh_failed`, for a pending result. -/
def refreshFailed (s : Refresh) (response : Option HttpResponse) : Refresh :=
  match response with
  | some response =>
    if response.errorMessage = "" then s.finishError "error.http_request_failed" else s.finishError response.errorMessage
  | none => s.finishError "error.http_request_failed"

/-- `process_pending_refresh_result`. -/
def processPendingResult (s : Refresh) (w : World) : Refresh :=
  match s.pendingResult with
  | none => s
  | some pending =>
    let s :=
      { s with
        pendingResult := none, watchdog := 0, requestId := 0
        processed := s.processed ++ [({ id := pending.request, refresh := s.refreshes - 1 } : IndexRequest)] }
    match pending.answer with
    | .completed response => s.refreshCompleted response w
    | .failed response => s.refreshFailed response
    | .canceled => s.finishError "error.refresh_canceled"

/-- `schedule_refresh_result_processing`. -/
def scheduleResult (s : Refresh) (event : HttpEvent) (w : World) : Refresh :=
  let s := { s with resultTimer := 0, pendingResult := some { answer := event.answer, request := event.id } }
  if w.starts then { s.startTimer .refreshResult with resultTimer := s.lastTimer + 1 } else s.processPendingResult w

/-- What `process_pending_http_events` does with an event, for the refresh. -/
def handleEvent (s : Refresh) (event : HttpEvent) (w : World) : Refresh :=
  if s.requestId ≠ 0 ∧ event.id = s.requestId then s.scheduleResult event w else s

/-- `process_refresh_request_timeout`. -/
def requestTimeout (s : Refresh) : Refresh :=
  if s.requestId = 0 then s else s.finishError "HTTP request timeout"

/-- `process_time_sync_success_close`. -/
def timeSyncClose (s : Refresh) (w : World) : Refresh :=
  if s.inProgress = false then s else s.startRemoteRefreshRequest w

/-- `finish_time_sync_wait_success`. -/
def timeSyncSuccess (s : Refresh) (w : World) : Refresh :=
  if s.timeSyncWaiting = false then s
  else
    let s := { s with timeSyncTimer := 0, timeSyncWaiting := false }
    if s.closeTimer ≠ 0 then s
    else if w.starts then { s.startTimer .timeSyncSuccessClose with closeTimer := s.lastTimer + 1 }
    else s.timeSyncClose w

/-- `finish_time_sync_wait_timeout`. -/
def timeSyncTimedOut (s : Refresh) : Refresh :=
  if s.timeSyncWaiting = false then s else ({ s with timeSyncWaiting := false } : Refresh).finish .timeSyncTimeout

/-- `cancel_remote_refresh`. -/
def cancel (s : Refresh) : Refresh :=
  { s with
    watchdog := 0, resultTimer := 0, pendingResult := none, timeSyncTimer := 0, closeTimer := 0, timeSyncWaiting := false
    requestId := 0, inProgress := false
    ended := if s.inProgress then s.ended ++ [(s.refreshes - 1, .canceled)] else s.ended }

def onTimer (s : Refresh) (timer : Timer) (w : World) : Refresh :=
  match timer.name with
  | .timeSyncTimeout => if timer.id ≠ s.timeSyncTimer then s else ({ s with timeSyncTimer := 0 } : Refresh).timeSyncTimedOut
  | .timeSyncSuccessClose => if timer.id ≠ s.closeTimer then s else ({ s with closeTimer := 0 } : Refresh).timeSyncClose w
  | .refreshRequestTimeout => if timer.id ≠ s.watchdog then s else ({ s with watchdog := 0 } : Refresh).requestTimeout
  | .refreshResult => if timer.id ≠ s.resultTimer then s else ({ s with resultTimer := 0 } : Refresh).processPendingResult w

inductive Label
  | onStart
  | onStop
  | start (w : World)
  | startup (w : World)
  | startupCached (w : World)
  | cancel
  | networkCheck (check : NetworkCheck) (ready : Bool) (w : World)
  | accept (submission : Submission) (id : ℕ)
  | submitResult (submission : Submission) (message : String) (w : World)
  | answer (request : IndexRequest) (answer : RefreshAnswer)
  | event (w : World)
  | timeSynced (w : World)
  | timer (timer : Timer) (w : World)

def step (s : Refresh) : Label → Option Refresh
  | .onStart =>
    if s.context = false then
      some { s with context := true, networkReady := true, startupLoading := true, asyncGeneration := s.asyncGeneration + 1 }
    else none
  | .onStop =>
    if s.context = true then
      some
        { s.cancel with
          context := false, startupLoading := false, asyncGeneration := s.asyncGeneration + 1, events := [] }
    else none
  | .start w => if s.context = true then some (s.startRemoteRefresh w) else none
  | .startup w => if s.context = true ∧ s.startupLoading = true then some (s.startupRefresh w) else none
  | .startupCached w => if s.context = true ∧ s.startupLoading = true then some (s.startupCached w) else none
  | .cancel => if s.context = true then some s.cancel else none
  | .networkCheck check ready w =>
    if check ∈ s.checks then some (({ s with checks := s.checks.erase check } : Refresh).handleNetworkCheck check ready w) else none
  | .accept submission id =>
    if submission ∈ s.submissions ∧ submission.accepted = none ∧ 0 < id ∧ ∀ request ∈ s.submitted, request.id < id then
      some
        { s with
          submissions := s.submissions.erase submission ++ [{ submission with accepted := some id }]
          running := s.running ++ [{ id := id, refresh := submission.refresh }]
          submitted := s.submitted ++ [{ id := id, refresh := submission.refresh }] }
    else none
  | .submitResult submission message w =>
    if submission ∈ s.submissions then
      some (({ s with submissions := s.submissions.erase submission } : Refresh).handleSubmitResult submission message w)
    else none
  | .answer request answer =>
    if request ∈ s.running then
      some
        { s with
          running := s.running.erase request
          events := if s.context then s.events ++ [{ id := request.id, answer := answer }] else s.events }
    else none
  | .event w =>
    match s.events with
    | [] => none
    | event :: rest => some (({ s with events := rest } : Refresh).handleEvent event w)
  | .timeSynced w => if s.context = true then some (s.timeSyncSuccess w) else none
  | .timer timer w =>
    -- 0 is `INVALID_TIMER_ID`
    if s.context = true ∧ timer ∈ s.timers ∧ timer.id ≠ 0 then
      some (({ s with timers := s.timers.erase timer } : Refresh).onTimer timer w)
    else none

end Refresh

def refreshMachine : Machine Refresh Refresh.Label where
  init s := s = {}
  step := Refresh.step

end Brookesia.AppStore
