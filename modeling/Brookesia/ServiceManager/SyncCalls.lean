import Mathlib

/-! # Synchronous calls of a service

`call_function_sync` and `call_functions_sync` of a running `ServiceBase`, with what they use of
`call_function_async`, `call_functions_async` and the scheduler. What `registry->call` makes of a call
is a parameter: it returns or throws a `std::exception`, changes the state that the service's functions
share, and takes its time, in milliseconds. The scheduler takes what is posted, and the call group does
one task after another. -/

namespace Brookesia.ServiceManager.Sync

variable {σ π δ : Type*}

structure FunctionResult (δ : Type*) where
  success : Bool
  errorMessage : String := ""
  data : Option δ := none

structure FunctionCallResult (δ : Type*) where
  name : String
  success : Bool
  errorMessage : String
  data : Option δ

structure FunctionBatchResult (δ : Type*) where
  success : Bool
  results : List (FunctionCallResult δ)

structure FunctionCall (π : Type*) where
  name : String
  parameters : π

structure FunctionSchema where
  requireScheduler : Bool
  defaultTimeoutMs : Option ℕ

inductive Outcome (δ : Type*)
  | returns (result : FunctionResult δ)
  | throws (what : String)

def Outcome.success : Outcome δ → Bool
  | .returns result => result.success
  | .throws _ => false

/-- What `registry->call` does. -/
structure Run (σ δ : Type*) where
  outcome : Outcome δ
  state : σ
  duration : ℕ

structure Service (σ π δ : Type*) where
  name : String
  getSchema : String → Option FunctionSchema
  call : FunctionCall π → σ → Run σ δ
  /-- `BROOKESIA_SERVICE_MANAGER_DEFAULT_CALL_FUNCTION_TIMEOUT_MS`. -/
  defaultTimeoutMs : ℕ

/-! ### The scheduler -/

/-- Where a call is made: outside the scheduler, on a worker in another group, or in a task of the
service's call group. -/
inductive Context
  | outside
  | worker
  | callGroup
  deriving DecidableEq

/-- The scheduler as the caller finds it. -/
structure Scheduler where
  context : Context
  workerCount : ℕ
  waitSlots : ℕ
  /-- The other workers that do not come free while the caller waits. -/
  blocked : ℕ
  slots : waitSlots ≤ blocked

namespace Scheduler

variable (scheduler : Scheduler)

def isCurrentThreadInGroup : Bool := scheduler.context == .callGroup

def isCurrentThreadWorker : Bool := scheduler.context != .outside

def tryAcquireWorkerWaitSlot : Bool :=
  if scheduler.isCurrentThreadWorker then
    if scheduler.workerCount ≤ 1 then false else decide (scheduler.waitSlots < scheduler.workerCount - 1)
  else true

/-- A task of the call group begins while the caller waits: the caller's own task does not occupy the
group, and there is a worker. -/
def reaches : Bool :=
  !scheduler.isCurrentThreadInGroup &&
    decide (scheduler.blocked + (if scheduler.isCurrentThreadWorker then 1 else 0) < scheduler.workerCount)

end Scheduler

/-- What the caller sees go by. -/
structure World (σ π : Type*) where
  state : σ
  now : ℕ
  /-- When the call group is done with what has been posted. -/
  busyUntil : ℕ
  ran : List (FunctionCall π) := []
  /-- The calls that are executed after the caller has stopped waiting. -/
  late : List (FunctionCall π) := []

variable (svc : Service σ π δ) (scheduler : Scheduler)

def errorPrefix (serviceName name : String) : String := "[" ++ serviceName ++ ":" ++ name ++ "] "

/-! ### One call -/

/-- The result of a task, of an inline or of a direct call. -/
def callResult (name : String) : Outcome δ → FunctionResult δ
  | .returns result => result
  | .throws what => { success := false, errorMessage := errorPrefix svc.name name ++ (": detected exception: " ++ what) }

def runHere (call : FunctionCall π) (w : World σ π) : FunctionResult δ × World σ π :=
  let run := svc.call call w.state
  (callResult svc call.name run.outcome,
    { w with state := run.state, now := w.now + run.duration, ran := w.ran ++ [call] })

def runPosted (timeoutMs : ℕ) (call : FunctionCall π) (w : World σ π) : FunctionResult δ × World σ π :=
  let run := svc.call call w.state
  let finish := max w.now w.busyUntil + run.duration
  if scheduler.reaches = true ∧ finish < w.now + timeoutMs then
    (callResult svc call.name run.outcome,
      { w with state := run.state, now := finish, busyUntil := finish, ran := w.ran ++ [call] })
  else
    ({ success := false, errorMessage := "Wait timeout after " ++ toString timeoutMs ++ " ms" },
      { w with now := w.now + timeoutMs, late := w.late ++ [call] })

def callFunctionSync (timeoutMs : ℕ) (call : FunctionCall π) (w : World σ π) : FunctionResult δ × World σ π :=
  match svc.getSchema call.name with
  | none => ({ success := false, errorMessage := "Function not found" }, w)
  | some schema =>
    let effectiveTimeoutMs := if timeoutMs = 0 then schema.defaultTimeoutMs.getD svc.defaultTimeoutMs else timeoutMs
    if schema.requireScheduler && scheduler.isCurrentThreadInGroup then runHere svc call w
    else if schema.requireScheduler && !scheduler.tryAcquireWorkerWaitSlot then
      ({ success := false
         errorMessage := errorPrefix svc.name call.name ++ "synchronous cross-group call has no available scheduler worker" },
        w)
    -- `call_function_async`
    else if !schema.requireScheduler then runHere svc call w
    else runPosted svc scheduler effectiveTimeoutMs call w

/-! ### A batch -/

def makeCallResult (name : String) (result : FunctionResult δ) : FunctionCallResult δ where
  name := name
  success := result.success
  errorMessage := result.errorMessage
  data := result.data

def batchCallResult (name : String) : Outcome δ → FunctionCallResult δ
  | .returns result => makeCallResult name result
  | .throws what => makeCallResult name
      { success := false
        errorMessage := errorPrefix svc.name "batch" ++ (": function '" ++ (name ++ ("' detected exception: " ++ what))) }

/-- The calls that the loop of a batch makes, and what each of them does. -/
def runCalls : List (FunctionCall π) → σ → List (FunctionCall π × Run σ δ)
  | [], _ => []
  | call :: calls, state =>
    let run := svc.call call state
    (call, run) :: if run.outcome.success then runCalls calls run.state else []

def duration (runs : List (FunctionCall π × Run σ δ)) : ℕ := (runs.map fun r => r.2.duration).sum

/-- The runs, the first of which begins at `time`, that are done before `deadline`, and the others. -/
def doneBefore (deadline : ℕ) : ℕ → List (FunctionCall π × Run σ δ) →
    List (FunctionCall π × Run σ δ) × List (FunctionCall π × Run σ δ)
  | _, [] => ([], [])
  | time, r :: runs =>
    if time + r.2.duration < deadline then
      let rest := doneBefore deadline (time + r.2.duration) runs
      (r :: rest.1, rest.2)
    else ([], r :: runs)

def lastState (state : σ) (runs : List (FunctionCall π × Run σ δ)) : σ := (runs.getLast?.map fun r => r.2.state).getD state

def batchResult (runs : List (FunctionCall π × Run σ δ)) : FunctionBatchResult δ where
  success := runs.all fun r => r.2.outcome.success
  results := runs.map fun r => batchCallResult svc r.1.name r.2.outcome

def batchError (errorMessage : String) : FunctionBatchResult δ where
  success := false
  results := [{ name := "", success := false, errorMessage := errorMessage, data := none }]

/-- Whether a function of the calls requires the scheduler, if all are found. -/
def requireScheduler : List (FunctionCall π) → Option Bool
  | [] => some false
  | call :: calls => do
    let schema ← svc.getSchema call.name
    let require ← requireScheduler calls
    return schema.requireScheduler || require

def callFunctionsSync (timeoutMs : ℕ) (calls : List (FunctionCall π)) (w : World σ π) :
    FunctionBatchResult δ × World σ π :=
  match requireScheduler svc calls with
  | none => (batchError "Failed to call functions asynchronously", w)
  | some false =>
    let runs := runCalls svc calls w.state
    (batchResult svc runs,
      { w with state := lastState w.state runs, now := w.now + duration runs, ran := w.ran ++ runs.map (·.1) })
  | some true =>
    let runs := runCalls svc calls w.state
    let start := max w.now w.busyUntil
    let finish := start + duration runs
    let deadline := w.now + timeoutMs
    if scheduler.reaches = true ∧ finish < deadline then
      (batchResult svc runs,
        { w with state := lastState w.state runs, now := finish, busyUntil := finish, ran := w.ran ++ runs.map (·.1) })
    else
      -- the task is in the queue, and is executed whether or not somebody waits
      let split := if scheduler.reaches then doneBefore deadline start runs else ([], runs)
      (batchError ("Wait timeout after " ++ toString timeoutMs ++ " ms"),
        { w with
          state := lastState w.state split.1
          now := deadline
          ran := w.ran ++ split.1.map (·.1)
          late := w.late ++ split.2.map (·.1) })

/-! ### Other clients -/

/-- A call that is run: of the batch, or of another client and one that requires the scheduler. -/
inductive Event (π : Type*)
  | own (call : FunctionCall π)
  | other (call : FunctionCall π)

def Event.own? : Event π → Option (FunctionCall π)
  | .own call => some call
  | .other _ => none

/-- The calls of a batch and those of other clients may be run in this order: the call group does one
task at a time, and what runs outside of it runs beside it. -/
def Observes (inGroup : Bool) (ran : List (FunctionCall π)) (events : List (Event π)) : Prop :=
  if inGroup then
    ∃ earlier later : List (FunctionCall π), events = earlier.map .other ++ ran.map .own ++ later.map .other
  else events.filterMap Event.own? = ran

def inGroup (calls : List (FunctionCall π)) : Bool :=
  requireScheduler svc calls == some true || scheduler.isCurrentThreadInGroup

end Brookesia.ServiceManager.Sync
