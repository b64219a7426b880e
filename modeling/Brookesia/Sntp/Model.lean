import Brookesia.Transition.Machine

/-! # The SNTP service

`SNTP` as its call group runs it: the functions of the service and its three tasks one after the other, and `start` and `stop` of the
service in between. What the HAL, the storage and the scheduler answer is a parameter of each step.

`tasks` are the periodic and delayed tasks that the scheduler has for the service; a task that returns `false`, or a delayed one that
has run, is gone. `reported` remembers whether the backend has reported the time since it was stopped last. -/

namespace Brookesia.Sntp

open Transition

abbrev TaskId := ℕ

inductive State
  | stopped | checkingNetwork | syncing | synced
deriving DecidableEq

inductive TaskKind
  | waitForNetwork
  | syncTime (startTime : ℕ)
  | retry
deriving DecidableEq

structure Task where
  id : TaskId
  kind : TaskKind
deriving DecidableEq

/-- The answers that a step gets. -/
structure Env where
  sntpFound : Bool := true
  connectivityFound : Bool := true
  maxServers : ℕ := 4
  serversSet : Bool := true
  timezoneSet : Bool := true
  initialized : Bool := true
  started : Bool := true
  lastError : String := ""
  /-- `post_periodic` or `post_delayed` of the scheduler. -/
  posted : Bool := true
  networkReady : Bool := true
  timeSynced : Bool := true
  storageAvailable : Bool := true
  storageBound : Bool := true
  namespaceMade : Bool := true
  timezoneKeyMade : Bool := true
  serversKeyMade : Bool := true
  storedTimezone : Option String := none
  storedServers : Option (List String) := none
deriving DecidableEq

def defaultNtpServer : String := "pool.ntp.org"

def defaultTimezone : String := "CST-8"

def syncTimeTimeoutMs : ℕ := 30000

structure SNTP where
  now : ℕ := 0
  isRunning : Bool := false
  /-- `scheduler_`, `sntp_iface_` and `connectivity_iface_` are set. -/
  scheduler : Bool := false
  sntpIface : Bool := false
  connectivityIface : Bool := false
  state : State := .stopped
  isTimeSynced : Bool := false
  isDataLoaded : Bool := false
  dataServers : List String := [defaultNtpServer]
  dataTimezone : String := defaultTimezone
  waitForNetworkTaskId : TaskId := 0
  syncTimeTaskId : TaskId := 0
  retryTaskId : TaskId := 0
  nextTaskId : TaskId := 1
  tasks : List Task := []
  reported : Bool := false
deriving DecidableEq

/-! ### Tasks and interfaces -/

def SNTP.cancel (s : SNTP) (id : TaskId) : SNTP := { s with tasks := s.tasks.filter (·.id ≠ id) }

def SNTP.post (s : SNTP) (kind : TaskKind) : SNTP :=
  { s with nextTaskId := s.nextTaskId + 1, tasks := s.tasks ++ [⟨s.nextTaskId, kind⟩] }

def ensureSntpIface (s : SNTP) (env : Env) : SNTP := { s with sntpIface := s.sntpIface || env.sntpFound }

def ensureConnectivityIface (s : SNTP) (env : Env) : SNTP :=
  { s with connectivityIface := s.connectivityIface || env.connectivityFound }

def stopTasks (s : SNTP) : SNTP :=
  let cleared := { s with waitForNetworkTaskId := 0, syncTimeTaskId := 0, retryTaskId := 0 }
  if s.scheduler then
    let cleared := if s.waitForNetworkTaskId = 0 then cleared else cleared.cancel s.waitForNetworkTaskId
    let cleared := if s.syncTimeTaskId = 0 then cleared else cleared.cancel s.syncTimeTaskId
    if s.retryTaskId = 0 then cleared else cleared.cancel s.retryTaskId
  else cleared

def stopBackend (s : SNTP) : SNTP := { s with isTimeSynced := false, reported := false }

def setState (s : SNTP) (state : State) : SNTP := { s with state := state }

def stopStateMachine (s : SNTP) (nextState : State) : SNTP := setState (stopBackend (stopTasks s)) nextState

/-! ### The state machine -/

def startCheckingNetwork (s : SNTP) (env : Env) : SNTP × Bool :=
  if s.scheduler then
    let s := ensureConnectivityIface s env
    if s.connectivityIface then
      let s := setState s .checkingNetwork
      if env.posted then ({ s.post .waitForNetwork with waitForNetworkTaskId := s.nextTaskId }, true) else (s, false)
    else (s, false)
  else (s, false)

def startStateMachine (s : SNTP) (env : Env) : SNTP × Bool :=
  if s.scheduler then
    let s := ensureConnectivityIface s env
    if s.connectivityIface then startCheckingNetwork (stopBackend (stopTasks s)) env else (s, false)
  else (s, false)

def startSyncing (s : SNTP) (env : Env) : SNTP × Bool :=
  if s.scheduler then
    let s := ensureSntpIface s env
    if s.sntpIface then
      let s := stopBackend s
      if env.initialized then
        if env.started then
          let s := setState s .syncing
          if env.posted then ({ s.post (.syncTime s.now) with syncTimeTaskId := s.nextTaskId }, true) else (s, false)
        else startCheckingNetwork (stopBackend s) env
      else startCheckingNetwork s env
    else (s, false)
  else (s, false)

/-! ### The tasks, with what they return -/

def waitForNetworkTask (s : SNTP) (env : Env) : SNTP × Bool :=
  if s.isRunning then
    if s.connectivityIface && env.networkReady then ((startSyncing { s with waitForNetworkTaskId := 0 } env).1, false)
    else (s, true)
  else ({ s with waitForNetworkTaskId := 0 }, false)

def syncTimeTask (s : SNTP) (startTime : ℕ) (env : Env) : SNTP × Bool :=
  if s.isRunning then
    if s.sntpIface && env.timeSynced then
      (setState { s with isTimeSynced := true, syncTimeTaskId := 0 } .synced, false)
    else if s.now - startTime ≤ syncTimeTimeoutMs then (s, true)
    else
      let s := stopBackend s
      if env.posted then ({ s.post .retry with retryTaskId := s.nextTaskId, syncTimeTaskId := 0 }, false) else (s, false)
  else ({ s with syncTimeTaskId := 0 }, false)

def retryTask (s : SNTP) (env : Env) : SNTP :=
  let s := { s with retryTaskId := 0 }
  if s.isRunning then (startCheckingNetwork s env).1 else s

def runTask (s : SNTP) (task : Task) (env : Env) : SNTP :=
  match task.kind with
  | .waitForNetwork =>
    let ran := waitForNetworkTask s env
    if ran.2 then ran.1 else ran.1.cancel task.id
  | .syncTime startTime =>
    let ran := syncTimeTask s startTime env
    if ran.2 then ran.1 else ran.1.cancel task.id
  | .retry => (retryTask s env).cancel task.id

/-! ### The functions of the service -/

/-- The servers that are to be set, with the default if the list is empty. -/
def withDefault (servers : List String) : List String := if servers = [] then [defaultNtpServer] else servers

/-- `servers` is `none` if the array cannot be read. -/
def functionSetServers (s : SNTP) (servers : Option (List String)) (env : Env) : SNTP × Except String Unit :=
  match servers with
  | none => (s, .error "Failed to parse servers list")
  | some servers =>
    let servers := withDefault servers
    let s := ensureSntpIface s env
    if s.sntpIface then
      if env.maxServers < servers.length then
        (s, .error ("The number of servers (" ++ toString servers.length ++ ") is greater than the maximum number of servers (" ++
          toString env.maxServers ++ ")"))
      else if env.serversSet then
        let s := { s with dataServers := servers }
        if s.isRunning ∧ s.state ≠ .stopped then
          let started := startStateMachine s env
          (started.1, if started.2 then .ok () else .error "Failed to restart SNTP")
        else (s, .ok ())
      else (s, .error ("Failed to apply SNTP servers: " ++ env.lastError))
    else (s, .error "SNTP interface is not available")

def functionSetTimezone (s : SNTP) (timezone : String) (env : Env) : SNTP × Except String Unit :=
  if timezone = "" then (s, .error "Timezone is empty")
  else
    let s := ensureSntpIface s env
    if s.sntpIface then
      if env.timezoneSet then ({ s with dataTimezone := timezone }, .ok ())
      else (s, .error ("Failed to apply SNTP timezone: " ++ env.lastError))
    else (s, .error "SNTP interface is not available")

def functionStart (s : SNTP) (env : Env) : SNTP × Except String Unit :=
  let started := startStateMachine s env
  (started.1, if started.2 then .ok ()
    else .error (if started.1.sntpIface then env.lastError else "SNTP interface is not available"))

def functionStop (s : SNTP) : SNTP := stopStateMachine s .stopped

def functionIsTimeSynced (s : SNTP) (env : Env) : SNTP × Bool :=
  let s := if s.sntpIface then
      { s with isTimeSynced := s.isTimeSynced || env.timeSynced, reported := s.reported || env.timeSynced }
    else s
  (s, s.isTimeSynced)

def resetData (s : SNTP) : SNTP :=
  { s with dataServers := [defaultNtpServer], dataTimezone := defaultTimezone, isTimeSynced := false }

def functionResetData (s : SNTP) (env : Env) : SNTP × Except String Unit :=
  let s := resetData s
  if s.isRunning then
    let started := startStateMachine s env
    (started.1, if started.2 then .ok () else .error "Failed to restart SNTP")
  else (s, .ok ())

def loadTimezone (s : SNTP) (env : Env) : SNTP :=
  match env.storedTimezone with
  | none => s
  | some timezone => { s with dataTimezone := if timezone = "" then defaultTimezone else timezone }

def loadServers (s : SNTP) (env : Env) : SNTP :=
  match env.storedServers with
  | none => s
  | some servers => { s with dataServers := withDefault servers }

def tryLoadData (s : SNTP) (env : Env) : SNTP :=
  if s.isDataLoaded then s
  else if env.storageAvailable then
    if env.storageBound then
      let s := { s with isDataLoaded := true }
      if env.namespaceMade ∧ env.timezoneKeyMade then
        let s := loadTimezone s env
        if env.serversKeyMade then loadServers s env else s
      else s
    else s
  else { s with isDataLoaded := true }

def functionLoadData (s : SNTP) (env : Env) : SNTP := tryLoadData { s with isDataLoaded := false } env

/-! ### The service -/

def onStop (s : SNTP) : SNTP := { stopStateMachine s .stopped with scheduler := false, isDataLoaded := false }

/-- `start` of the service; what `on_start` leaves when it fails is stopped. -/
def start (s : SNTP) (env : Env) : SNTP :=
  if s.isRunning then s
  else
    let started := startStateMachine (tryLoadData { s with isRunning := true, scheduler := true } env) env
    if started.2 then started.1 else { onStop started.1 with isRunning := false }

def stop (s : SNTP) : SNTP := if s.isRunning then { onStop s with isRunning := false } else s

def deinit (s : SNTP) : SNTP :=
  { onStop (stop s) with sntpIface := false, connectivityIface := false }

inductive Label
  | start (env : Env)
  | stop
  | deinit
  | functionStart (env : Env)
  | functionStop
  | functionSetServers (servers : Option (List String)) (env : Env)
  | functionSetTimezone (timezone : String) (env : Env)
  | functionIsTimeSynced (env : Env)
  | functionResetData (env : Env)
  | functionLoadData (env : Env)
  | run (task : Task) (env : Env)
  | tick (ms : ℕ)
deriving DecidableEq

def step (s : SNTP) : Label → Option SNTP
  | .start env => some (start s env)
  | .stop => some (stop s)
  | .deinit => some (deinit s)
  | .functionStart env => if s.isRunning then some (functionStart s env).1 else none
  | .functionStop => if s.isRunning then some (functionStop s) else none
  | .functionSetServers servers env => if s.isRunning then some (functionSetServers s servers env).1 else none
  | .functionSetTimezone timezone env => if s.isRunning then some (functionSetTimezone s timezone env).1 else none
  | .functionIsTimeSynced env => if s.isRunning then some (functionIsTimeSynced s env).1 else none
  | .functionResetData env => if s.isRunning then some (functionResetData s env).1 else none
  | .functionLoadData env => if s.isRunning then some (functionLoadData s env) else none
  | .run task env => if task ∈ s.tasks then some (runTask s task env) else none
  | .tick ms => some { s with now := s.now + ms }

def sntp : Machine SNTP Label where
  init s := s = {}
  step := step

end Brookesia.Sntp
