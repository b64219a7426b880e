import Brookesia.Sntp.Model

/-! # The tasks that the states need

`TasksFit`: one task at most is pending, the one that the state needs, and the ids are those of the pending tasks. A step that cannot
post its task, or that cannot find the SNTP interface when the network is ready, leaves a state without a task; `tasks_fit_exact` says
that nothing else does. -/

namespace Brookesia.Sntp

open Transition List Option

/-! ### The property -/

def TaskKind.isSync : TaskKind → Bool
  | .syncTime _ => true
  | _ => false

def pendingId (s : SNTP) (kind : TaskKind → Bool) : TaskId := ((s.tasks.find? fun task => kind task.kind).map Task.id).getD 0

structure TasksFit (s : SNTP) : Prop where
  one : s.tasks.length ≤ 1
  checking : s.state = .checkingNetwork → ∃ task ∈ s.tasks, task.kind = .waitForNetwork
  syncing : s.state = .syncing → ∃ task ∈ s.tasks, task.kind.isSync = true ∨ task.kind = .retry
  idle : s.state = .stopped ∨ s.state = .synced → s.tasks = []
  wait : s.waitForNetworkTaskId = pendingId s (· = .waitForNetwork)
  sync : s.syncTimeTaskId = pendingId s TaskKind.isSync
  retry : s.retryTaskId = pendingId s (· = .retry)
  synced : s.isTimeSynced = true → s.state = .synced ∨ s.reported = true

def RunsFit (s : SNTP) : Prop := s.isRunning = true → TasksFit s

/-! ### The condition -/

/-- `function_set_servers` restarts the state machine. -/
def restarts (s : SNTP) (servers : Option (List String)) (env : Env) : Prop :=
  ∃ list ∈ servers, (s.sntpIface || env.sntpFound) = true ∧ (withDefault list).length ≤ env.maxServers ∧ env.serversSet = true ∧
    s.state ≠ .stopped

instance (s : SNTP) (servers : Option (List String)) (env : Env) : Decidable (restarts s servers env) :=
  inferInstanceAs (Decidable (∃ _ ∈ _, _))

/-- A task that the step comes to post is posted, and the SNTP interface is found when the network is ready. -/
def NothingFails (s : SNTP) : Label → Prop
  | .functionStart env | .functionResetData env => env.posted = true
  | .functionSetServers servers env => restarts s servers env → env.posted = true
  | .run task env =>
    match task.kind with
    | .waitForNetwork => env.networkReady = true → (s.sntpIface || env.sntpFound) = true ∧ env.posted = true
    | .syncTime startTime =>
      (s.sntpIface && env.timeSynced) = false → syncTimeTimeoutMs < s.now - startTime → env.posted = true
    | .retry => env.posted = true
  | _ => True

/-! ### The invariant -/

/-- The pending task, with its id in its place, for each state. -/
inductive Pending (s : SNTP) : Prop
  | checking {id : TaskId} (hstate : s.state = .checkingNetwork) (htasks : s.tasks = [⟨id, .waitForNetwork⟩])
      (hwait : s.waitForNetworkTaskId = id) (hsync : s.syncTimeTaskId = 0) (hretry : s.retryTaskId = 0)
  | syncing {id : TaskId} {startTime : ℕ} (hstate : s.state = .syncing) (htasks : s.tasks = [⟨id, .syncTime startTime⟩])
      (hwait : s.waitForNetworkTaskId = 0) (hsync : s.syncTimeTaskId = id) (hretry : s.retryTaskId = 0)
  | retrying {id : TaskId} (hstate : s.state = .syncing) (htasks : s.tasks = [⟨id, .retry⟩])
      (hwait : s.waitForNetworkTaskId = 0) (hsync : s.syncTimeTaskId = 0) (hretry : s.retryTaskId = id)
  | idle (hstate : s.state = .stopped ∨ s.state = .synced) (htasks : s.tasks = [])
      (hwait : s.waitForNetworkTaskId = 0) (hsync : s.syncTimeTaskId = 0) (hretry : s.retryTaskId = 0)

structure Inv (s : SNTP) : Prop where
  fresh : ∀ task ∈ s.tasks, 0 < task.id ∧ task.id < s.nextTaskId
  next : 0 < s.nextTaskId
  pending : s.isRunning = true → Pending s
  scheduler : s.isRunning = true → s.scheduler = true
  connectivity : s.isRunning = true → s.connectivityIface = true
  stopped : s.isRunning = false → s.tasks = []
  synced : s.isTimeSynced = true → s.state = .synced ∨ s.reported = true

section
variable {s : SNTP} {env : Env}

theorem Pending.tasksFit (hs : Pending s) (hsyn : s.isTimeSynced = true → s.state = .synced ∨ s.reported = true) :
    TasksFit s := by
  cases hs with
  | checking hstate htks hwait hsync hretry =>
    refine ⟨?_, ?_, ?_, ?_, ?_, ?_, ?_, hsyn⟩ <;> simp [htks, hstate, hwait, hsync, hretry, pendingId, TaskKind.isSync]
  | syncing hstate htks hwait hsync hretry =>
    refine ⟨?_, ?_, ?_, ?_, ?_, ?_, ?_, hsyn⟩ <;> simp [htks, hstate, hwait, hsync, hretry, pendingId, TaskKind.isSync]
  | retrying hstate htks hwait hsync hretry =>
    refine ⟨?_, ?_, ?_, ?_, ?_, ?_, ?_, hsyn⟩ <;> simp [htks, hstate, hwait, hsync, hretry, pendingId, TaskKind.isSync]
  | idle hstate htks hwait hsync hretry =>
    refine ⟨?_, ?_, ?_, fun _ => htks, ?_, ?_, ?_, hsyn⟩
    · simp [htks]
    · intro hchecking
      rcases hstate with h | h <;> cases h.symm.trans hchecking
    · intro hsyncing
      rcases hstate with h | h <;> cases h.symm.trans hsyncing
    all_goals simp [htks, hwait, hsync, hretry, pendingId]

theorem Pending.stored (hs : Pending s) :
    ∀ task ∈ s.tasks, task.id = s.waitForNetworkTaskId ∨ task.id = s.syncTimeTaskId ∨ task.id = s.retryTaskId := by
  intro task htask
  cases hs with
  | checking _ htks hwait => exact .inl (hwait ▸ congrArg Task.id (mem_singleton.mp (htks ▸ htask)))
  | syncing _ htks _ hsync => exact .inr (.inl (hsync ▸ congrArg Task.id (mem_singleton.mp (htks ▸ htask))))
  | retrying _ htks _ _ hretry => exact .inr (.inr (hretry ▸ congrArg Task.id (mem_singleton.mp (htks ▸ htask))))
  | idle _ htks => exact absurd (htks ▸ htask) not_mem_nil

variable {id : TaskId} {s' : SNTP}

theorem mem_cancelUnless {task : Task} (h : task ∈ (if id = 0 then s else s.cancel id).tasks) :
    task ∈ s.tasks ∧ (id ≠ 0 → task.id ≠ id) := by
  split_ifs at h with hid
  · exact ⟨h, fun hne => absurd hid hne⟩
  · obtain ⟨hmem, hne⟩ := mem_filter.mp h
    exact ⟨hmem, fun _ => of_decide_eq_true hne⟩

theorem Inv.stored (hs : Inv s) : ∀ task ∈ s.tasks, task.id ≠ 0 ∧
    (task.id = s.waitForNetworkTaskId ∨ task.id = s.syncTimeTaskId ∨ task.id = s.retryTaskId) := by
  intro task htask
  refine ⟨(hs.fresh task htask).1.ne', ?_⟩
  by_cases hrun : s.isRunning = true
  · exact (hs.pending hrun).stored task htask
  · rw [hs.stopped (Bool.eq_false_iff.mpr hrun)] at htask
    exact absurd htask not_mem_nil

theorem stopTasks_eq (hsch : s.scheduler = true) (hsto : ∀ task ∈ s.tasks, task.id ≠ 0 ∧
    (task.id = s.waitForNetworkTaskId ∨ task.id = s.syncTimeTaskId ∨ task.id = s.retryTaskId)) :
    stopTasks s = { s with waitForNetworkTaskId := 0, syncTimeTaskId := 0, retryTaskId := 0, tasks := [] } := by
  have hnone : (stopTasks s).tasks = [] := by
    refine eq_nil_iff_forall_not_mem.mpr fun task htask => ?_
    unfold stopTasks at htask
    rw [if_pos hsch] at htask
    obtain ⟨htask, hretry⟩ := mem_cancelUnless htask
    obtain ⟨htask, hsync⟩ := mem_cancelUnless htask
    obtain ⟨htask, hwait⟩ := mem_cancelUnless htask
    obtain ⟨hne, hid | hid | hid⟩ := hsto task htask
    · exact hwait (hid ▸ hne) hid
    · exact hsync (hid ▸ hne) hid
    · exact hretry (hid ▸ hne) hid
  have hrest : stopTasks s =
      { s with waitForNetworkTaskId := 0, syncTimeTaskId := 0, retryTaskId := 0, tasks := (stopTasks s).tasks } := by
    unfold stopTasks
    rw [if_pos hsch]
    split_ifs <;> rfl
  rw [hrest, hnone]

theorem ensureConnectivityIface_eq (h : s.connectivityIface = true) : ensureConnectivityIface s env = s := by
  cases s
  cases h
  rfl

/-! ### What the steps come to -/

/-- `CheckingNetwork` from `s`, with the wait task if it is posted. -/
def checked (s : SNTP) (posted : Bool) : SNTP :=
  { s with
    state := .checkingNetwork
    waitForNetworkTaskId := if posted then s.nextTaskId else 0
    syncTimeTaskId := 0
    retryTaskId := 0
    nextTaskId := if posted then s.nextTaskId + 1 else s.nextTaskId
    tasks := if posted then [⟨s.nextTaskId, .waitForNetwork⟩] else [] }

/-- `Syncing` from `s`, with the sync task if it is posted. -/
def syncStarted (s : SNTP) (posted : Bool) : SNTP :=
  { s with
    state := .syncing
    waitForNetworkTaskId := 0
    syncTimeTaskId := if posted then s.nextTaskId else 0
    retryTaskId := 0
    nextTaskId := if posted then s.nextTaskId + 1 else s.nextTaskId
    tasks := if posted then [⟨s.nextTaskId, .syncTime s.now⟩] else [] }

theorem startCheckingNetwork_eq (hsch : s.scheduler = true) (hconn : s.connectivityIface = true) :
    startCheckingNetwork s env = if env.posted then
      ({ (setState s .checkingNetwork).post .waitForNetwork with waitForNetworkTaskId := s.nextTaskId }, true)
    else (setState s .checkingNetwork, false) := by
  unfold startCheckingNetwork
  rw [if_pos hsch]
  dsimp only
  rw [ensureConnectivityIface_eq hconn, if_pos hconn]
  rfl

theorem startStateMachine_eq (hsch : s.scheduler = true)
    (hconn : (s.connectivityIface || env.connectivityFound) = true) (hsto : ∀ task ∈ s.tasks, task.id ≠ 0 ∧
      (task.id = s.waitForNetworkTaskId ∨ task.id = s.syncTimeTaskId ∨ task.id = s.retryTaskId)) :
    startStateMachine s env = (checked (stopBackend { s with connectivityIface := true }) env.posted, env.posted) := by
  have hchk : ∀ t : SNTP, t.scheduler = true → t.connectivityIface = true → (∀ task ∈ t.tasks, task.id ≠ 0 ∧
      (task.id = t.waitForNetworkTaskId ∨ task.id = t.syncTimeTaskId ∨ task.id = t.retryTaskId)) →
        startCheckingNetwork (stopBackend (stopTasks t)) env = (checked (stopBackend t) env.posted, env.posted) := by
    intro t hsch hconn hsto
    rw [stopTasks_eq hsch hsto]
    refine (@startCheckingNetwork_eq (stopBackend { t with
      waitForNetworkTaskId := 0, syncTimeTaskId := 0, retryTaskId := 0, tasks := [] }) env hsch hconn).trans ?_
    cases env.posted with
    | true => rfl
    | false => rfl
  unfold startStateMachine
  rw [if_pos hsch]
  dsimp only
  have hensured : ensureConnectivityIface s env = { s with connectivityIface := true } := by
    unfold ensureConnectivityIface
    rw [hconn]
  rw [hensured, if_pos rfl]
  exact hchk { s with connectivityIface := true } hsch rfl hsto

/-- With the network ready and the interface found, the wait task goes on to the synchronization, or checks the network again. -/
theorem runTask_wait (hs : Inv s) (hrun : s.isRunning = true) (htks : s.tasks = [⟨id, .waitForNetwork⟩])
    (hsync : s.syncTimeTaskId = 0) (hretry : s.retryTaskId = 0) (hrdy : env.networkReady = true)
    (hfnd : (s.sntpIface || env.sntpFound) = true) :
    runTask s ⟨id, .waitForNetwork⟩ env = if env.initialized ∧ env.started then
      syncStarted (stopBackend { s with sntpIface := true }) env.posted
    else checked (stopBackend { s with sntpIface := true }) env.posted := by
  have hne : s.nextTaskId ≠ id := (hs.fresh _ (htks ▸ mem_singleton_self _)).2.ne'
  have hsch := hs.scheduler hrun
  have hconn := hs.connectivity hrun
  unfold runTask waitForNetworkTask startSyncing ensureSntpIface
  simp only [hrun, hconn, hrdy, hsch, hfnd, Bool.and_self, if_true, Bool.false_eq_true, if_false]
  cases env.initialized <;> cases env.started <;> cases hpost : env.posted <;>
    simp [startCheckingNetwork, ensureConnectivityIface, SNTP.cancel, SNTP.post, setState, stopBackend, checked, syncStarted,
      htks, hsync, hretry, hne, hpost]

theorem runTask_wait_notFound (hs : Inv s) (hrun : s.isRunning = true)
    (htks : s.tasks = [⟨id, .waitForNetwork⟩]) (hrdy : env.networkReady = true)
    (hfnd : (s.sntpIface || env.sntpFound) = false) :
    runTask s ⟨id, .waitForNetwork⟩ env = { s with sntpIface := false, waitForNetworkTaskId := 0, tasks := [] } := by
  have hsch := hs.scheduler hrun
  have hconn := hs.connectivity hrun
  unfold runTask waitForNetworkTask startSyncing ensureSntpIface
  simp [hrun, hconn, hrdy, hsch, hfnd, SNTP.cancel, htks]

theorem runTask_expired {startTime : ℕ} (hs : Inv s) (hrun : s.isRunning = true)
    (htks : s.tasks = [⟨id, .syncTime startTime⟩]) (hsyn : (s.sntpIface && env.timeSynced) = false)
    (hexpi : syncTimeTimeoutMs < s.now - startTime) :
    runTask s ⟨id, .syncTime startTime⟩ env = if env.posted then
      { stopBackend s with
        syncTimeTaskId := 0, retryTaskId := s.nextTaskId, nextTaskId := s.nextTaskId + 1, tasks := [⟨s.nextTaskId, .retry⟩] }
    else { stopBackend s with tasks := [] } := by
  have hne : s.nextTaskId ≠ id := (hs.fresh _ (htks ▸ mem_singleton_self _)).2.ne'
  unfold runTask syncTimeTask
  cases env.posted <;> simp [hrun, hsyn, hexpi.not_ge, SNTP.cancel, SNTP.post, stopBackend, htks, hne]

theorem runTask_retry (hs : Inv s) (hrun : s.isRunning = true) (htks : s.tasks = [⟨id, .retry⟩])
    (hwait : s.waitForNetworkTaskId = 0) (hsync : s.syncTimeTaskId = 0) :
    runTask s ⟨id, .retry⟩ env = checked s env.posted := by
  have hne : s.nextTaskId ≠ id := (hs.fresh _ (htks ▸ mem_singleton_self _)).2.ne'
  have hsch := hs.scheduler hrun
  have hconn := hs.connectivity hrun
  unfold runTask retryTask startCheckingNetwork ensureConnectivityIface
  cases env.posted <;>
    simp [hrun, hsch, hconn, SNTP.cancel, SNTP.post, setState, checked, htks, hwait, hsync, hne]

/-! ### Steps that post their task, and steps that do not -/

theorem Inv.checked (hnext : 0 < s.nextTaskId) (hrun : s.isRunning = true) (hsch : s.scheduler = true)
    (hconn : s.connectivityIface = true) (hsyn : s.isTimeSynced = true → s.reported = true) :
    Inv (checked s true) where
  fresh task htask := by
    rw [mem_singleton.mp htask]
    exact ⟨hnext, Nat.lt_succ_self _⟩
  next := Nat.succ_pos _
  pending _ := .checking rfl rfl rfl rfl rfl
  scheduler _ := hsch
  connectivity _ := hconn
  stopped hstop := absurd hrun (Bool.eq_false_iff.mp hstop)
  synced h := .inr (hsyn h)

theorem Inv.syncStarted (hnext : 0 < s.nextTaskId) (hrun : s.isRunning = true) (hsch : s.scheduler = true)
    (hconn : s.connectivityIface = true) (hsyn : s.isTimeSynced = true → s.reported = true) :
    Inv (syncStarted s true) where
  fresh task htask := by
    rw [mem_singleton.mp htask]
    exact ⟨hnext, Nat.lt_succ_self _⟩
  next := Nat.succ_pos _
  pending _ := .syncing rfl rfl rfl rfl rfl
  scheduler _ := hsch
  connectivity _ := hconn
  stopped hstop := absurd hrun (Bool.eq_false_iff.mp hstop)
  synced h := .inr (hsyn h)

theorem not_tasksFit_checking (hstate : s.state = .checkingNetwork) (htks : s.tasks = []) : ¬ TasksFit s := by
  intro h
  obtain ⟨task, htask, -⟩ := h.checking hstate
  exact not_mem_nil (htks ▸ htask)

theorem not_tasksFit_syncing (hstate : s.state = .syncing) (htks : s.tasks = []) : ¬ TasksFit s := by
  intro h
  obtain ⟨task, htask, -⟩ := h.syncing hstate
  exact not_mem_nil (htks ▸ htask)

/-! ### The other steps -/

/-- What the invariant speaks of is left as it is. -/
structure Same (s s' : SNTP) : Prop where
  isRunning : s'.isRunning = s.isRunning
  scheduler : s'.scheduler = s.scheduler
  connectivityIface : s'.connectivityIface = s.connectivityIface
  state : s'.state = s.state
  isTimeSynced : s'.isTimeSynced = s.isTimeSynced
  reported : s'.reported = s.reported
  waitForNetworkTaskId : s'.waitForNetworkTaskId = s.waitForNetworkTaskId
  syncTimeTaskId : s'.syncTimeTaskId = s.syncTimeTaskId
  retryTaskId : s'.retryTaskId = s.retryTaskId
  nextTaskId : s'.nextTaskId = s.nextTaskId
  tasks : s'.tasks = s.tasks

theorem Same.refl (s : SNTP) : Same s s := ⟨rfl, rfl, rfl, rfl, rfl, rfl, rfl, rfl, rfl, rfl, rfl⟩

theorem Pending.congr (hs : Pending s) (hstate' : s'.state = s.state) (htks' : s'.tasks = s.tasks)
    (hwait' : s'.waitForNetworkTaskId = s.waitForNetworkTaskId) (hsync' : s'.syncTimeTaskId = s.syncTimeTaskId)
    (hretry' : s'.retryTaskId = s.retryTaskId) : Pending s' := by
  cases hs with
  | checking hstate htks hwait hsync hretry =>
    exact .checking (hstate'.trans hstate) (htks'.trans htks) (hwait'.trans hwait) (hsync'.trans hsync) (hretry'.trans hretry)
  | syncing hstate htks hwait hsync hretry =>
    exact .syncing (hstate'.trans hstate) (htks'.trans htks) (hwait'.trans hwait) (hsync'.trans hsync) (hretry'.trans hretry)
  | retrying hstate htks hwait hsync hretry =>
    exact .retrying (hstate'.trans hstate) (htks'.trans htks) (hwait'.trans hwait) (hsync'.trans hsync) (hretry'.trans hretry)
  | idle hstate htks hwait hsync hretry =>
    exact .idle (hstate' ▸ hstate) (htks'.trans htks) (hwait'.trans hwait) (hsync'.trans hsync) (hretry'.trans hretry)

theorem Inv.same (hs : Inv s) (h : Same s s') : Inv s' where
  fresh := by
    rw [h.tasks, h.nextTaskId]
    exact hs.fresh
  next := h.nextTaskId ▸ hs.next
  pending hrun := (hs.pending (h.isRunning ▸ hrun)).congr h.state h.tasks h.waitForNetworkTaskId h.syncTimeTaskId
    h.retryTaskId
  scheduler hrun := h.scheduler ▸ hs.scheduler (h.isRunning ▸ hrun)
  connectivity hrun := h.connectivityIface ▸ hs.connectivity (h.isRunning ▸ hrun)
  stopped hstop := h.tasks ▸ hs.stopped (h.isRunning ▸ hstop)
  synced := by
    rw [h.isTimeSynced, h.state, h.reported]
    exact hs.synced

theorem same_tryLoadData (s : SNTP) (env : Env) : Same s (tryLoadData s env) := by
  have htimezone : ∀ t, Same s t → Same s (loadTimezone t env) := by
    intro t ht
    unfold loadTimezone
    split
    · exact ht
    · exact ⟨ht.1, ht.2, ht.3, ht.4, ht.5, ht.6, ht.7, ht.8, ht.9, ht.10, ht.11⟩
  have hservers : ∀ t, Same s t → Same s (loadServers t env) := by
    intro t ht
    unfold loadServers
    split
    · exact ht
    · exact ⟨ht.1, ht.2, ht.3, ht.4, ht.5, ht.6, ht.7, ht.8, ht.9, ht.10, ht.11⟩
  have hloaded : Same s { s with isDataLoaded := true } := ⟨rfl, rfl, rfl, rfl, rfl, rfl, rfl, rfl, rfl, rfl, rfl⟩
  unfold tryLoadData
  dsimp only
  split_ifs
  · exact .refl s
  · exact hservers _ (htimezone _ hloaded)
  · exact htimezone _ hloaded
  · exact hloaded
  · exact .refl s
  · exact hloaded

theorem Inv.of_stopped (hstop : s.isRunning = false) (htks : s.tasks = []) (hnext : 0 < s.nextTaskId)
    (hsyn : s.isTimeSynced = false) : Inv s where
  fresh _ htask := absurd (htks ▸ htask) not_mem_nil
  next := hnext
  pending hrun := absurd hrun (Bool.eq_false_iff.mp hstop)
  scheduler hrun := absurd hrun (Bool.eq_false_iff.mp hstop)
  connectivity hrun := absurd hrun (Bool.eq_false_iff.mp hstop)
  stopped _ := htks
  synced h := absurd h (Bool.eq_false_iff.mp hsyn)

theorem stopTasks_fields (s : SNTP) : (∀ task ∈ (stopTasks s).tasks, task ∈ s.tasks) ∧
    (stopTasks s).nextTaskId = s.nextTaskId ∧ (stopTasks s).isRunning = s.isRunning := by
  unfold stopTasks
  split_ifs
  all_goals refine ⟨fun task htask => ?_, rfl, rfl⟩
  all_goals simp only [SNTP.cancel, mem_filter] at htask
  all_goals tauto

theorem Inv.onStop (htks : s.tasks = []) (hnext : 0 < s.nextTaskId)
    (h : s' = { onStop s with isRunning := false }) : Inv s' := by
  obtain ⟨hsubt, hsame, -⟩ := stopTasks_fields s
  subst h
  refine .of_stopped rfl ?_ (hsame ▸ hnext) rfl
  exact eq_nil_iff_forall_not_mem.mpr fun task htask => not_mem_nil (htks ▸ hsubt task htask)

theorem Inv.stop (hs : Inv s) : Inv (stop s) := by
  unfold Sntp.stop
  split_ifs with hrun
  · refine .of_stopped rfl ?_ ((stopTasks_fields s).2.1 ▸ hs.next) rfl
    show (stopTasks s).tasks = []
    rw [stopTasks_eq (hs.scheduler hrun) hs.stored]
  · exact hs

theorem Inv.deinit (hs : Inv s) : Inv (deinit s) := by
  have hstop : (Sntp.stop s).isRunning = false := by
    unfold Sntp.stop
    split_ifs with hrun
    · rfl
    · exact Bool.eq_false_iff.mpr hrun
  obtain ⟨hsubt, hsame, hsame'⟩ := stopTasks_fields (Sntp.stop s)
  refine .of_stopped (hsame'.trans hstop) ?_ (hsame ▸ hs.stop.next) rfl
  exact eq_nil_iff_forall_not_mem.mpr fun task htask => not_mem_nil (hs.stop.stopped hstop ▸ hsubt task htask)

theorem Inv.functionStop (hs : Inv s) (hrun : s.isRunning = true) : Inv (functionStop s) := by
  have hclr := stopTasks_eq (hs.scheduler hrun) hs.stored
  unfold Sntp.functionStop stopStateMachine
  rw [hclr]
  refine ⟨fun task htask => absurd htask not_mem_nil, hs.next, fun _ => .idle (.inl rfl) rfl rfl rfl rfl, ?_, ?_,
    fun _ => rfl, fun h => absurd h Bool.false_ne_true⟩
  · exact fun _ => hs.scheduler hrun
  · exact fun _ => hs.connectivity hrun

theorem Inv.restart (hs : Inv s) (hrun : s.isRunning = true) (hpost : env.posted = true) :
    Inv (startStateMachine s env).1 := by
  have hconn := hs.connectivity hrun
  rw [startStateMachine_eq (hs.scheduler hrun) (Bool.or_eq_true_iff.mpr (.inl hconn)) hs.stored, hpost]
  exact .checked hs.next hrun (hs.scheduler hrun) rfl fun h => absurd h Bool.false_ne_true

theorem Inv.restart_fails (hs : Inv s) (hrun : s.isRunning = true) (hpost : env.posted = false) :
    ¬ RunsFit (startStateMachine s env).1 := by
  have hconn := hs.connectivity hrun
  rw [startStateMachine_eq (hs.scheduler hrun) (Bool.or_eq_true_iff.mpr (.inl hconn)) hs.stored, hpost]
  exact fun h => not_tasksFit_checking rfl rfl (h hrun)

theorem Inv.start (hs : Inv s) (env : Env) : Inv (start s env) := by
  unfold Sntp.start
  by_cases hrun : s.isRunning = true
  · rw [if_pos hrun]
    exact hs
  · rw [if_neg hrun]
    dsimp only
    have hsame := same_tryLoadData { s with isRunning := true, scheduler := true } env
    generalize tryLoadData { s with isRunning := true, scheduler := true } env = t at hsame
    have htks : t.tasks = [] := hsame.tasks.trans (hs.stopped (Bool.eq_false_iff.mpr hrun))
    have hnext : 0 < t.nextTaskId := hsame.nextTaskId ▸ hs.next
    have hsch : t.scheduler = true := hsame.scheduler
    have hsto : ∀ task ∈ t.tasks, task.id ≠ 0 ∧
        (task.id = t.waitForNetworkTaskId ∨ task.id = t.syncTimeTaskId ∨ task.id = t.retryTaskId) :=
      fun task htask => absurd (htks ▸ htask) not_mem_nil
    cases hfnd : (t.connectivityIface || env.connectivityFound) with
    | true =>
      rw [startStateMachine_eq hsch hfnd hsto]
      cases env.posted with
      | true => exact .checked hnext hsame.isRunning hsch rfl fun h => absurd h Bool.false_ne_true
      | false => exact .onStop (s := Sntp.checked (stopBackend { t with connectivityIface := true }) false) rfl hnext rfl
    | false =>
      have hfails : startStateMachine t env = ({ t with connectivityIface := false }, false) := by
        unfold startStateMachine ensureConnectivityIface
        rw [if_pos hsch]
        dsimp only
        rw [hfnd, if_neg Bool.false_ne_true]
      rw [hfails]
      exact .onStop (s := { t with connectivityIface := false }) htks hnext rfl

theorem functionSetServers_cases (hrun : s.isRunning = true) (servers : Option (List String)) (env : Env) :
    ∃ t, Same s t ∧ (restarts s servers env → (functionSetServers s servers env).1 = (startStateMachine t env).1) ∧
      (¬ restarts s servers env → (functionSetServers s servers env).1 = t) := by
  have hset : ∀ list, Same s { ensureSntpIface s env with dataServers := list } :=
    fun _ => ⟨rfl, rfl, rfl, rfl, rfl, rfl, rfl, rfl, rfl, rfl, rfl⟩
  have hensured : Same s (ensureSntpIface s env) := ⟨rfl, rfl, rfl, rfl, rfl, rfl, rfl, rfl, rfl, rfl, rfl⟩
  cases servers with
  | none =>
    refine ⟨s, .refl s, ?_, fun _ => rfl⟩
    rintro ⟨_, hlist, -⟩
    exact absurd hlist (not_mem_none _)
  | some list =>
    have hiff : restarts s (some list) env ↔ (s.sntpIface || env.sntpFound) = true ∧
        (withDefault list).length ≤ env.maxServers ∧ env.serversSet = true ∧ s.state ≠ .stopped := by
      refine ⟨?_, fun hrest => ⟨list, rfl, hrest⟩⟩
      rintro ⟨_, hlist, hrest⟩
      cases hlist
      exact hrest
    rw [hiff]
    unfold functionSetServers
    dsimp only
    by_cases hfnd : (ensureSntpIface s env).sntpIface = true
    · rw [if_pos hfnd]
      by_cases hmany : env.maxServers < (withDefault list).length
      · rw [if_pos hmany]
        exact ⟨_, hensured, fun h => absurd h.2.1 hmany.not_ge, fun _ => rfl⟩
      · rw [if_neg hmany]
        by_cases happ : env.serversSet = true
        · rw [if_pos happ]
          by_cases hstate : s.state ≠ .stopped
          · have hguard : (ensureSntpIface s env).isRunning = true ∧ (ensureSntpIface s env).state ≠ .stopped := ⟨hrun, hstate⟩
            rw [if_pos hguard]
            exact ⟨_, hset (withDefault list), fun _ => rfl, fun h => absurd ⟨hfnd, not_lt.mp hmany, happ, hstate⟩ h⟩
          · have hguard : ¬ ((ensureSntpIface s env).isRunning = true ∧ (ensureSntpIface s env).state ≠ .stopped) :=
              fun h => hstate h.2
            rw [if_neg hguard]
            exact ⟨_, hset (withDefault list), fun h => absurd h.2.2.2 hstate, fun _ => rfl⟩
        · rw [if_neg happ]
          exact ⟨_, hensured, fun h => absurd h.2.2.1 happ, fun _ => rfl⟩
    · rw [if_neg hfnd]
      exact ⟨_, hensured, fun h => absurd h.1 hfnd, fun _ => rfl⟩

theorem same_functionSetTimezone (s : SNTP) (timezone : String) (env : Env) : Same s (functionSetTimezone s timezone env).1 := by
  unfold functionSetTimezone
  dsimp only
  split_ifs
  · exact .refl s
  all_goals exact ⟨rfl, rfl, rfl, rfl, rfl, rfl, rfl, rfl, rfl, rfl, rfl⟩

theorem Inv.functionIsTimeSynced (hs : Inv s) (env : Env) : Inv (functionIsTimeSynced s env).1 := by
  unfold Sntp.functionIsTimeSynced
  dsimp only
  split_ifs
  · have hsyn : (s.isTimeSynced || env.timeSynced) = true → s.state = .synced ∨ (s.reported || env.timeSynced) = true := by
      intro h
      rcases Bool.or_eq_true_iff.mp h with hold | hnow
      · exact (hs.synced hold).imp_right fun h => Bool.or_eq_true_iff.mpr (.inl h)
      · exact .inr (Bool.or_eq_true_iff.mpr (.inr hnow))
    exact ⟨hs.fresh, hs.next, fun hrun => (hs.pending hrun).congr rfl rfl rfl rfl rfl, hs.scheduler, hs.connectivity,
      hs.stopped, hsyn⟩
  · exact hs

theorem Inv.runTask (hs : Inv s) {task : Task} (htask : task ∈ s.tasks) (env : Env) :
    (NothingFails s (.run task env) → Inv (runTask s task env)) ∧
      (¬ NothingFails s (.run task env) → ¬ RunsFit (runTask s task env)) := by
  have hrun : s.isRunning = true := by
    by_contra hnot
    rw [hs.stopped (Bool.eq_false_iff.mpr hnot)] at htask
    exact not_mem_nil htask
  have hsch := hs.scheduler hrun
  have hconn := hs.connectivity hrun
  cases hs.pending hrun with
  | idle _ htks =>
    rw [htks] at htask
    exact absurd htask not_mem_nil
  | @checking id hstate htks _ hsync hretry =>
    obtain rfl := mem_singleton.mp (htks ▸ htask)
    by_cases hrdy : env.networkReady = true
    · cases hfnd : (s.sntpIface || env.sntpFound) with
      | false =>
        rw [runTask_wait_notFound hs hrun htks hrdy hfnd]
        refine ⟨fun hc => absurd (hc hrdy).1 (Bool.eq_false_iff.mp hfnd), fun _ hfit => ?_⟩
        exact absurd (hfit hrun) (not_tasksFit_checking hstate rfl)
      | true =>
        rw [runTask_wait hs hrun htks hsync hretry hrdy hfnd]
        cases hpost : env.posted with
        | true =>
          refine ⟨fun _ => ?_, fun hc => absurd (fun _ => ⟨hfnd, hpost⟩) hc⟩
          split_ifs
          · exact .syncStarted hs.next hrun hsch hconn fun h => absurd h Bool.false_ne_true
          · exact .checked hs.next hrun hsch hconn fun h => absurd h Bool.false_ne_true
        | false =>
          refine ⟨fun hc => absurd (hc hrdy).2 (Bool.eq_false_iff.mp hpost), fun _ => ?_⟩
          split_ifs
          · exact fun hfit => not_tasksFit_syncing rfl rfl (hfit hrun)
          · exact fun hfit => not_tasksFit_checking rfl rfl (hfit hrun)
    · have hsame : Sntp.runTask s ⟨id, .waitForNetwork⟩ env = s := by
        unfold Sntp.runTask waitForNetworkTask
        simp [hrun, hrdy]
      rw [hsame]
      exact ⟨fun _ => hs, fun hc => absurd (fun h => absurd h hrdy) hc⟩
  | @syncing id startTime hstate htks hwait hsync hretry =>
    obtain rfl := mem_singleton.mp (htks ▸ htask)
    cases hsyn : (s.sntpIface && env.timeSynced) with
    | true =>
      have hran : Sntp.runTask s ⟨id, .syncTime startTime⟩ env =
          { s with isTimeSynced := true, syncTimeTaskId := 0, state := .synced, tasks := [] } := by
        unfold Sntp.runTask syncTimeTask
        simp [hrun, hsyn, setState, SNTP.cancel, htks]
      rw [hran]
      refine ⟨fun _ => ?_, fun hc => absurd (fun h => Bool.noConfusion (hsyn.symm.trans h)) hc⟩
      exact ⟨fun task htask => absurd htask not_mem_nil, hs.next, fun _ => .idle (.inr rfl) rfl hwait rfl hretry,
        fun _ => hsch, fun _ => hconn, fun _ => rfl, fun _ => .inl rfl⟩
    | false =>
      by_cases hexpi : syncTimeTimeoutMs < s.now - startTime
      · rw [runTask_expired hs hrun htks hsyn hexpi]
        cases hpost : env.posted with
        | true =>
          refine ⟨fun _ => ?_, fun hc => absurd (fun _ _ => hpost) hc⟩
          refine ⟨fun task htask => ?_, Nat.succ_pos _, fun _ => .retrying hstate rfl hwait rfl rfl, fun _ => hsch,
            fun _ => hconn, fun h => absurd hrun (Bool.eq_false_iff.mp h), fun h => absurd h Bool.false_ne_true⟩
          rw [mem_singleton.mp htask]
          exact ⟨hs.next, Nat.lt_succ_self _⟩
        | false =>
          refine ⟨fun hc => absurd (hc hsyn hexpi) (Bool.eq_false_iff.mp hpost), fun _ hfit => ?_⟩
          exact absurd (hfit hrun) (not_tasksFit_syncing hstate rfl)
      · have hsame : Sntp.runTask s ⟨id, .syncTime startTime⟩ env = s := by
          unfold Sntp.runTask syncTimeTask
          simp [hrun, hsyn, not_lt.mp hexpi]
        rw [hsame]
        exact ⟨fun _ => hs, fun hc => absurd (fun _ h => absurd h hexpi) hc⟩
  | @retrying id hstate htks hwait hsync _ =>
    obtain rfl := mem_singleton.mp (htks ▸ htask)
    rw [runTask_retry hs hrun htks hwait hsync]
    cases hpost : env.posted with
    | true =>
      refine ⟨fun _ => ?_, fun hc => absurd hpost hc⟩
      refine .checked hs.next hrun hsch hconn fun h => ?_
      exact (hs.synced h).resolve_left fun hsyncedstate => State.noConfusion (hstate.symm.trans hsyncedstate)
    | false =>
      refine ⟨fun hc => absurd hc (Bool.eq_false_iff.mp hpost), fun _ hfit => ?_⟩
      exact not_tasksFit_checking rfl rfl (hfit hrun)

/-- A step after which the invariant holds if nothing has failed, and the tasks do not fit if something has. -/
theorem Inv.step (hs : Inv s) {label : Label} (hst : step s label = some s') :
    (NothingFails s label → Inv s') ∧ (¬ NothingFails s label → ¬ RunsFit s') := by
  have honly : ∀ {P : Prop}, P → (True → P) ∧ (¬ True → ¬ RunsFit s') := fun hp => ⟨fun _ => hp, fun h => absurd trivial h⟩
  unfold Sntp.step at hst
  cases label with
  | start env => exact honly (some.inj hst ▸ hs.start env)
  | stop => exact honly (some.inj hst ▸ hs.stop)
  | deinit => exact honly (some.inj hst ▸ hs.deinit)
  | functionStart env =>
    obtain ⟨hrun, rfl⟩ := of_guard hst
    exact ⟨hs.restart hrun, fun hc => hs.restart_fails hrun (Bool.eq_false_iff.mpr hc)⟩
  | functionStop =>
    obtain ⟨hrun, rfl⟩ := of_guard hst
    exact honly (hs.functionStop hrun)
  | functionSetServers servers env =>
    obtain ⟨hrun, rfl⟩ := of_guard hst
    obtain ⟨t, hsame, hrestarts, hstays⟩ := functionSetServers_cases hrun servers env
    have ht := hs.same hsame
    have htrunning := hsame.isRunning.trans hrun
    by_cases hcase : restarts s servers env
    · rw [hrestarts hcase]
      refine ⟨fun hc => ht.restart htrunning (hc hcase), fun hc => ht.restart_fails htrunning ?_⟩
      exact Bool.eq_false_iff.mpr (Classical.not_imp.mp hc).2
    · rw [hstays hcase]
      exact ⟨fun _ => ht, fun hc => absurd (fun h => absurd h hcase) hc⟩
  | functionSetTimezone timezone env =>
    obtain ⟨-, rfl⟩ := of_guard hst
    exact honly (hs.same (same_functionSetTimezone s timezone env))
  | functionIsTimeSynced env =>
    obtain ⟨-, rfl⟩ := of_guard hst
    exact honly (hs.functionIsTimeSynced env)
  | functionResetData env =>
    obtain ⟨hrun, rfl⟩ := of_guard hst
    have hreset : Inv (resetData s) :=
      ⟨hs.fresh, hs.next, fun h => (hs.pending h).congr rfl rfl rfl rfl rfl, hs.scheduler, hs.connectivity, hs.stopped,
        fun h => absurd h Bool.false_ne_true⟩
    have hrestarted : (functionResetData s env).1 = (startStateMachine (resetData s) env).1 := by
      have hstill : (resetData s).isRunning = true := hrun
      unfold functionResetData
      dsimp only
      rw [if_pos hstill]
    rw [hrestarted]
    exact ⟨hreset.restart hrun, fun hc => hreset.restart_fails hrun (Bool.eq_false_iff.mpr hc)⟩
  | functionLoadData env =>
    obtain ⟨-, rfl⟩ := of_guard hst
    have hunloaded : Same s { s with isDataLoaded := false } := ⟨rfl, rfl, rfl, rfl, rfl, rfl, rfl, rfl, rfl, rfl, rfl⟩
    exact honly ((hs.same hunloaded).same (same_tryLoadData _ env))
  | run task env =>
    obtain ⟨htask, rfl⟩ := of_guard hst
    exact hs.runTask htask env
  | tick ms =>
    cases hst
    exact honly (hs.same ⟨rfl, rfl, rfl, rfl, rfl, rfl, rfl, rfl, rfl, rfl, rfl⟩)

end

theorem inv_inductive : sntp.Inductive NothingFails Inv where
  init s hs := by
    rw [show s = {} from hs]
    exact .of_stopped rfl rfl Nat.one_pos rfl
  step _ _ _ hs hc hst := (hs.step hst).1 hc

/-- **The tasks fit the state**, in every state of a run in which the service runs, exactly if every task that is needed is posted and
the SNTP interface is found when the network is ready. -/
theorem tasks_fit_exact (labels : List Label) : sntp.Always RunsFit {} labels ↔ sntp.Keeps NothingFails {} labels :=
  inv_inductive.exact (fun _ hs hrun => (hs.pending hrun).tasksFit hs.synced)
    (fun _ _ _ hs hc hst => (hs.step hst).2 hc) labels {} (inv_inductive.init {} rfl)

/-- The network gets ready while there is no SNTP interface: the state is `CheckingNetwork` from now on. -/
def notFoundRun : List Label := [.start {}, .run ⟨1, .waitForNetwork⟩ { sntpFound := false }]

theorem notFoundRun_stalls : ¬ ∀ s, sntp.Reachable s → s.isRunning = true → TasksFit s := by
  intro hall
  obtain ⟨s, hs, hfacts⟩ := map_eq_some_iff.mp (by decide +kernel :
    (sntp.exec {} notFoundRun).map (fun s => (s.isRunning, s.state, s.tasks)) =
    some (true, .checkingNetwork, []))
  obtain ⟨hrun, hrest⟩ := Prod.mk.inj hfacts
  obtain ⟨hstate, htks⟩ := Prod.mk.inj hrest
  exact not_tasksFit_checking hstate htks (hall s (.exec (.init rfl) hs) hrun)

end Brookesia.Sntp
