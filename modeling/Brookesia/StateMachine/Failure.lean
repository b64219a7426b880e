import Brookesia.StateMachine.Model

/-! # Transitions that fail

The tasks of a state machine that runs them one after the other, with callbacks that return or throw. What a callback does is a
parameter of the call; an exception leaves the task at once, and the scheduler that runs the task swallows it.

* `tasks` are the periodic and delayed tasks of the scheduler that are armed. A delayed task is armed until it runs; a periodic one
  until its `on_update` throws.
* `triggerTask` is the task of `trigger_action`, up to the finish callback, which is called after a transition that succeeds only.
* `transition_noop_iff`: when a transition that fails leaves the machine as it should be. -/

namespace Brookesia.StateMachine.Failure

open Transition Model List Option

/-- How a callback of the user ends. -/
inductive Outcome
  | returned (ok : Bool)
  | threw
deriving DecidableEq

/-- `on_exit` of the state that is left, `on_enter` of the next one, and `on_enter` of the first one on the way back. -/
structure Callbacks where
  onExit : Outcome := .returned true
  onEnter : Outcome := .returned true
  onReenter : Outcome := .returned true
deriving DecidableEq

structure Task where
  id : TaskId
  owner : StateName
  kind : TimerKind
deriving DecidableEq

structure State where
  /-- `task_scheduler_` is set. -/
  isRunning : Bool := false
  currentState : StateName := ""
  updateTaskId : TaskId := 0
  timeoutTaskId : TaskId := 0
  nextTaskId : TaskId := 1
  tasks : List Task := []
deriving DecidableEq

/-! ### The functions of the machine -/

/-- `cancel(id)` of the scheduler. -/
def State.cancel (s : State) (id : TaskId) : State := { s with tasks := s.tasks.filter (·.id ≠ id) }

/-- `post_periodic` and `post_delayed`. -/
def State.post (s : State) (owner : StateName) (kind : TimerKind) : State :=
  { s with nextTaskId := s.nextTaskId + 1, tasks := s.tasks ++ [⟨s.nextTaskId, owner, kind⟩] }

def cancelCurrentTasks (s : State) : State :=
  let cleared := { s with timeoutTaskId := 0, updateTaskId := 0 }
  if s.isRunning then
    let cleared := if s.timeoutTaskId = 0 then cleared else cleared.cancel s.timeoutTaskId
    if s.updateTaskId = 0 then cleared else cleared.cancel s.updateTaskId
  else cleared

def setupStateTasks (chart : Chart) (s : State) (name : StateName) : State × Bool :=
  if s.isRunning then
    match chart.findState name with
    | none => (s, false)
    | some state =>
      let s := if 0 < state.updateInterval then { s.post name .update with updateTaskId := s.nextTaskId } else s
      let s := if state.hasTimeout then
          { s.post name (.timeout state.timeoutAction) with timeoutTaskId := s.nextTaskId }
        else s
      (s, true)
  else (s, true)

def transitionTo (chart : Chart) (s : State) (next : StateName) (callbacks : Callbacks) : State × Outcome :=
  if s.currentState = next then (s, .returned true)
  else if (chart.findState s.currentState).isSome ∧ (chart.findState next).isSome then
    match callbacks.onExit with
    | .threw => (s, .threw)
    | .returned false => (s, .returned false)
    | .returned true =>
      let previousState := s.currentState
      let s := cancelCurrentTasks s
      match callbacks.onEnter with
      | .threw => (s, .threw)
      | .returned false =>
        match callbacks.onReenter with
        | .threw => (s, .threw)
        | .returned _ =>
          ((setupStateTasks chart { s with currentState := previousState } previousState).1, .returned false)
      | .returned true =>
        let ready := setupStateTasks chart { s with currentState := next } next
        (ready.1, .returned ready.2)
  else (s, .returned false)

def triggerTask (chart : Chart) (s : State) (action : ActionName) (callbacks : Callbacks) : State × Outcome :=
  if s.isRunning then
    if s.currentState = "" then (s, .returned false)
    else match chart.transition s.currentState action with
      | none => (s, .returned false)
      | some next => transitionTo chart s next callbacks
  else (s, .returned false)

def stop (s : State) : State :=
  if s.isRunning then { cancelCurrentTasks s with isRunning := false, currentState := "" } else s

/-- `start`, with `enter_initial_state`; a failure or an exception calls `stop`. -/
def start (chart : Chart) (s : State) (initialState : StateName) (onEnter : Outcome) : State :=
  if s.isRunning then s
  else if (chart.findState initialState).isSome then
    let s := cancelCurrentTasks { s with isRunning := true }
    if onEnter = .returned true then
      let ready := setupStateTasks chart { s with currentState := initialState } initialState
      if ready.2 then ready.1 else stop ready.1
    else stop s
  else s

def forceTransitionTo (s : State) (targetState : StateName) : State :=
  { cancelCurrentTasks s with currentState := targetState }

/-! ### Steps -/

inductive Label
  | start (initialState : StateName) (onEnter : Outcome)
  | stop
  | forceTransitionTo (targetState : StateName)
  /-- The task of a `trigger_action`. -/
  | trigger (action : ActionName) (callbacks : Callbacks)
  | timeout (task : Task) (callbacks : Callbacks)
  | update (task : Task) (onUpdate : Outcome)
deriving DecidableEq

def step (chart : Chart) (s : State) : Label → Option State
  | .start initialState onEnter => some (start chart s initialState onEnter)
  | .stop => some (stop s)
  | .forceTransitionTo targetState => some (forceTransitionTo s targetState)
  | .trigger action callbacks => some (triggerTask chart s action callbacks).1
  | .timeout task callbacks =>
    if task ∈ s.tasks then
      match task.kind with
      | .update => none
      | .timeout action => some (triggerTask chart (s.cancel task.id) action callbacks).1
    else none
  | .update task onUpdate =>
    if task ∈ s.tasks ∧ task.kind = .update then some (if onUpdate = .threw then s.cancel task.id else s) else none

/-- The state machine with the states and transitions of `chart`. -/
def serialMachine (chart : Chart) : Machine State Label where
  init s := s = {}
  step := step chart

/-! ### What a failure should leave -/

def declared (chart : Chart) (name : StateName) : List TimerKind :=
  match chart.findState name with
  | none => []
  | some state =>
    (if 0 < state.updateInterval then [.update] else []) ++
      if state.hasTimeout then [.timeout state.timeoutAction] else []

def Armed (chart : Chart) (s : State) (name : StateName) : Prop :=
  (s.tasks.map fun task => (task.owner, task.kind)).Perm ((declared chart name).map fun kind => (name, kind))

instance (chart : Chart) (s : State) (name : StateName) : Decidable (Armed chart s name) :=
  inferInstanceAs (Decidable (List.Perm _ _))

/-- The action leads out of the current state, and `on_exit` lets it go. -/
def Leaves (chart : Chart) (s : State) (action : ActionName) (callbacks : Callbacks) : Prop :=
  s.currentState ≠ "" ∧ (chart.findState s.currentState).isSome = true ∧ callbacks.onExit = .returned true ∧
    ∃ next, chart.transition s.currentState action = some next ∧ (chart.findState next).isSome = true

def Restores (callbacks : Callbacks) : Prop :=
  callbacks.onEnter = .returned false ∧ callbacks.onReenter ≠ .threw

instance (callbacks : Callbacks) : Decidable (Restores callbacks) := inferInstanceAs (Decidable (_ ∧ _))

/-! ### The invariant -/

/-- The armed tasks are those whose ids are stored. -/
structure Inv (s : State) : Prop where
  fresh : 0 < s.nextTaskId
  stored : ∀ task ∈ s.tasks, task.id ≠ 0 ∧ (task.id = s.updateTaskId ∨ task.id = s.timeoutTaskId)
  stopped : s.isRunning = false → s.tasks = []

section
variable {chart : Chart} {s : State} {name : StateName} {callbacks : Callbacks} {action : ActionName}

theorem Inv.cancel (hs : Inv s) (id : TaskId) : Inv (s.cancel id) := by
  refine ⟨hs.fresh, fun task htask => hs.stored task (mem_of_mem_filter htask), fun hstop => ?_⟩
  show s.tasks.filter _ = []
  rw [hs.stopped hstop]
  rfl

theorem Inv.nothing_armed (hs : Inv s) : (cancelCurrentTasks s).tasks = [] := by
  unfold Failure.cancelCurrentTasks
  by_cases hrun : s.isRunning = true
  · rw [if_pos hrun]
    refine eq_nil_iff_forall_not_mem.mpr fun task htask => ?_
    have hgone : task ∈ s.tasks ∧ (s.timeoutTaskId ≠ 0 → task.id ≠ s.timeoutTaskId) ∧
        (s.updateTaskId ≠ 0 → task.id ≠ s.updateTaskId) := by
      dsimp only at htask
      split_ifs at htask with hupd htmo htmo
      · exact ⟨htask, fun h => absurd htmo h, fun h => absurd hupd h⟩
      · obtain ⟨hmem, hne⟩ := mem_filter.mp htask
        exact ⟨hmem, fun _ => of_decide_eq_true hne, fun h => absurd hupd h⟩
      · obtain ⟨hmem, hne⟩ := mem_filter.mp htask
        exact ⟨hmem, fun h => absurd htmo h, fun _ => of_decide_eq_true hne⟩
      · obtain ⟨hmem, hne⟩ := mem_filter.mp htask
        obtain ⟨hmem', hne'⟩ := mem_filter.mp hmem
        exact ⟨hmem', fun _ => of_decide_eq_true hne', fun _ => of_decide_eq_true hne⟩
    obtain ⟨hmem, htmo, hupd⟩ := hgone
    obtain ⟨hid, heq | heq⟩ := hs.stored task hmem
    · exact hupd (heq ▸ hid) heq
    · exact htmo (heq ▸ hid) heq
  · rw [if_neg hrun]
    exact hs.stopped (Bool.eq_false_iff.mpr hrun)

theorem cancelCurrentTasks_fields (s : State) : (cancelCurrentTasks s).isRunning = s.isRunning ∧
    (cancelCurrentTasks s).currentState = s.currentState ∧ (cancelCurrentTasks s).nextTaskId = s.nextTaskId := by
  unfold cancelCurrentTasks
  dsimp only
  split_ifs <;> exact ⟨rfl, rfl, rfl⟩

theorem inv_of_tasks_nil (hfresh : 0 < s.nextTaskId) (htks : s.tasks = []) : Inv s :=
  ⟨hfresh, fun _ htask => absurd (htks ▸ htask) not_mem_nil, fun _ => htks⟩

theorem Inv.cancelled (hs : Inv s) : Inv (Failure.cancelCurrentTasks s) :=
  inv_of_tasks_nil ((cancelCurrentTasks_fields s).2.2 ▸ hs.fresh) hs.nothing_armed

theorem setupStateTasks_spec (hrun : s.isRunning = true) (hfresh : 0 < s.nextTaskId) (htks : s.tasks = [])
    (hstate : (chart.findState name).isSome = true) :
    (setupStateTasks chart s name).2 = true ∧ (setupStateTasks chart s name).1.currentState = s.currentState ∧
      (setupStateTasks chart s name).1.tasks.map (fun task => (task.owner, task.kind)) =
        (declared chart name).map (fun kind => (name, kind)) ∧ Inv (setupStateTasks chart s name).1 := by
  obtain ⟨state, hfind⟩ := isSome_iff_exists.mp hstate
  unfold setupStateTasks declared
  rw [if_pos hrun, hfind]
  dsimp only
  have hnever : ∀ {s' : State}, s'.isRunning = s.isRunning → s'.isRunning = false → s'.tasks = [] := by
    intro s' hsame hstop
    rw [hsame, hrun] at hstop
    cases hstop
  split_ifs
  · refine ⟨rfl, rfl, ?_, Nat.succ_pos _, ?_, hnever rfl⟩
    · simp [State.post, htks]
    · intro task htask
      simp only [State.post, htks, nil_append, singleton_append, mem_cons, not_mem_nil, or_false] at htask ⊢
      rcases htask with rfl | rfl
      · exact ⟨hfresh.ne', .inl rfl⟩
      · exact ⟨Nat.succ_ne_zero _, .inr rfl⟩
  · refine ⟨rfl, rfl, ?_, Nat.succ_pos _, ?_, hnever rfl⟩
    · simp [State.post, htks]
    · intro task htask
      simp only [State.post, htks, nil_append, mem_singleton] at htask ⊢
      rw [htask]
      exact ⟨hfresh.ne', .inr rfl⟩
  · refine ⟨rfl, rfl, ?_, Nat.succ_pos _, ?_, hnever rfl⟩
    · simp [State.post, htks]
    · intro task htask
      simp only [State.post, htks, nil_append, mem_singleton] at htask ⊢
      rw [htask]
      exact ⟨hfresh.ne', .inl rfl⟩
  · refine ⟨rfl, rfl, ?_, inv_of_tasks_nil hfresh htks⟩
    rw [htks]
    rfl

/-- A transition that leaves the state and fails has taken its tasks away, and may have armed them again. -/
theorem transitionTo_failed {next : StateName} (hs : Inv s) (hrun : s.isRunning = true)
    (hfnd : (chart.findState s.currentState).isSome = true ∧ (chart.findState next).isSome = true)
    (hexit : callbacks.onExit = .returned true)
    (hfld : (transitionTo chart s next callbacks).2 ≠ .returned true) :
    (transitionTo chart s next callbacks).1.currentState = s.currentState ∧
      (transitionTo chart s next callbacks).1.tasks.map (fun task => (task.owner, task.kind)) =
        if Restores callbacks then (declared chart s.currentState).map (fun kind => (s.currentState, kind)) else [] := by
  obtain ⟨hrun', hcur, hnext⟩ := cancelCurrentTasks_fields s
  have hrdy : ∀ name, (chart.findState name).isSome = true → _ := fun name hname =>
    setupStateTasks_spec (s := { cancelCurrentTasks s with currentState := name }) (hrun'.trans hrun)
      hs.cancelled.fresh hs.nothing_armed hname
  by_cases hself : s.currentState = next
  · have hreached : (transitionTo chart s next callbacks).2 = .returned true := by
      unfold transitionTo
      rw [if_pos hself]
    exact absurd hreached hfld
  · unfold transitionTo at hfld ⊢
    rw [if_neg hself, if_pos hfnd] at hfld ⊢
    simp only [hexit] at hfld ⊢
    cases henter : callbacks.onEnter with
    | threw =>
      have hnot : ¬ Restores callbacks := fun h => Outcome.noConfusion (henter.symm.trans h.1)
      rw [if_neg hnot]
      refine ⟨hcur, ?_⟩
      show (cancelCurrentTasks s).tasks.map _ = []
      rw [hs.nothing_armed]
      rfl
    | returned ok =>
      simp only [henter] at hfld ⊢
      cases ok with
      | true => exact absurd (congrArg Outcome.returned (hrdy next hfnd.2).1) hfld
      | false =>
        cases hreenter : callbacks.onReenter with
        | threw =>
          have hnot : ¬ Restores callbacks := fun h => h.2 hreenter
          rw [if_neg hnot]
          refine ⟨hcur, ?_⟩
          show (cancelCurrentTasks s).tasks.map _ = []
          rw [hs.nothing_armed]
          rfl
        | returned again =>
          have hrestores : Restores callbacks := ⟨henter, fun h => Outcome.noConfusion (hreenter.symm.trans h)⟩
          obtain ⟨-, hstays, htks, -⟩ := hrdy s.currentState hfnd.1
          rw [if_pos hrestores]
          exact ⟨hstays, htks⟩

theorem triggerTask_stays (hrun : s.isRunning = true) (hstays : ¬ Leaves chart s action callbacks) :
    (triggerTask chart s action callbacks).1 = s := by
  unfold triggerTask
  rw [if_pos hrun]
  split_ifs with hemp
  · rfl
  · cases htrn : chart.transition s.currentState action with
    | none => rfl
    | some next =>
      dsimp only
      unfold transitionTo
      split_ifs with hself hfnd
      · rfl
      · cases hexit : callbacks.onExit with
        | threw => rfl
        | returned ok =>
          cases ok with
          | false => rfl
          | true => exact absurd ⟨hemp, hfnd.1, hexit, next, htrn, hfnd.2⟩ hstays
      · rfl

/-! ### The invariant holds -/

theorem Inv.transitionTo (hs : Inv s) (hrun : s.isRunning = true) (next : StateName) :
    Inv (transitionTo chart s next callbacks).1 := by
  have hrdy : ∀ name, (chart.findState name).isSome = true →
      Inv (setupStateTasks chart { cancelCurrentTasks s with currentState := name } name).1 := by
    intro name hname
    refine (setupStateTasks_spec (s := { cancelCurrentTasks s with currentState := name }) ?_ ?_ ?_ hname).2.2.2
    · exact (cancelCurrentTasks_fields s).1.trans hrun
    · exact hs.cancelled.fresh
    · exact hs.nothing_armed
  unfold Failure.transitionTo
  split_ifs with hself hfnd
  · exact hs
  · cases callbacks.onExit with
    | threw => exact hs
    | returned ok =>
      cases ok with
      | false => exact hs
      | true =>
        cases callbacks.onEnter with
        | threw => exact hs.cancelled
        | returned ok =>
          cases ok with
          | true => exact hrdy next hfnd.2
          | false =>
            cases callbacks.onReenter with
            | threw => exact hs.cancelled
            | returned again => exact hrdy s.currentState hfnd.1
  · exact hs

theorem Inv.triggerTask (hs : Inv s) (action : ActionName) (callbacks : Callbacks) :
    Inv (triggerTask chart s action callbacks).1 := by
  unfold Failure.triggerTask
  split_ifs with hrun
  · exact hs
  · cases chart.transition s.currentState action with
    | none => exact hs
    | some next => exact hs.transitionTo hrun next
  · exact hs

theorem Inv.stop (hs : Inv s) : Inv (stop s) := by
  unfold Failure.stop
  split_ifs
  · exact inv_of_tasks_nil hs.cancelled.fresh hs.nothing_armed
  · exact hs

theorem Inv.start (hs : Inv s) (initialState : StateName) (onEnter : Outcome) : Inv (start chart s initialState onEnter) := by
  unfold Failure.start
  by_cases hrunning : s.isRunning = true
  · rw [if_pos hrunning]
    exact hs
  · have hrun : Inv { s with isRunning := true } :=
      inv_of_tasks_nil hs.fresh (hs.stopped (Bool.eq_false_iff.mpr hrunning))
    rw [if_neg hrunning]
    by_cases hfnd : (chart.findState initialState).isSome = true
    · rw [if_pos hfnd]
      dsimp only
      have hrdy := (setupStateTasks_spec
        (s := { cancelCurrentTasks { s with isRunning := true } with currentState := initialState })
        (cancelCurrentTasks_fields { s with isRunning := true }).1 hrun.cancelled.fresh hrun.nothing_armed hfnd).2.2.2
      split_ifs
      · exact hrdy
      · exact hrdy.stop
      · exact hrun.cancelled.stop
    · rw [if_neg hfnd]
      exact hs

end

theorem inv_inductive (chart : Chart) : (serialMachine chart).Inductive (fun _ _ => True) Inv where
  init s hs := by
    rw [show s = {} from hs]
    exact inv_of_tasks_nil Nat.one_pos rfl
  step s label s' hs _ hst := by
    have hst : step chart s label = some s' := hst
    unfold step at hst
    cases label with
    | start initialState onEnter => exact some.inj hst ▸ hs.start initialState onEnter
    | stop => exact some.inj hst ▸ hs.stop
    | forceTransitionTo targetState =>
      exact some.inj hst ▸ inv_of_tasks_nil hs.cancelled.fresh hs.nothing_armed
    | trigger action callbacks => exact some.inj hst ▸ hs.triggerTask action callbacks
    | timeout task callbacks =>
      obtain ⟨-, hst⟩ := ite_none_right_eq_some.mp hst
      cases hkind : task.kind with
      | update =>
        rw [hkind] at hst
        cases hst
      | timeout action =>
        rw [hkind] at hst
        exact some.inj hst ▸ (hs.cancel task.id).triggerTask action callbacks
    | update task onUpdate =>
      obtain ⟨-, rfl⟩ := of_guard hst
      split_ifs
      · exact hs.cancel task.id
      · exact hs

/-- **A failed transition.** The state is the previous one in every case. Its tasks are armed, and no others, if they were armed when
the task ran and the state was not left, or if the state declares none, or if `on_enter` of the next state denied the entry and the
previous state was entered again. -/
theorem transition_noop_iff {chart : Chart} {s : State} (h : (serialMachine chart).Reachable s) (hrunning : s.isRunning = true)
    (action : ActionName) (callbacks : Callbacks) (hfailed : (triggerTask chart s action callbacks).2 ≠ .returned true) :
    ((triggerTask chart s action callbacks).1.currentState = s.currentState ∧
      Armed chart (triggerTask chart s action callbacks).1 s.currentState) ↔
    (¬ Leaves chart s action callbacks → Armed chart s s.currentState) ∧
      (Leaves chart s action callbacks → Restores callbacks ∨ declared chart s.currentState = []) := by
  have hs : Inv s := (inv_inductive chart).reach h
  by_cases hleaves : Leaves chart s action callbacks
  · obtain ⟨hemp, hfnd, hexit, next, htrn, hnext⟩ := hleaves
    have hcall : triggerTask chart s action callbacks = transitionTo chart s next callbacks := by
      unfold triggerTask
      rw [if_pos hrunning, if_neg hemp, htrn]
    rw [hcall] at hfailed ⊢
    obtain ⟨hcur, htks⟩ := transitionTo_failed hs hrunning ⟨hfnd, hnext⟩ hexit hfailed
    have hleaves : Leaves chart s action callbacks := ⟨hemp, hfnd, hexit, next, htrn, hnext⟩
    have harmed : Armed chart (transitionTo chart s next callbacks).1 s.currentState ↔
        Restores callbacks ∨ declared chart s.currentState = [] := by
      unfold Armed
      rw [htks]
      split_ifs with hrestores
      · exact iff_of_true (.refl _) (.inl hrestores)
      · rw [nil_perm, map_eq_nil_iff]
        exact (or_iff_right hrestores).symm
    exact ⟨fun hnoop => ⟨fun hnot => absurd hleaves hnot, fun _ => harmed.mp hnoop.2⟩,
      fun hcond => ⟨hcur, harmed.mpr (hcond.2 hleaves)⟩⟩
  · rw [triggerTask_stays hrunning hleaves]
    exact ⟨fun hnoop => ⟨fun _ => hnoop.2, fun hyes => absurd hyes hleaves⟩, fun hcond => ⟨rfl, hcond.1 hleaves⟩⟩

/-! ### A wait state -/

/-- `wait` polls, gives up after a second, and leads to `done`. -/
def waitChart : Chart where
  findState name := if name = "wait" then some { updateInterval := 100, timeoutMs := 1000, timeoutAction := "expired" }
    else if name = "done" then some {} else none
  transition name _ := if name = "wait" then some "done" else none

/-- `done` cannot be entered, and the polling goes on. -/
theorem transition_noop_iff_denied : ∃ s, (serialMachine waitChart).exec {} [.start "wait" (.returned true)] = some s ∧
    Armed waitChart (triggerTask waitChart s "next" { onEnter := .returned false }).1 "wait" := by
  obtain ⟨s, hs, hfacts⟩ := map_eq_some_iff.mp (by decide +kernel :
    ((serialMachine waitChart).exec {} [.start "wait" (.returned true)]).map (fun s => (s.isRunning, s.currentState,
    (triggerTask waitChart s "next" { onEnter := .returned false }).2)) = some (true, "wait", .returned false))
  obtain ⟨hrun, hrest⟩ := Prod.mk.inj hfacts
  obtain ⟨hcur, hres⟩ := Prod.mk.inj hrest
  have hfld : (triggerTask waitChart s "next" { onEnter := .returned false }).2 ≠ .returned true :=
    fun h => Bool.false_ne_true (Outcome.returned.inj (hres.symm.trans h))
  have hleaves : Leaves waitChart s "next" { onEnter := .returned false } := by
    unfold Leaves
    rw [hcur]
    exact ⟨by decide, rfl, rfl, "done", rfl, rfl⟩
  have hnoop := (transition_noop_iff (.exec (.init rfl) hs) hrun "next" { onEnter := .returned false } hfld).mpr
    ⟨fun hnot => absurd hleaves hnot, fun _ => .inl ⟨rfl, Outcome.noConfusion⟩⟩
  exact ⟨s, hs, hcur ▸ hnoop.2⟩

/-- `on_enter` of `done` throws, and nothing is armed any more. -/
theorem throwing_not_noop : ¬ ∀ (chart : Chart) (s : State), (serialMachine chart).Reachable s → s.isRunning = true →
    Armed chart s s.currentState → ∀ (action : ActionName) (callbacks : Callbacks),
      (triggerTask chart s action callbacks).2 ≠ .returned true →
        (triggerTask chart s action callbacks).1.currentState = s.currentState ∧
          Armed chart (triggerTask chart s action callbacks).1 s.currentState := by
  intro hall
  obtain ⟨s, hs, hfacts⟩ := map_eq_some_iff.mp (by decide +kernel :
    ((serialMachine waitChart).exec {} [.start "wait" (.returned true)]).map (fun s => (s.isRunning, s.currentState,
    decide (Armed waitChart s s.currentState), (triggerTask waitChart s "next" { onEnter := .threw }).2,
    decide (Armed waitChart (triggerTask waitChart s "next" { onEnter := .threw }).1 s.currentState))) =
      some (true, "wait", true, .threw, false))
  obtain ⟨hrun, hrest⟩ := Prod.mk.inj hfacts
  obtain ⟨-, hrest⟩ := Prod.mk.inj hrest
  obtain ⟨harmed, hrest⟩ := Prod.mk.inj hrest
  obtain ⟨hres, hnot⟩ := Prod.mk.inj hrest
  have hfld : (triggerTask waitChart s "next" { onEnter := .threw }).2 ≠ .returned true :=
    fun h => Outcome.noConfusion (hres.symm.trans h)
  exact of_decide_eq_false hnot
    (hall waitChart s (.exec (.init rfl) hs) hrun (of_decide_eq_true harmed) "next" { onEnter := .threw } hfld).2

end Brookesia.StateMachine.Failure
