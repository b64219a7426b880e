import Brookesia.Agent.Model

/-! # The exits of the transient states

A transient state has an exit for its timeout and for the error of the agent, and the exit resets the bits of the agent by
its own `Stopped` event. `Stopping` has a timeout and no exit for it; a `Stopped` event that counts as ready
already resets nothing. Where neither happens (`Exits`), every exit that is taken leaves the state with
nothing running. -/

namespace Brookesia.Agent

open Transition Runs List Option

namespace State

/-- The machine has left the state, and no action and no update is running. -/
def Exit.Leaves (exit : Exit) : Prop :=
  exit.current ≠ exit.left ∧ exit.running = none ∧ exit.updating = false

/-- Timeouts, and updates that see an error, have led out of the transient states. -/
def ExitsLeave (s : State) : Prop :=
  ∀ exit ∈ s.exits, Exit.Leaves exit

end State

/-- The start of a watched transition: there is one, and where its exit triggers no event nothing is running; or the
state has been left before, and nothing is running. -/
def State.StartsExit (s : State) (action : MachineAction) (left : GeneralState) : Prop :=
  if (transition s.base.currentState action).isSome then
    action = .extra .success ∨ s.base.flags.isGeneralEventReady .stopped = true →
      s.base.flags.getRunningGeneralAction = none
  else
    s.base.currentState ≠ left ∧ s.base.flags.getRunningGeneralAction = none ∧ s.base.updateTask = none

def State.isExiting (s : State) : Bool :=
  (s.job.bind Job.watch).isSome

/-- What the exits ask of a run: they start well; no error is seen while the time is synchronized; and while one is in
progress the agent does not report the time as synchronized, nor is it woken up past the state machine. -/
def Exits (s : State) : Label → Prop
  | .begin => ∀ task ∈ s.posted.head?, ∀ left ∈ task.watch, s.StartsExit task.action left
  | .timeout => ∀ left ∈ s.base.timeoutTask, s.StartsExit (.extra .timeout) left
  | .tick _ => s.base.updateTask = some .timeSyncing → s.base.flags.error = false
  | .event report => s.isExiting = true → report.event ≠ .timeSynced
  | .manualStartListening _ _ => s.isExiting = true → s.base.wakesUpFirst = false
  | _ => True

instance (s : State) (action : MachineAction) (left : GeneralState) : Decidable (s.StartsExit action left) :=
  inferInstanceAs (Decidable (if (transition s.base.currentState action).isSome then
      action = .extra .success ∨ s.base.flags.isGeneralEventReady .stopped = true →
        s.base.flags.getRunningGeneralAction = none
    else
      s.base.currentState ≠ left ∧ s.base.flags.getRunningGeneralAction = none ∧ s.base.updateTask = none))

instance (s : State) : (label : Label) → Decidable (Exits s label)
  | .begin => inferInstanceAs (Decidable (∀ _ ∈ _, _))
  | .timeout => inferInstanceAs (Decidable (∀ _ ∈ _, _))
  | .tick _ => inferInstanceAs (Decidable (_ → _))
  | .event _ => inferInstanceAs (Decidable (_ → _))
  | .manualStartListening _ _ => inferInstanceAs (Decidable (_ → _))
  | .request _ | .check _ _ | .finish _ | .queueStep | .enter _ | .assign | .arm | .manualStopListening _ | .suspend _
  | .resume _ => .isTrue trivial

variable {attributes : AgentAttributes} {s s' : State} {label : Label} {base : Base}

/-! ### Running actions and events -/

variable {flags : GeneralStateFlags} {job : Job} {left name : GeneralState}

theorem running_eq_none : flags.getRunningGeneralAction = none ↔
      flags.timeSyncing = false ∧ flags.activating = false ∧ flags.starting = false ∧ flags.sleeping = false ∧
        flags.wakingUp = false ∧ flags.stopping = false := by
  unfold GeneralStateFlags.getRunningGeneralAction
  rw [List.find?_eq_none]
  simp [GeneralStateFlags.test, getGeneralActionStateFlagBit]

theorem afterEvent_running {report : Report} (h : flags.getRunningGeneralAction = none)
    (hevent : report.event ≠ .timeSynced) : (flags.afterEvent report).getRunningGeneralAction = none := by
  rw [running_eq_none] at h
  obtain ⟨timeSyncing, activating, activated, starting, stopping, started, sleeping, wakingUp, slept, error⟩ := flags
  obtain ⟨rfl, rfl, rfl, rfl, rfl, rfl⟩ := h
  obtain ⟨event, ok⟩ := report
  replace hevent : event ≠ .timeSynced := hevent
  revert activated started slept error ok
  cases event with
  | timeSynced => exact absurd rfl hevent
  | _ => decide

theorem afterEvent_stopped {ok : Bool}
    (h : flags.isGeneralEventReady .stopped = true → flags.getRunningGeneralAction = none) :
    (flags.afterEvent { event := .stopped, ok := ok }).getRunningGeneralAction = none := by
  unfold GeneralStateFlags.afterEvent
  split
  next hrdy => exact h hrdy
  split
  · exact rfl
  · exact rfl

theorem forcedState_transient {event : GeneralEvent} {state : GeneralState}
    (h : flags.forcedState event = some state) : isTransient state = false := by
  obtain ⟨-, -, ⟨-, rfl⟩ | ⟨-, rfl⟩⟩ := GeneralStateFlags.forcedState_cases h
  · rfl
  · rfl

/-! ### The table of the transitions -/

theorem transition_extra (state : GeneralState) (action : ExtraAction) :
    ∀ next ∈ transition state (.extra action), isTransient state = true ∧ isTransient next = false := by
  cases state <;> cases action <;> decide

theorem timeoutOf_pos {state : GeneralState} (h : 0 < attributes.timeoutOf state) : isTransient state = true := by
  cases state with
  | ready | activated | started | slept => exact absurd h (Nat.lt_irrefl 0)
  | _ => rfl

/-! ### The invariant -/

/-- A watched transition past its start. -/
structure Job.Exits (job : Job) (left : GeneralState) (base : Base) : Prop where
  left : isTransient left = true
  next : isTransient job.next = false
  action : ∃ action, job.action = .extra action
  running : base.flags.getRunningGeneralAction = none
  updateTask : base.updateTask = none
  currentState : job.stage = .arming → isTransient base.currentState = false

structure ExitsLast (s : State) : Prop where
  exits : s.ExitsLeave
  posted : ∀ task ∈ s.posted, ∀ left ∈ task.watch, isTransient left = true ∧ ∃ action, task.action = .extra action
  timeoutTask : ∀ left ∈ s.base.timeoutTask, isTransient left = true
  updateTask : ∀ left ∈ s.base.updateTask, isTransient left = true
  job : ∀ job ∈ s.job, ∀ left ∈ job.watch, job.Exits left s.base

theorem ExitsLast.handsOver (h : ExitsLast s) (hs : HandsOver s s') : ExitsLast s' := by
  refine ⟨?_, ?_, ?_, ?_, ?_⟩
  · unfold State.ExitsLeave
    rw [hs.exits]
    exact h.exits
  · rcases hs.posted with hp | ⟨action, hp⟩
    · rw [hp]
      exact h.posted
    · rw [hp]
      intro task htask left hleft
      rcases mem_append.mp htask with htask | htask
      · exact h.posted task htask left hleft
      · rw [mem_singleton.mp htask] at hleft
        cases hleft
  · rw [hs.base]
    exact h.timeoutTask
  · rw [hs.base]
    exact h.updateTask
  · rw [hs.base, hs.job]
    exact h.job

theorem ExitsLast.keepsTasks (h : ExitsLast s) (hexits : s'.exits = s.exits) (hpost : s'.posted = s.posted)
    (htks : s.base.KeepsTasks s'.base) (hjob : ∀ job ∈ s'.job, ∀ left ∈ job.watch, job.Exits left s'.base) :
    ExitsLast s' := by
  refine ⟨?_, ?_, ?_, ?_, hjob⟩
  · unfold State.ExitsLeave
    rw [hexits]
    exact h.exits
  · rw [hpost]
    exact h.posted
  · intro left hleft
    rcases htks.timeoutTask with ht | ht
    · exact h.timeoutTask left (ht ▸ hleft)
    · rw [ht] at hleft
      cases hleft
  · intro left hleft
    rcases htks.updateTask with hu | hu
    · exact h.updateTask left (hu ▸ hleft)
    · rw [hu] at hleft
      cases hleft

theorem ExitsLast.finishTransition {watch : Option GeneralState} (h : ExitsLast s)
    (hwatch : ∀ left ∈ watch, s.base.currentState ≠ left ∧ s.base.flags.getRunningGeneralAction = none ∧
      s.base.updateTask = none) : ExitsLast (s.finishTransition watch) := by
  unfold State.finishTransition
  split
  · exact h
  next left =>
    refine ⟨?_, h.posted, h.timeoutTask, h.updateTask, h.job⟩
    intro exit hexit
    rcases mem_append.mp hexit with hexit | hexit
    · exact h.exits exit hexit
    · obtain ⟨hleft, hrun, hupd⟩ := hwatch left rfl
      rw [mem_singleton.mp hexit]
      exact ⟨hleft, hrun, by rw [hupd]; rfl⟩

theorem onExit_running {action : MachineAction} {next : GeneralState}
    (hnext : transition s.base.currentState action = some next) (hac : ∃ extra, action = .extra extra)
    (h : s.StartsExit action left) : (s.onExit action).base.flags.getRunningGeneralAction = none := by
  obtain ⟨extra, rfl⟩ := hac
  unfold State.StartsExit at h
  rw [if_pos (by rw [hnext]; rfl)] at h
  have htrans := (transition_extra _ _ next hnext).1
  unfold State.onExit
  cases extra with
  | success =>
    rw [if_neg (by rintro ⟨-, h | h⟩ <;> cases h)]
    exact h (.inl rfl)
  | failed =>
    rw [if_pos ⟨htrans, .inr rfl⟩]
    show (s.base.triggerGeneralEvent _).flags.getRunningGeneralAction = none
    rw [(triggerGeneralEvent_eq _ _).1]
    exact afterEvent_stopped fun hrdy => h (.inr hrdy)
  | timeout =>
    rw [if_pos ⟨htrans, .inl rfl⟩]
    show (s.base.triggerGeneralEvent _).flags.getRunningGeneralAction = none
    rw [(triggerGeneralEvent_eq _ _).1]
    exact afterEvent_stopped fun hrdy => h (.inr hrdy)

theorem onExit_frame (s : State) (action : MachineAction) :
    (s.onExit action).exits = s.exits ∧ (s.onExit action).posted = s.posted := by
  unfold State.onExit
  split
  · exact ⟨rfl, rfl⟩
  · exact ⟨rfl, rfl⟩

theorem ExitsLast.startTransition {action : MachineAction} {watch : Option GeneralState} (h : ExitsLast s)
    (hwatch : ∀ left ∈ watch, isTransient left = true ∧ (∃ extra, action = .extra extra) ∧ s.StartsExit action left) :
    ExitsLast (s.startTransition action watch) := by
  unfold State.startTransition
  split
  next hnone =>
    refine h.finishTransition ?_
    intro left hleft
    have hstart := (hwatch left hleft).2.2
    unfold State.StartsExit at hstart
    rw [hnone] at hstart
    exact hstart
  next next hnext =>
    split
    next hself =>
      refine h.finishTransition ?_
      intro left hleft
      obtain ⟨-, ⟨extra, rfl⟩, -⟩ := hwatch left hleft
      have hmoves := transition_extra _ extra next hnext
      rw [hself, hmoves.1] at hmoves
      cases hmoves.2
    next hmoves =>
      obtain ⟨hexits, hpost⟩ := onExit_frame s action
      refine ⟨?_, ?_, ?_, ?_, ?_⟩
      · unfold State.ExitsLeave
        rw [hexits]
        exact h.exits
      · rw [hpost]
        exact h.posted
      · intro left hleft
        cases hleft
      · intro left hleft
        cases hleft
      · intro job hjob left hleft
        cases hjob
        obtain ⟨htrans, ⟨extra, rfl⟩, hstart⟩ := hwatch left hleft
        have hend := transition_extra _ extra next hnext
        refine ⟨htrans, hend.2, ⟨extra, rfl⟩, onExit_running hnext ⟨extra, rfl⟩ hstart, rfl, ?_⟩
        intro harm
        cases harm

/-! ### The steps -/

theorem setupStateTasks_timeoutTask (hbase : ∀ left ∈ base.timeoutTask, isTransient left = true)
    (hleft : left ∈ (State.setupStateTasks attributes base name).timeoutTask) : isTransient left = true := by
  replace hleft : left ∈ if 0 < attributes.timeoutOf name then some name else base.timeoutTask := hleft
  split at hleft
  next hpos =>
    cases hleft
    exact timeoutOf_pos hpos
  · exact hbase left hleft

theorem setupStateTasks_updateTask (hbase : ∀ left ∈ base.updateTask, isTransient left = true)
    (hleft : left ∈ (State.setupStateTasks attributes base name).updateTask) : isTransient left = true := by
  replace hleft : left ∈ if isTransient name then some name else base.updateTask := hleft
  split at hleft
  next htrans =>
    cases hleft
    exact htrans
  · exact hbase left hleft

theorem ExitsLast.begin (h : ExitsLast s) (hc : Exits s .begin) (hst : s.begin = some s') : ExitsLast s' := by
  unfold State.begin at hst
  split at hst
  · cases hst
  next task posted hpost =>
    obtain ⟨-, rfl⟩ := of_guard hst
    have hmem : task ∈ s.posted := by
      rw [hpost]
      exact mem_cons_self
    have hrest : ExitsLast { s with posted := posted } := by
      refine ⟨h.exits, ?_, h.timeoutTask, h.updateTask, h.job⟩
      intro other hoth
      exact h.posted other (by rw [hpost]; exact mem_cons_of_mem _ hoth)
    refine hrest.startTransition ?_
    intro left hleft
    obtain ⟨htrans, hac⟩ := h.posted task hmem left hleft
    exact ⟨htrans, hac, hc task (by rw [hpost]; rfl) left hleft⟩

theorem ExitsLast.timeout (h : ExitsLast s) (hc : Exits s .timeout) (hst : s.timeout = some s') : ExitsLast s' := by
  unfold State.timeout at hst
  split at hst
  · cases hst
  next name hname =>
    obtain ⟨hfree, rfl⟩ := of_guard hst
    have hjob : s.job = none := by
      have := (Bool.and_eq_true_iff.mp hfree).1
      simpa using this
    have hstop : ExitsLast { s with base := { s.base with timeoutTask := none } } := by
      refine h.keepsTasks rfl rfl ⟨.inl rfl, .inr rfl⟩ ?_
      rw [hjob]
      intro job hjob
      cases hjob
    refine hstop.startTransition ?_
    intro left hleft
    cases hleft
    exact ⟨h.timeoutTask name hname, ⟨.timeout, rfl⟩, hc name hname⟩

theorem ExitsLast.enter {reply : Reply} (h : ExitsLast s) (hst : s.enter reply = some s') : ExitsLast s' := by
  unfold State.enter at hst
  split at hst
  next action watch last next hjob =>
    cases hst
    have htks : s.base.KeepsTasks (s.onEnter next action reply) := by
      unfold State.onEnter
      split
      · split
        · exact Base.doGeneralAction_keepsTasks ..
        · exact ⟨.inl rfl, .inl rfl⟩
      · exact ⟨.inl rfl, .inl rfl⟩
    refine h.keepsTasks rfl rfl htks ?_
    intro job hnew left hleft
    cases hnew
    -- the callback is called by general actions only
    obtain ⟨h1, h2, ⟨extra, rfl⟩, h4, h5, h6⟩ := h.job _ hjob left hleft
    refine ⟨h1, h2, ⟨extra, rfl⟩, h4, h5, ?_⟩
    intro harm
    cases harm
  · cases hst

theorem ExitsLast.assign (h : ExitsLast s) (hst : s.assign = some s') : ExitsLast s' := by
  unfold State.assign at hst
  split at hst
  next action watch last next hjob =>
    cases hst
    refine h.keepsTasks rfl rfl ⟨.inl rfl, .inl rfl⟩ ?_
    intro job hnew left hleft
    cases hnew
    obtain ⟨h1, h2, h3, h4, h5, -⟩ := h.job _ hjob left hleft
    exact ⟨h1, h2, h3, h4, h5, fun _ => h2⟩
  · cases hst

theorem ExitsLast.arm (h : ExitsLast s) (hst : s.arm attributes = some s') : ExitsLast s' := by
  unfold State.arm at hst
  split at hst
  next action watch last next hjob =>
    cases hst
    have harmed : ExitsLast { s with base := State.setupStateTasks attributes s.base next, job := none } := by
      refine ⟨h.exits, h.posted, ?_, ?_, ?_⟩
      · intro left hleft
        exact setupStateTasks_timeoutTask h.timeoutTask hleft
      · intro left hleft
        exact setupStateTasks_updateTask h.updateTask hleft
      · intro job hnone
        cases hnone
    refine harmed.finishTransition ?_
    intro left hleft
    obtain ⟨h1, h2, -, h4, h5, h6⟩ := h.job _ hjob left hleft
    refine ⟨?_, h4, ?_⟩
    · intro hsame
      have hstable : isTransient s.base.currentState = false := h6 rfl
      rw [show s.base.currentState = left from hsame, h1] at hstable
      cases hstable
    · show (if isTransient next then some next else s.base.updateTask) = none
      rw [if_neg (by rw [show isTransient next = false from h2]; decide), h5]
  · cases hst

/-- What an update posts is watched where the update sees an error. -/
theorem onUpdate_cases {synced : Bool}
    (hsync : name = .timeSyncing → s.base.flags.error = false) (htrans : isTransient name = true) :
    s.onUpdate name synced = s ∨ ∃ action, s.onUpdate name synced =
        s.triggerAction (.extra action) (if s.base.flags.error then some name else none) := by
  unfold State.onUpdate
  dsimp only
  split
  next hname =>
    rw [hsync hname]
    split
    · exact .inr ⟨.success, rfl⟩
    · exact .inl rfl
  next hname =>
    split
    next hnone =>
      cases name with
      | timeSyncing => exact absurd rfl hname
      | ready | activated | started | slept => cases htrans
      | _ => cases hnone
    · split
      · exact .inr ⟨.success, rfl⟩
      · split
        · exact .inr ⟨.failed, rfl⟩
        · exact .inl rfl

theorem ExitsLast.tick {synced : Bool} (h : ExitsLast s) (hc : Exits s (.tick synced)) (hst : s.tick synced = some s') :
    ExitsLast s' := by
  unfold State.tick at hst
  split at hst
  · cases hst
  next name hname =>
    obtain ⟨-, rfl⟩ := of_guard hst
    have htrans := h.updateTask name hname
    have hupd := @onUpdate_cases s name synced (fun heq => hc (heq ▸ hname)) htrans
    rcases hupd with hu | ⟨action, hu⟩
    · rw [hu]
      exact h
    · rw [hu]
      refine ⟨h.exits, ?_, h.timeoutTask, h.updateTask, h.job⟩
      intro task htask left hleft
      rcases mem_append.mp htask with htask | htask
      · exact h.posted task htask left hleft
      · rw [mem_singleton.mp htask] at hleft ⊢
        replace hleft : left ∈ if s.base.flags.error then some name else none := hleft
        split at hleft
        · cases hleft
          exact ⟨htrans, action, rfl⟩
        · cases hleft

/-! ### The agent and the service functions -/

theorem Job.Exits.same {base' : Base} (h : job.Exits left base)
    (hs : base.SameMachine base') : job.Exits left base' := by
  obtain ⟨h1, h2, h3, h4, h5, h6⟩ := h
  refine ⟨h1, h2, h3, ?_, ?_, ?_⟩
  · rw [hs.flags]
    exact h4
  · rw [hs.updateTask]
    exact h5
  · rw [hs.currentState]
    exact h6

theorem Job.Exits.event {report : Report} (h : job.Exits left base)
    (hevent : report.event ≠ .timeSynced) : job.Exits left (base.triggerGeneralEvent report) := by
  obtain ⟨h1, h2, h3, h4, h5, h6⟩ := h
  obtain ⟨hflags, hfor⟩ := triggerGeneralEvent_eq base report
  refine ⟨h1, h2, h3, ?_, ?_, ?_⟩
  · rw [hflags]
    exact afterEvent_running h4 hevent
  · rcases (Base.triggerGeneralEvent_keepsTasks base report).updateTask with hu | hu
    · rw [hu]
      exact h5
    · exact hu
  · intro harm
    rw [hfor.currentState]
    cases hstate : base.flags.forcedState report.event with
    | none => exact h6 harm
    | some state => exact forcedState_transient hstate

theorem isExiting_of (hjob : job ∈ s.job) (hleft : left ∈ job.watch) : s.isExiting = true := by
  unfold State.isExiting
  rw [hjob, bind_some, hleft]
  rfl

theorem exits_inductive : (machine attributes).Inductive Exits ExitsLast where
  init := by
    rintro s rfl
    have hbase : ∀ state : GeneralState, ∀ left ∈ (none : Option GeneralState), isTransient left = true := by
      intro _ left hleft
      cases hleft
    refine ⟨?_, ?_, ?_, ?_, ?_⟩
    · intro exit hexit
      cases hexit
    · intro task htask
      cases htask
    · intro left hleft
      exact setupStateTasks_timeoutTask (hbase .ready) hleft
    · intro left hleft
      exact setupStateTasks_updateTask (hbase .ready) hleft
    · intro job hjob
      cases hjob
  step := by
    intro s label s' h hc hst
    have hst : step attributes s label = some s' := hst
    rcases Bool.eq_false_or_eq_true label.isRequest with hl | hl
    · exact h.handsOver (step_handsOver hl hst)
    cases label with
    | request | check | finish | queueStep => cases hl
    | begin => exact h.begin hc hst
    | timeout => exact h.timeout hc hst
    | enter reply => exact h.enter hst
    | assign => exact h.assign hst
    | arm => exact h.arm hst
    | tick synced => exact h.tick hc hst
    | event report =>
      cases hst
      refine h.keepsTasks rfl rfl (Base.triggerGeneralEvent_keepsTasks s.base report) ?_
      intro job hjob left hleft
      exact (h.job job hjob left hleft).event (hc (isExiting_of hjob hleft))
    | manualStartListening reply ok =>
      cases hst
      refine h.keepsTasks rfl rfl (Base.manualStartListening_keepsTasks s.base reply ok) ?_
      intro job hjob left hleft
      have hwakes : s.base.wakesUpFirst = false := hc (isExiting_of hjob hleft)
      refine (h.job job hjob left hleft).same ?_
      show s.base.SameMachine (s.base.manualStartListening reply ok)
      unfold Base.manualStartListening
      rw [hwakes]
      exact Base.doManualStartListening_same s.base ok
    | manualStopListening ok =>
      cases hst
      have hs := Base.doManualStopListening_same s.base ok
      exact h.keepsTasks rfl rfl hs.keepsTasks fun job hjob left hleft => (h.job job hjob left hleft).same hs
    | suspend ok =>
      cases hst
      have hs := Base.doSuspend_same s.base ok
      exact h.keepsTasks rfl rfl hs.keepsTasks fun job hjob left hleft => (h.job job hjob left hleft).same hs
    | resume ok =>
      cases hst
      have hs := Base.doResume_same s.base ok
      exact h.keepsTasks rfl rfl hs.keepsTasks fun job hjob left hleft => (h.job job hjob left hleft).same hs

/-- **Exits.** In every run that meets `Exits` each timeout, and each update that sees an error, has led out of the transient
state, with nothing left running. -/
theorem exits_leave (attributes : AgentAttributes) {s : State} (hs : (machine attributes).Reach Exits s) :
    s.ExitsLeave :=
  (exits_inductive.reach hs).exits

/-! ### Runs -/

/-- The agent is silent at its first activation and fails at the second. -/
def failingRun : List Label :=
  directRun .activate [] ++ [.timeout] ++ transitionRun [] ++
    [.request .activate, .check 0 .timeSync, .finish 0, .begin, .enter { ok := false, reports := [] }, .assign, .arm] ++ tickRun

theorem exits_leave_failingRun : ∃ s, (machine timedAgent).Reach Exits s ∧ s.exits.length = 2 ∧ s.ExitsLeave := by
  obtain ⟨s, hs, hlen⟩ := map_eq_some_iff.mp (by decide +kernel :
    ((machine timedAgent).execWhen Exits (started timedAgent) failingRun).map (fun s => s.exits.length) = some 2)
  have hreach : (machine timedAgent).Reach Exits s := .execWhen (.init rfl) hs
  exact ⟨s, hreach, hlen, exits_leave timedAgent hreach⟩

/-- The agent never answers to `Stop`. -/
def stuckRun : List Label :=
  directRun .activate [{ event := .activated, ok := true }] ++ tickRun ++ directRun .stop [] ++ [.timeout]

/-- The timeout of `Stopping` has no transition. -/
theorem stuckRun_stays :
    ∃ s, (machine timedAgent).Reachable s ∧ s.base.currentState = .stopping ∧ s.isActionRunning = true ∧ ¬ s.ExitsLeave := by
  obtain ⟨s, hs, hfacts⟩ := map_eq_some_iff.mp (by decide +kernel :
    ((machine timedAgent).exec (started timedAgent) stuckRun).map
      (fun s => (s.base.currentState, s.isActionRunning, s.exits)) =
        some (.stopping, true, [{ left := .stopping, current := .stopping, running := some .stop, updating := true }]))
  obtain ⟨hstate, hrun, hexits⟩ := Prod.mk.inj hfacts |>.imp id Prod.mk.inj
  refine ⟨s, .exec (.init rfl) hs, hstate, hrun, ?_⟩
  intro h
  exact (h _ (by rw [hexits]; exact mem_singleton_self _)).1 rfl

end Brookesia.Agent
