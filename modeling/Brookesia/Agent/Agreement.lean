import Brookesia.Agent.Exits

/-! # The agent and the state machine

The lifecycle is kept in the bits of the agent and in the state of the machine. `Fits` says which bits go with which
state; a run keeps to it as long as the agent reports what it was asked for, what is unexpected comes between
transitions, and nobody wakes the agent up past the state machine (`Agreeable`). -/

namespace Brookesia.Agent

open Transition Runs List

namespace State

/-- No transition, queue task or update task is queued or running, and the state is stable. -/
def isSettled (s : State) : Bool :=
  !s.hasTransitionRunning && !s.isGeneralActionQueueTaskRunning && s.base.updateTask.isNone &&
    !isTransient s.base.currentState

end State

/-- The stable state that the bits give, with no action running and no error. -/
structure GivenBy (state : GeneralState) (flags : GeneralStateFlags) : Prop where
  running : flags.getRunningGeneralAction = none
  error : flags.error = false
  ready : state = .ready ↔ flags.activated = false
  activated : state = .activated ↔ flags.activated = true ∧ flags.started = false
  started : state = .started ↔ flags.started = true ∧ flags.slept = false
  slept : state = .slept ↔ flags.started = true ∧ flags.slept = true

def State.Agrees (s : State) : Prop :=
  s.isSettled = true → GivenBy s.base.currentState s.base.flags

/-! ### The bits of a state -/

/-- The bits that a state may come with, without `Stopping` in progress. -/
def fitting : GeneralState → List GeneralStateFlags
  | .timeSyncing | .ready => [{}]
  | .activating => [{ activating := true }, { activating := true, error := true }, { activated := true }]
  | .activated => [{ activated := true }]
  | .starting =>
    [{ activated := true, starting := true }, { activated := true, starting := true, error := true },
      { activated := true, started := true }]
  | .started => [{ activated := true, started := true }]
  | .sleeping =>
    [{ activated := true, started := true, sleeping := true },
      { activated := true, started := true, sleeping := true, error := true },
      { activated := true, started := true, slept := true }]
  | .slept => [{ activated := true, started := true, slept := true }]
  | .wakingUp =>
    [{ activated := true, started := true, slept := true, wakingUp := true },
      { activated := true, started := true, slept := true, wakingUp := true, error := true },
      { activated := true, started := true }]
  | .stopping => [{}]

/-- While the agent stops, any bits may be left from before but those of the time. -/
def GeneralStateFlags.IsStopping (flags : GeneralStateFlags) : Prop :=
  flags.stopping = true ∧ flags.timeSyncing = false ∧ (flags.activated = true ∨ flags.activating = true)

def Fits (state : GeneralState) (flags : GeneralStateFlags) : Prop :=
  flags ∈ fitting state ∨ state = .stopping ∧ flags.IsStopping

instance (flags : GeneralStateFlags) : Decidable flags.IsStopping :=
  inferInstanceAs (Decidable (_ ∧ _))

/-! ### The condition -/

/-- An event that changes nothing, or is asked for, or comes while the agent stops. -/
def GeneralStateFlags.Expects (flags : GeneralStateFlags) (event : GeneralEvent) : Prop :=
  flags.isGeneralEventReady event = true ∨
    event ≠ .timeSynced ∧ flags.getRunningGeneralAction = some (getGeneralActionFromTargetEvent event) ∧
      (flags.error = false ∨ flags.stopping = true) ∨
    (event = .activated ∨ event = .started ∨ event = .awake) ∧ flags.stopping = true

/-- An unexpected `Slept` of an agent that is started and is doing nothing but to stop. -/
def GeneralStateFlags.FallsAsleep (flags : GeneralStateFlags) (report : Report) : Prop :=
  report.event = .slept ∧ report.ok = true ∧ flags.activated = true ∧ flags.started = true ∧ flags.error = false ∧
    (flags.getRunningGeneralAction = none ∨ flags.getRunningGeneralAction = some .stop)

/-- The answer to an action: its own event at most, and not together with a failure. -/
def Reply.Answers (reply : Reply) (action : GeneralAction) : Prop :=
  (∀ report ∈ reply.reports, report.event = getGeneralActionTargetEvent action) ∧
    (reply.ok = true ∨ reply.reports = [] ∨ action = .stop)

/-- The event that the transient state waits for is there. -/
def TargetReady (state : GeneralState) (flags : GeneralStateFlags) : Prop :=
  ∀ event ∈ getTransientStateTargetEvent state, flags.isGeneralEventReady event = true

/-- `Success` is taken where the event has come; the callbacks answer their action; an event is expected, or is a `Stopped`
outside of the transitions to other states, or falls asleep outside of transitions; and the agent is not
woken up past the state machine. -/
def Agreeable (s : State) : Label → Prop
  | .begin => ∀ task ∈ s.posted.head?, task.action = .extra .success → TargetReady s.base.currentState s.base.flags
  | .enter reply => ∀ job ∈ s.job, ∀ action, job.action = .general action → reply.Answers action
  | .event report => s.base.flags.Expects report.event ∨
      report.event = .stopped ∧ (∀ job ∈ s.job, job.next = .stopping) ∨
      s.base.flags.FallsAsleep report ∧ s.job = none
  | .manualStartListening _ _ => s.base.wakesUpFirst = true →
      s.base.flags.getRunningGeneralAction = some .wakeUp ∨ s.base.flags.isGeneralEventReady .awake = true
  | _ => True

instance (flags : GeneralStateFlags) (event : GeneralEvent) : Decidable (flags.Expects event) :=
  inferInstanceAs (Decidable (_ ∨ _))

instance (flags : GeneralStateFlags) (report : Report) : Decidable (flags.FallsAsleep report) :=
  inferInstanceAs (Decidable (_ ∧ _))

instance (state : GeneralState) (flags : GeneralStateFlags) : Decidable (TargetReady state flags) :=
  inferInstanceAs (Decidable (∀ _ ∈ _, _))

instance (reply : Reply) (action : GeneralAction) : Decidable (reply.Answers action) := inferInstanceAs (Decidable (_ ∧ _))

/-- `Agreeable` for the callback of a transition. -/
def answersJob (reply : Reply) (job : Job) : Bool :=
  match job.action with
  | .general action => decide (reply.Answers action)
  | .extra _ => true

theorem answersJob_iff (reply : Reply) (job : Job) :
    answersJob reply job = true ↔ ∀ action, job.action = .general action → reply.Answers action := by
  unfold answersJob
  cases job.action with
  | general action =>
    rw [decide_eq_true_iff]
    exact ⟨fun h other heq => MachineAction.general.inj heq ▸ h, fun h => h action rfl⟩
  | extra action => exact ⟨(fun _ other heq => by cases heq), fun _ => rfl⟩

instance (s : State) : (label : Label) → Decidable (Agreeable s label)
  | .begin => inferInstanceAs (Decidable (∀ _ ∈ _, _))
  | .enter reply => decidable_of_iff (∀ job ∈ s.job, answersJob reply job = true)
      ⟨fun h job hjob => (answersJob_iff reply job).mp (h job hjob),
        fun h job hjob => (answersJob_iff reply job).mpr (h job hjob)⟩
  | .event _ => inferInstanceAs (Decidable (_ ∨ _))
  | .manualStartListening _ _ => inferInstanceAs (Decidable (_ → _))
  | .request _ | .check _ _ | .finish _ | .queueStep | .assign | .arm | .tick _ | .timeout | .manualStopListening _
  | .suspend _ | .resume _ => .isTrue trivial

variable {attributes : AgentAttributes} {s s' : State} {label : Label} {base : Base} {flags : GeneralStateFlags}
  {state next : GeneralState} {report : Report}

/-! ### Events -/

/-- What a state other than `Stopping` expects fits it again, and forces nothing. -/
theorem expects_fitting (state : GeneralState) :
    ∀ flags ∈ fitting state, ∀ event ∈ [GeneralEvent.timeSynced, .activated, .started, .slept, .awake, .stopped], ∀ ok,
      flags.isGeneralEventReady event = true ∨
        event ≠ .timeSynced ∧ flags.getRunningGeneralAction = some (getGeneralActionFromTargetEvent event) ∧
          (flags.error = false ∨ flags.stopping = true) ∨
        (event = .activated ∨ event = .started ∨ event = .awake) ∧ flags.stopping = true →
      flags.afterEvent { event := event, ok := ok } ∈ fitting state ∧ flags.forcedState event = none := by
  cases state <;> decide

theorem expects_cases {event : GeneralEvent} (h : flags.Expects event) :
    flags.isGeneralEventReady event = true ∨ event ≠ .timeSynced ∧ flags.isGeneralEventUnexpected event = false := by
  rcases h with hrdy | ⟨htime, hrun, -⟩ | ⟨hevent, -⟩
  · exact .inl hrdy
  · refine .inr ⟨htime, ?_⟩
    unfold GeneralStateFlags.isGeneralEventUnexpected
    rw [if_pos hrun]
  · right
    unfold GeneralStateFlags.isGeneralEventUnexpected
    rcases hevent with rfl | rfl | rfl
    · exact ⟨by decide, by split <;> rfl⟩
    · exact ⟨by decide, by split <;> rfl⟩
    · exact ⟨by decide, by split <;> rfl⟩

/-- An expected event forces nothing: it is skipped, or settles the bits. -/
theorem afterEvent_expected (h : flags.Expects report.event) : (flags.afterEvent report = flags ∨
      report.event ≠ .timeSynced ∧ flags.afterEvent report = flags.settle report.event) ∧
    flags.forcedState report.event = none := by
  unfold GeneralStateFlags.afterEvent GeneralStateFlags.forcedState
  rcases expects_cases h with hrdy | ⟨htime, hexpd⟩
  · rw [if_pos hrdy, if_pos hrdy]
    exact ⟨.inl rfl, rfl⟩
  · split
    · exact ⟨.inl rfl, rfl⟩
    · rw [if_neg (by rw [hexpd]; decide), if_neg (by rw [hexpd]; decide)]
      exact ⟨.inr ⟨htime, rfl⟩, rfl⟩

theorem isStopping_settle {event : GeneralEvent} (h : flags.IsStopping) (htime : event ≠ .timeSynced) :
    (flags.settle event).IsStopping ∨ flags.settle event = {} := by
  obtain ⟨hstpg, htimeSyncing, hact⟩ := h
  cases event with
  | timeSynced => exact absurd rfl htime
  | stopped => exact .inr rfl
  | activated => exact .inl ⟨hstpg, htimeSyncing, .inl rfl⟩
  | started | slept | awake => exact .inl ⟨hstpg, htimeSyncing, hact⟩

theorem Fits.expects (h : Fits state flags) (hexp : flags.Expects report.event) :
    Fits state (flags.afterEvent report) ∧ flags.forcedState report.event = none := by
  rcases h with h | ⟨rfl, h⟩
  · have hevent : report.event ∈ [GeneralEvent.timeSynced, .activated, .started, .slept, .awake, .stopped] := by
      cases report.event <;> decide
    obtain ⟨hfits, hfor⟩ := expects_fitting state flags h report.event hevent report.ok hexp
    exact ⟨.inl hfits, hfor⟩
  · obtain ⟨hsett | ⟨htime, hsett⟩, hfor⟩ := afterEvent_expected hexp
    · rw [hsett]
      exact ⟨.inr ⟨rfl, h⟩, hfor⟩
    · rw [hsett]
      refine ⟨?_, hfor⟩
      rcases isStopping_settle h htime with hstill | hemp
      · exact .inr ⟨rfl, hstill⟩
      · rw [hemp]
        exact .inl (mem_singleton_self _)

theorem isStopping_not_ready (h : flags.IsStopping) : flags.isGeneralEventReady .stopped = false := by
  obtain ⟨-, htimeSyncing, hact⟩ := h
  unfold GeneralStateFlags.isGeneralEventReady
  split
  · rfl
  next hrun =>
    have hactivating : flags.activating = false := by
      by_contra hactivating
      have hactivating : flags.activating = true := Bool.eq_true_of_not_eq_false hactivating
      refine hrun ⟨rfl, ?_⟩
      simp [GeneralStateFlags.isGeneralActionRunning, GeneralStateFlags.getRunningGeneralAction,
        GeneralStateFlags.test, getGeneralActionStateFlagBit, htimeSyncing, hactivating]
    rcases hact with hactivated | hoth
    · show (flags.activated == false) = false
      rw [hactivated]
      rfl
    · rw [hactivating] at hoth
      cases hoth

theorem stopped_fitting (state : GeneralState) :
    ∀ flags ∈ fitting state, ∀ ok, flags.afterEvent { event := .stopped, ok := ok } = {} ∧
      (flags.forcedState .stopped = some .ready ∨
        flags.forcedState .stopped = none ∧ ({} : GeneralStateFlags) ∈ fitting state) := by
  cases state <;> decide

theorem Fits.stopped (h : Fits state flags) (hevent : report.event = .stopped) :
    flags.afterEvent report = {} ∧ (flags.forcedState report.event = some .ready ∨
      flags.forcedState report.event = none ∧ ({} : GeneralStateFlags) ∈ fitting state) := by
  obtain ⟨event, ok⟩ := report
  obtain rfl : event = .stopped := hevent
  rcases h with h | ⟨rfl, h⟩
  · exact stopped_fitting state flags h ok
  · have hrdy := isStopping_not_ready h
    unfold GeneralStateFlags.afterEvent GeneralStateFlags.forcedState
    simp only [hrdy, Bool.false_eq_true, ↓reduceIte]
    split
    · exact ⟨rfl, .inl rfl⟩
    · exact ⟨rfl, .inr ⟨rfl, mem_singleton_self _⟩⟩

theorem fallsAsleep_fitting (state : GeneralState) :
    ∀ flags ∈ fitting state, flags.activated = true ∧ flags.started = true ∧ flags.error = false ∧
        (flags.getRunningGeneralAction = none ∨ flags.getRunningGeneralAction = some .stop) →
      flags = { activated := true, started := true } ∨ flags = { activated := true, started := true, slept := true } := by
  cases state <;> decide

theorem isStopping_stop (h : flags.IsStopping) (hrun : flags.getRunningGeneralAction = some .stop) :
    flags.activating = false ∧ flags.starting = false ∧ flags.sleeping = false ∧ flags.wakingUp = false := by
  unfold GeneralStateFlags.getRunningGeneralAction at hrun
  obtain ⟨-, htimeSyncing, -⟩ := h
  revert hrun
  simp only [List.find?_cons, GeneralStateFlags.test, getGeneralActionStateFlagBit, htimeSyncing]
  cases flags.activating <;> cases flags.starting <;> cases flags.sleeping <;> cases flags.wakingUp <;> simp

theorem Fits.fallsAsleep (h : Fits state flags) (hsleep : flags.FallsAsleep report) :
    flags.afterEvent report = { activated := true, started := true, slept := true } ∧
        flags.forcedState report.event = some .slept ∨
      flags.afterEvent report = flags ∧ flags.forcedState report.event = none := by
  obtain ⟨event, ok⟩ := report
  obtain ⟨hevent, hok, hactivated, hstd, herror, hrun⟩ := hsleep
  obtain rfl : event = .slept := hevent
  obtain rfl : ok = true := hok
  rcases h with h | ⟨rfl, h⟩
  · rcases fallsAsleep_fitting state flags h ⟨hactivated, hstd, herror, hrun⟩ with rfl | rfl
    · exact .inl (by decide)
    · exact .inr (by decide)
  · have hstop : flags.getRunningGeneralAction = some .stop := by
      rcases hrun with hnone | hstop
      · have := (running_eq_none.mp hnone).2.2.2.2.2
        rw [h.1] at this
        cases this
      · exact hstop
    obtain ⟨h1, h2, h3, h4⟩ := isStopping_stop h hstop
    obtain ⟨h5, h6, -⟩ := h
    obtain ⟨timeSyncing, activating, activated, starting, stopping, started, sleeping, wakingUp, slept, error⟩ := flags
    simp only at h1 h2 h3 h4 h5 h6 hactivated hstd herror
    subst h1 h2 h3 h4 h5 h6 hactivated hstd herror
    cases slept with
    | false => exact .inl (by decide)
    | true => exact .inr (by decide)

/-! ### Transitions -/

theorem success_fitting (state : GeneralState) : ∀ flags ∈ fitting state, TargetReady state flags →
      ∀ next ∈ transition state (.extra .success), flags ∈ fitting next := by
  cases state <;> decide

theorem Fits.success (h : Fits state flags) (hrdy : TargetReady state flags)
    (hnext : transition state (.extra .success) = some next) : Fits next flags := by
  rcases h with h | ⟨rfl, h⟩
  · exact .inl (success_fitting state flags h hrdy next hnext)
  · have hnot := isStopping_not_ready h
    rw [hrdy .stopped rfl] at hnot
    cases hnot

theorem failed_ready (state : GeneralState) :
    ∀ action ∈ [ExtraAction.failed, .timeout], ∀ next ∈ transition state (.extra action), next = .ready := by
  cases state <;> decide

theorem transition_general (state : GeneralState) (action : GeneralAction) :
    ∀ next ∈ transition state (.general action), next ≠ state →
      (action = .stop ∧ next = .stopping ∧ state ≠ .ready ∧ state ≠ .timeSyncing ∧ state ≠ .stopping) ∨
      (action, state, next) ∈ [(GeneralAction.activate, GeneralState.ready, GeneralState.activating),
        (.start, .activated, .starting), (.sleep, .started, .sleeping), (.wakeUp, .slept, .wakingUp)] := by
  cases state <;> cases action <;> decide

/-! ### The callback of an action -/

theorem reports_keep {good : GeneralStateFlags → Prop} {event : GeneralEvent}
    (hgood : ∀ flags ok, good flags → good (flags.afterEvent { event := event, ok := ok })) :
    ∀ (reports : List Report) (base : Base), (∀ report ∈ reports, report.event = event) → good base.flags →
      good (reports.foldl Base.triggerGeneralEvent base).flags
  | [], _, _, h => h
  | { event := other, ok } :: reports, base, hreps, h => by
    obtain rfl : other = event := hreps _ mem_cons_self
    refine reports_keep hgood reports _ (fun report hreport => hreps report (mem_cons_of_mem _ hreport)) ?_
    rw [(triggerGeneralEvent_eq base _).1]
    exact hgood base.flags ok h

theorem doCallback_cases (base : Base) (action : GeneralAction) (reply : Reply) :
    action ≠ .stop ∧ (Base.doCallback Base.triggerGeneralEvent base action reply).1.flags = base.flags ∧
        (Base.doCallback Base.triggerGeneralEvent base action reply).2 = false ∨
      (Base.doCallback Base.triggerGeneralEvent base action reply).1.flags =
          (reply.reports.foldl Base.triggerGeneralEvent base).flags ∧
        (Base.doCallback Base.triggerGeneralEvent base action reply).2 = (reply.ok || action == .stop) := by
  unfold Base.doCallback
  cases action with
  | timeSync => exact .inl ⟨by decide, rfl, rfl⟩
  | activate | start => exact .inr ⟨rfl, (Bool.or_false _).symm⟩
  | sleep =>
    refine .inr ⟨?_, (Bool.or_false _).symm⟩
    dsimp only
    split <;> rfl
  | wakeUp =>
    dsimp only
    split
    · exact .inl ⟨by decide, rfl, rfl⟩
    · exact .inr ⟨rfl, (Bool.or_false _).symm⟩
  | stop => exact .inr ⟨rfl, (Bool.or_true _).symm⟩

variable {action : GeneralAction} {reply : Reply}

/-- An action that answers: `good` holds when its callback starts and is kept by its event, `fine` follows from it and from
a failure with no event. -/
theorem doGeneralAction_answers {good fine : GeneralStateFlags → Prop} (hreply : reply.Answers action)
    (hskip : base.flags.isGeneralActionRunning action = true ∨
      base.flags.isGeneralEventReady (getGeneralActionTargetEvent action) = true → fine base.flags)
    (hset : good (base.flags.set (getGeneralActionStateFlagBit action) true))
    (hgood : ∀ flags ok, good flags → good (flags.afterEvent { event := getGeneralActionTargetEvent action, ok := ok }))
    (hfine : ∀ flags, good flags → fine flags)
    (hfail : action ≠ .stop → fine ((base.flags.set (getGeneralActionStateFlagBit action) true).set .error true)) :
    fine (base.doGeneralAction action reply).1.flags := by
  unfold Base.doGeneralAction Base.doGeneralActionWith
  split
  next hrun => exact hskip (.inl hrun)
  split
  next hrdy => exact hskip (.inr hrdy)
  dsimp only
  have hcb := doCallback_cases
    { base with flags := base.flags.updateGeneralActionStateBit (some action) true } action reply
  rcases hcb with ⟨hstop, hflags, hres⟩ | ⟨hflags, hres⟩
  · rw [if_neg (by rw [hres]; decide)]
    dsimp only
    rw [hflags]
    exact hfail hstop
  · split
    · rw [hflags]
      exact hfine _ (reports_keep hgood reply.reports _ hreply.1 hset)
    next hfalse =>
      rw [hres] at hfalse
      have hok : reply.ok = false := by
        cases hok : reply.ok with
        | false => rfl
        | true => exact absurd (by rw [hok]; rfl) hfalse
      have hstop : action ≠ .stop := by
        rintro rfl
        exact hfalse (Bool.or_true _)
      have hnone : reply.reports = [] := by
        rcases hreply.2 with ht | hn | hs
        · rw [hok] at ht
          cases ht
        · exact hn
        · exact absurd hs hstop
      dsimp only
      rw [hflags, hnone]
      exact hfail hstop

def clean (state : GeneralState) (flags : GeneralStateFlags) : Prop :=
  flags ∈ fitting state ∧ flags.error = false

instance (state : GeneralState) (flags : GeneralStateFlags) : Decidable (clean state flags) :=
  inferInstanceAs (Decidable (_ ∧ _))

theorem action_fitting (action : GeneralAction) (state next : GeneralState)
    (h : (action, state, next) ∈ [(GeneralAction.activate, GeneralState.ready, GeneralState.activating),
      (.start, .activated, .starting), (.sleep, .started, .sleeping), (.wakeUp, .slept, .wakingUp)]) :
    ∀ flags ∈ fitting state, flags.isGeneralActionRunning action = false ∧
      flags.isGeneralEventReady (getGeneralActionTargetEvent action) = false ∧
      clean next (flags.set (getGeneralActionStateFlagBit action) true) ∧
      (flags.set (getGeneralActionStateFlagBit action) true).set .error true ∈ fitting next := by
  simp only [mem_cons, Prod.mk.injEq, not_mem_nil, or_false] at h
  rcases h with ⟨rfl, rfl, rfl⟩ | ⟨rfl, rfl, rfl⟩ | ⟨rfl, rfl, rfl⟩ | ⟨rfl, rfl, rfl⟩
  · decide
  · decide
  · decide
  · decide

theorem clean_answered (action : GeneralAction) (state next : GeneralState)
    (h : (action, state, next) ∈ [(GeneralAction.activate, GeneralState.ready, GeneralState.activating),
      (.start, .activated, .starting), (.sleep, .started, .sleeping), (.wakeUp, .slept, .wakingUp)]) :
    ∀ flags ∈ fitting next, flags.error = false → ∀ ok,
      clean next (flags.afterEvent { event := getGeneralActionTargetEvent action, ok := ok }) := by
  simp only [mem_cons, Prod.mk.injEq, not_mem_nil, or_false] at h
  rcases h with ⟨rfl, rfl, rfl⟩ | ⟨rfl, rfl, rfl⟩ | ⟨rfl, rfl, rfl⟩ | ⟨rfl, rfl, rfl⟩
  · decide
  · decide
  · decide
  · decide

theorem stop_fitting (state : GeneralState) (h : state ≠ .ready ∧ state ≠ .timeSyncing ∧ state ≠ .stopping) :
    ∀ flags ∈ fitting state, flags.isGeneralActionRunning .stop = false ∧ flags.isGeneralEventReady .stopped = false ∧
      (flags.set .stopping true).IsStopping := by
  cases state with
  | ready => exact absurd rfl h.1
  | timeSyncing => exact absurd rfl h.2.1
  | stopping => exact absurd rfl h.2.2
  | _ => decide

theorem fits_stopping_of_stopped (hflags : Fits .stopping flags) (ok : Bool) :
    Fits .stopping (flags.afterEvent { event := .stopped, ok := ok }) := by
  obtain ⟨hemp, -⟩ : flags.afterEvent { event := .stopped, ok := ok } = {} ∧ _ := hflags.stopped rfl
  rw [hemp]
  exact .inl (mem_singleton_self _)

theorem stop_skipped (h : base.flags = {}) : (base.doGeneralAction .stop reply).1 = base := by
  unfold Base.doGeneralAction Base.doGeneralActionWith
  rw [if_neg (by rw [h]; decide), if_pos (by rw [h]; decide)]

/-- **A transition by a general action** leaves the bits of its transient state. -/
theorem doGeneralAction_fits (hnext : transition state (.general action) = some next) (hmoves : next ≠ state)
    (h : Fits state base.flags ∨ action = .stop ∧ base.flags = {}) (hreply : reply.Answers action) :
    Fits next (base.doGeneralAction action reply).1.flags := by
  rcases transition_general state action next hnext hmoves with ⟨rfl, rfl, hrdy, htime, hstpg⟩ | hmem
  · rcases h with (hfits | ⟨rfl, -⟩) | ⟨-, hemp⟩
    · obtain ⟨-, -, hset⟩ := stop_fitting state ⟨hrdy, htime, hstpg⟩ base.flags hfits
      refine @doGeneralAction_answers base .stop reply (Fits .stopping) (Fits .stopping) hreply ?_ (.inr ⟨rfl, hset⟩)
        (fun flags ok hflags => fits_stopping_of_stopped hflags ok) (fun _ hflags => hflags) (fun hne => absurd rfl hne)
      obtain ⟨hnotRunning, hnotReady, -⟩ := stop_fitting state ⟨hrdy, htime, hstpg⟩ base.flags hfits
      rintro (hr | hr)
      · rw [hnotRunning] at hr
        cases hr
      · rw [show base.flags.isGeneralEventReady (getGeneralActionTargetEvent .stop) = false from hnotReady] at hr
        cases hr
    · exact absurd rfl hstpg
    · rw [stop_skipped hemp, hemp]
      exact .inl (mem_singleton_self _)
  · have hfits : base.flags ∈ fitting state := by
      rcases h with (hfits | ⟨rfl, -⟩) | ⟨rfl, -⟩
      · exact hfits
      · simp at hmem
      · simp at hmem
    obtain ⟨hnotRunning, hnotReady, hset, hfail⟩ := action_fitting action state next hmem base.flags hfits
    refine @doGeneralAction_answers base action reply (clean next) (Fits next) hreply ?_ hset
      (fun flags ok hflags => clean_answered action state next hmem flags hflags.1 hflags.2 ok)
      (fun _ hflags => .inl hflags.1) (fun _ => .inl hfail)
    rintro (hr | hr)
    · rw [hnotRunning] at hr
      cases hr
    · rw [hnotReady] at hr
      cases hr

/-! ### The invariant -/

/-- The bits during a transition: of the state it leaves, until its action is done; of the state it goes to; and once that
is assigned, of the current state. -/
def JobFits (job : Job) (base : Base) : Prop :=
  match job.stage, job.action with
  | .entering, .general action =>
    transition job.last (.general action) = some job.next ∧ job.next ≠ job.last ∧
      (Fits job.last base.flags ∨ action = .stop ∧ base.flags = {})
  | .arming, _ => Fits base.currentState base.flags
  | _, _ => Fits job.next base.flags

structure Matches (s : State) : Prop where
  idle : s.job = none → Fits s.base.currentState s.base.flags
  busy : ∀ job ∈ s.job, JobFits job s.base

theorem Matches.of_eq (h : Matches s) (hjob : s'.job = s.job) (hflags : s'.base.flags = s.base.flags)
    (hcur : s'.base.currentState = s.base.currentState) : Matches s' := by
  refine ⟨?_, ?_⟩
  · rw [hjob, hflags, hcur]
    exact h.idle
  · unfold JobFits
    rw [hjob, hflags, hcur]
    exact h.busy

theorem Matches.same (h : Matches s) (hs : s.base.SameMachine base) : Matches { s with base := base } :=
  h.of_eq rfl hs.flags hs.currentState

theorem finishTransition_eq (s : State) (watch : Option GeneralState) :
    (s.finishTransition watch).job = s.job ∧ (s.finishTransition watch).base = s.base := by
  unfold State.finishTransition
  split
  · exact ⟨rfl, rfl⟩
  · exact ⟨rfl, rfl⟩

theorem Matches.finishTransition {watch : Option GeneralState} (h : Matches s) : Matches (s.finishTransition watch) := by
  obtain ⟨hjob, hbase⟩ := finishTransition_eq s watch
  exact h.of_eq hjob (by rw [hbase]) (by rw [hbase])

theorem Matches.startTransition {action : MachineAction} {watch : Option GeneralState} (h : Matches s)
    (hjob : s.job = none) (hrdy : action = .extra .success → TargetReady s.base.currentState s.base.flags) :
    Matches (s.startTransition action watch) := by
  have hfits := h.idle hjob
  unfold State.startTransition
  split
  · exact h.finishTransition
  next next hnext =>
    split
    · exact h.finishTransition
    next hmoves =>
      refine ⟨(fun hnone => by cases hnone), ?_⟩
      intro job hnew
      cases hnew
      cases action with
      | general action =>
        have hexit : s.onExit (.general action) = s := by
          unfold State.onExit
          rw [if_neg (by rintro ⟨-, h | h⟩ <;> cases h)]
        rw [hexit]
        exact ⟨hnext, hmoves, .inl hfits⟩
      | extra action =>
        cases action with
        | success =>
          have hexit : s.onExit (.extra .success) = s := by
            unfold State.onExit
            rw [if_neg (by rintro ⟨-, h | h⟩ <;> cases h)]
          rw [hexit]
          exact hfits.success (hrdy rfl) hnext
        | failed =>
          have htrans := (transition_extra _ _ next hnext).1
          have hexit : (s.onExit (.extra .failed)).base.flags = {} := by
            unfold State.onExit
            rw [if_pos ⟨htrans, .inr rfl⟩]
            exact (triggerGeneralEvent_eq s.base _).1.trans (hfits.stopped rfl).1
          obtain rfl := failed_ready _ .failed (by decide) next hnext
          show Fits .ready (s.onExit (.extra .failed)).base.flags
          rw [hexit]
          exact .inl (mem_singleton_self _)
        | timeout =>
          have htrans := (transition_extra _ _ next hnext).1
          have hexit : (s.onExit (.extra .timeout)).base.flags = {} := by
            unfold State.onExit
            rw [if_pos ⟨htrans, .inl rfl⟩]
            exact (triggerGeneralEvent_eq s.base _).1.trans (hfits.stopped rfl).1
          obtain rfl := failed_ready _ .timeout (by decide) next hnext
          show Fits .ready (s.onExit (.extra .timeout)).base.flags
          rw [hexit]
          exact .inl (mem_singleton_self _)

theorem general_transient (hnext : transition state (.general action) = some next)
    (hmoves : next ≠ state) : isTransient next = true := by
  rcases transition_general state action next hnext hmoves with ⟨-, rfl, -⟩ | hmem
  · rfl
  · simp only [mem_cons, Prod.mk.injEq, not_mem_nil, or_false] at hmem
    rcases hmem with ⟨-, -, rfl⟩ | ⟨-, -, rfl⟩ | ⟨-, -, rfl⟩ | ⟨-, -, rfl⟩ <;> rfl

theorem Matches.enter (h : Matches s) (hc : Agreeable s (.enter reply)) (hst : s.enter reply = some s') :
    Matches s' := by
  unfold State.enter at hst
  split at hst
  next action watch last next hjob =>
    cases hst
    refine ⟨(fun hnone => by cases hnone), ?_⟩
    intro job hnew
    cases hnew
    have hfits := h.busy _ hjob
    cases action with
    | extra => exact hfits
    | general action =>
      obtain ⟨hnext, hmoves, hlast⟩ := hfits
      have hentd := doGeneralAction_fits hnext hmoves hlast (hc _ hjob action rfl)
      show Fits next (s.onEnter next (.general action) reply).flags
      unfold State.onEnter
      dsimp only
      rw [if_pos (general_transient hnext hmoves)]
      exact hentd
  · cases hst

theorem Matches.assign (h : Matches s) (hst : s.assign = some s') : Matches s' := by
  unfold State.assign at hst
  split at hst
  next action watch last next hjob =>
    cases hst
    refine ⟨(fun hnone => by cases hnone), ?_⟩
    intro job hnew
    cases hnew
    exact h.busy _ hjob
  · cases hst

theorem Matches.arm (h : Matches s) (hst : s.arm attributes = some s') : Matches s' := by
  unfold State.arm at hst
  split at hst
  next action watch last next hjob =>
    cases hst
    have hfits := h.busy _ hjob
    refine Matches.finishTransition ⟨fun _ => ?_, fun job hnone => by cases hnone⟩
    exact hfits
  · cases hst

/-! ### The steps of the agent -/

theorem JobFits.expects {job : Job} (h : JobFits job base) (hexp : base.flags.Expects report.event) :
    JobFits job (base.triggerGeneralEvent report) := by
  obtain ⟨hflags, hfor⟩ := triggerGeneralEvent_eq base report
  have hcur : (base.triggerGeneralEvent report).currentState = base.currentState := by
    rw [hfor.currentState, (afterEvent_expected hexp).2]
    rfl
  unfold JobFits at h ⊢
  split at h
  · obtain ⟨hnext, hmoves, hlast⟩ := h
    refine ⟨hnext, hmoves, ?_⟩
    rw [hflags]
    rcases hlast with hlast | ⟨hstop, hemp⟩
    · exact .inl (hlast.expects hexp).1
    · have hrdy : Fits .ready base.flags := by
        rw [hemp]
        exact .inl (mem_singleton_self _)
      rcases (hrdy.expects hexp).1 with hmem | ⟨hne, -⟩
      · exact .inr ⟨hstop, mem_singleton.mp hmem⟩
      · cases hne
  · rw [hcur, hflags]
    exact (h.expects hexp).1
  · rw [hflags]
    exact (h.expects hexp).1

theorem JobFits.stopped {job : Job} (h : JobFits job base) (hnext : job.next = .stopping)
    (hevent : report.event = .stopped) : JobFits job (base.triggerGeneralEvent report) := by
  obtain ⟨hflags, hfor⟩ := triggerGeneralEvent_eq base report
  have hemp : ∀ {state}, Fits state base.flags → base.flags.afterEvent report = {} :=
    fun hfits => (hfits.stopped hevent).1
  unfold JobFits at h ⊢
  split at h
  next action _ _ =>
    obtain ⟨htrn, hmoves, hlast⟩ := h
    refine ⟨htrn, hmoves, .inr ⟨?_, ?_⟩⟩
    · rcases transition_general _ _ _ htrn hmoves with ⟨hstop, -⟩ | hmem
      · exact hstop
      · rw [hnext] at hmem
        simp at hmem
    · rw [hflags]
      rcases hlast with hlast | ⟨-, hnone⟩
      · exact hemp hlast
      · have hrdy : Fits .ready base.flags := by
          rw [hnone]
          exact .inl (mem_singleton_self _)
        exact hemp hrdy
  · rw [hfor.currentState, hflags, hemp h]
    rcases (h.stopped hevent).2 with hs | ⟨hs, hmem⟩
    · rw [hs]
      exact .inl (mem_singleton_self _)
    · rw [hs]
      exact .inl hmem
  · rw [hflags, hemp h, hnext]
    exact .inl (mem_singleton_self _)

theorem Matches.event (h : Matches s) (hc : Agreeable s (.event report)) :
    Matches { s with base := s.base.triggerGeneralEvent report } := by
  obtain ⟨hflags, hfor⟩ := triggerGeneralEvent_eq s.base report
  refine ⟨?_, ?_⟩
  · intro hjob
    have hfits := h.idle hjob
    show Fits (s.base.triggerGeneralEvent report).currentState (s.base.triggerGeneralEvent report).flags
    rw [hfor.currentState, hflags]
    rcases hc with hexp | ⟨hevent, -⟩ | ⟨hsleep, -⟩
    · obtain ⟨hafter, hnone⟩ := hfits.expects hexp
      rw [hnone]
      exact hafter
    · obtain ⟨hemp, hrdy | ⟨hnone, hmem⟩⟩ := hfits.stopped hevent
      · rw [hemp, hrdy]
        exact .inl (mem_singleton_self _)
      · rw [hemp, hnone]
        exact .inl hmem
    · rcases hfits.fallsAsleep hsleep with ⟨hafter, hslept⟩ | ⟨hafter, hnone⟩
      · rw [hafter, hslept]
        exact .inl (mem_singleton_self _)
      · rw [hafter, hnone]
        exact hfits
  · intro job hjob
    have hfits := h.busy job hjob
    rcases hc with hexp | ⟨hevent, hnext⟩ | ⟨-, hnone⟩
    · exact hfits.expects hexp
    · exact hfits.stopped (hnext job hjob) hevent
    · rw [show s.job = none from hnone] at hjob
      cases hjob

theorem manualStartListening_same {ok : Bool} (hc : Agreeable s (.manualStartListening reply ok)) :
    s.base.SameMachine (s.base.manualStartListening reply ok) := by
  unfold Base.manualStartListening
  split
  next hwakes =>
    have hskip : s.base.doGeneralAction .wakeUp reply = (s.base, true) := by
      unfold Base.doGeneralAction Base.doGeneralActionWith
      rcases hc hwakes with hrun | hrdy
      · rw [if_pos (by unfold GeneralStateFlags.isGeneralActionRunning; rw [hrun]; rfl)]
      · split
        · rfl
        · exact if_pos hrdy
    rw [hskip]
    exact Base.doManualStartListening_same s.base ok
  · exact Base.doManualStartListening_same s.base ok

theorem onUpdate_eq (s : State) (name : GeneralState) (synced : Bool) :
    (s.onUpdate name synced).job = s.job ∧ (s.onUpdate name synced).base = s.base := by
  unfold State.onUpdate
  dsimp only
  split
  · split
    · exact ⟨rfl, rfl⟩
    · exact finishTransition_eq s _
  · split
    · exact finishTransition_eq s _
    split
    · exact ⟨rfl, rfl⟩
    split
    · exact ⟨rfl, rfl⟩
    · exact ⟨rfl, rfl⟩

theorem groupIsFree_job (h : s.groupIsFree = true) : s.job = none := by
  have hnone := (Bool.and_eq_true_iff.mp h).1
  simpa using hnone

theorem matches_inductive : (machine attributes).Inductive Agreeable Matches where
  init := by
    rintro s rfl
    refine ⟨fun _ => ?_, ?_⟩
    · unfold started
      split
      · exact .inl (mem_singleton_self _)
      · exact .inl (mem_singleton_self _)
    · intro job hjob
      cases hjob
  step := by
    intro s label s' h hc hst
    have hst : step attributes s label = some s' := hst
    rcases Bool.eq_false_or_eq_true label.isRequest with hl | hl
    · have hs := step_handsOver hl hst
      exact h.of_eq hs.job (by rw [hs.base]) (by rw [hs.base])
    cases label with
    | request | check | finish | queueStep => cases hl
    | begin =>
      have hst : s.begin = some s' := hst
      unfold State.begin at hst
      split at hst
      · cases hst
      next task posted hpost =>
        obtain ⟨hfree, rfl⟩ := of_guard hst
        have hrest : Matches { s with posted := posted } := h.of_eq rfl rfl rfl
        exact hrest.startTransition (groupIsFree_job hfree) (hc task (by rw [hpost]; rfl))
    | timeout =>
      have hst : s.timeout = some s' := hst
      unfold State.timeout at hst
      split at hst
      · cases hst
      next name hname =>
        obtain ⟨hfree, rfl⟩ := of_guard hst
        have hrest : Matches { s with base := { s.base with timeoutTask := none } } := h.of_eq rfl rfl rfl
        refine hrest.startTransition (groupIsFree_job hfree) ?_
        intro hsuccess
        cases hsuccess
    | enter reply => exact h.enter hc hst
    | assign => exact h.assign hst
    | arm => exact h.arm hst
    | tick synced =>
      have hst : s.tick synced = some s' := hst
      unfold State.tick at hst
      split at hst
      · cases hst
      next name hname =>
        obtain ⟨-, rfl⟩ := of_guard hst
        obtain ⟨hjob, hbase⟩ := onUpdate_eq s name synced
        exact h.of_eq hjob (by rw [hbase]) (by rw [hbase])
    | event report =>
      cases hst
      exact h.event hc
    | manualStartListening reply ok =>
      cases hst
      exact h.same (manualStartListening_same hc)
    | manualStopListening ok =>
      cases hst
      exact h.same (Base.doManualStopListening_same s.base ok)
    | suspend ok =>
      cases hst
      exact h.same (Base.doSuspend_same s.base ok)
    | resume ok =>
      cases hst
      exact h.same (Base.doResume_same s.base ok)

theorem givenBy_fitting (state : GeneralState) (h : isTransient state = false) :
    ∀ flags ∈ fitting state, flags.getRunningGeneralAction = none ∧ flags.error = false ∧
      (state = .ready ↔ flags.activated = false) ∧
      (state = .activated ↔ flags.activated = true ∧ flags.started = false) ∧
      (state = .started ↔ flags.started = true ∧ flags.slept = false) ∧
      (state = .slept ↔ flags.started = true ∧ flags.slept = true) := by
  cases state with
  | ready | activated | started | slept => decide
  | _ => cases h

/-- **Agreement.** In every run that meets `Agreeable` the stable states of the machine are those that the bits give. -/
theorem manager_agrees (attributes : AgentAttributes) {s : State} (hs : (machine attributes).Reach Agreeable s) :
    s.Agrees := by
  intro hsett
  have hparts := Bool.and_eq_true_iff.mp hsett
  have hstable : isTransient s.base.currentState = false := by simpa using hparts.2
  have hjob : s.job = none := by
    have hrun := (Bool.and_eq_true_iff.mp (Bool.and_eq_true_iff.mp hparts.1).1).1
    unfold State.hasTransitionRunning at hrun
    simpa using (by simpa using hrun : _ ∧ _).2
  rcases (matches_inductive.reach hs).idle hjob with hmem | ⟨hstpg, -⟩
  · obtain ⟨h1, h2, h3, h4, h5, h6⟩ := givenBy_fitting _ hstable _ hmem
    exact ⟨h1, h2, h3, h4, h5, h6⟩
  · rw [hstpg] at hstable
    cases hstable

/-! ### Runs -/

def sleepingRun : List Label :=
  directRun .activate [{ event := .activated, ok := true }] ++ tickRun ++ directRun .start [] ++
    [.event { event := .started, ok := true }] ++ tickRun ++ [.event { event := .slept, ok := true }]

theorem manager_agrees_sleepingRun :
    ∃ s, (machine timedAgent).Reach Agreeable s ∧ s.isSettled = true ∧ s.base.currentState = .slept ∧
      GivenBy s.base.currentState s.base.flags := by
  obtain ⟨s, hs, hfacts⟩ := Option.map_eq_some_iff.mp (by decide +kernel :
    ((machine timedAgent).execWhen Agreeable (started timedAgent) sleepingRun).map
      (fun s => (s.isSettled, s.base.currentState)) = some (true, .slept))
  have hreach : (machine timedAgent).Reach Agreeable s := .execWhen (.init rfl) hs
  obtain ⟨hsett, hstate⟩ := Prod.mk.inj hfacts
  exact ⟨s, hreach, hsett, hstate, manager_agrees timedAgent hreach hsett⟩

/-- The agent is activated after the timeout of its activation. -/
def lateRun : List Label :=
  directRun .activate [] ++ [.timeout] ++ transitionRun [] ++ [.event { event := .activated, ok := true }]

/-- The late event sets the bit of an activated agent in `Ready`. -/
theorem lateRun_disagrees :
    ∃ s, (machine timedAgent).Reachable s ∧ s.base.currentState = .ready ∧ s.base.flags.activated = true ∧ ¬ s.Agrees := by
  obtain ⟨s, hs, hfacts⟩ := Option.map_eq_some_iff.mp (by decide +kernel :
    ((machine timedAgent).exec (started timedAgent) lateRun).map
      (fun s => (s.isSettled, s.base.currentState, s.base.flags.activated)) = some (true, .ready, true))
  obtain ⟨hsett, hstate, hactivated⟩ := Prod.mk.inj hfacts |>.imp id Prod.mk.inj
  refine ⟨s, .exec (.init rfl) hs, hstate, hactivated, ?_⟩
  intro h
  have hrdy := (h hsett).ready.mp hstate
  rw [hactivated] at hrdy
  cases hrdy

end Brookesia.Agent
