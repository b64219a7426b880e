import Brookesia.SystemCore.Model

/-! # What a run of an app leaves behind

* `keyboardsLeft`, `dialogsLeft`, `timersGone`: what a `stop_app` on the stack has still to close. Its
  cleanup closes what it has collected; nobody looks again.
* `CreatesNothing`: an app opens nothing any more once a `stop_app` has collected it, and `start_app` is
  called for apps that do not run.
* `stop_leaves_nothing`: every `stop_app` returns with nothing left, and no timer is delivered in
  another run than its own. -/

namespace Brookesia.SystemCore.AppRuns

open Transition MessageDialogs Model List Option

/-! ### What is left to close -/

def isStop : AfterCleanup → Bool
  | .idle | .stopping _ => true
  | .startFailed | .uninstalled => false

/-- The keyboard requests of the app that a `stop_app` has collected and not closed yet. -/
def keyboardsLeft (app : AppId) : Frame → Option (List RequestId)
  | .cleanup app' stage next =>
    if app' = app ∧ isStop next then
      match stage with
      | .entered => none
      | .hideKeyboards ids => some ids
      | .closeMessageDialogs .. | .cancelTimers | .done => some []
    else none
  | .onStop app' _ => if app' = app then some [] else none
  | _ => none

/-- The message dialogs of the app that a `stop_app` has collected and not closed yet. -/
def dialogsLeft (app : AppId) : Frame → Option (List RequestId)
  | .cleanup app' stage next =>
    if app' = app ∧ isStop next then
      match stage with
      | .entered | .hideKeyboards _ => none
      | .closeMessageDialogs ids _ => some ids
      | .cancelTimers | .done => some []
    else none
  | .onStop app' _ => if app' = app then some [] else none
  | _ => none

/-- A `stop_app` or a failed `start_app` has cancelled the timers of the app. -/
def timersGone (app : AppId) : Frame → Bool
  | .cleanup app' .done next => app' = app && next ≠ .uninstalled
  | .onStop app' _ => app' = app
  | _ => false

def frameApp : Frame → Option AppId
  | .onStart app | .onStop app _ | .onUninstall app | .cleanup app _ _ => some app
  | _ => none

/-- A frame that has collected nothing. -/
structure Quiet (f : Frame) : Prop where
  keyboards : ∀ app, keyboardsLeft app f = none
  dialogs : ∀ app, dialogsLeft app f = none
  timers : ∀ app, timersGone app f = false

theorem quiet_entered (app : AppId) (next : AfterCleanup) : Quiet (.cleanup app .entered next) :=
  ⟨fun _ => by simp [keyboardsLeft], fun _ => by simp [dialogsLeft], fun _ => rfl⟩

theorem dialogsLeft_eq_none {app : AppId} {f : Frame} (h : frameApp f ≠ some app) : dialogsLeft app f = none := by
  unfold dialogsLeft
  split
  · next app' stage next => exact if_neg fun hc => h (congrArg some hc.1)
  · next app' caller => exact if_neg fun hc => h (congrArg some hc)
  · rfl

/-! ### Runs -/

def isClosed : AppState → Bool
  | .installed | .stopped | .error => true
  | _ => false

/-- The timers of a run are those of the current one. -/
structure RecordOk (r : AppRecord) : Prop where
  timers : ∀ t ∈ r.timers, ∀ k, t.startedIn = some k → r.currentRun = some k
  closed : isClosed r.state = true → r.isInRun = false

/-- The timer is not delivered in another run than its own. -/
def DeliveredInRun (e : TimerEvent) : Prop :=
  ∀ k m, e.timer.startedIn = some k → e.run = some m → k = m

def NothingLeft (e : StopEvent) : Prop := e.timers = [] ∧ e.keyboards = [] ∧ e.dialogs = []

structure Held (apps : AppId → Option AppRecord) (keyboards : List KeyboardRequestRecord)
    (requests : List MessageDialogRequestRecord) (stack : List Frame) : Prop where
  noInvalid : apps invalidAppId = none
  frames : ∀ f ∈ stack, frameApp f ≠ some invalidAppId
  unique : (keyboards.map (·.requestId)).Nodup
  keyboards : ∀ f ∈ stack, ∀ app ids, keyboardsLeft app f = some ids →
    ∀ k ∈ keyboards, k.appId = app → k.requestId ∈ ids
  dialogs : ∀ f ∈ stack, ∀ app ids, dialogsLeft app f = some ids → ∀ r ∈ requests, r.appId = app → r.requestId ∈ ids
  timers : ∀ f ∈ stack, ∀ app r, timersGone app f = true → apps app = some r → r.timers = []
  records : ∀ app r, apps app = some r → RecordOk r

def Inv (s : State) : Prop :=
  Held s.apps s.keyboards s.dialogs.requests s.stack ∧ (∀ e ∈ s.timerCalls, DeliveredInRun e) ∧
    ∀ e ∈ s.stops, NothingLeft e

section Changes
variable {s : State} {frames : List Frame}

theorem Inv.sub (h : Inv s) (hsub : ∀ f ∈ frames, f ∈ s.stack) : Inv { s with stack := frames } := by
  obtain ⟨h, hcs, hstops⟩ := h
  exact ⟨⟨h.noInvalid, fun f hf => h.frames f (hsub f hf), h.unique,
    fun f hf => h.keyboards f (hsub f hf), fun f hf => h.dialogs f (hsub f hf),
    fun f hf => h.timers f (hsub f hf), h.records⟩, hcs, hstops⟩

theorem Inv.push {f : Frame} (h : Inv { s with stack := frames }) (happ : frameApp f ≠ some invalidAppId)
    (hkeyboards : ∀ app ids, keyboardsLeft app f = some ids → ∀ k ∈ s.keyboards, k.appId = app → k.requestId ∈ ids)
    (hdlgs : ∀ app ids, dialogsLeft app f = some ids → ∀ r ∈ s.dialogs.requests, r.appId = app → r.requestId ∈ ids)
    (htims : ∀ app r, timersGone app f = true → s.apps app = some r → r.timers = []) :
    Inv { s with stack := f :: frames } := by
  obtain ⟨h, hcs, hstops⟩ := h
  refine ⟨⟨h.noInvalid, ?_, h.unique, ?_, ?_, ?_, h.records⟩, hcs, hstops⟩
  · exact forall_mem_cons.mpr ⟨happ, h.frames⟩
  · exact forall_mem_cons.mpr ⟨hkeyboards, h.keyboards⟩
  · exact forall_mem_cons.mpr ⟨hdlgs, h.dialogs⟩
  · exact forall_mem_cons.mpr ⟨htims, h.timers⟩

theorem Inv.pushQuiet {f : Frame} (h : Inv { s with stack := frames }) (hq : Quiet f)
    (happ : frameApp f ≠ some invalidAppId) : Inv { s with stack := f :: frames } := by
  refine h.push happ ?_ ?_ ?_
  · intro app ids hids
    rw [hq.keyboards] at hids
    cases hids
  · intro app ids hids
    rw [hq.dialogs] at hids
    cases hids
  · intro app r hr
    rw [hq.timers] at hr
    cases hr

theorem Inv.modify (h : Inv s) (app : AppId) (f : AppRecord → AppRecord)
    (hok : ∀ r, s.apps app = some r → RecordOk r → RecordOk (f r))
    (htims : ∀ r, (∃ fr ∈ s.stack, timersGone app fr = true) → r.timers = [] →
      (f r).timers = []) : Inv (s.modify app f) := by
  obtain ⟨h, hcs, hstops⟩ := h
  have hupd : ∀ app' r', Function.update s.apps app ((s.apps app).map f) app' = some r' →
      ∃ r, s.apps app' = some r ∧ (r' = r ∨ app' = app ∧ r' = f r) := by
    intro app' r' hr'
    by_cases happ : app' = app
    · subst happ
      rw [Function.update_self] at hr'
      obtain ⟨r, hr, rfl⟩ := map_eq_some_iff.mp hr'
      exact ⟨r, hr, Or.inr ⟨rfl, rfl⟩⟩
    · rw [Function.update_of_ne happ] at hr'
      exact ⟨r', hr', Or.inl rfl⟩
  refine ⟨⟨?_, h.frames, h.unique, h.keyboards, h.dialogs, ?_, ?_⟩, hcs, hstops⟩
  · by_contra hne
    obtain ⟨r', hr'⟩ := ne_none_iff_exists'.mp hne
    obtain ⟨r, hr, -⟩ := hupd _ _ hr'
    rw [h.noInvalid] at hr
    cases hr
  · intro fr hfr app' r' hgone hr'
    obtain ⟨r, hr, rfl | ⟨rfl, rfl⟩⟩ := hupd _ _ hr'
    · exact h.timers fr hfr app' _ hgone hr
    · exact htims r ⟨fr, hfr, hgone⟩ (h.timers fr hfr app' r hgone hr)
  · intro app' r' hr'
    obtain ⟨r, hr, rfl | ⟨rfl, rfl⟩⟩ := hupd _ _ hr'
    · exact h.records _ _ hr
    · exact hok r hr (h.records _ _ hr)

theorem Inv.setState (h : Inv s) (app : AppId) (state : AppState)
    (hcl : isClosed state = true → ∀ r, s.apps app = some r → r.isInRun = false) :
    Inv (s.setState app state) :=
  h.modify app _ (fun r hr hok => ⟨hok.timers, fun hc => hcl hc r hr⟩) fun _ _ hr => hr

theorem mem_enqueue {d : Dialogs} {app : AppId} {options : MessageDialogOptions} {shown : Bool}
    {r : MessageDialogRequestRecord} (h : r ∈ (d.enqueue app options shown).requests) :
    r ∈ d.requests ∨ r.appId = app := by
  have hemplace : ∀ request : MessageDialogRequestRecord, request.appId = app →
      r ∈ (d.emplace request).requests → r ∈ d.requests ∨ r.appId = app := by
    intro request happ hr
    unfold Dialogs.emplace at hr
    split at hr
    · exact Or.inl hr
    · rcases (mem_orderedInsert _).mp hr with rfl | hr
      · exact Or.inr happ
      · exact Or.inl hr
  unfold Dialogs.enqueue at h
  simp only at h
  split at h
  · exact hemplace _ rfl h
  · split at h
    · exact hemplace _ rfl h
    · exact hemplace _ rfl (mem_filter.mp h).1

theorem Inv.enqueue (h : Inv s) {app : AppId} (happ : ∀ f ∈ s.stack, dialogsLeft app f = none)
    (options : MessageDialogOptions) (shown : Bool) :
    Inv { s with dialogs := s.dialogs.enqueue app options shown } := by
  obtain ⟨h, hcs, hstops⟩ := h
  refine ⟨⟨h.noInvalid, h.frames, h.unique, h.keyboards, ?_, h.timers, h.records⟩, hcs, hstops⟩
  intro f hf app' ids hids r hr happ'
  rcases mem_enqueue hr with hr | hr
  · exact h.dialogs f hf app' ids hids r hr happ'
  · rw [← happ', hr, happ f hf] at hids
    cases hids

theorem Inv.showErrorDialog (h : Inv s) (shown : Bool) : Inv (s.showErrorDialog shown) :=
  h.enqueue (fun f hf => dialogsLeft_eq_none (h.1.frames f hf)) _ _

theorem Inv.dialogs_sub (h : Inv s) {dialogs : Dialogs} (hsub : ∀ r ∈ dialogs.requests, ∃ r' ∈ s.dialogs.requests,
      r'.requestId = r.requestId ∧ r'.appId = r.appId) : Inv { s with dialogs := dialogs } := by
  obtain ⟨h, hcs, hstops⟩ := h
  refine ⟨⟨h.noInvalid, h.frames, h.unique, h.keyboards, ?_, h.timers, h.records⟩, hcs, hstops⟩
  intro f hf app ids hids r hr happ
  obtain ⟨r', hr', hid, hrapp⟩ := hsub r hr
  rw [← hid]
  exact h.dialogs f hf app ids hids r' hr' (hrapp.trans happ)

theorem Inv.keyboards_sub (h : Inv s) {keyboards : List KeyboardRequestRecord}
    (hsub : keyboards.Sublist s.keyboards) : Inv { s with keyboards := keyboards } := by
  obtain ⟨h, hcs, hstops⟩ := h
  exact ⟨⟨h.noInvalid, h.frames, h.unique.sublist (hsub.map _),
    fun f hf app ids hids k hk => h.keyboards f hf app ids hids k (hsub.subset hk),
    h.dialogs, h.timers, h.records⟩, hcs, hstops⟩

theorem Inv.ne_invalid (h : Inv s) {app : AppId} {r : AppRecord} (hr : s.apps app = some r) : app ≠ invalidAppId := by
  rintro rfl
  rw [h.1.noInvalid] at hr
  cases hr

theorem Inv.pushEntered (h : Inv { s with stack := frames }) {app : AppId} {r : AppRecord}
    (hr : s.apps app = some r) (next : AfterCleanup) :
    Inv { s with stack := .cleanup app .entered next :: frames } :=
  h.pushQuiet (quiet_entered app next) fun heq => h.ne_invalid hr (some.inj heq)

theorem Inv.pushCallback (h : Inv { s with stack := frames }) {f : Frame} (hf : f.isCallback = true)
    (hstop : ∀ app caller, f ≠ .onStop app caller)
    (happ : frameApp f ≠ some invalidAppId) : Inv { s with stack := f :: frames } := by
  refine h.pushQuiet ?_ happ
  cases f with
  | cleanup app stage next => cases hf
  | onStop app caller => exact absurd rfl (hstop app caller)
  | _ => exact ⟨fun _ => rfl, fun _ => rfl, fun _ => rfl⟩

end Changes

/-! ### The lifecycle -/

section Lifecycle
variable {s : State} {frames : List Frame} {app : AppId} {answer : Answer}

theorem Inv.stopApp (h : Inv { s with stack := frames }) (caller : StopCaller) : Inv (stopApp s app caller frames) := by
  unfold Model.stopApp
  split
  · exact h
  · next r hr =>
    split
    · exact h.pushEntered hr _
    · have hset : Inv ({ s with stack := frames }.setState app .stopping) := h.setState app _ nofun
      refine Inv.pushEntered (s := s.setState app .stopping) hset (r := { r with state := .stopping }) ?_ _
      simp [State.setState, State.modify, hr]

theorem Inv.uninstallStopped (h : Inv { s with stack := frames }) : Inv (uninstallStopped s app frames) := by
  unfold Model.uninstallStopped
  split
  · exact h
  · next r hr =>
    split
    · exact Inv.pushCallback (s := s.recordCallback _) h rfl nofun fun heq => h.ne_invalid hr (some.inj heq)
    · exact h.pushEntered hr _

theorem Inv.finishUninstall (h : Inv { s with stack := frames }) : Inv (finishUninstall s app answer frames) := by
  unfold Model.finishUninstall
  split
  · exact h
  · next r hr =>
    split
    · exact h.modify app _ (fun r _ hok => ⟨hok.timers, hok.closed⟩) fun _ _ ht => ht
    · obtain ⟨h, hcs, hstops⟩ := h
      have hupd : ∀ app' r', Function.update s.apps app none app' = some r' → s.apps app' = some r' := by
        intro app' r' hr'
        by_cases happ : app' = app
        · subst happ
          rw [Function.update_self] at hr'
          cases hr'
        · rwa [Function.update_of_ne happ] at hr'
      refine ⟨⟨?_, h.frames, h.unique, h.keyboards, h.dialogs, ?_, ?_⟩, hcs, hstops⟩
      · by_contra hne
        obtain ⟨r', hr'⟩ := ne_none_iff_exists'.mp hne
        have hold := hupd _ _ hr'
        rw [h.noInvalid] at hold
        cases hold
      · intro f hf app' r' hgone hr'
        exact h.timers f hf app' r' hgone (hupd _ _ hr')
      · intro app' r' hr'
        exact h.records app' r' (hupd _ _ hr')

/-- Nothing of the app is left. -/
structure Cleared (s : State) (app : AppId) : Prop where
  keyboards : ∀ k ∈ s.keyboards, k.appId ≠ app
  dialogs : ∀ r ∈ s.dialogs.requests, r.appId ≠ app
  timers : ∀ r, s.apps app = some r → r.timers = []

theorem Cleared.nothingLeft (h : Cleared s app) (ok : Bool) :
    NothingLeft ⟨app, ok, s.timersOf app, s.keyboardsOf app, s.dialogsOf app⟩ := by
  refine ⟨?_, ?_, ?_⟩
  · show ((s.apps app).map (·.timers)).getD [] = []
    cases hr : s.apps app with
    | none => rfl
    | some r => exact h.timers r hr
  · refine filter_eq_nil_iff.mpr ?_
    intro k hk
    simpa using h.keyboards k hk
  · refine filter_eq_nil_iff.mpr ?_
    intro r hr
    simpa using h.dialogs r hr

theorem Inv.recordStop (h : Inv s) (hc : Cleared s app) (ok : Bool) : Inv (s.recordStop app ok) :=
  ⟨h.1, h.2.1, forall_mem_cons.mpr ⟨hc.nothingLeft ok, h.2.2⟩⟩

theorem recordOk_of_nil {r : AppRecord} (ht : r.timers = []) (hrun : r.isInRun = false) : RecordOk r := by
  refine ⟨?_, fun _ => hrun⟩
  rw [ht]
  nofun

theorem modify_apps {f : AppRecord → AppRecord} {r' : AppRecord}
    (h : (s.modify app f).apps app = some r') : ∃ r, s.apps app = some r ∧ r' = f r := by
  simp only [State.modify, Function.update_self] at h
  obtain ⟨r, hr, rfl⟩ := map_eq_some_iff.mp h
  exact ⟨r, hr, rfl⟩

theorem Inv.endRun (h : Inv s) (ht : ∀ r, s.apps app = some r → r.timers = []) (state : AppState) :
    Inv (s.modify app (·.endRun state)) :=
  h.modify app _ (fun r hr _ => recordOk_of_nil (ht r hr) rfl) fun _ _ hr => hr

theorem Cleared.endRun (hc : Cleared s app) (state : AppState) : Cleared (s.modify app (·.endRun state)) app := by
  refine ⟨hc.keyboards, hc.dialogs, ?_⟩
  intro r' hr'
  obtain ⟨r, hr, rfl⟩ := modify_apps hr'
  exact hc.timers r hr

theorem Inv.endStop (h : Inv s) (hc : Cleared s app) (happ : app ≠ invalidAppId) (ok shown : Bool) :
    Inv (endStop s app ok shown) := by
  cases ok with
  | true =>
    have hlast := (h.endRun hc.timers .stopped).recordStop (hc.endRun .stopped) true
    exact hlast
  | false =>
    have hc' := hc.endRun .error
    refine Inv.recordStop ((h.endRun hc.timers .error).showErrorDialog shown) ⟨hc'.keyboards, ?_, hc'.timers⟩ false
    intro r hr
    rcases mem_enqueue hr with hr | hr
    · exact hc'.dialogs r hr
    · rw [hr]
      exact happ.symm

theorem endStop_isInRun {ok shown : Bool} {r : AppRecord}
    (hr : (endStop s app ok shown).apps app = some r) : r.isInRun = false := by
  have hr' : ∃ state, (s.modify app (·.endRun state)).apps app = some r := by
    cases ok <;> exact ⟨_, hr⟩
  obtain ⟨state, hr'⟩ := hr'
  obtain ⟨r₀, -, rfl⟩ := modify_apps hr'
  rfl

theorem Inv.finishStop (h : Inv { s with stack := frames }) (hc : Cleared s app)
    (happ : app ≠ invalidAppId) (caller : StopCaller) (ok : Bool) :
    Inv (finishStop s app caller ok answer frames) := by
  have hend : Inv { Model.endStop s app ok answer.shown with stack := frames } := by
    have hend' := h.endStop ⟨hc.keyboards, hc.dialogs, hc.timers⟩ happ ok answer.shown
    cases ok <;> exact hend'
  cases caller with
  | request => exact hend
  | uninstall =>
    cases ok with
    | true => exact Inv.uninstallStopped hend
    | false => exact hend
  | rollback =>
    cases ok with
    | true => exact hend.showErrorDialog answer.shownAgain
    | false =>
      have hset := hend.setState app .error fun _ r hr =>
        @endStop_isInRun s app false answer.shown r hr
      exact hset.showErrorDialog answer.shownAgain

theorem Inv.callOnStop (h : Inv { s with stack := frames }) (hc : Cleared s app)
    (happ : app ≠ invalidAppId) (caller : StopCaller) :
    Inv (callOnStop s app caller answer frames) := by
  unfold Model.callOnStop
  split
  · exact h
  · split
    · refine Inv.push (s := s.recordCallback _) h (fun heq => happ (some.inj heq)) ?_ ?_ ?_
      · intro app' ids hids k hk hkapp
        simp only [keyboardsLeft, ite_none_right_eq_some] at hids
        exact absurd (hkapp.trans hids.1.symm) (hc.keyboards k hk)
      · intro app' ids hids r hr hrapp
        simp only [dialogsLeft, ite_none_right_eq_some] at hids
        exact absurd (hrapp.trans hids.1.symm) (hc.dialogs r hr)
      · intro app' r hgone hr
        obtain rfl : app = app' := by simpa [timersGone] using hgone
        exact hc.timers r hr
    · exact h.finishStop hc happ caller true

theorem Inv.uninstallApp (h : Inv { s with stack := frames }) : Inv (uninstallApp s app frames) := by
  unfold Model.uninstallApp
  split
  · exact h
  · split
    · exact h.stopApp .uninstall
    · exact h.uninstallStopped

def MayStart (s : State) (app : AppId) : Prop :=
  ∀ r ∈ s.apps app, isClosed r.state = true ∨ r.state = .running

theorem Inv.startApp (h : Inv { s with stack := frames }) (hstart : MayStart s app)
    (preparation : Preparation) : Inv (startApp s app preparation answer frames) := by
  unfold Model.startApp
  split
  · exact h
  · next r hr =>
    split
    · exact h
    · next hrunning =>
      have hinv : app ≠ invalidAppId := h.ne_invalid hr
      have hcl : r.isInRun = false :=
        (h.1.records app r hr).closed ((hstart r hr).resolve_right hrunning)
      have hnorun : ∀ r', s.apps app = some r' → r'.isInRun = false := by
        intro r' hr'
        rw [hr] at hr'
        exact some.inj hr' ▸ hcl
      cases preparation with
      | unmet => exact h.showErrorDialog answer.shown
      | guiFailed => exact (h.setState app .error fun _ => hnorun).showErrorDialog _
      | loadFailed =>
        exact Inv.pushEntered (s := s.setState app .starting) (h.setState app _ nofun)
          (r := { r with state := .starting }) (by simp [State.setState, State.modify, hr]) _
      | runtimeStartFailed =>
        have hmod := h.modify app (fun r => { r with state := .starting, runtimeLoaded := true })
          (fun r _ hok => ⟨hok.timers, nofun⟩) fun _ _ ht => ht
        refine Inv.pushEntered (s := s.modify app fun r => { r with
          state := .starting, runtimeLoaded := true }) hmod
          (r := { r with state := .starting, runtimeLoaded := true }) ?_ _
        simp [State.modify, hr]
      | ready =>
        refine Inv.pushCallback (s := (s.modify app AppRecord.startRun).recordCallback _)
          (h.modify app AppRecord.startRun ?_ fun _ _ ht => ht) rfl nofun fun heq => hinv (some.inj heq)
        intro r' hr' hok
        refine ⟨?_, nofun⟩
        intro t ht k hk
        have hrun := hok.timers t ht k hk
        rw [AppRecord.currentRun, hnorun r' hr'] at hrun
        cases hrun

theorem Inv.finishStart (h : Inv { s with stack := frames }) (happ : app ≠ invalidAppId) (ok : Bool) :
    Inv (finishStart s app ok answer frames) := by
  unfold Model.finishStart
  split
  · have hset : Inv ({ s with stack := frames }.setState app .running) := h.setState app _ nofun
    simp only
    split
    · exact hset
    · exact Inv.stopApp (s := { s.setState app .running with activeAppId := app }) hset .rollback
  · exact h.pushQuiet (quiet_entered app _) fun heq => happ (some.inj heq)

theorem Inv.finishFailedStart (h : Inv { s with stack := frames }) (ht : ∀ r, s.apps app = some r → r.timers = []) :
    Inv (finishFailedStart s app answer frames) := by
  have hmod := h.modify app (fun r => { r.endRun .error with runtimeLoaded := false })
    (fun r hr _ => recordOk_of_nil (ht r hr) rfl) fun _ _ hr => hr
  exact hmod.showErrorDialog answer.shown

theorem Inv.finishPause (h : Inv { s with stack := frames }) (ok : Bool) :
    Inv (finishPause s app ok answer frames) := by
  unfold Model.finishPause
  split
  · exact h.setState app .paused nofun
  · exact h.showErrorDialog answer.shown

theorem Inv.finishResume (h : Inv { s with stack := frames }) (ok : Bool) :
    Inv (finishResume s app ok answer frames) := by
  unfold Model.finishResume
  split
  · exact h.setState app .running nofun
  · exact h.showErrorDialog answer.shown

theorem Inv.pauseApp (h : Inv { s with stack := frames }) : Inv (pauseApp s app answer frames) := by
  unfold Model.pauseApp
  split
  · exact h
  · split
    · exact Inv.pushCallback (s := s.recordCallback _) h rfl nofun nofun
    · exact h.finishPause true

theorem Inv.resumeApp (h : Inv { s with stack := frames }) : Inv (resumeApp s app answer frames) := by
  unfold Model.resumeApp
  split
  · exact h
  · split
    · exact Inv.pushCallback (s := s.recordCallback _) h rfl nofun nofun
    · exact h.finishResume true

end Lifecycle

/-! ### The cleanup -/

section Cleanup
variable {s : State} {frames : List Frame} {app : AppId} {answer : Answer} {next : AfterCleanup}

/-- A keyboard request of the app with this id is gone, whoever it was of. -/
theorem closeAppKeyboard_spec (s : State) (app : AppId) (id : RequestId) (frames : List Frame)
    (hunique : (s.keyboards.map (·.requestId)).Nodup) :
    ∃ keyboards, keyboards.Sublist s.keyboards ∧ (∀ k ∈ keyboards, k.appId = app → k.requestId ≠ id) ∧
        (closeAppKeyboard s app id frames = { s with keyboards := keyboards, stack := frames } ∨
          closeAppKeyboard s app id frames =
            { s with keyboards := keyboards, stack := .handler :: frames }) := by
  unfold closeAppKeyboard
  split
  · next hnone =>
    refine ⟨s.keyboards, Sublist.refl _, ?_, Or.inl rfl⟩
    intro k hk _ hid
    have hno := List.find?_eq_none.mp hnone k hk
    simp [hid] at hno
  · next request hfind =>
    have hid : request.requestId = id := by simpa using List.find?_some hfind
    split
    · next happ =>
      refine ⟨s.keyboards, Sublist.refl _, ?_, Or.inl rfl⟩
      intro k hk hkapp hkid
      have heq := inj_on_of_nodup_map hunique hk (mem_of_find?_eq_some hfind) (hkid.trans hid.symm)
      exact happ (heq ▸ hkapp)
    · refine ⟨_, filter_sublist, ?_, Or.inr rfl⟩
      intro k hk _
      simpa using (mem_filter.mp hk).2

theorem Inv.pushHandler (h : Inv { s with stack := frames }) : Inv { s with stack := .handler :: frames } :=
  h.pushQuiet ⟨fun _ => rfl, fun _ => rfl, fun _ => rfl⟩ nofun

theorem Inv.pushCleanup {stage : CleanupStage} (h : Inv { s with stack := frames }) (happ : app ≠ invalidAppId)
    (hkeyboards : ∀ ids, keyboardsLeft app (.cleanup app stage next) = some ids →
      ∀ k ∈ s.keyboards, k.appId = app → k.requestId ∈ ids)
    (hdlgs : ∀ ids, dialogsLeft app (.cleanup app stage next) = some ids →
      ∀ r ∈ s.dialogs.requests, r.appId = app → r.requestId ∈ ids)
    (htims : timersGone app (.cleanup app stage next) = true → ∀ r, s.apps app = some r → r.timers = []) :
    Inv { s with stack := .cleanup app stage next :: frames } := by
  refine h.push (fun heq => happ (some.inj heq)) ?_ ?_ ?_
  · intro app' ids hids
    by_cases heq : app' = app
    · subst heq
      exact hkeyboards ids hids
    · simp [keyboardsLeft, Ne.symm heq] at hids
  · intro app' ids hids
    by_cases heq : app' = app
    · subst heq
      exact hdlgs ids hids
    · simp [dialogsLeft, Ne.symm heq] at hids
  · intro app' r hgone
    by_cases heq : app' = app
    · subst heq
      exact htims hgone r
    · cases stage <;> simp [timersGone, Ne.symm heq] at hgone

theorem Inv.closeAppKeyboard (h : Inv { s with stack := frames }) (id : RequestId) :
    Inv (closeAppKeyboard s app id frames) := by
  obtain ⟨keyboards, hsub, -, heq | heq⟩ := closeAppKeyboard_spec s app id frames h.1.unique
  · rw [heq]
    exact h.keyboards_sub hsub
  · rw [heq]
    exact Inv.pushHandler (s := { s with keyboards := keyboards }) (h.keyboards_sub hsub)

theorem mem_remove {d : Dialogs} {result : MessageDialogResult} {r : MessageDialogRequestRecord}
    (h : r ∈ (d.remove result).requests) : r ∈ d.requests ∧ r.requestId ≠ result.requestId := by
  have hreq : (d.remove result).requests = (d.erase result.requestId).requests := by
    unfold Dialogs.remove
    simp only
    split <;> rfl
  rw [hreq] at h
  simpa [Dialogs.erase] using h

theorem Inv.cleanupStep {stage : CleanupStage} (h : Inv s) (hs : s.stack = .cleanup app stage next :: frames) :
    Inv (cleanupStep s app next answer frames stage) := by
  have hmem : .cleanup app stage next ∈ s.stack := hs ▸ mem_cons_self
  have happ : app ≠ invalidAppId := fun heq => h.1.frames _ hmem (congrArg some heq)
  have hpop : Inv { s with stack := frames } :=
    h.sub fun f hf => hs ▸ mem_cons_of_mem _ hf
  have hkeyboards := h.1.keyboards _ hmem app
  have hdlgs := h.1.dialogs _ hmem app
  have htims := h.1.timers _ hmem app
  cases stage with
  | entered =>
    refine hpop.pushCleanup happ ?_ ?_ nofun
    · intro ids hids k hk hkapp
      simp only [keyboardsLeft, ite_none_right_eq_some, some.injEq] at hids
      rw [← hids.2]
      exact List.mem_map_of_mem (mem_filter.mpr ⟨hk, by simpa using hkapp⟩)
    · intro ids hids
      simp [dialogsLeft] at hids
  | hideKeyboards ids =>
    cases ids with
    | nil =>
      refine hpop.pushCleanup happ ?_ ?_ nofun
      · intro ids hids
        exact hkeyboards ids (by simpa [keyboardsLeft] using hids)
      · intro ids hids r hr hrapp
        simp only [dialogsLeft, ite_none_right_eq_some, some.injEq] at hids
        rw [← hids.2]
        exact List.mem_map_of_mem (mem_filter.mpr ⟨hr, by simpa using hrapp⟩)
    | cons id ids =>
      obtain ⟨keyboards, hsub, hgone, heq⟩ := closeAppKeyboard_spec s app id
        (.cleanup app (.hideKeyboards ids) next :: frames) h.1.unique
      have hpush : Inv { s with
          keyboards := keyboards
          stack := .cleanup app (.hideKeyboards ids) next :: frames } := by
        refine Inv.pushCleanup (s := { s with keyboards := keyboards }) (hpop.keyboards_sub hsub) happ ?_ ?_ nofun
        · intro left hleft k hk hkapp
          simp only [keyboardsLeft, ite_none_right_eq_some, some.injEq] at hleft
          rw [← hleft.2]
          have hin := hkeyboards (id :: ids) (by simp [keyboardsLeft, hleft.1.2]) k (hsub.subset hk) hkapp
          exact (mem_cons.mp hin).resolve_left (hgone k hk hkapp)
        · intro left hleft
          simp [dialogsLeft] at hleft
      show Inv (Model.closeAppKeyboard s app id _)
      rcases heq with heq | heq
      · rw [heq]
        exact hpush
      · rw [heq]
        exact Inv.pushHandler (s := { s with keyboards := keyboards }) hpush
  | closeMessageDialogs ids closedActive =>
    cases ids with
    | nil =>
      have hpush : Inv { s with stack := .cleanup app .cancelTimers next :: frames } := by
        refine hpop.pushCleanup happ ?_ ?_ nofun
        · intro left hleft
          exact hkeyboards left (by simpa [keyboardsLeft] using hleft)
        · intro left hleft
          exact hdlgs left (by simpa [dialogsLeft] using hleft)
      show Inv { s with stack := if closedActive then _ else _ }
      split
      · exact hpush.pushQuiet ⟨fun _ => rfl, fun _ => rfl, fun _ => rfl⟩ nofun
      · exact hpush
    | cons id ids =>
      have hpush : ∀ dialogs : Dialogs, (∀ r ∈ dialogs.requests, r ∈ s.dialogs.requests ∧
          r.requestId ≠ id) → ∀ closedActive, Inv { s with
            dialogs := dialogs
            stack := .cleanup app (.closeMessageDialogs ids closedActive) next :: frames } := by
        intro dialogs hsub closedActive
        refine Inv.pushCleanup (s := { s with dialogs := dialogs })
          (hpop.dialogs_sub fun r hr => ⟨r, (hsub r hr).1, rfl, rfl⟩) happ ?_ ?_ nofun
        · intro left hleft
          exact hkeyboards left (by simpa [keyboardsLeft] using hleft)
        · intro left hleft r hr hrapp
          simp only [dialogsLeft, ite_none_right_eq_some, some.injEq] at hleft
          rw [← hleft.2]
          have hin := hdlgs (id :: ids) (by simp [dialogsLeft, hleft.1.2]) r (hsub r hr).1 hrapp
          exact (mem_cons.mp hin).resolve_left (hsub r hr).2
      unfold Model.cleanupStep
      cases hfind : s.dialogs.find id with
      | none =>
        simp only [hfind]
        refine hpush s.dialogs ?_ closedActive
        intro r hr
        refine ⟨hr, fun hid => ?_⟩
        have hno := List.find?_eq_none.mp hfind r hr
        simp [hid] at hno
      | some request =>
        simp only [hfind]
        refine Inv.pushHandler (s := { s with dialogs := s.dialogs.remove _ }) (hpush _ ?_ _)
        intro r hr
        exact mem_remove hr
  | cancelTimers =>
    have hcancel : Inv { s.cancelAppTimers app with stack := frames } :=
      hpop.modify app (fun r => { r with timers := [] }) (fun r _ hok => ⟨nofun, hok.closed⟩) fun _ _ _ => rfl
    refine Inv.pushCleanup (s := s.cancelAppTimers app) hcancel happ ?_ ?_ ?_
    · intro left hleft
      exact hkeyboards left (by simpa [keyboardsLeft] using hleft)
    · intro left hleft
      exact hdlgs left (by simpa [dialogsLeft] using hleft)
    · intro _ r' hr'
      obtain ⟨r, -, rfl⟩ := modify_apps (f := fun r => { r with timers := [] }) hr'
      rfl
  | done =>
    have hclr : isStop next = true → next ≠ .uninstalled → Cleared s app := by
      intro hstop hnext
      refine ⟨?_, ?_, ?_⟩
      · intro k hk hkapp
        exact absurd (hkeyboards [] (by simp [keyboardsLeft, hstop]) k hk hkapp) not_mem_nil
      · intro r hr hrapp
        exact absurd (hdlgs [] (by simp [dialogsLeft, hstop]) r hr hrapp) not_mem_nil
      · intro r hr
        exact htims r (by simp [timersGone, hnext]) hr
    cases next with
    | idle =>
      have hc := hclr rfl nofun
      refine Inv.recordStop hpop ?_ true
      exact ⟨hc.keyboards, hc.dialogs, hc.timers⟩
    | stopping caller => exact hpop.callOnStop (hclr rfl nofun) happ caller
    | startFailed => exact hpop.finishFailedStart fun r hr => htims r (by simp [timersGone]) hr
    | uninstalled => exact hpop.finishUninstall

end Cleanup

/-! ### The other steps -/

section Others
variable {s : State} {frames : List Frame} {app : AppId} {answer : Answer}

theorem mem_showNext {d : Dialogs} {shown : Bool} {r : MessageDialogRequestRecord}
    (h : r ∈ (d.showNext shown).1.requests) : r ∈ d.requests := by
  unfold Dialogs.showNext at h
  split at h
  · exact h
  · split at h
    · exact h
    · split at h
      · exact h
      · exact (mem_filter.mp h).1

theorem Inv.pushShowNext (h : Inv { s with stack := frames }) (isLoop : Bool) :
    Inv { s with stack := .showNext isLoop :: frames } :=
  h.pushQuiet ⟨fun _ => rfl, fun _ => rfl, fun _ => rfl⟩ nofun

theorem Inv.showNextStep (h : Inv { s with stack := frames }) (isLoop : Bool) :
    Inv (showNextStep s isLoop answer frames) := by
  unfold Model.showNextStep
  split
  · show Inv { s with stack := if _ then _ else _ }
    split
    · exact h
    · exact h.pushShowNext true
  · have hdlgs : ∀ dialogs round, s.dialogs.showNext answer.shown = (dialogs, round) →
        Inv { s with dialogs := dialogs, stack := frames } := by
      intro dialogs round heq
      have hsub : ∀ r ∈ dialogs.requests, r ∈ s.dialogs.requests := by
        intro r hr
        refine @mem_showNext s.dialogs answer.shown r ?_
        rw [heq]
        exact hr
      exact h.dialogs_sub fun r hr => ⟨r, hsub r hr, rfl, rfl⟩
    split
    · next dialogs heq => exact hdlgs dialogs _ heq
    · next dialogs heq =>
      exact Inv.pushShowNext (s := { s with dialogs := dialogs }) (hdlgs dialogs _ heq) true
    · next dialogs heq =>
      exact Inv.pushHandler (s := { s with dialogs := dialogs })
        (Inv.pushShowNext (s := { s with dialogs := dialogs }) (hdlgs dialogs _ heq) true)

theorem Inv.showAppKeyboard (h : Inv s) (hopen : ∀ f ∈ s.stack, keyboardsLeft app f = none)
    (shown : Bool) : Inv (showAppKeyboard s app shown) := by
  unfold Model.showAppKeyboard
  split
  · exact h
  · simp only
    split
    · exact h.keyboards_sub filter_sublist
    · split
      · exact h
      · next hnew =>
        obtain ⟨h, hcs, hstops⟩ := h
        have hperm := perm_orderedInsert (fun x y : KeyboardRequestRecord => x.requestId ≤ y.requestId)
          ⟨(takeRequestId s.nextKeyboardRequestId).1, app⟩ s.keyboards
        refine ⟨⟨h.noInvalid, h.frames, ?_, ?_, h.dialogs, h.timers, h.records⟩, hcs, hstops⟩
        · refine (hperm.map _).nodup_iff.mpr (nodup_cons.mpr ⟨?_, h.unique⟩)
          intro hmem
          obtain ⟨k, hk, hid⟩ := List.mem_map.mp hmem
          exact hnew (List.any_eq_true.mpr ⟨k, hk, by simpa using hid⟩)
        · intro f hf app' ids hids k hk hkapp
          rcases mem_cons.mp (hperm.mem_iff.mp hk) with rfl | hk
          · obtain rfl : app = app' := hkapp
            rw [hopen f hf] at hids
            cases hids
          · exact h.keyboards f hf app' ids hids k hk hkapp

theorem Inv.enqueueMessageDialog (h : Inv s) (hopen : ∀ f ∈ s.stack, dialogsLeft app f = none)
    (requireApp : Bool) (options : MessageDialogOptions) (shown : Bool) :
    Inv (enqueueMessageDialog s app requireApp options shown) := by
  unfold Model.enqueueMessageDialog
  split
  · exact h
  · split
    · exact h
    · exact h.enqueue hopen options shown

theorem Inv.closeMessageDialog (h : Inv s) (id : RequestId) (buttonIndex : ℤ)
    (reason : MessageDialogCloseReason) : Inv (closeMessageDialog s app id buttonIndex reason) := by
  unfold Model.closeMessageDialog
  split
  · exact h
  · split
    · exact h
    · split
      · exact h
      · next result hres =>
        have hdlgs : Inv { s with dialogs := s.dialogs.remove result, stack := s.stack } :=
          h.dialogs_sub fun r hr => ⟨r, (mem_remove hr).1, rfl, rfl⟩
        refine Inv.pushHandler (s := { s with dialogs := s.dialogs.remove result }) ?_
        split
        · exact Inv.pushShowNext (s := { s with dialogs := s.dialogs.remove result }) hdlgs false
        · exact hdlgs

theorem Inv.updateMessageDialog (h : Inv s) (id : RequestId) (options : MessageDialogOptions) :
    Inv (updateMessageDialog s app id options) := by
  unfold Model.updateMessageDialog
  split
  · exact h
  · split
    · exact h
    · split
      · exact h
      · refine h.dialogs_sub fun r hr => ?_
        obtain ⟨r', hr', rfl⟩ := List.mem_map.mp hr
        refine ⟨r', hr', ?_⟩
        split <;> exact ⟨rfl, rfl⟩

theorem Inv.filterTimers (h : Inv s) (app : AppId) (p : TimerRecord → Bool) :
    Inv (s.modify app fun r => { r with timers := r.timers.filter p }) := by
  refine h.modify app _ (fun r _ hok => ⟨fun t ht => hok.timers t (mem_filter.mp ht).1, hok.closed⟩) ?_
  intro r _ hr
  show r.timers.filter p = []
  rw [hr]
  rfl

theorem Inv.finishTimer (h : Inv { s with stack := frames }) (id : TimerId) :
    Inv (finishTimer s app id frames) := h.filterTimers app fun t => t.id ≠ id ∨ t.periodic

theorem Inv.dispatchTimer (h : Inv s) (id : TimerId) : Inv (dispatchTimer s app id) := by
  unfold Model.dispatchTimer
  split
  · exact h
  · next r hr =>
    split
    · exact h
    · next timer htim =>
      split
      · exact h
      · split
        · have hpush : Inv { s with stack := .onTimer app id :: s.stack } :=
            Inv.pushCallback (s := s) (f := .onTimer app id) h rfl nofun nofun
          refine ⟨hpush.1, forall_mem_cons.mpr ⟨?_, h.2.1⟩, h.2.2⟩
          intro k m hk hm
          have hrun := (h.1.records app r hr).timers timer (mem_of_find?_eq_some htim) k hk
          exact some.inj (hrun.symm.trans hm)
        · exact h.finishTimer id

theorem Inv.timerStart (h : Inv s) (hopen : ∀ f ∈ s.stack, timersGone app f = false)
    (periodic : Bool) (intervalMs : ℤ) : Inv (timerStart s app periodic intervalMs) := by
  unfold Model.timerStart
  split
  · exact h
  · split
    · exact h
    · refine h.modify app _ ?_ ?_
      · intro r hr hok
        refine ⟨?_, hok.closed⟩
        intro t ht k hk
        rcases mem_append.mp ht with ht | ht
        · exact hok.timers t ht k hk
        · rw [mem_singleton.mp ht] at hk
          exact hk
      · rintro r ⟨f, hf, hgone⟩
        rw [hopen f hf] at hgone
        cases hgone

theorem Inv.timerStop (h : Inv s) (id : TimerId) : Inv (timerStop s app id) := by
  unfold Model.timerStop
  split
  · exact h.filterTimers app fun t => t.id ≠ id
  · exact h

theorem Inv.fireTimer (h : Inv s) (t : ScheduledTimer) : Inv (fireTimer s t) := by
  unfold Model.fireTimer
  split
  · split
    · exact h
    · exact h
  · exact h

theorem Inv.returnStep {s' : State} {ok : Bool} {frame : Frame} (h : Inv s)
    (hs : s.stack = frame :: frames) (hst : returnStep s ok answer frames frame = some s') :
    Inv s' := by
  have hmem : frame ∈ s.stack := hs ▸ mem_cons_self
  have hpop : Inv { s with stack := frames } := h.sub fun f hf => hs ▸ mem_cons_of_mem _ hf
  have hvalid : ∀ app, frameApp frame = some app → app ≠ invalidAppId := by
    rintro app happ rfl
    exact h.1.frames _ hmem happ
  cases frame with
  | onStart app =>
    cases hst
    exact Inv.finishStart (s := s.recordCallback _) hpop (hvalid app rfl) ok
  | onStop app caller =>
    cases hst
    refine Inv.finishStop (s := s.recordCallback _) hpop ?_ (hvalid app rfl) caller _
    refine ⟨?_, ?_, ?_⟩
    · intro k hk hkapp
      exact absurd (h.1.keyboards _ hmem app [] (by simp [keyboardsLeft]) k hk hkapp) not_mem_nil
    · intro r hr hrapp
      exact absurd (h.1.dialogs _ hmem app [] (by simp [dialogsLeft]) r hr hrapp) not_mem_nil
    · intro r hr
      exact h.1.timers _ hmem app r (by simp [timersGone]) hr
  | onPause app =>
    cases hst
    exact Inv.finishPause (s := s.recordCallback _) hpop ok
  | onResume app =>
    cases hst
    exact Inv.finishResume (s := s.recordCallback _) hpop ok
  | onUninstall app =>
    cases hst
    exact Inv.pushQuiet (s := s.recordCallback _) hpop (quiet_entered app _) fun heq => hvalid app rfl (some.inj heq)
  | onTimer app id =>
    cases hst
    exact hpop.finishTimer id
  | handler =>
    cases hst
    exact hpop
  | cleanup app stage next => cases hst
  | showNext isLoop => cases hst

end Others

/-! ### Runs without late resources -/

/-- Nothing is created for an app that a `stop_app` has collected already, no timer is started after a
failed `start_app` has cancelled them, and `start_app` is called for apps without a run. -/
def CreatesNothing (s : State) : Action → Prop
  | .call (.startApp app _) _ => MayStart s app
  | .call (.showAppKeyboard app) _ => ∀ f ∈ s.stack, keyboardsLeft app f = none
  | .call (.showAppMessageDialog app _) _ => ∀ f ∈ s.stack, dialogsLeft app f = none
  | .timerStart app _ _ => ∀ f ∈ s.stack, timersGone app f = false
  | _ => True

instance (s : State) (app : AppId) : Decidable (MayStart s app) :=
  match h : s.apps app with
  | none => .isTrue (by simp [MayStart, h])
  | some r => decidable_of_iff (isClosed r.state = true ∨ r.state = .running) (by simp [MayStart, h])

instance (s : State) (a : Action) : Decidable (CreatesNothing s a) := by
  unfold CreatesNothing
  split <;> infer_instance

theorem Inv.callStep {s s' : State} {answer : Answer} {c : Call} (h : Inv s)
    (hc : CreatesNothing s (.call c answer)) (hst : callStep s answer c = some s') : Inv s' := by
  cases c with
  | startApp app preparation =>
    simp only [Model.callStep] at hst
    split at hst
    · cases hst
    · cases hst
      exact Inv.startApp (s := s) h hc preparation
  | stopApp app => exact some.inj hst ▸ Inv.stopApp (s := s) h .request
  | pauseApp app => exact some.inj hst ▸ Inv.pauseApp (s := s) h
  | resumeApp app => exact some.inj hst ▸ Inv.resumeApp (s := s) h
  | uninstallApp app => exact some.inj hst ▸ Inv.uninstallApp (s := s) h
  | showAppKeyboard app => exact some.inj hst ▸ h.showAppKeyboard hc _
  | closeAppKeyboard app id => exact some.inj hst ▸ Inv.closeAppKeyboard (s := s) h id
  | showAppMessageDialog app options =>
    exact some.inj hst ▸ h.enqueueMessageDialog hc true options _
  | showSystemMessageDialog options =>
    refine some.inj hst ▸ h.enqueueMessageDialog ?_ false options _
    exact fun f hf => dialogsLeft_eq_none (h.1.frames f hf)
  | closeMessageDialog app id buttonIndex reason =>
    exact some.inj hst ▸ h.closeMessageDialog id buttonIndex reason
  | updateMessageDialog app id options =>
    exact some.inj hst ▸ h.updateMessageDialog id options

theorem systemCore_inductive : systemCore.Inductive CreatesNothing Inv where
  init := by
    rintro s ⟨kinds, hinv, rfl⟩
    refine ⟨⟨?_, nofun, nodup_nil, nofun, nofun, nofun, ?_⟩, nofun, nofun⟩
    · show (kinds invalidAppId).map _ = none
      rw [hinv]
      rfl
    · intro app r hr
      obtain ⟨kind, -, rfl⟩ := map_eq_some_iff.mp hr
      exact ⟨nofun, fun _ => rfl⟩
  step s a s' h hc hst := by
    change step s a = some s' at hst
    cases a with
    | call c answer =>
      simp only [step] at hst
      split at hst
      · exact h.callStep hc hst
      · cases hst
    | returns ok answer =>
      simp only [step] at hst
      split at hst
      · cases hst
      · next frame frames hs => exact h.returnStep hs hst
    | advance answer =>
      simp only [step] at hst
      split at hst
      · cases hst
      · next frame frames hs =>
        cases frame with
        | cleanup app stage next =>
          cases hst
          exact h.cleanupStep hs
        | showNext isLoop =>
          cases hst
          exact Inv.showNextStep (h.sub fun f hf => hs ▸ mem_cons_of_mem _ hf) isLoop
        | _ => cases hst
    | timerStart app periodic intervalMs =>
      exact some.inj hst ▸ h.timerStart hc periodic intervalMs
    | timerStop app id => exact some.inj hst ▸ h.timerStop id
    | fire id =>
      obtain ⟨t, -, rfl⟩ := map_eq_some_iff.mp hst
      exact h.fireTimer t
    | dispatch app id =>
      simp only [step] at hst
      split at hst
      · cases hst
        exact Inv.dispatchTimer (s := { s with posted := s.posted.erase (app, id) }) h id
      · cases hst

/-- **The end of a run.** In every run without late resources each `stop_app` has returned with no
timer, keyboard request or message dialog of its app left, and no timer that was started in a run has
been delivered in another one. -/
theorem stop_leaves_nothing {s : State} (hs : systemCore.Reach CreatesNothing s) :
    (∀ e ∈ s.stops, e.timers = [] ∧ e.keyboards = [] ∧ e.dialogs = []) ∧
      ∀ e ∈ s.timerCalls, ∀ k m, e.timer.startedIn = some k → e.run = some m → k = m := by
  obtain ⟨-, hcs, hstops⟩ := systemCore_inductive.reach hs
  exact ⟨hstops, hcs⟩

/-! ### Two runs of one app -/

def oneApp : State := State.installed fun app => if app = 1 then some .native else none

theorem init_oneApp : systemCore.init oneApp := ⟨_, rfl, rfl⟩

def startingRun : List Action := [.call (.startApp 1 .ready) {}, .returns true {}]

/-- `stop_app` up to `on_stop`, when there is nothing to close. -/
def stoppingRun : List Action := .call (.stopApp 1) {} :: List.replicate 5 (.advance {})

/-- The app starts a timer and opens a keyboard while it runs. -/
def tidyRun : List Action :=
  startingRun ++ [.timerStart 1 true 100, .call (.showAppKeyboard 1) {}, .fire 1, .dispatch 1 1,
    .returns true {}, .call (.stopApp 1) {}, .advance {}, .advance {}, .returns true {}] ++
      List.replicate 4 (.advance {}) ++ [.returns true {}]

theorem stop_leaves_nothing_tidyRun : ∃ s : State, s.timerCalls = [⟨1, ⟨1, true, some 1⟩, some 1⟩] ∧
    s.stops.length = 1 ∧ ∀ e ∈ s.stops, e.timers = [] ∧ e.keyboards = [] ∧ e.dialogs = [] := by
  have hrun : ∃ s, systemCore.execWhen CreatesNothing oneApp tidyRun = some s ∧
      s.timerCalls = [⟨1, ⟨1, true, some 1⟩, some 1⟩] ∧ s.stops.length = 1 := by decide
  obtain ⟨s, hs, hcs, hlen⟩ := hrun
  obtain ⟨hstops, -⟩ := stop_leaves_nothing (.execWhen (.init init_oneApp) hs)
  exact ⟨s, hcs, hlen, hstops⟩

/-- `on_stop` starts a timer, and the app is started again. -/
def lateRun : List Action :=
  startingRun ++ stoppingRun ++ [.timerStart 1 true 100, .returns true {}] ++ startingRun ++ [.fire 1, .dispatch 1 1]

theorem lateRun_leaves : ¬ ∀ s : State, systemCore.Reachable s →
    (∀ e ∈ s.stops, e.timers = [] ∧ e.keyboards = [] ∧ e.dialogs = []) ∧
      ∀ e ∈ s.timerCalls, ∀ k m, e.timer.startedIn = some k → e.run = some m → k = m := by
  intro h
  have hrun : ∃ s, systemCore.exec oneApp lateRun = some s ∧ s.stops = [⟨1, true, [⟨1, true, some 1⟩], [], []⟩] ∧
        s.timerCalls = [⟨1, ⟨1, true, some 1⟩, some 2⟩] := by decide
  obtain ⟨s, hs, hstops, -⟩ := hrun
  obtain ⟨hleft, -⟩ := h s (.exec (.init init_oneApp) hs)
  have htims := (hleft _ (by rw [hstops]; exact mem_cons_self)).1
  cases htims

end Brookesia.SystemCore.AppRuns
