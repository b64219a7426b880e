import Brookesia.SystemCore.AppRuns

/-! # The lifecycle callbacks

* `phase`: what an app is after its callbacks so far, whatever `System` thinks of it; `Legal`: every
  callback was one of the phase it was called in.
* `Sequential`: the lifecycle functions are called one after another. `InOrder`: an app is paused while
  it runs, resumed while it is paused, not started while it is paused and not stopped in an error.
* `lifecycle_legal`: then all callbacks are legal, and between the calls the active app runs or is
  paused. -/

namespace Brookesia.SystemCore.Lifecycle

open Transition MessageDialogs Model List Option

/-! ### Phases -/

inductive Phase
  | idle
  | started
  | paused
  deriving DecidableEq

/-- After an `on_start` that has succeeded and no `on_stop` since, the app is started. -/
def phase (app : AppId) : List CallbackEvent → Phase
  | [] => .idle
  | .returned app' .onStart true :: es => if app' = app then .started else phase app es
  | .returned app' .onPause true :: es => if app' = app then .paused else phase app es
  | .returned app' .onResume true :: es => if app' = app then .started else phase app es
  | .called app' .onStop :: es => if app' = app then .idle else phase app es
  | _ :: es => phase app es

def Allows : Phase → Callback → Prop
  | .idle, .onStart | .idle, .onUninstall => True
  | .started, .onPause | .started, .onStop => True
  | .paused, .onResume | .paused, .onStop => True
  | _, _ => False

def Legal : List CallbackEvent → Prop
  | [] => True
  | .called app callback :: es => Allows (phase app es) callback ∧ Legal es
  | .returned .. :: es => Legal es

theorem phase_of_ne {app app' : AppId} (h : app' ≠ app) (c : Callback) (ok : Bool)
    (es : List CallbackEvent) : phase app (.called app' c :: es) = phase app es ∧
      phase app (.returned app' c ok :: es) = phase app es := by
  constructor
  · cases c <;> simp [phase, h]
  · cases c <;> cases ok <;> simp [phase, h]

/-! ### What the lifecycle reads of a record -/

structure Life where
  kind : AppKind
  state : AppState
  runtimeLoaded : Bool
  deriving DecidableEq

def life (r : AppRecord) : Life := ⟨r.kind, r.state, r.runtimeLoaded⟩

def lifeOf (s : State) (app : AppId) : Option Life := (s.apps app).map life

def Life.hasLifecycle (l : Life) : Bool := l.kind = .native || l.runtimeLoaded

def isClosed : AppState → Bool
  | .installed | .stopped | .error => true
  | _ => false

def isLive : AppState → Bool
  | .running | .paused | .stopping => true
  | _ => false

def Settled : Option Life → Phase → Prop
  | none, p => p = .idle
  | some l, p =>
    match l.state with
    | .installed | .stopped | .error => p = .idle
    | .running => p = .started ∧ l.hasLifecycle = true
    | .paused => p = .paused ∧ l.hasLifecycle = true
    | .starting | .stopping => False

def Closed : Option Life → Phase → Prop
  | none, p => p = .idle
  | some l, p => isClosed l.state = true ∧ p = .idle

def InFrame : Frame → Option Life → Phase → Prop
  | .onStart _, some l, p => l.state = .starting ∧ l.hasLifecycle = true ∧ p = .idle
  | .onStop _ _, some l, p => l.state = .stopping ∧ p = .idle
  | .onPause _, some l, p => l.state = .running ∧ l.hasLifecycle = true ∧ p = .started
  | .onResume _, some l, p => l.state = .paused ∧ l.hasLifecycle = true ∧ p = .paused
  | .cleanup _ _ (.stopping _), some l, p =>
    l.state = .stopping ∧ l.hasLifecycle = true ∧ p ≠ .idle
  | .cleanup _ _ .startFailed, some l, p => l.state = .starting ∧ p = .idle
  | .cleanup _ _ .idle, l, p | .cleanup _ _ .uninstalled, l, p | .onUninstall _, l, p => Closed l p
  | _, _, _ => False

def lifeApp : Frame → Option AppId
  | .onStart app | .onStop app _ | .onPause app | .onResume app | .onUninstall app
  | .cleanup app _ _ => some app
  | .onTimer .. | .handler | .showNext _ => none

/-- The frames of the lifecycle, among those of timers, keyboards and dialogs. -/
def spine (stack : List Frame) : List Frame := stack.filter fun f => (lifeApp f).isSome

/-- One app is in the condition `Q`, and the others are settled. -/
structure Working (s : State) (app : AppId) (Q : Option Life → Phase → Prop) : Prop where
  legal : Legal s.callbacks
  active : s.activeAppId = invalidAppId ∨ ∃ l, lifeOf s s.activeAppId = some l ∧ isLive l.state = true
  others : ∀ app', app' ≠ app → Settled (lifeOf s app') (phase app' s.callbacks)
  own : Q (lifeOf s app) (phase app s.callbacks)

def LifeInv (s : State) : Prop :=
  match spine s.stack with
  | [] => ∀ app, Working s app Settled
  | [f] => ∀ app, lifeApp f = some app → Working s app (InFrame f)
  | _ => False

section Changes
variable {s : State} {app : AppId} {Q R : Option Life → Phase → Prop}

theorem Working.mono (h : Working s app Q) (hQ : ∀ l p, Q l p → R l p) : Working s app R :=
  ⟨h.legal, h.active, h.others, hQ _ _ h.own⟩

theorem Working.settled (h : Working s app Settled) (app' : AppId) : Working s app' Settled := by
  refine ⟨h.legal, h.active, fun other _ => ?_, ?_⟩
  · by_cases heq : other = app
    · exact heq ▸ h.own
    · exact h.others other heq
  · by_cases heq : app' = app
    · exact heq ▸ h.own
    · exact h.others app' heq

theorem lifeOf_modify (s : State) (app app' : AppId) (f : AppRecord → AppRecord) : lifeOf (s.modify app f) app' =
      if app' = app then (s.apps app).map (life ∘ f) else lifeOf s app' := by
  unfold lifeOf State.modify
  split
  · next h =>
    subst h
    simp [Function.update_self, Option.map_map]
  · next h => simp [Function.update_of_ne h]

theorem Working.modify (h : Working s app Q) (f : AppRecord → AppRecord)
    (hlive : ∀ r, s.apps app = some r → s.activeAppId = app → app ≠ invalidAppId →
      isLive r.state = true → isLive (f r).state = true)
    (hQ : ∀ r p, s.apps app = some r → Q (some (life r)) p → R (some (life (f r))) p)
    (hnone : ∀ p, Q none p → R none p) : Working (s.modify app f) app R := by
  refine ⟨h.legal, ?_, ?_, ?_⟩
  · by_cases hinv : s.activeAppId = invalidAppId
    · exact Or.inl hinv
    · obtain ⟨l, hl, hlv⟩ := h.active.resolve_left hinv
      right
      show ∃ l, lifeOf (s.modify app f) s.activeAppId = some l ∧ _
      rw [lifeOf_modify]
      split
      · next heq =>
        rw [heq] at hl
        obtain ⟨r, hr, rfl⟩ := map_eq_some_iff.mp hl
        exact ⟨_, by rw [hr]; rfl, hlive r hr heq (heq ▸ hinv) hlv⟩
      · exact ⟨l, hl, hlv⟩
  · intro app' hne
    rw [lifeOf_modify, if_neg hne]
    exact h.others app' hne
  · rw [lifeOf_modify, if_pos rfl]
    have hown := h.own
    unfold lifeOf at hown
    cases hr : s.apps app with
    | none =>
      rw [hr] at hown
      exact hnone _ hown
    | some r =>
      rw [hr] at hown
      exact hQ r _ hr hown

theorem Working.of_eq {s' : State} (h : Working s app Q)
    (hlife : ∀ app, lifeOf s' app = lifeOf s app) (hact : s'.activeAppId = s.activeAppId)
    (hcbs : s'.callbacks = s.callbacks) : Working s' app Q := by
  refine ⟨hcbs ▸ h.legal, ?_, ?_, ?_⟩
  · rw [hact]
    rcases h.active with hinv | ⟨l, hl, hlv⟩
    · exact Or.inl hinv
    · exact Or.inr ⟨l, (hlife _).trans hl, hlv⟩
  · intro app' hne
    rw [hlife, hcbs]
    exact h.others app' hne
  · rw [hlife, hcbs]
    exact h.own

theorem Working.clearActive (h : Working s app Q) : Working (s.clearActive app) app Q := by
  refine ⟨h.legal, ?_, h.others, h.own⟩
  show (if s.activeAppId = app then invalidAppId else s.activeAppId) = invalidAppId ∨
    ∃ l, lifeOf s (if s.activeAppId = app then invalidAppId else s.activeAppId) = some l ∧ _
  split
  · exact Or.inl rfl
  · exact h.active

theorem Working.activate (h : Working s app Q)
    (hlive : ∀ p, Q (lifeOf s app) p → ∃ l, lifeOf s app = some l ∧ isLive l.state = true) :
    Working { s with activeAppId := app } app Q :=
  ⟨h.legal, Or.inr (hlive _ h.own), h.others, h.own⟩

theorem Working.record (h : Working s app Q) (e : CallbackEvent) (hlegal : Legal s.callbacks → Legal (e :: s.callbacks))
    (hoths : ∀ app', app' ≠ app → phase app' (e :: s.callbacks) = phase app' s.callbacks)
    (hQ : Q (lifeOf s app) (phase app s.callbacks) →
      R (lifeOf s app) (phase app (e :: s.callbacks))) : Working (s.recordCallback e) app R := by
  refine ⟨hlegal h.legal, h.active, ?_, hQ h.own⟩
  intro app' hne
  show Settled (lifeOf s app') (phase app' (e :: s.callbacks))
  rw [hoths app' hne]
  exact h.others app' hne

theorem Working.called (h : Working s app Q) (c : Callback) (hallows : Allows (phase app s.callbacks) c)
    (hQ : Q (lifeOf s app) (phase app s.callbacks) → R (lifeOf s app) (phase app (.called app c :: s.callbacks))) :
    Working (s.recordCallback (.called app c)) app R :=
  h.record _ (fun hl => ⟨hallows, hl⟩) (fun _ hne => (phase_of_ne (Ne.symm hne) c true _).1) hQ

theorem Working.returned (h : Working s app Q) (c : Callback) (ok : Bool)
    (hQ : Q (lifeOf s app) (phase app s.callbacks) → R (lifeOf s app) (phase app (.returned app c ok :: s.callbacks))) :
    Working (s.recordCallback (.returned app c ok)) app R :=
  h.record _ (fun hl => hl) (fun _ hne => (phase_of_ne (Ne.symm hne) c ok _).2) hQ

end Changes

theorem closed_settled {l : Option Life} {p : Phase} (h : Closed l p) : Settled l p := by
  cases l with
  | none => exact h
  | some l =>
    obtain ⟨hstate, hp⟩ := h
    unfold Settled
    cases hl : l.state <;> simp_all [isClosed]

/-! ### The functions -/

section Functions
variable {s : State} {frames : List Frame} {app : AppId} {answer : Answer}

theorem lifeInv_push {f : Frame} (hspine : spine frames = []) (hf : lifeApp f = some app)
    (h : Working s app (InFrame f)) : LifeInv { s with stack := f :: frames } := by
  have hs : spine (f :: frames) = [f] := by
    unfold spine at hspine ⊢
    rw [filter_cons_of_pos (by simp [hf]), hspine]
  unfold LifeInv
  simp only [hs]
  intro app' happ'
  rw [hf] at happ'
  cases happ'
  exact h.of_eq (fun _ => rfl) rfl rfl

theorem lifeInv_idle (hspine : spine frames = []) (h : Working s app Settled) : LifeInv { s with stack := frames } := by
  unfold LifeInv
  simp only [hspine]
  intro app'
  exact (h.settled app').of_eq (fun _ => rfl) rfl rfl

theorem Working.own_record {Q : Option Life → Phase → Prop} (h : Working s app Q) {r : AppRecord}
    (hr : s.apps app = some r) : Q (some (life r)) (phase app s.callbacks) := by
  have hown := h.own
  unfold lifeOf at hown
  rwa [hr] at hown

theorem Working.with_record {Q R : Option Life → Phase → Prop} (h : Working s app Q) {r : AppRecord}
    (hr : s.apps app = some r) (hR : R (some (life r)) (phase app s.callbacks)) :
    Working s app R := by
  refine ⟨h.legal, h.active, h.others, ?_⟩
  unfold lifeOf
  rw [hr]
  exact hR

theorem lifeInv_stopApp (hspine : spine frames = []) (h : Working s app Settled)
    (herror : ∀ r, s.apps app = some r → r.state ≠ .error) (caller : StopCaller) :
    LifeInv (stopApp s app caller frames) := by
  unfold stopApp
  split
  · exact lifeInv_idle hspine h
  · next r hr =>
    have hown := h.own_record hr
    have hne := herror r hr
    split
    · next hstate =>
      refine lifeInv_push hspine rfl (h.with_record hr ?_)
      rcases hstate with hstate | hstate
      · simp only [Settled, life, hstate] at hown
        exact ⟨by simp [life, hstate, isClosed], hown⟩
      · simp only [Settled, life, hstate] at hown
        exact ⟨by simp [life, hstate, isClosed], hown⟩
    · next hstate =>
      have hlive : (life r).hasLifecycle = true ∧ phase app s.callbacks ≠ .idle := by
        cases hst : r.state with
        | running =>
          simp only [Settled, life, hst] at hown
          exact ⟨by simpa [life, hst] using hown.2, by simp [hown.1]⟩
        | paused =>
          simp only [Settled, life, hst] at hown
          exact ⟨by simpa [life, hst] using hown.2, by simp [hown.1]⟩
        | installed => exact absurd (Or.inr hst) hstate
        | stopped => exact absurd (Or.inl hst) hstate
        | error => exact absurd hst hne
        | starting => simp [Settled, life, hst] at hown
        | stopping => simp [Settled, life, hst] at hown
      have hw := h.with_record (R := fun l p => l = some (life r) ∧ p ≠ .idle) hr ⟨rfl, hlive.2⟩
      refine lifeInv_push (s := s.setState app .stopping) hspine rfl (hw.modify _ ?_ ?_ nofun)
      · exact fun _ _ _ _ _ => rfl
      · rintro r' p - ⟨heq, hp⟩
        obtain ⟨hkind, -, hloaded⟩ : r'.kind = r.kind ∧ r'.state = r.state ∧
            r'.runtimeLoaded = r.runtimeLoaded := by simpa [life] using heq
        refine ⟨rfl, ?_, hp⟩
        show (decide (r'.kind = .native) || r'.runtimeLoaded) = true
        rw [hkind, hloaded]
        exact hlive.1

theorem lifeInv_uninstallStopped (hspine : spine frames = []) (h : Working s app Closed) :
    LifeInv (uninstallStopped s app frames) := by
  unfold uninstallStopped
  split
  · exact lifeInv_idle hspine (h.mono fun _ _ => closed_settled)
  · next r hr =>
    split
    · have hidle : phase app s.callbacks = .idle := (h.own_record hr).2
      refine lifeInv_push (s := s.recordCallback _) hspine rfl (h.called .onUninstall ?_ ?_)
      · rw [hidle]
        trivial
      · exact fun hown => hown
    · exact lifeInv_push hspine rfl h

theorem lifeInv_finishUninstall (hspine : spine frames = []) (h : Working s app Closed) :
    LifeInv (finishUninstall s app answer frames) := by
  unfold finishUninstall
  split
  · exact lifeInv_idle hspine (h.mono fun _ _ => closed_settled)
  · next r hr =>
    split
    · refine @lifeInv_idle (s.unloadRuntime app) frames app hspine ?_
      refine (h.modify (R := Closed) _ ?_ ?_ fun _ hp => hp).mono fun _ _ => closed_settled
      · exact fun r hr _ _ hlive => hlive
      · exact fun r p _ hown => hown
    · have hidle : phase app s.callbacks = .idle := (h.own_record hr).2
      have hcl := h.clearActive
      have herase : Working { s.clearActive app with apps := Function.update s.apps app none } app
          Settled := by
        have hlife : ∀ app', lifeOf { s.clearActive app with
            apps := Function.update s.apps app none } app' =
              if app' = app then none else lifeOf s app' := by
          intro app'
          unfold lifeOf
          split
          · next heq => simp [heq]
          · next hne => simp [Function.update_of_ne hne]
        refine ⟨h.legal, ?_, ?_, ?_⟩
        · rcases hcl.active with hinv | ⟨l, hl, hlv⟩
          · exact Or.inl hinv
          · by_cases heq : (s.clearActive app).activeAppId = app
            · left
              have happ : app = invalidAppId := by
                simp only [State.clearActive] at heq
                split at heq
                · exact heq.symm
                · next hne => exact absurd heq hne
              exact heq.trans happ
            · right
              refine ⟨l, ?_, hlv⟩
              show lifeOf _ (s.clearActive app).activeAppId = some l
              rw [hlife, if_neg heq]
              exact hl
        · intro app' hne
          rw [hlife, if_neg hne]
          exact h.others app' hne
        · rw [hlife, if_pos rfl]
          exact hidle
      exact lifeInv_idle (s := { s.clearActive app with apps := Function.update s.apps app none }) hspine herase

/-- The app is in a state, with a lifecycle, and in a phase. -/
def At (state : AppState) (p : Phase) (l : Option Life) (q : Phase) : Prop :=
  ∃ l₀, l = some l₀ ∧ l₀.state = state ∧ l₀.hasLifecycle = true ∧ q = p

theorem settled_running {l : Option Life} {p : Phase} (h : At .running .started l p) : Settled l p := by
  obtain ⟨l₀, rfl, hstate, hlife, rfl⟩ := h
  simp [Settled, hstate, hlife]

theorem settled_paused {l : Option Life} {p : Phase} (h : At .paused .paused l p) : Settled l p := by
  obtain ⟨l₀, rfl, hstate, hlife, rfl⟩ := h
  simp [Settled, hstate, hlife]

theorem Working.setState {state state' : AppState} {q : Phase} (h : Working s app (At state q))
    (hlive : isLive state = true → isLive state' = true) :
    Working (s.setState app state') app (At state' q) := by
  refine h.modify _ ?_ ?_ ?_
  · intro r hr _ _ hl
    obtain ⟨l₀, heq, hstate, -⟩ := h.own_record hr
    cases heq
    exact hlive (hstate ▸ hl)
  · rintro r p - ⟨l₀, heq, -, hlife, hp⟩
    cases heq
    exact ⟨_, rfl, rfl, hlife, hp⟩
  · rintro p ⟨l₀, heq, -⟩
    cases heq

theorem Working.endRun (h : Working s app R) (hp : ∀ l p, R l p → l ≠ none ∧ p = .idle)
    {state : AppState} (hstate : isClosed state = true) :
    Working ((s.modify app (·.endRun state)).clearActive app) app Closed := by
  have hmod : Working ((s.clearActive app).modify app (·.endRun state)) app Closed := by
    refine h.clearActive.modify _ ?_ ?_ ?_
    · intro r _ hact hne _
      simp only [State.clearActive] at hact
      split at hact
      · exact absurd hact.symm hne
      · next hnot => exact absurd hact hnot
    · intro r p _ hr
      exact ⟨hstate, (hp _ _ hr).2⟩
    · intro p hr
      exact absurd rfl (hp _ _ hr).1
  exact hmod.of_eq (fun _ => rfl) rfl rfl

theorem working_endStop (h : Working s app (InFrame (.onStop app .request))) (ok shown : Bool) :
    Working (endStop s app ok shown) app Closed := by
  have hp : ∀ l p, InFrame (.onStop app .request) l p → l ≠ none ∧ p = .idle := by
    intro l p hl
    cases l with
    | none => exact hl.elim
    | some l => exact ⟨nofun, hl.2⟩
  cases ok with
  | true => exact (h.endRun hp rfl).of_eq (fun _ => rfl) rfl rfl
  | false => exact (h.endRun hp rfl).of_eq (fun _ => rfl) rfl rfl

theorem lifeInv_finishStop (hspine : spine frames = [])
    (h : Working s app (InFrame (.onStop app .request))) (caller : StopCaller) (ok : Bool) :
    LifeInv (finishStop s app caller ok answer frames) := by
  have hend := working_endStop h ok answer.shown
  cases caller with
  | request => exact lifeInv_idle hspine (hend.mono fun _ _ => closed_settled)
  | uninstall =>
    cases ok with
    | true => exact lifeInv_uninstallStopped hspine hend
    | false => exact lifeInv_idle hspine (hend.mono fun _ _ => closed_settled)
  | rollback =>
    cases ok with
    | true =>
      have hdone : Working ((endStop s app true answer.shown).showErrorDialog answer.shownAgain) app
          Settled := (hend.mono fun _ _ => closed_settled).of_eq (fun _ => rfl) rfl rfl
      exact lifeInv_idle hspine hdone
    | false =>
      have hset : Working ((endStop s app false answer.shown).setState app .error) app Closed := by
        refine hend.modify _ ?_ ?_ fun _ hp => hp
        · intro r hr _ _ hlive
          obtain ⟨hcl, -⟩ := hend.own_record hr
          simp only [life] at hcl
          revert hcl hlive
          cases r.state <;> simp [isClosed, isLive]
        · exact fun r p _ hown => ⟨rfl, hown.2⟩
      have hdone : Working (((((endStop s app false answer.shown).setState app .error).clearActive
          app)).showErrorDialog answer.shownAgain) app Settled :=
        (hset.clearActive.mono fun _ _ => closed_settled).of_eq (fun _ => rfl) rfl rfl
      exact lifeInv_idle hspine hdone

theorem lifeInv_callOnStop (hspine : spine frames = []) {stage : CleanupStage} {caller : StopCaller}
    (h : Working s app (InFrame (.cleanup app stage (.stopping caller)))) :
    LifeInv (callOnStop s app caller answer frames) := by
  unfold callOnStop
  split
  · next hnone =>
    have hown := h.own
    unfold lifeOf at hown
    rw [hnone] at hown
    exact hown.elim
  · next r hr =>
    obtain ⟨hstate, hlife, hp⟩ := h.own_record hr
    rw [if_pos (show r.hasLifecycle = true from hlife)]
    refine lifeInv_push (s := s.recordCallback _) hspine rfl (h.called .onStop ?_ ?_)
    · cases hph : phase app s.callbacks with
      | idle => exact absurd hph hp
      | started => trivial
      | paused => trivial
    · intro _
      unfold lifeOf
      rw [hr]
      exact ⟨hstate, by simp [phase]⟩

theorem lifeInv_uninstallApp (hspine : spine frames = []) (h : Working s app Settled) :
    LifeInv (uninstallApp s app frames) := by
  unfold uninstallApp
  split
  · exact lifeInv_idle hspine h
  · next r hr =>
    split
    · next hstate =>
      refine lifeInv_stopApp hspine h ?_ .uninstall
      intro r' hr'
      obtain rfl := some.inj (hr.symm.trans hr')
      rcases hstate with hstate | hstate <;> simp [hstate]
    · next hstate =>
      refine lifeInv_uninstallStopped hspine (h.with_record hr ?_)
      have hown := h.own_record hr
      rw [not_or] at hstate
      cases hst : r.state <;> simp_all [Settled, Closed, life, isClosed]

theorem lifeInv_startApp (hspine : spine frames = []) (h : Working s app Settled)
    (hpsd : ∀ r, s.apps app = some r → r.state ≠ .paused) (preparation : Preparation) :
    LifeInv (startApp s app preparation answer frames) := by
  unfold startApp
  split
  · exact lifeInv_idle hspine h
  · next r hr =>
    split
    · exact lifeInv_idle hspine h
    · next hrun =>
      have hclosed : Working s app Closed := by
        refine h.with_record hr ?_
        have hown := h.own_record hr
        have hne := hpsd r hr
        cases hst : r.state <;> simp_all [Settled, Closed, life, isClosed]
      -- a closed app is not the active one, and may change its state
      have hmod : ∀ (f : AppRecord → AppRecord) (R : Option Life → Phase → Prop),
          (∀ r p, p = .idle → R (some (life (f r))) p) → Working (s.modify app f) app R := by
        intro f R hR
        refine (hclosed.with_record (R := fun l p => (∃ l₀, l = some l₀ ∧ isClosed l₀.state = true) ∧
          p = .idle) hr ⟨⟨_, rfl, (hclosed.own_record hr).1⟩, (hclosed.own_record hr).2⟩).modify f ?_ ?_ ?_
        · intro r' hr' _ _ hlive
          obtain ⟨hcl, -⟩ := hclosed.own_record hr'
          simp only [life] at hcl
          revert hcl hlive
          cases r'.state <;> simp [isClosed, isLive]
        · exact fun r' p _ hp => hR r' p hp.2
        · rintro p ⟨⟨l₀, heq, -⟩, -⟩
          cases heq
      cases preparation with
      | unmet =>
        have hdone : Working (s.showErrorDialog answer.shown) app Settled :=
          h.of_eq (fun _ => rfl) rfl rfl
        exact lifeInv_idle hspine hdone
      | guiFailed =>
        have hset : Working (s.setState app .error) app Closed :=
          hmod _ _ fun _ _ hp => ⟨rfl, hp⟩
        have hdone : Working ((s.setState app .error).showErrorDialog answer.shown) app Settled :=
          (hset.mono fun _ _ => closed_settled).of_eq (fun _ => rfl) rfl rfl
        exact lifeInv_idle hspine hdone
      | loadFailed =>
        exact lifeInv_push (s := s.setState app .starting) hspine rfl (hmod _ _ fun _ _ hp => ⟨rfl, hp⟩)
      | runtimeStartFailed =>
        exact lifeInv_push (s := s.modify app fun r => { r with
          state := .starting, runtimeLoaded := true }) hspine rfl (hmod _ _ fun _ _ hp => ⟨rfl, hp⟩)
      | ready =>
        have hstart : Working (s.modify app AppRecord.startRun) app (At .starting .idle) := by
          refine hmod _ _ fun r' p hp => ⟨_, rfl, rfl, ?_, hp⟩
          cases hk : r'.kind <;> simp [Life.hasLifecycle, life, AppRecord.startRun, hk]
        refine lifeInv_push (s := (s.modify app AppRecord.startRun).recordCallback _) hspine rfl
          (hstart.called .onStart ?_ ?_)
        · obtain ⟨-, -, -, -, hidle⟩ := hstart.own
          rw [hidle]
          trivial
        · rintro ⟨l₀, heq, hstate, hlife, hp⟩
          rw [heq]
          exact ⟨hstate, hlife, hp⟩

theorem lifeInv_finishStart (hspine : spine frames = []) {ok : Bool}
    (h : Working s app (At .starting (if ok then .started else .idle))) :
    LifeInv (finishStart s app ok answer frames) := by
  unfold finishStart
  cases ok with
  | false =>
    refine lifeInv_push hspine rfl (h.mono ?_)
    rintro l p ⟨l₀, rfl, hstate, -, hp⟩
    exact ⟨hstate, hp⟩
  | true =>
    have hset : Working (s.setState app .running) app (At .running .started) :=
      h.setState fun hlive => nomatch hlive
    have hact : Working { s.setState app .running with activeAppId := app } app (At .running .started) :=
      hset.activate fun p ⟨l₀, heq, hstate, _⟩ => ⟨l₀, heq, by simp [hstate, isLive]⟩
    simp only [if_true]
    split
    · exact lifeInv_idle hspine (hact.mono fun _ _ => settled_running)
    · refine lifeInv_stopApp hspine (hact.mono fun _ _ => settled_running) ?_ .rollback
      intro r hr
      obtain ⟨l₀, heq, hstate, -⟩ := hact.own_record hr
      cases heq
      simp only [life] at hstate
      simp [hstate]

theorem lifeInv_finishFailedStart (hspine : spine frames = []) {stage : CleanupStage}
    (h : Working s app (InFrame (.cleanup app stage .startFailed))) :
    LifeInv (finishFailedStart s app answer frames) := by
  have hmod : Working (s.modify app fun r => { r.endRun .error with runtimeLoaded := false }) app
      Closed := by
    refine h.modify _ ?_ ?_ fun _ hp => hp.elim
    · intro r hr _ _ hlive
      obtain ⟨hstate, -⟩ := h.own_record hr
      simp only [life] at hstate
      rw [hstate] at hlive
      cases hlive
    · exact fun r p _ hp => ⟨rfl, hp.2⟩
  have hdone : Working ((s.modify app fun r => { r.endRun .error with
      runtimeLoaded := false }).showErrorDialog answer.shown) app Settled :=
    (hmod.mono fun _ _ => closed_settled).of_eq (fun _ => rfl) rfl rfl
  exact lifeInv_idle hspine hdone

theorem lifeInv_finishPause (hspine : spine frames = []) {ok : Bool}
    (h : Working s app (At .running (if ok then .paused else .started))) :
    LifeInv (finishPause s app ok answer frames) := by
  unfold finishPause
  cases ok with
  | true =>
    exact lifeInv_idle (s := s.setState app .paused) hspine ((h.setState fun _ => rfl).mono fun _ _ => settled_paused)
  | false =>
    have hdone : Working (s.showErrorDialog answer.shown) app Settled :=
      (h.mono fun _ _ => settled_running).of_eq (fun _ => rfl) rfl rfl
    exact lifeInv_idle hspine hdone

theorem lifeInv_finishResume (hspine : spine frames = []) {ok : Bool}
    (h : Working s app (At .paused (if ok then .started else .paused))) :
    LifeInv (finishResume s app ok answer frames) := by
  unfold finishResume
  cases ok with
  | true =>
    have hset : Working (s.setState app .running) app (At .running .started) :=
      h.setState fun _ => rfl
    have hact : Working { s.setState app .running with activeAppId := app } app (At .running .started) :=
      hset.activate fun p ⟨l₀, heq, hstate, _⟩ => ⟨l₀, heq, by simp [hstate, isLive]⟩
    exact lifeInv_idle hspine (hact.mono fun _ _ => settled_running)
  | false =>
    have hdone : Working (s.showErrorDialog answer.shown) app Settled :=
      (h.mono fun _ _ => settled_paused).of_eq (fun _ => rfl) rfl rfl
    exact lifeInv_idle hspine hdone

theorem lifeInv_pauseApp (hspine : spine frames = []) (h : Working s app Settled)
    (hstate : ∀ r, s.apps app = some r → r.state = .running) :
    LifeInv (pauseApp s app answer frames) := by
  unfold pauseApp
  split
  · exact lifeInv_idle hspine h
  · next r hr =>
    have hown := h.own_record hr
    simp only [Settled, life, hstate r hr] at hown
    have hlife : (life r).hasLifecycle = true := by
      simpa only [life, hstate r hr] using hown.2
    rw [if_pos (show r.hasLifecycle = true from hlife)]
    have hat : Working s app (At .running .started) :=
      h.with_record hr ⟨_, rfl, hstate r hr, hlife, hown.1⟩
    refine lifeInv_push (s := s.recordCallback _) hspine rfl (hat.called .onPause ?_ ?_)
    · rw [hown.1]
      trivial
    · rintro ⟨l₀, heq, hst, hl, hp⟩
      rw [heq]
      exact ⟨hst, hl, hp⟩

theorem lifeInv_resumeApp (hspine : spine frames = []) (h : Working s app Settled)
    (hstate : ∀ r, s.apps app = some r → r.state = .paused) :
    LifeInv (resumeApp s app answer frames) := by
  unfold resumeApp
  split
  · exact lifeInv_idle hspine h
  · next r hr =>
    have hown := h.own_record hr
    simp only [Settled, life, hstate r hr] at hown
    have hlife : (life r).hasLifecycle = true := by
      simpa only [life, hstate r hr] using hown.2
    rw [if_pos (show r.hasLifecycle = true from hlife)]
    have hat : Working s app (At .paused .paused) :=
      h.with_record hr ⟨_, rfl, hstate r hr, hlife, hown.1⟩
    refine lifeInv_push (s := s.recordCallback _) hspine rfl (hat.called .onResume ?_ ?_)
    · rw [hown.1]
      trivial
    · rintro ⟨l₀, heq, hst, hl, hp⟩
      rw [heq]
      exact ⟨hst, hl, hp⟩

end Functions

/-! ### The steps -/

section Steps
variable {s s' : State} {frames : List Frame} {answer : Answer}

/-- The lifecycle does not see the step. -/
structure SameLife (s s' : State) : Prop where
  apps : ∀ app, lifeOf s' app = lifeOf s app
  active : s'.activeAppId = s.activeAppId
  callbacks : s'.callbacks = s.callbacks
  stack : spine s'.stack = spine s.stack

theorem LifeInv.same (h : LifeInv s) (hs : SameLife s s') : LifeInv s' := by
  unfold LifeInv at h ⊢
  rw [hs.stack]
  split
  · next heq =>
    rw [heq] at h
    exact fun app => (h app).of_eq hs.apps hs.active hs.callbacks
  · next f heq =>
    rw [heq] at h
    exact fun app happ => (h app happ).of_eq hs.apps hs.active hs.callbacks
  · next h1 h2 =>
    split at h
    · next heq => exact h1 heq
    · next f heq => exact h2 f heq
    · exact h

theorem lifeOf_timers (s : State) (app : AppId) (f : AppRecord → List TimerRecord) (app' : AppId) :
    lifeOf (s.modify app fun r => { r with timers := f r }) app' = lifeOf s app' := by
  rw [lifeOf_modify]
  split
  · next heq =>
    subst heq
    rfl
  · rfl

theorem LifeInv.settled (h : LifeInv s) (hspine : spine s.stack = []) (app : AppId) : Working s app Settled := by
  unfold LifeInv at h
  rw [hspine] at h
  exact h app

theorem LifeInv.top (h : LifeInv s) {f : Frame} {app : AppId} (hs : s.stack = f :: frames)
    (hf : lifeApp f = some app) : spine frames = [] ∧ Working s app (InFrame f) := by
  have hspine : spine s.stack = f :: spine frames := by
    rw [hs]
    unfold spine
    rw [filter_cons_of_pos (by simp [hf])]
  unfold LifeInv at h
  rw [hspine] at h
  cases hrest : spine frames with
  | nil =>
    rw [hrest] at h
    exact ⟨rfl, h app hf⟩
  | cons g gs =>
    rw [hrest] at h
    exact h.elim

theorem spine_cons_none {f : Frame} (hf : lifeApp f = none) (frames : List Frame) :
    spine (f :: frames) = spine frames := by
  unfold spine
  rw [filter_cons_of_neg (by simp [hf])]

theorem LifeInv.nextStage (h : LifeInv s) {app : AppId} {stage stage' : CleanupStage}
    {next : AfterCleanup} (hs : s.stack = .cleanup app stage next :: frames) (new : List Frame)
    (hnew : spine new = []) (hstk : s'.stack = new ++ .cleanup app stage' next :: frames)
    (hlife : ∀ app, lifeOf s' app = lifeOf s app) (hact : s'.activeAppId = s.activeAppId)
    (hcbs : s'.callbacks = s.callbacks) : LifeInv s' := by
  obtain ⟨hspine, hw⟩ := h.top hs rfl
  have hin : Working s' app (InFrame (.cleanup app stage' next)) := by
    have hsame : ∀ l p, InFrame (.cleanup app stage next) l p → InFrame (.cleanup app stage' next) l p := by
      intro l p hl
      cases next <;> cases l <;> exact hl
    exact (hw.mono hsame).of_eq hlife hact hcbs
  have hpush : LifeInv { s' with stack := .cleanup app stage' next :: frames } :=
    lifeInv_push hspine rfl hin
  refine hpush.same ⟨fun _ => rfl, rfl, rfl, ?_⟩
  rw [hstk]
  show spine (new ++ _) = _
  unfold spine at hnew ⊢
  rw [filter_append, hnew, nil_append]

theorem LifeInv.cleanupStep (h : LifeInv s) {app : AppId} {stage : CleanupStage}
    {next : AfterCleanup} (hs : s.stack = .cleanup app stage next :: frames) :
    LifeInv (cleanupStep s app next answer frames stage) := by
  cases stage with
  | entered => exact h.nextStage hs [] rfl rfl (fun _ => rfl) rfl rfl
  | hideKeyboards ids =>
    cases ids with
    | nil => exact h.nextStage hs [] rfl rfl (fun _ => rfl) rfl rfl
    | cons id ids =>
      show LifeInv (closeAppKeyboard s app id _)
      unfold closeAppKeyboard
      split
      · exact h.nextStage hs [] rfl rfl (fun _ => rfl) rfl rfl
      · split
        · exact h.nextStage hs [] rfl rfl (fun _ => rfl) rfl rfl
        · exact h.nextStage hs [.handler] rfl rfl (fun _ => rfl) rfl rfl
  | closeMessageDialogs ids closedActive =>
    cases ids with
    | nil =>
      cases closedActive with
      | false => exact h.nextStage hs [] rfl rfl (fun _ => rfl) rfl rfl
      | true => exact h.nextStage hs [.showNext false] rfl rfl (fun _ => rfl) rfl rfl
    | cons id ids =>
      unfold Model.cleanupStep
      cases hfind : s.dialogs.find id with
      | none =>
        simp only [hfind]
        exact h.nextStage hs [] rfl rfl (fun _ => rfl) rfl rfl
      | some request =>
        simp only [hfind]
        exact h.nextStage hs [.handler] rfl rfl (fun _ => rfl) rfl rfl
  | cancelTimers =>
    exact h.nextStage hs [] rfl rfl (lifeOf_timers s app fun _ => []) rfl rfl
  | done =>
    obtain ⟨hspine, hw⟩ := h.top hs rfl
    cases next with
    | idle =>
      have hdone : Working (s.recordStop app true) app Settled :=
        (hw.mono (R := Settled) fun _ _ => closed_settled).of_eq (fun _ => rfl) rfl rfl
      exact lifeInv_idle hspine hdone
    | stopping caller => exact lifeInv_callOnStop hspine hw
    | startFailed => exact lifeInv_finishFailedStart hspine hw
    | uninstalled => exact lifeInv_finishUninstall hspine hw

theorem LifeInv.showNextStep (h : LifeInv s) {isLoop : Bool}
    (hs : s.stack = .showNext isLoop :: frames) : LifeInv (showNextStep s isLoop answer frames) := by
  have hspine : spine s.stack = spine frames := hs ▸ spine_cons_none rfl frames
  unfold Model.showNextStep
  split
  · refine h.same ⟨fun _ => rfl, rfl, rfl, ?_⟩
    rw [hspine]
    show spine (if _ then _ else _) = _
    split <;> rfl
  · split
    · exact h.same ⟨fun _ => rfl, rfl, rfl, hspine.symm⟩
    · exact h.same ⟨fun _ => rfl, rfl, rfl, hspine.symm⟩
    · exact h.same ⟨fun _ => rfl, rfl, rfl, hspine.symm⟩

theorem LifeInv.finishTimer {app : AppId} {id : TimerId} (h : LifeInv s)
    (hs : spine s.stack = spine frames) : LifeInv (finishTimer s app id frames) :=
  h.same ⟨lifeOf_timers s app _, rfl, rfl, hs.symm⟩

theorem LifeInv.returnStep (h : LifeInv s) {ok : Bool} {frame : Frame}
    (hs : s.stack = frame :: frames) (hst : returnStep s ok answer frames frame = some s') :
    LifeInv s' := by
  cases frame with
  | onStart app =>
    obtain ⟨hspine, hw⟩ := h.top hs rfl
    cases hst
    have hret : Working (s.recordCallback (.returned app .onStart ok)) app
        (At .starting (if ok then .started else .idle)) := by
      refine hw.returned .onStart ok ?_
      intro hown
      cases hl : lifeOf s app with
      | none =>
        rw [hl] at hown
        exact hown.elim
      | some l =>
        rw [hl] at hown
        refine ⟨l, rfl, hown.1, hown.2.1, ?_⟩
        cases ok <;> simp [phase, hown.2.2]
    exact lifeInv_finishStart hspine hret
  | onStop app caller =>
    obtain ⟨hspine, hw⟩ := h.top hs rfl
    cases hst
    have hret : Working (s.recordCallback (.returned app .onStop ok)) app (InFrame (.onStop app .request)) := by
      refine hw.returned .onStop ok ?_
      intro hown
      cases hl : lifeOf s app with
      | none =>
        rw [hl] at hown
        exact hown.elim
      | some l =>
        rw [hl] at hown
        exact hown
    exact lifeInv_finishStop hspine hret caller _
  | onPause app =>
    obtain ⟨hspine, hw⟩ := h.top hs rfl
    cases hst
    have hret : Working (s.recordCallback (.returned app .onPause ok)) app
        (At .running (if ok then .paused else .started)) := by
      refine hw.returned .onPause ok ?_
      intro hown
      cases hl : lifeOf s app with
      | none =>
        rw [hl] at hown
        exact hown.elim
      | some l =>
        rw [hl] at hown
        refine ⟨l, rfl, hown.1, hown.2.1, ?_⟩
        cases ok <;> simp [phase, hown.2.2]
    exact lifeInv_finishPause hspine hret
  | onResume app =>
    obtain ⟨hspine, hw⟩ := h.top hs rfl
    cases hst
    have hret : Working (s.recordCallback (.returned app .onResume ok)) app
        (At .paused (if ok then .started else .paused)) := by
      refine hw.returned .onResume ok ?_
      intro hown
      cases hl : lifeOf s app with
      | none =>
        rw [hl] at hown
        exact hown.elim
      | some l =>
        rw [hl] at hown
        refine ⟨l, rfl, hown.1, hown.2.1, ?_⟩
        cases ok <;> simp [phase, hown.2.2]
    exact lifeInv_finishResume hspine hret
  | onUninstall app =>
    obtain ⟨hspine, hw⟩ := h.top hs rfl
    cases hst
    have hret : Working (s.recordCallback (.returned app .onUninstall ok)) app Closed :=
      hw.returned .onUninstall ok fun hown => hown
    exact lifeInv_push hspine rfl hret
  | onTimer app id =>
    cases hst
    exact h.finishTimer (hs ▸ spine_cons_none rfl frames)
  | handler =>
    cases hst
    exact h.same ⟨fun _ => rfl, rfl, rfl, by rw [hs, spine_cons_none rfl]⟩
  | cleanup app stage next => cases hst
  | showNext isLoop => cases hst

end Steps

/-! ### Runs in order -/

/-- The lifecycle functions are called one after another. -/
def Sequential (s : State) : Action → Prop
  | .call (.startApp _ _) _ | .call (.stopApp _) _ | .call (.pauseApp _) _ | .call (.resumeApp _) _
  | .call (.uninstallApp _) _ => s.stack = []
  | _ => True

def InOrder (s : State) : Action → Prop
  | .call (.startApp app _) _ => ∀ r ∈ s.apps app, r.state ≠ .paused
  | .call (.stopApp app) _ => ∀ r ∈ s.apps app, r.state ≠ .error
  | .call (.pauseApp app) _ => ∀ r ∈ s.apps app, r.state = .running
  | .call (.resumeApp app) _ => ∀ r ∈ s.apps app, r.state = .paused
  | _ => True

def Lawful (s : State) (a : Action) : Prop := Sequential s a ∧ InOrder s a

instance (s : State) (a : Action) : Decidable (Sequential s a) :=
  match a with
  | .call (.startApp ..) _ | .call (.stopApp _) _ | .call (.pauseApp _) _ | .call (.resumeApp _) _
  | .call (.uninstallApp _) _ => inferInstanceAs (Decidable (_ = _))
  | .call (.showAppKeyboard _) _ | .call (.closeAppKeyboard ..) _ | .call (.showAppMessageDialog ..) _
  | .call (.showSystemMessageDialog _) _ | .call (.closeMessageDialog ..) _
  | .call (.updateMessageDialog ..) _ | .returns .. | .advance _ | .timerStart .. | .timerStop ..
  | .fire _ | .dispatch .. => isTrue trivial

instance (o : Option AppRecord) (P : AppRecord → Prop) [DecidablePred P] : Decidable (∀ r ∈ o, P r) :=
  match o with
  | none => .isTrue nofun
  | some r => decidable_of_iff (P r) (by simp)

instance (s : State) (a : Action) : Decidable (InOrder s a) :=
  match a with
  | .call (.startApp _ _) _ => inferInstanceAs (Decidable (∀ _ ∈ _, _))
  | .call (.stopApp _) _ => inferInstanceAs (Decidable (∀ _ ∈ _, _))
  | .call (.pauseApp _) _ => inferInstanceAs (Decidable (∀ _ ∈ _, _))
  | .call (.resumeApp _) _ => inferInstanceAs (Decidable (∀ _ ∈ _, _))
  | .call (.uninstallApp _) _ | .call (.showAppKeyboard _) _ | .call (.closeAppKeyboard ..) _
  | .call (.showAppMessageDialog ..) _ | .call (.showSystemMessageDialog _) _
  | .call (.closeMessageDialog ..) _ | .call (.updateMessageDialog ..) _ | .returns .. | .advance _
  | .timerStart .. | .timerStop .. | .fire _ | .dispatch .. => isTrue trivial

instance (s : State) (a : Action) : Decidable (Lawful s a) := inferInstanceAs (Decidable (_ ∧ _))

theorem LifeInv.callStep {s s' : State} {answer : Answer} {c : Call} (h : LifeInv s)
    (hc : Lawful s (.call c answer)) (hst : callStep s answer c = some s') : LifeInv s' := by
  obtain ⟨hseq, horder⟩ := hc
  have hsett : s.stack = [] → ∀ app, Working s app Settled := fun hstk app =>
    h.settled (by rw [hstk]; rfl) app
  have hspine : s.stack = [] → spine s.stack = [] := fun hstk => by rw [hstk]; rfl
  cases c with
  | startApp app preparation =>
    simp only [Model.callStep] at hst
    split at hst
    · cases hst
    · cases hst
      exact lifeInv_startApp (hspine hseq) (hsett hseq app) horder preparation
  | stopApp app =>
    exact some.inj hst ▸ lifeInv_stopApp (hspine hseq) (hsett hseq app) horder .request
  | pauseApp app =>
    exact some.inj hst ▸ lifeInv_pauseApp (hspine hseq) (hsett hseq app) horder
  | resumeApp app =>
    exact some.inj hst ▸ lifeInv_resumeApp (hspine hseq) (hsett hseq app) horder
  | uninstallApp app =>
    exact some.inj hst ▸ lifeInv_uninstallApp (hspine hseq) (hsett hseq app)
  | showAppKeyboard app =>
    cases hst
    unfold Model.showAppKeyboard
    split
    · exact h
    · simp only
      split
      · exact h.same ⟨fun _ => rfl, rfl, rfl, rfl⟩
      · split
        · exact h.same ⟨fun _ => rfl, rfl, rfl, rfl⟩
        · exact h.same ⟨fun _ => rfl, rfl, rfl, rfl⟩
  | closeAppKeyboard app id =>
    cases hst
    unfold Model.closeAppKeyboard
    split
    · exact h
    · split
      · exact h
      · exact h.same ⟨fun _ => rfl, rfl, rfl, rfl⟩
  | showAppMessageDialog app options =>
    cases hst
    unfold Model.enqueueMessageDialog
    split
    · exact h
    · split
      · exact h
      · exact h.same ⟨fun _ => rfl, rfl, rfl, rfl⟩
  | showSystemMessageDialog options =>
    cases hst
    unfold Model.enqueueMessageDialog
    split
    · exact h
    · split
      · exact h
      · exact h.same ⟨fun _ => rfl, rfl, rfl, rfl⟩
  | closeMessageDialog app id buttonIndex reason =>
    cases hst
    unfold Model.closeMessageDialog
    split
    · exact h
    · split
      · exact h
      · split
        · exact h
        · refine h.same ⟨fun _ => rfl, rfl, rfl, ?_⟩
          show spine (.handler :: if _ then _ else _) = _
          split <;> rfl
  | updateMessageDialog app id options =>
    cases hst
    unfold Model.updateMessageDialog
    split
    · exact h
    · split
      · exact h
      · split
        · exact h
        · exact h.same ⟨fun _ => rfl, rfl, rfl, rfl⟩

theorem LifeInv.dispatchTimer {s : State} (h : LifeInv s) (app : AppId) (id : TimerId) :
    LifeInv (dispatchTimer s app id) := by
  unfold Model.dispatchTimer
  split
  · exact h.same ⟨fun _ => rfl, rfl, rfl, rfl⟩
  · split
    · exact h.same ⟨fun _ => rfl, rfl, rfl, rfl⟩
    · split
      · exact h.same ⟨fun _ => rfl, rfl, rfl, rfl⟩
      · split
        · exact h.same ⟨fun _ => rfl, rfl, rfl, rfl⟩
        · exact h.finishTimer rfl

theorem systemCore_inductive : systemCore.Inductive Lawful LifeInv where
  init := by
    rintro s ⟨kinds, -, rfl⟩
    intro app
    have hsett : ∀ app, Settled (lifeOf (State.installed kinds) app) .idle := by
      intro app
      show Settled (((kinds app).map _).map life) .idle
      cases kinds app <;> rfl
    exact ⟨trivial, Or.inl rfl, fun app' _ => hsett app', hsett app⟩
  step s a s' h hc hst := by
    change step s a = some s' at hst
    cases a with
    | call c answer =>
      simp only [step] at hst
      split at hst
      · exact h.callStep hc hst
      · cases hst
    | returns ok answer =>
      simp only [step] at hst
      split at hst
      · cases hst
      · next frame frames hs => exact h.returnStep hs hst
    | advance answer =>
      simp only [step] at hst
      split at hst
      · cases hst
      · next frame frames hs =>
        cases frame with
        | cleanup app stage next =>
          cases hst
          exact h.cleanupStep hs
        | showNext isLoop =>
          cases hst
          exact h.showNextStep hs
        | _ => cases hst
    | timerStart app periodic intervalMs =>
      cases hst
      unfold timerStart
      split
      · exact h
      · split
        · exact h
        · exact h.same ⟨lifeOf_timers s app _, rfl, rfl, rfl⟩
    | timerStop app id =>
      cases hst
      unfold timerStop
      split
      · exact h.same ⟨lifeOf_timers s app _, rfl, rfl, rfl⟩
      · exact h
    | fire id =>
      obtain ⟨t, -, rfl⟩ := map_eq_some_iff.mp hst
      unfold fireTimer
      split
      · split
        · exact h
        · exact h.same ⟨fun _ => rfl, rfl, rfl, rfl⟩
      · exact h.same ⟨fun _ => rfl, rfl, rfl, rfl⟩
    | dispatch app id =>
      simp only [step] at hst
      split at hst
      · cases hst
        have h' : LifeInv { s with posted := s.posted.erase (app, id) } :=
          h.same ⟨fun _ => rfl, rfl, rfl, rfl⟩
        exact h'.dispatchTimer app id
      · cases hst

/-- The active app is none, or an installed app that runs or is paused. -/
def ActiveOk (s : State) : Prop :=
  s.activeAppId = invalidAppId ∨ ∃ r, s.apps s.activeAppId = some r ∧ (r.state = .running ∨ r.state = .paused)

/-- **The lifecycle.** In every run of calls one after another and in order, all callbacks are called in
the phases that allow them, and between the calls the active app runs or is paused. -/
theorem lifecycle_legal {s : State} (hs : systemCore.Reach Lawful s) :
    Legal s.callbacks ∧ (s.stack = [] → ActiveOk s) := by
  have h := systemCore_inductive.reach hs
  constructor
  · unfold LifeInv at h
    split at h
    · exact (h invalidAppId).legal
    · next f heq =>
      have hf : f ∈ spine s.stack := heq ▸ mem_cons_self
      obtain ⟨app, happ⟩ := isSome_iff_exists.mp (by simpa using (mem_filter.mp hf).2)
      exact (h app happ).legal
    · exact h.elim
  · intro hstk
    have hw := h.settled (by rw [hstk]; rfl)
    rcases (hw invalidAppId).active with hinv | ⟨l, hl, hlive⟩
    · exact Or.inl hinv
    · right
      obtain ⟨r, hr, rfl⟩ := map_eq_some_iff.mp hl
      refine ⟨r, hr, ?_⟩
      have hown := (hw s.activeAppId).own_record hr
      simp only [life] at hlive
      cases hst : r.state <;> simp_all [isLive, Settled, life]

/-! ### Two runs of a native app -/

def nativeApp : State := State.installed fun app => if app = 1 then some .native else none

def orderedRun : List Action :=
  [.call (.startApp 1 .ready) {}, .returns true {}, .call (.pauseApp 1) {}, .returns true {},
    .call (.resumeApp 1) {}, .returns true {}, .call (.stopApp 1) {}] ++
      List.replicate 5 (.advance {}) ++ [.returns true {}]

theorem lifecycle_legal_orderedRun : ∃ s : State, s.callbacks.length = 8 ∧ s.stack = [] ∧
    Legal s.callbacks ∧ ActiveOk s := by
  have hrun : ∃ s, systemCore.execWhen Lawful nativeApp orderedRun = some s ∧
      s.callbacks.length = 8 ∧ s.stack = [] := by decide
  obtain ⟨s, hs, hlen, hstk⟩ := hrun
  obtain ⟨hlegal, hact⟩ :=
    lifecycle_legal (.execWhen (.init ⟨_, rfl, rfl⟩) hs)
  exact ⟨s, hlen, hstk, hlegal, hact hstk⟩

def pausedRun : List Action := [.call (.pauseApp 1) {}, .returns true {}]

theorem pausedRun_illegal : ¬ ∀ s : State, systemCore.Reach Sequential s →
    Legal s.callbacks ∧ (s.stack = [] → ActiveOk s) := by
  intro h
  have hrun : ∃ s, systemCore.execWhen Sequential nativeApp pausedRun = some s ∧
      s.callbacks = [.returned 1 .onPause true, .called 1 .onPause] := by decide
  obtain ⟨s, hs, hcbs⟩ := hrun
  obtain ⟨hlegal, -⟩ := h s (.execWhen (.init ⟨_, rfl, rfl⟩) hs)
  rw [hcbs] at hlegal
  exact hlegal.1

end Brookesia.SystemCore.Lifecycle
