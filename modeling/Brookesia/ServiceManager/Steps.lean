import Brookesia.ServiceManager.Model
import Brookesia.Transition.Parts

/-! # What a step of the manager does

* `references`: the unreleased bindings, those of dependencies included, wherever they are;
  `transitions`: the starts and stops in progress.
* `Change`: what a step does to the entries and the services, and which references and transitions
  go and come with it.
* `step_change`: every step is one of these. -/

namespace Brookesia.ServiceManager.Steps

open Brookesia.Transition Service Model List Option

/-! ### References and transitions -/

/-- The references that a call of `bind` or `release`, or a move, has in its hands. A reference is
released when `unbind` has counted it. -/
def held : Frame → List Reference
  | .bind _ stage => match stage with
    | .entered | .collecting | .failed => []
    | .received _ binding _ bound => binding ++ bound
    | .resolving _ bound | .awaiting _ _ bound | .locking bound | .waiting _ bound => bound
    | .marked _ _ bound | .starting _ _ _ bound | .started _ _ _ bound => bound
    | .orphaned _ bound | .orphanStopping _ _ bound | .failing bound => bound
  | .assign _ binding => binding
  | .release stage reference rest => match stage with
    | .calling | .unbinding | .locking => reference :: rest
    | .marked _ | .stopping _ _ | .stopped _ => rest
  | _ => []

/-- How far a start or a stop has come. -/
inductive Progress
  | marked
  | starting (c : CallStage)
  | started (ok : Bool)
  | stopMarked
  | stopping (c : CallStage)
  | stopped
  deriving DecidableEq

def Progress.isStart : Progress → Bool
  | .marked | .starting _ | .started _ => true
  | _ => false

/-- A start or stop, and the registration it is made for. -/
abbrev Transition := Reference × Progress

def underway : Frame → List Transition
  | .bind name stage => match stage with
    | .marked registration service _ => [(⟨name, service, registration⟩, .marked)]
    | .starting registration service c _ => [(⟨name, service, registration⟩, .starting c)]
    | .started registration service ok _ => [(⟨name, service, registration⟩, .started ok)]
    | _ => []
  | .release stage reference _ => match stage with
    | .marked service => [(⟨reference.name, service, reference.registration⟩, .stopMarked)]
    | .stopping service c => [(⟨reference.name, service, reference.registration⟩, .stopping c)]
    | .stopped service => [(⟨reference.name, service, reference.registration⟩, .stopped)]
    | _ => []
  | _ => []

def references (s : State) : List Reference :=
  s.bindings.flatten ++ s.threads.flatten.flatMap held

def transitions (s : State) : List Transition := s.threads.flatten.flatMap underway

/-! ### Changes -/

/-- The calls of a start or a stop, one step each. -/
inductive Proceeds (s : State) (service : ServiceId) : Progress → Progress → State → Prop
  | start : Proceeds s service .marked (.starting .starting) (s.record service .start)
  | starting {c c' : CallStage} {ok : Bool} {b : ServiceBase}
      (h : callStep (s.objects service) ok c = some (b, .goes c')) :
      Proceeds s service (.starting c) (.starting c') (s.setObject service b)
  | started {c : CallStage} {ok result : Bool} {b : ServiceBase}
      (h : callStep (s.objects service) ok c = some (b, .returns result)) :
      Proceeds s service (.starting c) (.started result) ((s.setObject service b).record service (.started result))
  | stop : Proceeds s service .stopMarked (.stopping .stopping) (s.record service .stop)
  | stopping {c c' : CallStage} {ok : Bool} {b : ServiceBase}
      (h : callStep (s.objects service) ok c = some (b, .goes c')) :
      Proceeds s service (.stopping c) (.stopping c') (s.setObject service b)
  | stopped {c : CallStage} {ok result : Bool} {b : ServiceBase}
      (h : callStep (s.objects service) ok c = some (b, .returns result)) :
      Proceeds s service (.stopping c) .stopped ((s.setObject service b).record service .stopped)

theorem Proceeds.ne {s s' : State} {service : ServiceId} {p p' : Progress}
    (h : Proceeds s service p p' s') : p ≠ p' := by
  rintro rfl
  cases h with
  | starting h => exact callStep_ne h rfl
  | stopping h => exact callStep_ne h rfl

/-- Neither the entries nor the services change. -/
structure Quiet (s s' : State) : Prop where
  services : s'.services = s.services
  objects : s'.objects = s.objects
  log : s'.log = s.log
  isInitialized : s.isInitialized = true → s'.isInitialized = true
  nextRegistration : s'.nextRegistration = s.nextRegistration

/-- A call of a service that is not a start or stop of an entry: of `remove_service`, of `deinit`, or
of a service that was removed while it started. -/
def foreign : Frame → Bool
  | .bind _ (.orphaned _ _) | .bind _ (.orphanStopping _ _ _) => true
  | .remove _ _ | .deinit _ => true
  | _ => false

/-- What a step of the frame `top` does: the state after it, the references that are `gone` and
`come`, the transitions that are `ended` and `begun`. -/
inductive Change (cat : Catalog) (s : State) (top : Option Frame) :
    State → (gone come : List Reference) → (ended begun : List Transition) → Prop
  | quiet {s' : State} (h : Quiet s s') : Change cat s top s' [] [] [] []
  | mark {name : ServiceName} {info : RuntimeServiceInfo} (hinfo : s.services name = some info)
      (hstate : info.state = .stopped) : Change cat s top
        (s.setInfo name { info with state := .starting, refCount := info.refCount + 1 })
        [] [] [] [(⟨name, info.service, info.registration⟩, .marked)]
  | share {name : ServiceName} {info : RuntimeServiceInfo} (hinfo : s.services name = some info)
      (hstate : info.state = .running) : Change cat s top (s.setInfo name { info with refCount := info.refCount + 1 })
        [] [⟨name, info.service, info.registration⟩] [] []
  | proceed (reference : Reference) {p p' : Progress} {s' : State}
      (h : Proceeds s reference.service p p' s') :
      Change cat s top s' [] [] [(reference, p)] [(reference, p')]
  | finish (reference : Reference) {bound : ServiceBinding} {info : RuntimeServiceInfo}
      (htop : top = some (.bind reference.name (.started reference.registration reference.service true bound)))
      (hinfo : s.services reference.name = some info) : Change cat s top
        (s.setInfo reference.name { info with state := .running })
        [] [⟨reference.name, info.service, info.registration⟩] [(reference, .started true)] []
  | fail (reference : Reference) {bound : ServiceBinding} {info : RuntimeServiceInfo}
      (htop : top = some (.bind reference.name (.started reference.registration reference.service false bound)))
      (hinfo : s.services reference.name = some info) : Change cat s top (s.setInfo reference.name
          { info with state := .stopped, refCount := decrement info.refCount })
        [] [] [(reference, .started false)] []
  | lost (reference : Reference) (ok : Bool) (hinfo : s.services reference.name = none) :
      Change cat s top s [] [] [(reference, .started ok)] []
  | skip {stage : ReleaseStage} {reference : Reference} {rest : ServiceBinding}
      (htop : top = some (.release stage reference rest))
      (hstage : stage = .calling ∨ stage = .unbinding) (hinit : s.isInitialized = false) :
      Change cat s top s [reference] [] [] []
  | miss {reference : Reference} {rest : ServiceBinding}
      (htop : top = some (.release .locking reference rest))
      (hmiss : ∀ info, s.services reference.name = some info → info.refCount = 0) :
      Change cat s top s [reference] [] [] []
  | unbind {reference : Reference} {rest : ServiceBinding} {info : RuntimeServiceInfo}
      (htop : top = some (.release .locking reference rest))
      (hinfo : s.services reference.name = some info) (hcount : 1 < info.refCount) :
      Change cat s top (s.setInfo reference.name { info with refCount := info.refCount - 1 }) [reference] [] [] []
  | last {reference : Reference} {rest : ServiceBinding} {info : RuntimeServiceInfo}
      (htop : top = some (.release .locking reference rest))
      (hinfo : s.services reference.name = some info) (hcount : info.refCount = 1)
      (hrunning : (s.objects info.service).isRunning = true) : Change cat s top
        (s.setInfo reference.name { info with refCount := 0, state := .stopping })
        [reference] [] []
        [(⟨reference.name, info.service, reference.registration⟩, .stopMarked)]
  | lastIdle {reference : Reference} {rest : ServiceBinding} {info : RuntimeServiceInfo}
      (htop : top = some (.release .locking reference rest))
      (hinfo : s.services reference.name = some info) (hcount : info.refCount = 1)
      (hrunning : (s.objects info.service).isRunning = false) : Change cat s top
        (s.setInfo reference.name { info with refCount := 0, state := .stopped })
        [reference] [] [] []
  | stopped (reference : Reference) {info : RuntimeServiceInfo}
      (hinfo : s.services reference.name = some info) (hstate : info.state = .stopping) :
      Change cat s top (s.setInfo reference.name { info with state := .stopped }) [] [] [(reference, .stopped)] []
  | overtaken (reference : Reference)
      (h : ∀ info, s.services reference.name = some info → info.state ≠ .stopping) :
      Change cat s top s [] [] [(reference, .stopped)] []
  | register {service : ServiceId} (hinfo : s.services (cat service).name = none) :
      Change cat s top
        { s.setInfo (cat service).name { service := service, registration := s.nextRegistration } with
          initOrder := s.initOrder ++ [(cat service).name]
          nextRegistration := s.nextRegistration + 1 } [] [] [] []
  | erase {name : ServiceName} (htop : top = some (.remove name .erasing)) : Change cat s top
      { s with
        services := Function.update s.services name none
        initOrder := s.initOrder.filter (· ≠ name) } [] [] [] []
  | unset (htop : top = some (.deinit .setting)) :
      Change cat s top { s with isInitialized := false, locked := false } [] [] [] []
  | prepare {service : ServiceId} {c : CallStage} {ok : Bool} {b : ServiceBase} {next : CallNext}
      (hc : top = some (.add service (.initializing c)))
      (h : callStep (s.objects service) ok c = some (b, next)) :
      Change cat s top (s.setObject service b) [] [] [] []
  | foreign {frame : Frame} {s' : State} (htop : top = some frame) (h : foreign frame = true)
      (hservices : s'.services = s.services) (hnext : s'.nextRegistration = s.nextRegistration) :
      Change cat s top s' [] [] [] []

/-! ### The steps of a frame -/

theorem Quiet.refl (s : State) : Quiet s s := ⟨rfl, rfl, rfl, id, rfl⟩

theorem releaseOf_held (b : ServiceBinding) (frames : List Frame) :
    (releaseOf b frames).flatMap held = b ++ frames.flatMap held := by
  cases b <;> simp [releaseOf, held]

theorem releaseOf_underway (b : ServiceBinding) (frames : List Frame) :
    (releaseOf b frames).flatMap underway = frames.flatMap underway := by
  cases b <;> simp [releaseOf, underway]

theorem returnBinding_eq {name : ServiceName} {b : ServiceBinding} {frames frames' : List Frame}
    (h : returnBinding name b frames = some frames') :
    frames'.flatMap held = b ++ frames.flatMap held ∧ frames'.flatMap underway = frames.flatMap underway := by
  unfold returnBinding at h
  split at h
  · split at h
    · cases h; simp [held, underway]
    · cases h
  · cases h; simp [held, underway]
  · cases h

theorem returnAdded_eq (cat : Catalog) (ok : Bool) (frames : List Frame) :
    (returnAdded cat ok frames).flatMap held = frames.flatMap held ∧
      (returnAdded cat ok frames).flatMap underway = frames.flatMap underway := by
  unfold returnAdded
  split <;> simp [held, underway]

theorem call_eq {s : State} {service : ServiceId} {c : CallStage} {ok : Bool}
    {goes : State → CallStage → State × List Frame} {returns : State → Bool → State × List Frame}
    {r : State × List Frame} (h : s.call service c ok goes returns = some r) :
    (∃ b c', callStep (s.objects service) ok c = some (b, .goes c') ∧ r = goes (s.setObject service b) c') ∨
    ∃ b result, callStep (s.objects service) ok c = some (b, .returns result) ∧
      r = returns (s.setObject service b) result := by
  obtain ⟨⟨b, next⟩, hb, rfl⟩ := map_eq_some_iff.mp h
  cases next with
  | goes c' => exact .inl ⟨b, c', hb, rfl⟩
  | returns result => exact .inr ⟨b, result, hb, rfl⟩

theorem perm_append_left {gone come held held' bindings : List Reference} (h : (gone ++ held').Perm (come ++ held)) :
    (gone ++ (bindings ++ held')).Perm (come ++ (bindings ++ held)) :=
  (perm_append_comm_assoc _ _ _).trans ((Perm.append_left _ h).trans (perm_append_comm_assoc _ _ _))

/-- What the frame on top of a stack does, over the others. -/
def Effect (cat : Catalog) (s : State) (frame : Frame) (frames : List Frame) (s' : State)
    (frames' : List Frame) : Prop :=
  s'.threads = s.threads ∧ ∃ gone come ended begun, Change cat s (some frame) s' gone come ended begun ∧
      (gone ++ (s'.bindings.flatten ++ frames'.flatMap held)).Perm
        (come ++ (s.bindings.flatten ++ (frame :: frames).flatMap held)) ∧
      (ended ++ frames'.flatMap underway).Perm (begun ++ (frame :: frames).flatMap underway)

section Effect
variable {cat : Catalog} {s s' : State} {frame : Frame} {frames frames' : List Frame}

theorem Effect.of {gone come : List Reference} {ended begun : List Transition}
    (hc : Change cat s (some frame) s' gone come ended begun) (hths : s'.threads = s.threads)
    (hbinds : s'.bindings = s.bindings)
    (hheld : (gone ++ frames'.flatMap held).Perm (come ++ (frame :: frames).flatMap held))
    (hund : (ended ++ frames'.flatMap underway).Perm
      (begun ++ (frame :: frames).flatMap underway)) : Effect cat s frame frames s' frames' := by
  refine ⟨hths, gone, come, ended, begun, hc, ?_, hund⟩
  rw [hbinds]
  exact perm_append_left hheld

theorem Effect.goes (hheld : (frames'.flatMap held).Perm ((frame :: frames).flatMap held))
    (hund : frames'.flatMap underway = (frame :: frames).flatMap underway) :
    Effect cat s frame frames s frames' :=
  .of (.quiet (Quiet.refl s)) rfl rfl hheld (by simp [hund])

theorem Effect.proceed (reference : Reference) {p p' : Progress}
    (hp : Proceeds s reference.service p p' s') (hths : s'.threads = s.threads)
    (hbinds : s'.bindings = s.bindings) {frame' : Frame} (hheld : held frame' = held frame)
    (hold : underway frame = [(reference, p)]) (hnew : underway frame' = [(reference, p')]) :
    Effect cat s frame frames s' (frame' :: frames) := by
  refine .of (.proceed reference hp) hths hbinds (by simp [hheld]) ?_
  simpa [hold, hnew] using Perm.swap _ _ _

variable {name : ServiceName} {ok : Bool}

theorem acquire_effect {info : RuntimeServiceInfo} {bound : ServiceBinding}
    (hinfo : s.services name = some info) {stage : BindStage}
    (hheld : held (.bind name stage) = bound) (hund : underway (.bind name stage) = [])
    (h : acquire s name info bound frames = some (s', frames')) :
    Effect cat s (.bind name stage) frames s' frames' := by
  unfold acquire at h
  split at h
  · cases h; exact .goes (by simp [hheld]; simp [held]) (by simp [hund]; simp [underway])
  · cases h; exact .goes (by simp [hheld]; simp [held]) (by simp [hund]; simp [underway])
  · next hstate =>
    cases h
    exact .of (.mark hinfo hstate) rfl rfl (by simp [hheld]; simp [held]) (by simp [hund]; simp [underway])
  · next hstate =>
    obtain ⟨frames'', hr, he⟩ := map_eq_some_iff.mp h
    cases he
    obtain ⟨h1, h2⟩ := returnBinding_eq hr
    exact .of (.share hinfo hstate) rfl rfl (by simp [h1, hheld]) (by simp [h2, hund])

theorem bindStep_effect {stage : BindStage} (h : bindStep cat s name ok frames stage = some (s', frames')) :
    Effect cat s (.bind name stage) frames s' frames' := by
  have hreturn : ∀ {frames''}, held (.bind name stage) = [] → underway (.bind name stage) = [] →
      (returnBinding name [] frames).map (s, ·) = some (s', frames'') →
        Effect cat s (.bind name stage) frames s' frames'' := by
    intro frames'' hheld hund h
    obtain ⟨frames'', hr, he⟩ := map_eq_some_iff.mp h
    cases he
    obtain ⟨h1, h2⟩ := returnBinding_eq hr
    exact .goes (by simp [h1, hheld]) (by simp [h2, hund])
  cases stage with
  | entered =>
    simp only [bindStep] at h
    split at h
    · cases h; exact .goes (by simp [held]) (by simp [underway])
    · exact hreturn rfl rfl h
  | collecting =>
    simp only [bindStep] at h
    split at h
    · exact hreturn rfl rfl h
    · split at h
      · cases h; exact .goes (by simp [held]) (by simp [underway])
      · exact hreturn rfl rfl h
  | resolving dependencies bound =>
    cases dependencies with
    | nil => cases h; exact .goes (by simp [held]) (by simp [underway])
    | cons dependency dependencies =>
      cases h; exact .goes (by simp [held]) (by simp [underway])
  | awaiting dependency dependencies bound => cases h
  | received dependency binding dependencies bound =>
    simp only [bindStep] at h
    cases h
    refine .goes ?_ ?_
    · split
      · simpa [held] using Perm.append_right _ perm_append_comm
      · simp [held]
    · split <;> simp [underway]
  | locking bound =>
    simp only [bindStep] at h
    split at h
    · cases h; exact .goes (by simp [held]) (by simp [underway])
    · next hinfo => exact acquire_effect hinfo rfl rfl h
  | waiting registration bound =>
    simp only [bindStep] at h
    split at h
    · cases h
    · next hinfo =>
      split at h
      · exact acquire_effect hinfo rfl rfl h
      · cases h
  | marked registration service bound =>
    cases h
    exact .proceed ⟨name, service, registration⟩ .start rfl rfl rfl rfl rfl
  | starting registration service c bound =>
    simp only [bindStep] at h
    rcases call_eq h with ⟨b, c', hb, he⟩ | ⟨b, result, hb, he⟩ <;> cases he
    · exact .proceed ⟨name, service, registration⟩ (.starting hb) rfl rfl rfl rfl rfl
    · exact .proceed ⟨name, service, registration⟩ (.started hb) rfl rfl rfl rfl rfl
  | started registration service result bound =>
    cases result with
    | true =>
      simp only [bindStep] at h
      split at h
      · next hinfo =>
        cases h
        exact .of (.lost ⟨name, service, registration⟩ true hinfo) rfl rfl (by simp [held]) (by simp [underway])
      · next info hinfo =>
        obtain ⟨frames'', hr, he⟩ := map_eq_some_iff.mp h
        cases he
        obtain ⟨h1, h2⟩ := returnBinding_eq hr
        exact .of (.finish ⟨name, service, registration⟩ rfl hinfo) rfl rfl
          (by simp [h1, held]) (by simp [h2, underway])
    | false =>
      simp only [bindStep] at h
      split at h
      · next hinfo =>
        cases h
        exact .of (.lost ⟨name, service, registration⟩ false hinfo) rfl rfl (by simp [held]) (by simp [underway])
      · next info hinfo =>
        cases h
        exact .of (.fail ⟨name, service, registration⟩ rfl hinfo) rfl rfl (by simp [held]) (by simp [underway])
  | orphaned service bound =>
    cases h
    exact .of (.foreign rfl rfl rfl rfl) rfl rfl (by simp [held]) (by simp [underway])
  | orphanStopping service c bound =>
    simp only [bindStep] at h
    rcases call_eq h with ⟨b, c', hb, he⟩ | ⟨b, result, hb, he⟩ <;> cases he
    · exact .of (.foreign rfl rfl rfl rfl) rfl rfl (by simp [held]) (by simp [underway])
    · exact .of (.foreign rfl rfl rfl rfl) rfl rfl (by simp [held]) (by simp [underway])
  | failing bound =>
    cases h
    exact .goes (by simp [releaseOf_held]; simp [held]) (by simp [releaseOf_underway]; simp [underway])
  | failed => exact hreturn rfl rfl h

theorem releaseStep_effect {reference : Reference} {rest : ServiceBinding} {stage : ReleaseStage}
    (h : releaseStep s reference rest ok frames stage = some (s', frames')) :
    Effect cat s (.release stage reference rest) frames s' frames' := by
  have hskip : stage = .calling ∨ stage = .unbinding → s.isInitialized = false →
      Effect cat s (.release stage reference rest) frames s (releaseOf rest frames) := by
    rintro hstg hinit
    refine .of (.skip rfl hstg hinit) rfl rfl ?_ ?_
    · rcases hstg with rfl | rfl <;> simp [releaseOf_held, held]
    · rcases hstg with rfl | rfl <;> simp [releaseOf_underway, underway]
  cases stage with
  | calling =>
    simp only [releaseStep] at h
    cases h
    split
    · exact .goes (by simp [held]) (by simp [underway])
    · next hinit => exact hskip (.inl rfl) (by simpa using hinit)
  | unbinding =>
    simp only [releaseStep] at h
    cases h
    split
    · exact .goes (by simp [held]) (by simp [underway])
    · next hinit => exact hskip (.inr rfl) (by simpa using hinit)
  | locking =>
    simp only [releaseStep] at h
    split at h
    · next hnone =>
      cases h
      exact .of (.miss rfl fun info hinfo => by rw [hnone] at hinfo; cases hinfo) rfl rfl
        (by simp [releaseOf_held, held]) (by simp [releaseOf_underway, underway])
    · next info hinfo =>
      split at h
      · next hzero =>
        cases h
        refine .of (.miss rfl fun info' hinfo' => ?_) rfl rfl
          (by simp [releaseOf_held, held]) (by simp [releaseOf_underway, underway])
        rw [hinfo] at hinfo'
        cases hinfo'
        exact hzero
      · next hzero =>
        split at h
        · next hone =>
          split at h
          · next hrun =>
            cases h
            exact .of (.last rfl hinfo hone hrun) rfl rfl (by simp [held]) (by simp [underway])
          · next hrun =>
            cases h
            exact .of (.lastIdle rfl hinfo hone (by simpa using hrun)) rfl rfl
              (by simp [releaseOf_held, held]) (by simp [releaseOf_underway, underway])
        · next hone =>
          cases h
          exact .of (.unbind rfl hinfo (by omega)) rfl rfl
            (by simp [releaseOf_held, held]) (by simp [releaseOf_underway, underway])
  | marked service =>
    cases h
    exact .proceed ⟨reference.name, service, reference.registration⟩ .stop rfl rfl rfl rfl rfl
  | stopping service c =>
    simp only [releaseStep] at h
    rcases call_eq h with ⟨b, c', hb, he⟩ | ⟨b, result, hb, he⟩ <;> cases he
    · exact .proceed ⟨reference.name, service, reference.registration⟩ (.stopping hb)
        rfl rfl rfl rfl rfl
    · exact .proceed ⟨reference.name, service, reference.registration⟩ (.stopped hb)
        rfl rfl rfl rfl rfl
  | stopped service =>
    simp only [releaseStep] at h
    split at h
    · next hnone =>
      cases h
      refine .of (.overtaken ⟨reference.name, service, reference.registration⟩ fun info hinfo => ?_) rfl rfl
        (by simp [releaseOf_held, held]) (by simp [releaseOf_underway, underway])
      rw [hnone] at hinfo
      cases hinfo
    · next info hinfo =>
      cases h
      split
      · next hstate =>
        exact .of (.stopped ⟨reference.name, service, reference.registration⟩ hinfo hstate) rfl rfl
          (by simp [releaseOf_held, held]) (by simp [releaseOf_underway, underway])
      · next hstate =>
        refine .of (.overtaken ⟨reference.name, service, reference.registration⟩ fun info' hinfo' => ?_) rfl rfl
          (by simp [releaseOf_held, held]) (by simp [releaseOf_underway, underway])
        rw [hinfo] at hinfo'
        cases hinfo'
        exact hstate

theorem addStep_effect {service : ServiceId} {stage : AddStage}
    (h : addStep cat s service ok frames stage = some (s', frames')) :
    Effect cat s (.add service stage) frames s' frames' := by
  have hadded : ∀ result, Effect cat s (.add service stage) frames s (returnAdded cat result frames) := fun result => by
    obtain ⟨h1, h2⟩ := returnAdded_eq cat result frames
    exact .goes (by simp [h1, held]) (by simp [h2, underway])
  cases stage with
  | checking =>
    simp only [addStep] at h
    split at h
    · cases h; exact hadded true
    · cases h; exact .goes (by simp [held]) (by simp [underway])
  | testing => cases h; exact .goes (by simp [held]) (by simp [underway])
  | initializing c =>
    simp only [addStep] at h
    rcases call_eq h with ⟨b, c', hb, he⟩ | ⟨b, result, hb, he⟩ <;> cases he
    · exact .of (.prepare rfl hb) rfl rfl (by simp [held]) (by simp [underway])
    · refine .of (.prepare rfl hb) rfl rfl ?_ ?_
      · split <;> simp [returnAdded_eq, held]
      · split <;> simp [returnAdded_eq, underway]
  | emplacing =>
    simp only [addStep] at h
    split at h
    · cases h; exact hadded true
    · next hnone =>
      cases h
      exact .of (.register hnone) rfl rfl (by simp [returnAdded_eq, held]) (by simp [returnAdded_eq, underway])

theorem removeStep_effect {stage : RemoveStage} (h : removeStep s name ok frames stage = some (s', frames')) :
    Effect cat s (.remove name stage) frames s' frames' := by
  have hwait : ∀ info, awaitTransition s name info frames = (s', frames') →
      Effect cat s (.remove name stage) frames s' frames' := by
    intro info h
    unfold awaitTransition at h
    split at h <;> cases h <;> exact .goes (by simp [held]) (by simp [underway])
  cases stage with
  | finding =>
    simp only [removeStep] at h
    split at h
    · cases h; exact .goes (by simp [held]) (by simp [underway])
    · exact hwait _ (some.inj h)
  | waiting registration =>
    simp only [removeStep] at h
    split at h
    · cases h
    · split at h
      · exact hwait _ (some.inj h)
      · cases h
  | testing service => cases h; exact .goes (by simp [held]) (by simp [underway])
  | deinitializing service c =>
    simp only [removeStep] at h
    rcases call_eq h with ⟨b, c', hb, he⟩ | ⟨b, result, hb, he⟩ <;> cases he
    · exact .of (.foreign rfl rfl rfl rfl) rfl rfl (by simp [held]) (by simp [underway])
    · exact .of (.foreign rfl rfl rfl rfl) rfl rfl (by simp [held]) (by simp [underway])
  | erasing =>
    cases h
    exact .of (.erase rfl) rfl rfl (by simp [held]) (by simp [underway])

theorem initStep_effect {stage : InitStage} (h : initStep s frames stage = some (s', frames')) :
    Effect cat s (.init stage) frames s' frames' := by
  have hquiet : ∀ {s₁ : State} {frames₁ : List Frame}, Quiet s s₁ → s₁.threads = s.threads →
      s₁.bindings = s.bindings → frames₁.flatMap held = frames.flatMap held →
        frames₁.flatMap underway = frames.flatMap underway → Effect cat s (.init stage) frames s₁ frames₁ := by
    intro s₁ frames₁ hq ht hb h1 h2
    exact .of (.quiet hq) ht hb (by simp [h1, held]) (by simp [h2, underway])
  cases stage with
  | locking builtins services =>
    simp only [initStep] at h
    split at h
    · cases h
    · split at h <;> cases h <;> exact hquiet ⟨rfl, rfl, rfl, id, rfl⟩ rfl rfl rfl rfl
  | adding added builtins services =>
    cases builtins with
    | nil => cases h; exact hquiet (Quiet.refl s) rfl rfl rfl rfl
    | cons service builtins => cases h; exact hquiet (Quiet.refl s) rfl rfl rfl rfl
  | awaiting added service builtins services => cases h
  | undoing added =>
    cases added with
    | nil => cases h; exact hquiet ⟨rfl, rfl, rfl, id, rfl⟩ rfl rfl rfl rfl
    | cons name added => cases h; exact hquiet (Quiet.refl s) rfl rfl rfl rfl
  | registering services =>
    cases services with
    | nil => cases h; exact hquiet (Quiet.refl s) rfl rfl rfl rfl
    | cons service services => cases h; exact hquiet (Quiet.refl s) rfl rfl rfl rfl
  | setting => cases h; exact hquiet ⟨rfl, rfl, rfl, fun _ => rfl, rfl⟩ rfl rfl rfl rfl

theorem deinitStep_effect {stage : DeinitStage} (h : deinitStep s ok frames stage = some (s', frames')) :
    Effect cat s (.deinit stage) frames s' frames' := by
  cases stage with
  | locking =>
    simp only [deinitStep] at h
    split at h
    · cases h
    · split at h <;> cases h
      · exact .of (.quiet ⟨rfl, rfl, rfl, id, rfl⟩) rfl rfl (by simp [held]) (by simp [underway])
      · exact .goes (by simp [held]) (by simp [underway])
  | picking =>
    simp only [deinitStep] at h
    split at h
    · cases h; exact .goes (by simp [held]) (by simp [underway])
    · split at h <;> cases h <;> exact .goes (by simp [held]) (by simp [underway])
  | marked name service =>
    cases h
    exact .of (.foreign rfl rfl rfl rfl) rfl rfl (by simp [held]) (by simp [underway])
  | stopping name service c =>
    simp only [deinitStep] at h
    rcases call_eq h with ⟨b, c', hb, he⟩ | ⟨b, result, hb, he⟩ <;> cases he
    · exact .of (.foreign rfl rfl rfl rfl) rfl rfl (by simp [held]) (by simp [underway])
    · exact .of (.foreign rfl rfl rfl rfl) rfl rfl (by simp [held]) (by simp [underway])
  | removing name => cases h; exact .goes (by simp [held]) (by simp [underway])
  | setting =>
    cases h
    exact .of (.unset rfl) rfl rfl (by simp [held]) (by simp [underway])

theorem frameStep_effect (h : frameStep cat s ok frames frame = some (s', frames')) :
    Effect cat s frame frames s' frames' := by
  cases frame with
  | bind name stage => exact bindStep_effect h
  | binding target => cases h
  | assign target binding =>
    simp only [frameStep] at h
    split at h
    · cases h
    · next hemp =>
      cases h
      refine ⟨rfl, [], [], [], [], .quiet ⟨rfl, rfl, rfl, id, rfl⟩, ?_, by simp [underway]⟩
      have hset := (perm_set hemp binding).trans perm_append_comm
      simpa [held] using hset.append_right (frames.flatMap held)
    · next reference rest hfull =>
      cases h
      refine ⟨rfl, [], [], [], [], .quiet ⟨rfl, rfl, rfl, id, rfl⟩, ?_, by simp [underway]⟩
      have hset := perm_append_comm.trans (perm_set hfull [])
      simpa [held] using hset.append_right (binding ++ frames.flatMap held)
  | release stage reference rest => exact releaseStep_effect h
  | add service stage => exact addStep_effect h
  | remove name stage => exact removeStep_effect h
  | init stage => exact initStep_effect h
  | deinit stage => exact deinitStep_effect h

end Effect

/-! ### Steps -/

def topFrame (s : State) : Action → Option Frame
  | .call _ _ => none
  | .advance t _ => (s.threads[t]?).bind List.head?

/-- The two states have the same entries and services. -/
structure Agrees (s s' : State) : Prop where
  services : s'.services = s.services
  objects : s'.objects = s.objects
  log : s'.log = s.log
  isInitialized : s'.isInitialized = s.isInitialized
  nextRegistration : s'.nextRegistration = s.nextRegistration

theorem callFrames_effect {s s' : State} {c : Call} {frames : List Frame}
    (h : callFrames s c = some (s', frames)) : Quiet s s' ∧ s'.threads = s.threads ∧
      (s'.bindings.flatten ++ frames.flatMap held).Perm s.bindings.flatten ∧ frames.flatMap underway = [] := by
  have hset : ∀ {x : Variable} {b : ServiceBinding}, s.bindings[x]? = some b →
      ((s.bindings.set x []).flatten ++ b).Perm s.bindings.flatten := fun hx => by
    simpa using perm_append_comm.trans (perm_set hx [])
  have hquiet : ∀ bindings, Quiet s { s with bindings := bindings } := fun _ =>
    ⟨rfl, rfl, rfl, id, rfl⟩
  cases c with
  | release target =>
    obtain ⟨b, hb, he⟩ := map_eq_some_iff.mp h
    cases he
    exact ⟨hquiet _, rfl, by simpa [releaseOf_held] using hset hb, by simp [releaseOf_underway]⟩
  | move target source =>
    simp only [callFrames] at h
    split at h
    · cases h; exact ⟨Quiet.refl s, rfl, by simp, rfl⟩
    · obtain ⟨b, hb, he⟩ := map_eq_some_iff.mp h
      cases he
      exact ⟨hquiet _, rfl, by simpa [held] using hset hb, rfl⟩
  | remove name =>
    cases h
    refine ⟨Quiet.refl s, rfl, ?_, ?_⟩ <;> split <;> simp [held, underway]
  | bind target name => cases h; exact ⟨Quiet.refl s, rfl, by simp [held], rfl⟩
  | add service => cases h; exact ⟨Quiet.refl s, rfl, by simp [held], rfl⟩
  | init builtins services => cases h; exact ⟨Quiet.refl s, rfl, by simp [held], rfl⟩
  | deinit => cases h; exact ⟨Quiet.refl s, rfl, by simp [held], rfl⟩

theorem stack_perm {s s₁ : State} {t : ThreadId} {stack frames : List Frame}
    (hstk : s.threads[t]? = some stack) (hths : s₁.threads = s.threads)
    {gone come : List Reference} {ended begun : List Transition}
    (hheld : (gone ++ (s₁.bindings.flatten ++ frames.flatMap held)).Perm
      (come ++ (s.bindings.flatten ++ stack.flatMap held)))
    (hund : (ended ++ frames.flatMap underway).Perm (begun ++ stack.flatMap underway)) :
    (gone ++ references { s₁ with threads := s₁.threads.set t frames }).Perm (come ++ references s) ∧
      (ended ++ transitions { s₁ with threads := s₁.threads.set t frames }).Perm (begun ++ transitions s) := by
  have hset := replaced_set hstk frames
  constructor
  · have hr := (hset.flatMap held).perm (d := gone ++ s₁.bindings.flatten)
      (e := come ++ s.bindings.flatten) (by simpa using hheld)
    simpa [references, hths] using hr
  · simpa [transitions, hths] using (hset.flatMap underway).perm hund

theorem step_change {cat : Catalog} {s s' : State} {a : Action} (h : step cat s a = some s') :
    ∃ s₁ gone come ended begun, Change cat s (topFrame s a) s₁ gone come ended begun ∧
      Agrees s₁ s' ∧ (gone ++ references s').Perm (come ++ references s) ∧
        (ended ++ transitions s').Perm (begun ++ transitions s) := by
  cases a with
  | call t c =>
    simp only [step] at h
    split at h
    · next hidle =>
      obtain ⟨⟨s₁, frames⟩, hc, he⟩ := map_eq_some_iff.mp h
      cases he
      obtain ⟨hq, hths, hheld, hund⟩ := callFrames_effect hc
      exact ⟨s₁, [], [], [], [], .quiet hq, ⟨rfl, rfl, rfl, rfl, rfl⟩,
        stack_perm hidle hths (by simpa using hheld) (by simp [hund])⟩
    · cases h
  | advance t ok =>
    simp only [step] at h
    split at h
    · next frame frames hstk =>
      obtain ⟨⟨s₁, frames'⟩, hf, he⟩ := map_eq_some_iff.mp h
      cases he
      obtain ⟨hths, gone, come, ended, begun, hc, hheld, hund⟩ := frameStep_effect hf
      have htop : topFrame s (.advance t ok) = some frame := by simp [topFrame, hstk]
      exact ⟨s₁, gone, come, ended, begun, htop ▸ hc, ⟨rfl, rfl, rfl, rfl, rfl⟩, stack_perm hstk hths hheld hund⟩
    · cases h

end Brookesia.ServiceManager.Steps
