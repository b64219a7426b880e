import Brookesia.ServiceManager.Bindings

/-! # Starts and stops of a service

While nothing is removed, the manager starts and stops a service one call at a time.

* `reached`: where the calls have led when a start or a stop has come so far.
* `EntryAt`: an entry is in a transition and has one start or stop in progress, or it is in none.
* `calls_serialized`: the calls never overlap, a stop follows a start that has succeeded, a binding
  is held only while the last of these is a start, and at rest the state is that of the count. -/

namespace Brookesia.ServiceManager.Lifecycle

open Transition Service Model List Option
open Steps References
open Bindings

/-! ### Calls of one service -/

/-- What the calls of a service have led to, and its `is_running()`. -/
abbrev Status := Phase × Bool

def status (s : State) (service : ServiceId) : Option Status :=
  (phaseOf (s.log service)).map (·, (s.objects service).isRunning)

/-- What a start or a stop has led to that has come so far. -/
def reached : Progress → Option Status
  | .marked => some (.idle, false)
  | .starting .starting => some (.starting, false)
  | .starting .onStart => some (.starting, true)
  | .started true => some (.running, true)
  | .started false => some (.idle, false)
  | .stopMarked => some (.running, true)
  | .stopping .stopping => some (.stopping, true)
  | .stopping .onStop => some (.stopping, true)
  | .stopping .draining => some (.stopping, false)
  | .stopped => some (.idle, false)
  | _ => none

theorem status_eq_some {s : State} {service : ServiceId} {phase : Phase} {running : Bool} :
    status s service = some (phase, running) ↔
      phaseOf (s.log service) = some phase ∧ (s.objects service).isRunning = running := by
  simp [status]

theorem status_congr {s s' : State} {service : ServiceId} (hlog : s'.log service = s.log service)
    (hrun : (s'.objects service).isRunning = (s.objects service).isRunning) :
    status s' service = status s service := by
  simp [status, hlog, hrun]

theorem status_record {s : State} {service : ServiceId} {phase phase' : Phase} {running : Bool}
    {e : Event} (h : status s service = some (phase, running)) (hnext : phase.next e = some phase') :
    status (s.record service e) service = some (phase', running) := by
  obtain ⟨hph, hrun⟩ := status_eq_some.mp h
  refine status_eq_some.mpr ⟨?_, hrun⟩
  simpa [State.record] using phaseOf_concat.mpr ⟨phase, hph, hnext⟩

theorem status_setObject {s : State} {service : ServiceId} {phase : Phase} {running : Bool}
    {b : ServiceBase} (h : status s service = some (phase, running)) :
    status (s.setObject service b) service = some (phase, b.isRunning) := by
  obtain ⟨hph, -⟩ := status_eq_some.mp h
  exact status_eq_some.mpr ⟨hph, by simp [State.setObject]⟩

theorem Proceeds.reached {s s' : State} {service : ServiceId} {p p' : Progress} {x : Status}
    (h : Proceeds s service p p' s') (hreached : Lifecycle.reached p = some x)
    (hstat : status s service = some x) :
    ∃ x', Lifecycle.reached p' = some x' ∧ status s' service = some x' := by
  obtain ⟨phase, running⟩ := x
  have hrun := (status_eq_some.mp hstat).2
  cases h with
  | start => cases hreached; exact ⟨_, rfl, status_record hstat rfl⟩
  | @starting c c' ok b hc =>
    cases c <;> cases hreached <;> simp only [callStep, hrun, Bool.false_eq_true, ↓reduceIte] at hc
    · split at hc
      · cases hc
      · split at hc <;> cases hc
        exact ⟨_, rfl, status_setObject hstat⟩
    · cases hc
  | @started c ok result b hc =>
    cases c <;> cases hreached <;> simp only [callStep, hrun, Bool.false_eq_true, ↓reduceIte] at hc
    · split at hc
      · cases hc
      · split at hc <;> cases hc
        -- the service is not initialised: `start` fails at once
        have hsame := status_setObject (b := s.objects service) hstat
        rw [hrun] at hsame
        exact ⟨_, rfl, status_record hsame rfl⟩
    · cases hc
      cases ok <;> exact ⟨_, rfl, status_record (status_setObject hstat) rfl⟩
  | stop => cases hreached; exact ⟨_, rfl, status_record hstat rfl⟩
  | @stopping c c' ok b hc =>
    cases c <;> cases hreached <;> simp only [callStep, hrun, ↓reduceIte] at hc
    · split at hc
      · cases hc
      · cases hc
        exact ⟨_, rfl, hrun ▸ status_setObject hstat⟩
    · cases hc
      exact ⟨_, rfl, status_setObject hstat⟩
    · cases hc
  | @stopped c ok result b hc =>
    cases c <;> cases hreached <;> simp only [callStep, hrun, ↓reduceIte] at hc
    · split at hc <;> cases hc
    · cases hc
    · cases hc
      exact ⟨_, rfl, hrun ▸ status_record (status_setObject hstat) rfl⟩

theorem Proceeds.other {s s' : State} {service other : ServiceId} {p p' : Progress}
    (h : Proceeds s service p p' s') (hne : other ≠ service) :
    status s' other = status s other := by
  cases h <;> exact status_congr (by simp [State.record, State.setObject, hne])
    (by simp [State.record, State.setObject, hne])

/-! ### The invariant -/

def progressOf (registration : ℕ) (ts : List Steps.Transition) : List Progress :=
  (ts.filter (·.1.registration = registration)).map (·.2)

/-- How far the starts and stops of a registration have come. -/
def underwayOf (s : State) (registration : ℕ) : List Progress :=
  progressOf registration (transitions s)

theorem underwayOf_perm {s s' : State} {ended begun : List Steps.Transition}
    (ht : (ended ++ transitions s').Perm (begun ++ transitions s)) (registration : ℕ) :
    (progressOf registration ended ++ underwayOf s' registration).Perm
      (progressOf registration begun ++ underwayOf s registration) := by
  simpa [progressOf, underwayOf] using (ht.filter (·.1.registration = registration)).map (·.2)

theorem mem_underwayOf {s : State} {t : Steps.Transition} (h : t ∈ transitions s) :
    t.2 ∈ underwayOf s t.1.registration :=
  List.mem_map_of_mem (mem_filter.mpr ⟨h, by simp⟩)

theorem progressOf_eq_nil {registration : ℕ} {ts : List Steps.Transition}
    (h : ∀ t ∈ ts, t.1.registration ≠ registration) : progressOf registration ts = [] := by
  simp only [progressOf, map_eq_nil_iff, filter_eq_nil_iff, decide_eq_true_eq]
  exact h

/-- An entry at rest, or with one start or stop in progress. -/
inductive EntryAt (s : State) (info : RuntimeServiceInfo) : Prop
  | stopped (hstate : info.state = .stopped) (hnone : underwayOf s info.registration = [])
      (hstatus : status s info.service = some (.idle, false))
  | running (hstate : info.state = .running) (hnone : underwayOf s info.registration = [])
      (hstatus : status s info.service = some (.running, true))
  | transition {p : Progress} {x : Status} (hone : underwayOf s info.registration = [p])
      (hreached : reached p = some x) (hstatus : status s info.service = some x)
      (hstate : info.state = if p.isStart then .starting else .stopping)

structure Inv (s : State) : Prop where
  entry : ∀ name info, s.services name = some info → EntryAt s info
  /-- A service that is not registered has never been called. -/
  idle : ∀ service, (∀ name info, s.services name = some info → info.service ≠ service) →
    status s service = some (.idle, false)

section EntryAt
variable {s s' : State} {info info' : RuntimeServiceInfo}

theorem EntryAt.of_stopped (h : EntryAt s info) (hstate : info.state = .stopped) :
    underwayOf s info.registration = [] ∧ status s info.service = some (.idle, false) := by
  cases h with
  | stopped _ hnone hstat => exact ⟨hnone, hstat⟩
  | running h => rw [hstate] at h; cases h
  | transition _ _ _ h => rw [hstate] at h; split at h <;> cases h

theorem EntryAt.of_running (h : EntryAt s info) (hstate : info.state = .running) :
    underwayOf s info.registration = [] ∧ status s info.service = some (.running, true) := by
  cases h with
  | stopped h => rw [hstate] at h; cases h
  | running _ hnone hstat => exact ⟨hnone, hstat⟩
  | transition _ _ _ h => rw [hstate] at h; split at h <;> cases h

theorem EntryAt.of_mem (h : EntryAt s info) {p : Progress}
    (hmem : p ∈ underwayOf s info.registration) : underwayOf s info.registration = [p] ∧
      (∃ x, reached p = some x ∧ status s info.service = some x) ∧
        info.state = if p.isStart then .starting else .stopping := by
  cases h with
  | stopped _ hnone => rw [hnone] at hmem; cases hmem
  | running _ hnone => rw [hnone] at hmem; cases hmem
  | transition hone hreached hstat hstate =>
    rw [hone] at hmem
    obtain rfl := mem_singleton.mp hmem
    exact ⟨hone, ⟨_, hreached, hstat⟩, hstate⟩

theorem EntryAt.congr (h : EntryAt s info) (hstate : info'.state = info.state)
    (hserv : info'.service = info.service) (hreg : info'.registration = info.registration)
    (hund : (underwayOf s' info.registration).Perm (underwayOf s info.registration))
    (hstat : status s' info.service = status s info.service) : EntryAt s' info' := by
  cases h with
  | stopped hs hnone hx =>
    exact .stopped (hstate.trans hs) (hreg ▸ (hnone ▸ hund).eq_nil) (hserv ▸ hstat.trans hx)
  | running hs hnone hx =>
    exact .running (hstate.trans hs) (hreg ▸ (hnone ▸ hund).eq_nil) (hserv ▸ hstat.trans hx)
  | transition hone hreached hx hs =>
    exact .transition (hreg ▸ (hone ▸ hund).eq_singleton) hreached (hserv ▸ hstat.trans hx) (hstate.trans hs)

end EntryAt

/-! ### Steps -/

section Step
variable {cat : Catalog} {s s₁ s' : State} (hi : Inv s) (hset : Settled cat s)
  (hinv : References.Inv s) {ended begun : List Steps.Transition}
  (ht : (ended ++ transitions s').Perm (begun ++ transitions s))

include hi ht in
theorem Inv.same (hservs : s'.services = s.services) (hstat : ∀ service, status s' service = status s service)
    (hended : ended = []) (hbegun : begun = []) : Inv s' := by
  subst hended hbegun
  refine ⟨fun name info hinfo => ?_, fun service h => ?_⟩
  · exact (hi.entry name info (hservs ▸ hinfo)).congr rfl rfl rfl
      (by simpa [progressOf] using underwayOf_perm ht info.registration) (hstat _)
  · exact (hstat service).trans (hi.idle service (hservs ▸ h))

include hi hset hinv ht in
theorem Inv.at {name : ServiceName} {info info' : RuntimeServiceInfo}
    (hinfo : s.services name = some info) (hinfo' : s'.services name = some info')
    (hservs : ∀ other, other ≠ name → s'.services other = s.services other)
    (hserv : info'.service = info.service)
    (hstat : ∀ service, service ≠ info.service → status s' service = status s service)
    (htrans : ∀ t ∈ ended ++ begun, t.1.registration = info.registration)
    (hent : EntryAt s' info') : Inv s' := by
  refine ⟨fun name₁ info₁ hinfo₁ => ?_, fun service h => ?_⟩
  · by_cases hne : name₁ = name
    · subst hne
      obtain rfl : info' = info₁ := some.inj (hinfo'.symm.trans hinfo₁)
      exact hent
    · rw [hservs _ hne] at hinfo₁
      have hreg : info.registration ≠ info₁.registration := fun heq =>
        hne (hinv.unique _ _ _ _ hinfo₁ hinfo heq.symm)
      have hoth : info₁.service ≠ info.service := by
        intro heq
        apply hne
        rw [← hset.named _ _ hinfo₁, heq, hset.named _ _ hinfo]
      have hperm := underwayOf_perm ht info₁.registration
      rw [progressOf_eq_nil fun t h => htrans t (mem_append_left _ h) ▸ hreg,
        progressOf_eq_nil fun t h => htrans t (mem_append_right _ h) ▸ hreg] at hperm
      exact (hi.entry _ _ hinfo₁).congr rfl rfl rfl hperm (hstat _ hoth)
  · have hne : service ≠ info.service := fun heq => h name info' hinfo' (hserv.trans heq.symm)
    refine (hstat service hne).trans (hi.idle service fun name₁ info₁ hinfo₁ => ?_)
    by_cases heq : name₁ = name
    · subst heq
      obtain rfl : info = info₁ := some.inj (hinfo.symm.trans hinfo₁)
      exact hne.symm
    · exact h name₁ info₁ ((hservs _ heq).trans hinfo₁)

include hi hset hinv ht in
theorem Inv.setInfo {name : ServiceName} {info info' : RuntimeServiceInfo}
    (hservs : s'.services = Function.update s.services name (some info'))
    (hinfo : s.services name = some info) (hserv : info'.service = info.service)
    (hstat : ∀ service, status s' service = status s service)
    (htrans : ∀ t ∈ ended ++ begun, t.1.registration = info.registration)
    (hent : EntryAt s' info') : Inv s' :=
  hi.at hset hinv ht hinfo (hservs ▸ Function.update_self name (some info') s.services)
    (fun _ hne => hservs ▸ Function.update_of_ne hne (some info') s.services) hserv
    (fun service _ => hstat service) htrans hent

include hset hinv in
theorem running_of_reference {reference : Reference} (h : reference ∈ references s) :
    ∃ info, s.services reference.name = some info ∧ info.service = reference.service ∧
      info.registration = reference.registration ∧ info.state = .running := by
  obtain ⟨info, hinfo, hserv, hreg⟩ := hset.resolved (.inl h)
  refine ⟨info, hinfo, hserv, hreg, ?_⟩
  have hpos : 0 < unreleased s info.registration :=
    countP_pos_iff.mpr ⟨reference, h, by simp [hreg]⟩
  have he := hinv.entry _ info hinfo
  unfold EntryOk at he
  split at he
  · omega
  · omega
  · omega
  · next hstate => exact hstate

include hi hset hinv ht in
theorem Inv.change {top : Option Frame} {gone come : List Reference} (htop : ∀ frame ∈ top, FrameOk cat s frame)
    (hr : (gone ++ references s').Perm (come ++ references s))
    (hc : Change cat s top s₁ gone come ended begun) (hagree : Agrees s₁ s') : Inv s' := by
  have hstat : ∀ service, status s' service = status s₁ service := fun service =>
    status_congr (by rw [hagree.log]) (by rw [hagree.objects])
  have hperm := fun r => underwayOf_perm ht r
  -- the entry of a start or stop that ends, and how far it says that has come
  have hended : ∀ t ∈ ended, t ∉ begun → ∃ info, s.services t.1.name = some info ∧
      info.service = t.1.service ∧ info.registration = t.1.registration ∧ underwayOf s t.1.registration = [t.2] ∧
          (∃ x, reached t.2 = some x ∧ status s info.service = some x) ∧
            info.state = if t.2.isStart then .starting else .stopping := by
    intro t hmem hnot
    have hold : t ∈ transitions s := by
      have := ht.mem_iff.mp (mem_append_left _ hmem)
      exact (mem_append.mp this).resolve_left hnot
    obtain ⟨info, hinfo, hserv, hreg⟩ := hset.resolved (.inr ⟨t, hold, rfl⟩)
    exact ⟨info, hinfo, hserv, hreg, hreg ▸ (hi.entry _ _ hinfo).of_mem (hreg ▸ mem_underwayOf hold)⟩
  -- the entry that the last binding is given back to
  have hlast : ∀ reference ∈ gone, reference ∉ come → ∀ info,
      s.services reference.name = some info → info.registration = reference.registration ∧
        underwayOf s reference.registration = [] ∧ status s info.service = some (.running, true) := by
    intro reference hmem hnot info hinfo
    have hold : reference ∈ references s := by
      have := hr.mem_iff.mp (mem_append_left _ hmem)
      exact (mem_append.mp this).resolve_left hnot
    obtain ⟨info', hinfo', -, hreg, hstate⟩ := running_of_reference hset hinv hold
    obtain rfl : info' = info := some.inj (hinfo'.symm.trans hinfo)
    exact ⟨hreg, hreg ▸ (hi.entry _ _ hinfo).of_running hstate⟩
  cases hc with
  | quiet h =>
    exact hi.same ht (hagree.services.trans h.services) (fun service =>
      (hstat service).trans (status_congr (by rw [h.log]) (by rw [h.objects]))) rfl rfl
  | @mark name info hinfo hstate =>
    obtain ⟨hnone, hidle⟩ := (hi.entry _ _ hinfo).of_stopped hstate
    have hone : underwayOf s' info.registration = [.marked] := by
      simpa [progressOf, hnone] using hperm info.registration
    exact hi.setInfo hset hinv ht hagree.services hinfo rfl hstat (by simp)
      (.transition hone rfl ((hstat _).trans hidle) rfl)
  | @share name info hinfo hstate =>
    exact hi.setInfo hset hinv ht hagree.services hinfo rfl hstat (by simp) ((hi.entry _ _ hinfo).congr rfl rfl rfl
        (by simpa [progressOf] using hperm info.registration) (hstat _))
  | @proceed reference p p' _ hp =>
    obtain ⟨info, hinfo, hserv, hreg, hone, ⟨x, hx, hs⟩, hstate⟩ :=
      hended (reference, p) (by simp) (by simp [hp.ne])
    have hservs : s'.services = s.services := by
      rw [hagree.services]
      cases hp <;> rfl
    have hstart : p'.isStart = p.isStart := by cases hp <;> rfl
    rw [hserv] at hs
    obtain ⟨x', hx', hs'⟩ := Proceeds.reached hp hx hs
    refine hi.at hset hinv ht hinfo (hservs ▸ hinfo) (fun _ _ => by rw [hservs]) rfl
      (fun service hne => (hstat service).trans (Proceeds.other hp (hserv ▸ hne)))
      (by simp [hreg]) ?_
    have hone' : underwayOf s' info.registration = [p'] := by
      have hboth : (p :: underwayOf s' reference.registration).Perm [p', p] := by
        simpa [progressOf, hone] using hperm reference.registration
      simpa [hreg] using hboth.trans (.swap p p' [])
    exact .transition hone' hx' (hserv ▸ (hstat _).trans hs') (hstart ▸ hstate)
  | @finish reference bound info htop hinfo =>
    obtain ⟨info', hinfo', -, hreg, hone, ⟨x, hx, hs⟩, -⟩ :=
      hended (reference, .started true) (by simp) (by simp)
    obtain rfl : info' = info := some.inj (hinfo'.symm.trans hinfo)
    cases hx
    have hnone : underwayOf s' info'.registration = [] := by
      simpa [progressOf, hone, hreg] using hperm info'.registration
    exact hi.setInfo hset hinv ht hagree.services hinfo rfl hstat (by simp [hreg])
      (.running rfl hnone ((hstat _).trans hs))
  | @fail reference bound info htop hinfo =>
    obtain ⟨info', hinfo', -, hreg, hone, ⟨x, hx, hs⟩, -⟩ :=
      hended (reference, .started false) (by simp) (by simp)
    obtain rfl : info' = info := some.inj (hinfo'.symm.trans hinfo)
    cases hx
    have hnone : underwayOf s' info'.registration = [] := by
      simpa [progressOf, hone, hreg] using hperm info'.registration
    exact hi.setInfo hset hinv ht hagree.services hinfo rfl hstat (by simp [hreg])
      (.stopped rfl hnone ((hstat _).trans hs))
  | lost reference ok hinfo =>
    obtain ⟨info, hinfo', -⟩ := hended (reference, .started ok) (by simp) (by simp)
    rw [hinfo] at hinfo'
    cases hinfo'
  | skip => exact hi.same ht hagree.services hstat rfl rfl
  | miss => exact hi.same ht hagree.services hstat rfl rfl
  | @unbind reference rest info htop hinfo hcnt =>
    exact hi.setInfo hset hinv ht hagree.services hinfo rfl hstat (by simp) ((hi.entry _ _ hinfo).congr rfl rfl rfl
        (by simpa [progressOf] using hperm info.registration) (hstat _))
  | @last reference rest info htop hinfo hcnt hrun =>
    obtain ⟨hreg, hnone, hs⟩ := hlast reference (by simp) (by simp) info hinfo
    have hone : underwayOf s' info.registration = [.stopMarked] := by
      simpa [progressOf, hnone, hreg] using hperm info.registration
    exact hi.setInfo hset hinv ht hagree.services hinfo rfl hstat (by simp [hreg])
      (.transition hone rfl ((hstat _).trans hs) rfl)
  | @lastIdle reference rest info htop hinfo hcnt hrun =>
    obtain ⟨-, -, hs⟩ := hlast reference (by simp) (by simp) info hinfo
    rw [(status_eq_some.mp hs).2] at hrun
    cases hrun
  | @stopped reference info hinfo hstate =>
    obtain ⟨info', hinfo', -, hreg, hone, ⟨x, hx, hs⟩, -⟩ :=
      hended (reference, .stopped) (by simp) (by simp)
    obtain rfl : info' = info := some.inj (hinfo'.symm.trans hinfo)
    cases hx
    have hnone : underwayOf s' info'.registration = [] := by
      simpa [progressOf, hone, hreg] using hperm info'.registration
    exact hi.setInfo hset hinv ht hagree.services hinfo rfl hstat (by simp [hreg])
      (.stopped rfl hnone ((hstat _).trans hs))
  | overtaken reference h =>
    obtain ⟨info, hinfo, -, -, -, -, hstate⟩ := hended (reference, .stopped) (by simp) (by simp)
    exact absurd hstate (h info hinfo)
  | @register service hnone =>
    have hfresh : underwayOf s' s.nextRegistration = [] := by
      have hnil : underwayOf s s.nextRegistration = [] :=
        progressOf_eq_nil fun t h => Nat.ne_of_lt (hinv.transitions t h).lt
      simpa [progressOf, hnil] using hperm s.nextRegistration
    have hidle : status s service = some (.idle, false) := hi.idle service fun name info hinfo heq => by
      rw [← heq, hset.named _ _ hinfo, hinfo] at hnone
      cases hnone
    refine ⟨fun name info hinfo => ?_, fun other h => ?_⟩
    · rw [hagree.services] at hinfo
      by_cases hne : name = (cat service).name
      · subst hne
        cases (Function.update_self ..).symm.trans hinfo
        exact .stopped rfl hfresh ((hstat _).trans hidle)
      · exact (hi.entry _ _ ((Function.update_of_ne hne ..).symm.trans hinfo)).congr rfl rfl rfl
          (by simpa [progressOf] using hperm info.registration) (hstat _)
    · refine (hstat other).trans (hi.idle other fun name info hinfo => h name info ?_)
      have hne : name ≠ (cat service).name := by
        rintro rfl
        rw [hnone] at hinfo
        cases hinfo
      rw [hagree.services]
      exact (Function.update_of_ne hne ..).trans hinfo
  | erase h => exact (htop _ h).stage.elim
  | unset h => exact (htop _ h).stage.elim
  | @prepare service c ok b next hc h =>
    refine hi.same ht hagree.services (fun other => (hstat other).trans ?_) rfl rfl
    have hrun : b.isRunning = (s.objects service).isRunning := by
      rcases (htop _ hc).stage with rfl | rfl <;> simp only [callStep] at h
      · split at h
        · cases h
        · split at h
          · cases h; rfl
          · split at h <;> cases h <;> rfl
      · cases h; rfl
    by_cases hne : other = service
    · subst hne
      exact status_congr rfl (by simp [State.setObject, hrun])
    · exact status_congr rfl (by simp [State.setObject, hne])
  | @foreign frame s' h hforeign =>
    have hstg := (htop _ h).stage
    unfold foreign at hforeign
    split at hforeign <;> first | exact hstg.elim | cases hforeign

end Step

/-! ### Runs -/

theorem lifecycle_inductive (cat : Catalog) : (serviceManager cat).Inductive NoRemoval
    fun s => (Settled cat s ∧ References.Inv s) ∧ Inv s :=
  (settled_inductive cat).and (by
      rintro s ⟨bindings, threads, rfl⟩
      exact ⟨by simp [State.initial], fun _ _ => rfl⟩)
    (by
      intro s a s' hs hi hno h
      obtain ⟨s₁, gone, come, ended, begun, hc, hagree, hr, ht⟩ := step_change h
      exact hi.change hs.1 hs.2 ht hs.1.top hr hc hagree)

theorem Inv.phase {s : State} (hi : Inv s) (service : ServiceId) : ∃ phase, phaseOf (s.log service) = some phase := by
  have hsome : ∃ x, status s service = some x := by
    by_cases h : ∀ name info, s.services name = some info → info.service ≠ service
    · exact ⟨_, hi.idle service h⟩
    · push Not at h
      obtain ⟨name, info, hinfo, rfl⟩ := h
      cases hi.entry _ _ hinfo with
      | stopped _ _ hs => exact ⟨_, hs⟩
      | running _ _ hs => exact ⟨_, hs⟩
      | transition _ _ hs => exact ⟨_, hs⟩
  obtain ⟨⟨phase, running⟩, hs⟩ := hsome
  exact ⟨phase, (status_eq_some.mp hs).1⟩

/-- **Starts and stops are serialized.** The calls of a service never overlap and come in their order:
a `stop` follows a `start` that has succeeded, and such a start is followed by a stop before the next;
while a binding is held nothing has been called since the start; and the state of a service that is not
in transition is the one of its count. -/
theorem calls_serialized {cat : Catalog} {s : State} (hs : (serviceManager cat).Reach NoRemoval s) :
    (∀ service, phaseOf (s.log service) ≠ none ∧ ((s.log service).filter Event.takesEffect).IsChain (· ≠ ·)) ∧
    (∀ reference ∈ references s, (s.log reference.service).getLast? = some (.started true)) ∧
    ∀ name info, s.services name = some info → (∀ t ∈ transitions s, t.1.registration ≠ info.registration) →
        (info.state = .running ↔ 0 < info.refCount) ∧ (info.state = .stopped ↔ info.refCount = 0) := by
  obtain ⟨⟨hset, hinv⟩, hi⟩ := (lifecycle_inductive cat).reach hs
  refine ⟨fun service => ?_, fun reference h => ?_, fun name info hinfo hrest => ?_⟩
  · obtain ⟨phase, hph⟩ := hi.phase service
    exact ⟨by simp [hph], (phaseOf_alternate hph).1⟩
  · obtain ⟨info, hinfo, hserv, -, hstate⟩ := running_of_reference hset hinv h
    have hstat := ((hi.entry _ _ hinfo).of_running hstate).2
    exact hserv ▸ phaseOf_running (status_eq_some.mp hstat).1
  · have hok := hinv.entry _ _ hinfo
    cases hi.entry _ _ hinfo with
    | stopped hstate =>
      simp only [EntryOk, hstate] at hok
      simp [hstate, hok.1]
    | running hstate =>
      simp only [EntryOk, hstate] at hok
      obtain ⟨hcnt, hpos, -⟩ := hok
      simp only [hstate, reduceCtorEq, false_iff, true_iff]
      omega
    | transition hone =>
      rw [underwayOf, progressOf_eq_nil hrest] at hone
      cases hone

def reboundRun : List Action :=
  callRun (.init [] []) 4 ++ callRun (.add 0) 5 ++ callRun (.bind 0 "x") 9 ++ callRun (.release 0) 8 ++
    callRun (.bind 0 "x") 9

theorem calls_serialized_reboundRun : ∃ (s : State) (info : RuntimeServiceInfo),
    s.services "x" = some info ∧ (s.log 0).length = 6 ∧ phaseOf (s.log 0) ≠ none ∧
      (s.log 0).getLast? = some (.started true) ∧ (info.state = .running ↔ 0 < info.refCount) := by
  have hrun : ∃ s, (serviceManager fun _ => { name := "x" }).execWhen NoRemoval (State.initial 1 1)
      reboundRun = some s ∧ s.services "x" = some ⟨1, 0, .running, 0⟩ ∧ (s.log 0).length = 6 ∧
        references s = [⟨"x", 0, 0⟩] ∧ transitions s = [] := by decide
  obtain ⟨s, hs, hinfo, hlen, hrefs, htrans⟩ := hrun
  obtain ⟨hph, hlast, hrest⟩ :=
    calls_serialized (.execWhen (.init ⟨1, 1, rfl⟩) hs)
  exact ⟨s, _, hinfo, hlen, (hph 0).1, hlast ⟨"x", 0, 0⟩ (by simp [hrefs]), (hrest "x" _ hinfo (by simp [htrans])).1⟩

def restartedRun : List Action :=
  callRun (.init [] []) 4 ++ callRun (.add 0) 5 ++ callRun (.bind 0 "x") 6 ++ [.advance 0 false] ++
    List.replicate 4 (.advance 0 true) ++ callRun (.bind 0 "x") 9

theorem restartedRun_starts_twice : ¬ ∀ (cat : Catalog) (s : State), (serviceManager cat).Reach NoRemoval s →
      ∀ service, ((s.log service).filter Event.isCall).IsChain (· ≠ ·) := by
  intro h
  have hrun : ∃ s, (serviceManager fun _ => { name := "x" }).execWhen NoRemoval (State.initial 1 1)
      restartedRun = some s ∧ (s.log 0).filter Event.isCall = [.start, .start] := by decide
  obtain ⟨s, hs, hcs⟩ := hrun
  have hchain := h _ s (.execWhen (.init ⟨1, 1, rfl⟩) hs) 0
  rw [hcs] at hchain
  simp at hchain

end Brookesia.ServiceManager.Lifecycle
