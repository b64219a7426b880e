import Brookesia.SystemCore.TimerTasks

/-! # What the timers of an app deliver

The task of a timer reads the id of the timer from a holder that the start writes after it has armed the
task, and a dispatch tests its timer and calls `on_timer` in two steps. `InOrder` are the runs where
neither matters and no post fails.

* `weight`: a delayed timer is armed, or on its way in a dispatch, or has been called, and only one of
  these.
* `timers_delivered`: under `InOrder` every timer does what the docs of the timers say. -/

namespace Brookesia.SystemCore.TimerDelivery

open Transition TimerTasks List Option
open MessageDialogs (AppId)

/-- The timer may still be called: it will fire, or a dispatch of it is queued or running. -/
def Outstanding (s : State) (t : Timer) : Prop := t.id ∈ s.armed ∨ ∃ d ∈ s.dispatches, d.timer = t

/-- What has been done was right. -/
structure Legal (history : List Event) : Prop where
  posted : ∀ t timerId, .posted t timerId ∈ history → timerId = t.id
  postsSucceed : ∀ t, .notPosted t ∉ history
  skipped : ∀ t dispatches, .skipped t dispatches ∈ history → ⟨t, t.id⟩ ∈ dispatches
  onTimer : ∀ app timerId later earlier, history = later ++ .onTimer app timerId :: earlier →
    (∃ t, .started t ∈ earlier ∧ t.app = app ∧ t.id = timerId) ∧ .stopped app timerId ∉ earlier

/-- Every timer has been served: a delayed timer that has been started, is not stopped and has nothing
more to come has been called once and is over; each firing of a periodic timer has posted its dispatch or
found it pending; and each call was for a timer that was started and not stopped. -/
structure Delivered (s : State) : Prop where
  once : ∀ t, .started t ∈ s.history → t.periodic = false → s.history.count (.onTimer t.app t.id) ≤ 1
  delivered : ∀ t, .started t ∈ s.history → t.periodic = false → .stopped t.app t.id ∉ s.history →
    ¬ Outstanding s t → s.history.count (.onTimer t.app t.id) = 1 ∧ t ∉ s.timers
  legal : Legal s.history

/-- A task fires after the holder of its id is written, posts succeed, and a timer is not stopped between
the test of its dispatch and the call. -/
def InOrder (s : State) : Action → Prop
  | .fire timer posted => s.holder timer.id = timer.id ∧ (timer.periodic = false → posted = true)
  | .postPeriodic posted => posted = true
  | .callOnTimer => ∀ d, s.running = some (d, .checked) → s.isRegistered d.timer.app d.timerId = true
  | _ => True

/-! ### The invariant -/

def aboutToCall (s : State) (t : Timer) : ℕ :=
  match s.running with
  | some (d, .checked) => if d.timer = t then 1 else 0
  | _ => 0

def weight (s : State) (t : Timer) : ℕ :=
  s.armed.count t.id + s.queue.countP (·.timer = t) + aboutToCall s t + s.history.count (.onTimer t.app t.id)

/-- The dispatch of a task that has found its own id in the holder. -/
def Genuine (s : State) (d : Dispatch) : Prop := d.timer ∈ s.tasks ∧ d.timerId = d.timer.id

structure Inv (s : State) : Prop where
  fresh : ∀ t ∈ s.tasks, t.id < s.nextTimerId
  unique : ∀ t ∈ s.tasks, ∀ t' ∈ s.tasks, t.id = t'.id → t = t'
  armed : ∀ id ∈ s.armed, id < s.nextTimerId
  started : ∀ t, .started t ∈ s.history → t ∈ s.tasks
  stopped : ∀ app id, .stopped app id ∈ s.history → ∃ t, .started t ∈ s.history ∧ t.app = app ∧ t.id = id
  starting : ∀ t p, s.starting = some (t, p) → t ∈ s.tasks ∧ .started t ∉ s.history
  registered : ∀ t ∈ s.timers, .started t ∈ s.history ∧ .stopped t.app t.id ∉ s.history
  firing : ∀ t, s.firing = some t → t ∈ s.tasks ∧ t.periodic = true ∧ s.holder t.id = t.id
  queue : ∀ d ∈ s.queue, Genuine s d
  running : ∀ d p, s.running = some (d, p) → Genuine s d
  called : ∀ app id, .onTimer app id ∈ s.history → id < s.nextTimerId
  callMade : ∀ d, s.running = some (d, .called) → .onTimer d.timer.app d.timerId ∈ s.history
  weightLe : ∀ t ∈ s.tasks, t.periodic = false → weight s t ≤ 1
  weightEq : ∀ t ∈ s.tasks, t.periodic = false → .stopped t.app t.id ∉ s.history → weight s t = 1
  live : ∀ t ∈ s.tasks, t.periodic = false → .stopped t.app t.id ∉ s.history →
    .onTimer t.app t.id ∉ s.history → t ∈ s.timers ∨ ∃ p, s.starting = some (t, p)
  gone : ∀ t ∈ s.timers, t.periodic = false → .onTimer t.app t.id ∈ s.history →
    ∃ d, s.running = some (d, .called) ∧ d.timer = t
  pending : ∀ e ∈ s.pendingTimers, (∃ d ∈ s.dispatches, d.timer.periodic = true ∧
    (d.timer.app, d.timerId) = e) ∨ ∃ t, s.firing = some t ∧ (t.app, t.id) = e
  legal : Legal s.history

variable {s s' : State} {t : Timer} {d : Dispatch}

theorem exists_registered {app : AppId} {id : TimerId}
    (hr : s.isRegistered app id = true) : ∃ t ∈ s.timers, t.app = app ∧ t.id = id := by
  unfold State.isRegistered at hr
  obtain ⟨t, ht, heq⟩ := List.any_eq_true.mp hr
  exact ⟨t, ht, of_decide_eq_true heq⟩

theorem Inv.mem_tasks (h : Inv s) (ht : t ∈ s.timers) : t ∈ s.tasks := h.started t (h.registered t ht).1

theorem Inv.delivered (h : Inv s) : Delivered s where
  once t ht hp := by
    have hw := h.weightLe t (h.started t ht) hp
    unfold weight at hw
    omega
  delivered t ht hp hstop hout := by
    have hmem := h.started t ht
    have hw := h.weightEq t hmem hp hstop
    have harmed : s.armed.count t.id = 0 := by
      rw [count_eq_zero]
      exact fun hid => hout (.inl hid)
    have hque : s.queue.countP (·.timer = t) = 0 := by
      rw [countP_eq_zero]
      intro d hd heq
      exact hout (.inr ⟨d, mem_append_left _ hd, of_decide_eq_true heq⟩)
    have hrun : ∀ d p, s.running = some (d, p) → d.timer ≠ t := by
      intro d p hd heq
      exact hout (.inr ⟨d, mem_append_right _ (by simp [hd]), heq⟩)
    have habout : aboutToCall s t = 0 := by
      unfold aboutToCall
      split
      · next d hd => exact if_neg (hrun d _ hd)
      · rfl
    have hcnt : s.history.count (.onTimer t.app t.id) = 1 := by
      unfold weight at hw
      omega
    refine ⟨hcnt, fun hreg => ?_⟩
    have hcald : .onTimer t.app t.id ∈ s.history := count_pos_iff.mp (by omega)
    obtain ⟨d, hd, heq⟩ := h.gone t hreg hp hcald
    exact hrun d _ hd heq
  legal := h.legal

/-! ### History -/

theorem Legal.cons {history : List Event} {e : Event} (h : Legal history)
    (hposted : ∀ t timerId, e = .posted t timerId → timerId = t.id) (hpost : ∀ t, e ≠ .notPosted t)
    (hskip : ∀ t dispatches, e = .skipped t dispatches → ⟨t, t.id⟩ ∈ dispatches)
    (hcall : ∀ app timerId, e = .onTimer app timerId →
      (∃ t, .started t ∈ history ∧ t.app = app ∧ t.id = timerId) ∧ .stopped app timerId ∉ history) :
    Legal (e :: history) where
  posted t timerId hmem := by
    rcases mem_cons.mp hmem with he | hmem
    · exact hposted t timerId he.symm
    · exact h.posted t timerId hmem
  postsSucceed t hmem := by
    rcases mem_cons.mp hmem with he | hmem
    · exact hpost t he.symm
    · exact h.postsSucceed t hmem
  skipped t dispatches hmem := by
    rcases mem_cons.mp hmem with he | hmem
    · exact hskip t dispatches he.symm
    · exact h.skipped t dispatches hmem
  onTimer app timerId later earlier heq := by
    cases later with
    | nil =>
      obtain ⟨he, rfl⟩ := cons.inj heq
      exact hcall app timerId he
    | cons e' later => exact h.onTimer app timerId later earlier (cons.inj heq).2

/-! ### The steps keep it -/

theorem Inv.started_of_called (h : Inv s) {app : AppId} {id : TimerId}
    (hmem : .onTimer app id ∈ s.history) : ∃ t, .started t ∈ s.history ∧ t.app = app ∧ t.id = id := by
  obtain ⟨later, earlier, heq⟩ := append_of_mem hmem
  obtain ⟨⟨t, ht, happ, hid⟩, _⟩ := h.legal.onTimer app id later earlier heq
  exact ⟨t, by rw [heq]; exact mem_append_right _ (mem_cons_of_mem _ ht), happ, hid⟩

theorem Inv.genuine_timer (h : Inv s) (hd : Genuine s d) (ht : t ∈ s.tasks) (hid : t.id = d.timerId) : t = d.timer :=
  h.unique t ht d.timer hd.1 (hid.trans hd.2)

theorem Genuine.mono (hd : Genuine s d) (h : ∀ t ∈ s.tasks, t ∈ s'.tasks) : Genuine s' d :=
  ⟨h _ hd.1, hd.2⟩

theorem Inv.arm (h : Inv s) (hs : s.starting = none) (app : AppId) (periodic : Bool) : Inv (s.arm app periodic) := by
  have hnew : ∀ t ∈ s.tasks, t.id ≠ s.nextTimerId := fun t ht => (h.fresh t ht).ne
  have hold : ∀ t ∈ s.tasks, weight (s.arm app periodic) t = weight s t := by
    intro t ht
    show (s.nextTimerId :: s.armed).count t.id + _ + aboutToCall s t + _ = _
    rw [count_cons_of_ne (hnew t ht).symm]
    rfl
  have hself : weight (s.arm app periodic) ⟨s.nextTimerId, app, periodic⟩ = 1 := by
    have harmed : s.armed.count s.nextTimerId = 0 :=
      count_eq_zero.mpr fun hid => lt_irrefl _ (h.armed _ hid)
    have hsil : s.history.count (.onTimer app s.nextTimerId) = 0 :=
      count_eq_zero.mpr fun hmem => lt_irrefl _ (h.called _ _ hmem)
    have hque : s.queue.countP (·.timer = ⟨s.nextTimerId, app, periodic⟩) = 0 := by
      rw [countP_eq_zero]
      intro d hd heq
      exact hnew _ (h.queue d hd).1 (congrArg Timer.id (of_decide_eq_true heq))
    have habout : aboutToCall s ⟨s.nextTimerId, app, periodic⟩ = 0 := by
      unfold aboutToCall
      split
      · next d hd =>
        exact if_neg fun heq => hnew _ (h.running d _ hd).1 (congrArg Timer.id heq)
      · rfl
    show (s.nextTimerId :: s.armed).count s.nextTimerId + s.queue.countP _ + aboutToCall s _ +
      s.history.count (.onTimer app s.nextTimerId) = 1
    rw [count_cons_self, harmed, hque, habout, hsil]
  refine { h with
    fresh := fun t ht => ?_
    unique := fun t ht t' ht' hid => ?_
    armed := fun id hid => ?_
    started := fun t ht => mem_cons_of_mem _ (h.started t ht)
    starting := fun t p ht => ?_
    firing := fun t ht => ⟨mem_cons_of_mem _ (h.firing t ht).1, (h.firing t ht).2⟩
    queue := fun d hd => (h.queue d hd).mono fun t ht => mem_cons_of_mem _ ht
    running := fun d p hd => (h.running d p hd).mono fun t ht => mem_cons_of_mem _ ht
    called := fun app id hmem => (h.called app id hmem).trans (Nat.lt_succ_self _)
    weightLe := fun t ht hp => ?_
    weightEq := fun t ht hp hstop => ?_
    live := fun t ht hp hstop hcall => ?_ }
  · rcases mem_cons.mp ht with rfl | ht
    · exact Nat.lt_succ_self _
    · exact (h.fresh t ht).trans (Nat.lt_succ_self _)
  · rcases mem_cons.mp ht with rfl | ht
    · rcases mem_cons.mp ht' with rfl | ht'
      · rfl
      · exact absurd hid.symm (hnew t' ht')
    · rcases mem_cons.mp ht' with rfl | ht'
      · exact absurd hid (hnew t ht)
      · exact h.unique t ht t' ht' hid
  · rcases mem_cons.mp hid with rfl | hid
    · exact Nat.lt_succ_self _
    · exact (h.armed id hid).trans (Nat.lt_succ_self _)
  · cases ht
    exact ⟨mem_cons_self, fun hmem => hnew _ (h.started _ hmem) rfl⟩
  · rcases mem_cons.mp ht with rfl | ht
    · exact hself.le
    · rw [hold t ht]
      exact h.weightLe t ht hp
  · rcases mem_cons.mp ht with rfl | ht
    · exact hself
    · rw [hold t ht]
      exact h.weightEq t ht hp hstop
  · rcases mem_cons.mp ht with rfl | ht
    · exact .inr ⟨_, rfl⟩
    · rcases h.live t ht hp hstop hcall with hreg | ⟨p, hp⟩
      · exact .inl hreg
      · rw [hs] at hp
        cases hp

theorem Inv.writeHolder (h : Inv s) (hs : s.starting = some (t, .armed)) : Inv (s.writeHolder t) := by
  refine { h with
    starting := fun t' p ht' => ?_
    firing := fun t' ht' => ⟨(h.firing t' ht').1, (h.firing t' ht').2.1, ?_⟩
    live := fun t' ht' hp hstop hcall => ?_ }
  · cases ht'
    exact h.starting t _ hs
  · show Function.update s.holder t.id t.id t'.id = t'.id
    rw [Function.update_apply]
    split_ifs with hid
    · exact hid.symm
    · exact (h.firing t' ht').2.2
  · rcases h.live t' ht' hp hstop hcall with hreg | ⟨p, hp⟩
    · exact .inl hreg
    · rw [hs] at hp
      obtain ⟨rfl, _⟩ := Prod.mk.inj (some.inj hp)
      exact .inr ⟨_, rfl⟩

@[simp] theorem register_history : (s.register t).history = .started t :: s.history := rfl

theorem Inv.register (h : Inv s) (hs : s.starting = some (t, .holderWritten)) : Inv (s.register t) := by
  obtain ⟨htask, hnot⟩ := h.starting t _ hs
  have hsame : ∀ t', .started t' ∈ s.history → t'.id ≠ t.id := fun t' ht' hid =>
    hnot (h.unique t' (h.started t' ht') t htask hid ▸ ht')
  have hwt : ∀ t', weight (s.register t) t' = weight s t' := by
    intro t'
    show _ + _ + aboutToCall s t' + (Event.started t :: s.history).count _ = _
    rw [count_cons_of_ne (by simp)]
    rfl
  refine { h with
    started := fun t' ht' => ?_
    stopped := fun app id hmem => ?_
    starting := fun t' p ht' => by cases ht'
    registered := fun t' ht' => ?_
    called := fun app id hmem => h.called app id (by simpa using hmem)
    callMade := fun d hd => mem_cons_of_mem _ (h.callMade d hd)
    weightLe := fun t' ht' hp => by rw [hwt]; exact h.weightLe t' ht' hp
    weightEq := fun t' ht' hp hstop => by
      rw [hwt]
      exact h.weightEq t' ht' hp fun hmem => hstop (mem_cons_of_mem _ hmem)
    live := fun t' ht' hp hstop hcall => ?_
    gone := fun t' ht' hp hcall => ?_
    legal := h.legal.cons (by simp) (by simp) (by simp) (by simp) }
  · rcases mem_cons.mp ht' with heq | ht'
    · cases heq
      exact htask
    · exact h.started t' ht'
  · obtain ⟨t', ht', heq⟩ := h.stopped app id (by simpa using hmem)
    exact ⟨t', mem_cons_of_mem _ ht', heq⟩
  · rcases mem_cons.mp ht' with rfl | ht'
    · refine ⟨mem_cons_self, fun hmem => ?_⟩
      obtain ⟨t'', ht'', _, hid⟩ := h.stopped t'.app t'.id (by simpa using hmem)
      exact hsame t'' ht'' hid
    · obtain ⟨hstd, hstop⟩ := h.registered t' ht'
      exact ⟨mem_cons_of_mem _ hstd, by simpa using hstop⟩
  · rcases h.live t' ht' hp (fun hmem => hstop (mem_cons_of_mem _ hmem))
      (fun hmem => hcall (mem_cons_of_mem _ hmem)) with hreg | ⟨p, hp⟩
    · exact .inl (mem_cons_of_mem _ hreg)
    · rw [hs] at hp
      obtain ⟨rfl, _⟩ := Prod.mk.inj (some.inj hp)
      exact .inl mem_cons_self
  · have hcall' : .onTimer t'.app t'.id ∈ s.history := by simpa using hcall
    rcases mem_cons.mp ht' with rfl | ht'
    · obtain ⟨t'', ht'', _, hid⟩ := h.started_of_called hcall'
      exact absurd hid (hsame t'' ht'')
    · exact h.gone t' ht' hp hcall'

theorem Inv.fireDelayed (h : Inv s) (ht : t ∈ s.tasks) (harmed : t.id ∈ s.armed)
    (hp : t.periodic = false) (hhol : s.holder t.id = t.id) : Inv (s.fireDelayed t true) := by
  have hwt : ∀ t' ∈ s.tasks, weight (s.fireDelayed t true) t' = weight s t' := by
    intro t' ht'
    have hpos : 0 < s.armed.count t.id := count_pos_iff.mpr harmed
    show (s.armed.erase t.id).count t'.id +
      (s.queue ++ [(⟨t, s.holder t.id⟩ : Dispatch)]).countP (·.timer = t') + aboutToCall s t' + _ = _
    rw [countP_append, countP_singleton]
    unfold weight
    by_cases heq : t = t'
    · subst heq
      rw [count_erase_self, if_pos (by simp)]
      show _ + _ + _ + s.history.count _ = _
      omega
    · have hid : t'.id ≠ t.id := fun hid => heq (h.unique t ht t' ht' hid.symm)
      rw [count_erase_of_ne hid, if_neg (by simpa using heq)]
      rfl
  refine { h with
    armed := fun id hid => h.armed id (mem_of_mem_erase hid)
    queue := fun d hd => ?_
    weightLe := fun t' ht' hp' => by rw [hwt t' ht']; exact h.weightLe t' ht' hp'
    weightEq := fun t' ht' hp' hstop => by rw [hwt t' ht']; exact h.weightEq t' ht' hp' hstop
    pending := fun e he => ?_ }
  · rcases mem_append.mp hd with hd | hd
    · exact h.queue d hd
    · rw [mem_singleton.mp hd]
      exact ⟨ht, hhol⟩
  · rcases h.pending e he with ⟨d, hd, hdp, heq⟩ | hfir
    · refine .inl ⟨d, ?_, hdp, heq⟩
      rcases mem_append.mp hd with hd | hd
      · exact mem_append_left _ (mem_append_left _ hd)
      · exact mem_append_right _ hd
    · exact .inr hfir

theorem mem_dispatches : d ∈ s.dispatches ↔ d ∈ s.queue ∨ ∃ p, s.running = some (d, p) := by
  unfold State.dispatches
  rw [mem_append]
  cases s.running with
  | none => simp
  | some x =>
    obtain ⟨d', p⟩ := x
    simp [eq_comm]

theorem Inv.genuine (h : Inv s) (hd : d ∈ s.dispatches) : Genuine s d := by
  rcases mem_dispatches.mp hd with hd | ⟨p, hd⟩
  · exact h.queue d hd
  · exact h.running d p hd

theorem Inv.log (h : Inv s) {e : Event} (hlegal : Legal (e :: s.history)) (hstart : ∀ t, e ≠ .started t)
    (hstop : ∀ app id, e ≠ .stopped app id) (hcall : ∀ app id, e ≠ .onTimer app id) : Inv (s.log e) := by
  have hstd : ∀ t, .started t ∈ e :: s.history ↔ .started t ∈ s.history := fun t =>
    ⟨fun hmem => (mem_cons.mp hmem).resolve_left (hstart t).symm, mem_cons_of_mem _⟩
  have hstopped : ∀ app id, .stopped app id ∈ e :: s.history ↔ .stopped app id ∈ s.history :=
    fun app id =>
      ⟨fun hmem => (mem_cons.mp hmem).resolve_left (hstop app id).symm, mem_cons_of_mem _⟩
  have hcald : ∀ app id, .onTimer app id ∈ e :: s.history ↔ .onTimer app id ∈ s.history :=
    fun app id =>
      ⟨fun hmem => (mem_cons.mp hmem).resolve_left (hcall app id).symm, mem_cons_of_mem _⟩
  have hwt : ∀ t, weight (s.log e) t = weight s t := by
    intro t
    show _ + _ + aboutToCall s t + (e :: s.history).count _ = _
    rw [count_cons_of_ne (hcall t.app t.id)]
    rfl
  exact { h with
    started := fun t ht => h.started t ((hstd t).mp ht)
    stopped := fun app id hmem => by
      obtain ⟨t, ht, heq⟩ := h.stopped app id ((hstopped app id).mp hmem)
      exact ⟨t, (hstd t).mpr ht, heq⟩
    starting := fun t p ht =>
      ⟨(h.starting t p ht).1, fun hmem => (h.starting t p ht).2 ((hstd t).mp hmem)⟩
    registered := fun t ht => ⟨(hstd t).mpr (h.registered t ht).1,
      fun hmem => (h.registered t ht).2 ((hstopped _ _).mp hmem)⟩
    called := fun app id hmem => h.called app id ((hcald app id).mp hmem)
    callMade := fun d hd => (hcald _ _).mpr (h.callMade d hd)
    weightLe := fun t ht hp => by rw [hwt]; exact h.weightLe t ht hp
    weightEq := fun t ht hp hstop' => by
      rw [hwt]
      exact h.weightEq t ht hp fun hmem => hstop' ((hstopped _ _).mpr hmem)
    live := fun t ht hp hstop' hcall' => h.live t ht hp (fun hmem => hstop' ((hstopped _ _).mpr hmem))
      fun hmem => hcall' ((hcald _ _).mpr hmem)
    gone := fun t ht hp hmem => h.gone t ht hp ((hcald _ _).mp hmem)
    legal := hlegal }

theorem Inv.firePeriodic (h : Inv s) (ht : t ∈ s.tasks) (hp : t.periodic = true)
    (hhol : s.holder t.id = t.id) (hfir : s.firing = none) : Inv (s.firePeriodic t) := by
  unfold State.firePeriodic
  rw [hhol]
  split_ifs with hpend
  · have hdispatch : ⟨t, t.id⟩ ∈ s.dispatches := by
      rcases h.pending _ hpend with ⟨d, hd, hdp, heq⟩ | ⟨t', ht', _⟩
      · obtain ⟨happ, hid⟩ := Prod.mk.inj heq
        have htim : t = d.timer := h.genuine_timer (h.genuine hd) ht hid.symm
        have hdt : d = ⟨t, t.id⟩ := by rw [htim, ← (h.genuine hd).2]
        exact hdt ▸ hd
      · rw [hfir] at ht'
        cases ht'
    refine h.log (h.legal.cons (by simp) (by simp) ?_ (by simp)) (by simp) (by simp) (by simp)
    intro t' dispatches heq
    cases heq
    exact hdispatch
  · refine { h with
      firing := fun t' ht' => ?_
      pending := fun e he => ?_ }
    · cases ht'
      exact ⟨ht, hp, hhol⟩
    · rcases mem_append.mp he with he | he
      · rcases h.pending e he with hd | ⟨t', ht', _⟩
        · exact .inl hd
        · rw [hfir] at ht'
          cases ht'
      · rw [mem_singleton.mp he]
        exact .inr ⟨t, rfl, rfl⟩

theorem Inv.postPeriodic (h : Inv s) (hs : s.firing = some t) : Inv (s.postPeriodic t true) := by
  obtain ⟨ht, hp, hhol⟩ := h.firing t hs
  have hwt : ∀ t', t'.periodic = false → (s.queue ++ [(⟨t, s.holder t.id⟩ : Dispatch)]).countP
      (·.timer = t') = s.queue.countP (·.timer = t') := by
    intro t' hp'
    have hne : t ≠ t' := fun heq => by rw [heq, hp'] at hp; cases hp
    rw [countP_append, countP_singleton, if_neg (by simpa using hne), Nat.add_zero]
  have hqd : Inv { s with
      firing := none
      queue := s.queue ++ [⟨t, s.holder t.id⟩] } := by
    refine { h with
      firing := fun t' ht' => by cases ht'
      queue := fun d hd => ?_
      weightLe := fun t' ht' hp' => ?_
      weightEq := fun t' ht' hp' hstop => ?_
      pending := fun e he => .inl ?_ }
    · rcases mem_append.mp hd with hd | hd
      · exact h.queue d hd
      · rw [mem_singleton.mp hd]
        exact ⟨ht, hhol⟩
    · have hw := h.weightLe t' ht' hp'
      unfold weight at hw ⊢
      rw [hwt t' hp']
      exact hw
    · have hw := h.weightEq t' ht' hp' hstop
      unfold weight at hw ⊢
      rw [hwt t' hp']
      exact hw
    · rcases h.pending e he with ⟨d, hd, hdp, heq⟩ | ⟨t', ht', heq⟩
      · refine ⟨d, ?_, hdp, heq⟩
        rcases mem_dispatches.mp hd with hd | hd
        · exact mem_dispatches.mpr (.inl (mem_append_left _ hd))
        · exact mem_dispatches.mpr (.inr hd)
      · rw [hs] at ht'
        cases ht'
        refine ⟨⟨t, s.holder t.id⟩, mem_dispatches.mpr (.inl (mem_append_right _ ?_)), hp, ?_⟩
        · exact mem_singleton_self _
        · rw [hhol]
          exact heq
  refine hqd.log (h.legal.cons ?_ (by simp) (by simp) (by simp)) (by simp) (by simp) (by simp)
  intro t' id heq
  cases heq
  exact hhol

theorem Inv.beginDispatch (h : Inv s) {queue : List Dispatch} (hq : s.queue = d :: queue)
    (hr : s.running = none) (hs : s.starting = none) : Inv (s.beginDispatch d queue) := by
  have hd : Genuine s d := h.queue d (by rw [hq]; exact mem_cons_self)
  have hidle : ∀ t, aboutToCall s t = 0 := fun t => by rw [aboutToCall, hr]
  have hwait : ∀ t, s.queue.countP (·.timer = t) = queue.countP (·.timer = t) + if d.timer = t then 1 else 0 := by
    intro t
    rw [hq, countP_cons]
    simp
  have habout : ∀ t, aboutToCall (s.beginDispatch d queue) t =
      if s.isRegistered d.timer.app d.timerId = true ∧ d.timer = t then 1 else 0 := by
    intro t
    unfold aboutToCall State.beginDispatch
    cases s.isRegistered d.timer.app d.timerId <;> simp
  have hwt : ∀ t, weight (s.beginDispatch d queue) t =
      s.armed.count t.id + queue.countP (·.timer = t) + aboutToCall (s.beginDispatch d queue) t +
        s.history.count (.onTimer t.app t.id) := fun t => rfl
  refine { h with
    queue := fun d' hd' => h.queue d' (by rw [hq]; exact mem_cons_of_mem _ hd')
    running := fun d' p hd' => ?_
    callMade := fun d' hd' => ?_
    weightLe := fun t ht hp => ?_
    weightEq := fun t ht hp hstop => ?_
    gone := fun t ht hp hcall => ?_
    pending := fun e he => ?_ }
  · obtain ⟨rfl, _⟩ := Prod.mk.inj (some.inj hd')
    exact hd
  · obtain ⟨rfl, hpoint⟩ := Prod.mk.inj (some.inj hd')
    split_ifs at hpoint
  · have hw := h.weightLe t ht hp
    rw [hwt, habout]
    unfold weight at hw
    rw [hwait, hidle] at hw
    by_cases hdt : d.timer = t
    · rw [if_pos hdt] at hw
      split_ifs
      · omega
      · omega
    · rw [if_neg hdt] at hw
      rw [if_neg fun hboth => hdt hboth.2]
      exact hw
  · have hw := h.weightEq t ht hp hstop
    rw [hwt, habout]
    unfold weight at hw
    rw [hwait, hidle] at hw
    by_cases hdt : d.timer = t
    · rw [if_pos hdt] at hw
      have hsil : .onTimer t.app t.id ∉ s.history := count_eq_zero.mp (by omega)
      rcases h.live t ht hp hstop hsil with hreg | ⟨p, hstart⟩
      · have hregistered : s.isRegistered d.timer.app d.timerId = true := by
          refine List.any_eq_true.mpr ⟨t, hreg, decide_eq_true ⟨by rw [hdt], ?_⟩⟩
          rw [hd.2, hdt]
        rw [if_pos ⟨hregistered, hdt⟩]
        exact hw
      · rw [hs] at hstart
        cases hstart
    · rw [if_neg hdt] at hw
      rw [if_neg fun hboth => hdt hboth.2]
      exact hw
  · obtain ⟨d', hd', _⟩ := h.gone t ht hp hcall
    rw [hr] at hd'
    cases hd'
  · rcases h.pending e he with ⟨d', hd', hdp, heq⟩ | hfir
    · refine .inl ⟨d', mem_dispatches.mpr ?_, hdp, heq⟩
      rcases mem_dispatches.mp hd' with hd' | ⟨p, hd'⟩
      · rw [hq] at hd'
        rcases mem_cons.mp hd' with rfl | hd'
        · exact .inr ⟨_, rfl⟩
        · exact .inl hd'
      · rw [hr] at hd'
        cases hd'
    · exact .inr hfir

theorem Inv.pending_point (h : Inv s) {p : DispatchPoint} (hr : s.running = some (d, p))
    (p' : DispatchPoint) : ∀ e ∈ s.pendingTimers,
      (∃ d' ∈ { s with running := some (d, p') }.dispatches, d'.timer.periodic = true ∧
        (d'.timer.app, d'.timerId) = e) ∨ ∃ t, s.firing = some t ∧ (t.app, t.id) = e := by
  intro e he
  rcases h.pending e he with ⟨d', hd', hdp, heq⟩ | hfir
  · refine .inl ⟨d', mem_dispatches.mpr ?_, hdp, heq⟩
    rcases mem_dispatches.mp hd' with hd' | ⟨q, hd'⟩
    · exact .inl hd'
    · rw [hr] at hd'
      cases hd'
      exact .inr ⟨_, rfl⟩
  · exact .inr hfir

@[simp] theorem callOnTimer_history : (s.callOnTimer d).history = .onTimer d.timer.app d.timerId :: s.history := rfl

theorem Inv.callOnTimer (h : Inv s) (hr : s.running = some (d, .checked))
    (hreg : s.isRegistered d.timer.app d.timerId = true) : Inv (s.callOnTimer d) := by
  have hd : Genuine s d := h.running d _ hr
  obtain ⟨t₀, ht₀, happ, hid⟩ := exists_registered hreg
  obtain rfl : t₀ = d.timer := h.genuine_timer hd (h.mem_tasks ht₀) hid
  obtain ⟨hstd, hnotStopped⟩ := h.registered _ ht₀
  -- the call is that of one timer only
  have hoth : ∀ t ∈ s.tasks, (.onTimer d.timer.app d.timerId : Event) = .onTimer t.app t.id ↔ d.timer = t := by
    intro t ht
    constructor
    · intro heq
      exact (h.genuine_timer hd ht (Event.onTimer.inj heq).2.symm).symm
    · intro heq
      rw [hd.2, heq]
  have hwt : ∀ t ∈ s.tasks, weight (s.callOnTimer d) t = weight s t := by
    intro t ht
    have hbef : aboutToCall s t = if d.timer = t then 1 else 0 := by rw [aboutToCall, hr]
    show s.armed.count t.id + s.queue.countP (·.timer = t) + 0 +
      (.onTimer d.timer.app d.timerId :: s.history).count (.onTimer t.app t.id) = _
    unfold weight
    rw [hbef, count_cons]
    by_cases hdt : d.timer = t
    · rw [if_pos hdt, if_pos (by simpa using (hoth t ht).mpr hdt)]
      omega
    · rw [if_neg hdt, if_neg (by simpa using fun heq => hdt ((hoth t ht).mp heq))]
      omega
  refine { h with
    started := fun t ht => h.started t (by simpa using ht)
    stopped := fun app id hmem => ?_
    starting := fun t p ht => ⟨(h.starting t p ht).1, by simpa using (h.starting t p ht).2⟩
    registered := fun t ht => by simpa using h.registered t ht
    running := fun d' p hd' => ?_
    called := fun app id hmem => ?_
    callMade := fun d' hd' => ?_
    weightLe := fun t ht hp => by rw [hwt t ht]; exact h.weightLe t ht hp
    weightEq := fun t ht hp hstop => by
      rw [hwt t ht]
      exact h.weightEq t ht hp (by simpa using hstop)
    live := fun t ht hp hstop hcall => ?_
    gone := fun t ht hp hcall => ?_
    pending := h.pending_point hr .called
    legal := h.legal.cons (by simp) (by simp) (by simp) ?_ }
  · obtain ⟨t, ht, heq⟩ := h.stopped app id (by simpa using hmem)
    exact ⟨t, mem_cons_of_mem _ ht, heq⟩
  · obtain ⟨rfl, _⟩ := Prod.mk.inj (some.inj hd')
    exact hd
  · rcases mem_cons.mp hmem with heq | hmem
    · obtain ⟨_, rfl⟩ := Event.onTimer.inj heq
      rw [hd.2]
      exact h.fresh _ hd.1
    · exact h.called app id hmem
  · obtain ⟨rfl, _⟩ := Prod.mk.inj (some.inj hd')
    exact mem_cons_self
  · exact h.live t ht hp (by simpa using hstop) fun hmem => hcall (mem_cons_of_mem _ hmem)
  · rcases mem_cons.mp hcall with heq | hcall
    · exact ⟨d, rfl, (hoth t (h.mem_tasks ht)).mp heq.symm⟩
    · obtain ⟨d', hd', _⟩ := h.gone t ht hp hcall
      rw [hr] at hd'
      cases hd'
  · intro app id heq
    obtain ⟨rfl, rfl⟩ := Event.onTimer.inj heq
    rw [hd.2]
    exact ⟨⟨d.timer, hstd, rfl, rfl⟩, hnotStopped⟩

/-- The end of a dispatch does not change what is still to be called. -/
theorem aboutToCall_eq_zero {p : DispatchPoint} (hr : s.running = some (d, p)) (hp : p ≠ .checked) :
    aboutToCall s t = 0 := by
  unfold aboutToCall
  rw [hr]
  cases p with
  | checked => exact absurd rfl hp
  | called => rfl
  | ended => rfl

theorem Inv.finishDispatch (h : Inv s) (hr : s.running = some (d, .called)) : Inv (s.finishDispatch d) := by
  have hd : Genuine s d := h.running d _ hr
  have hwt : ∀ t, weight (s.finishDispatch d) t = weight s t := by
    intro t
    show _ + _ + 0 + _ = _ + _ + aboutToCall s t + _
    rw [aboutToCall_eq_zero hr (by decide)]
    rfl
  refine { h with
    registered := fun t ht => h.registered t (mem_filter.mp ht).1
    running := fun d' p hd' => ?_
    callMade := fun d' hd' => ?_
    weightLe := fun t ht hp => by rw [hwt]; exact h.weightLe t ht hp
    weightEq := fun t ht hp hstop => by rw [hwt]; exact h.weightEq t ht hp hstop
    live := fun t ht hp hstop hcall => ?_
    gone := fun t ht hp hcall => ?_
    pending := h.pending_point hr .ended }
  · obtain ⟨rfl, _⟩ := Prod.mk.inj (some.inj hd')
    exact hd
  · cases hd'
  · rcases h.live t ht hp hstop hcall with hreg | hstart
    · refine .inl (mem_filter.mpr ⟨hreg, decide_eq_true ?_⟩)
      rintro ⟨happ, hid, _⟩
      refine hcall ?_
      rw [happ, hid]
      exact h.callMade d hr
    · exact .inr hstart
  · obtain ⟨ht, hkept⟩ := mem_filter.mp ht
    obtain ⟨d', hd', rfl⟩ := h.gone t ht hp hcall
    rw [hr] at hd'
    cases hd'
    exact absurd ⟨rfl, hd.2.symm, hp⟩ (of_decide_eq_true hkept)

theorem Inv.erasePending (h : Inv s) (app : AppId) (id : TimerId) : Inv (s.erasePending app id) :=
  { h with pending := fun e he => h.pending e (mem_filter.mp he).1 }

theorem Inv.endDispatch (h : Inv s) (hr : s.running = some (d, .ended)) : Inv (s.endDispatch d) := by
  have hwt : ∀ t, weight { s with running := none } t = weight s t := by
    intro t
    show _ + _ + 0 + _ = _ + _ + aboutToCall s t + _
    rw [aboutToCall_eq_zero hr (by decide)]
  have hgone : ∀ t ∈ s.timers, t.periodic = false → .onTimer t.app t.id ∉ s.history := by
    intro t ht hp hcall
    obtain ⟨d', hd', _⟩ := h.gone t ht hp hcall
    rw [hr] at hd'
    cases hd'
  -- the entry of the dispatch is erased, so that the others still have their own
  have hpend : ∀ e ∈ s.pendingTimers, (d.timer.periodic = true → e ≠ (d.timer.app, d.timerId)) →
      (∃ d' ∈ s.queue, d'.timer.periodic = true ∧ (d'.timer.app, d'.timerId) = e) ∨
        ∃ t, s.firing = some t ∧ (t.app, t.id) = e := by
    intro e he hne
    rcases h.pending e he with ⟨d', hd', hdp, heq⟩ | hfir
    · rcases mem_dispatches.mp hd' with hd' | ⟨p, hd'⟩
      · exact .inl ⟨d', hd', hdp, heq⟩
      · rw [hr] at hd'
        cases hd'
        exact absurd heq.symm (hne hdp)
    · exact .inr hfir
  have hended : ∀ pendingTimers, (∀ e ∈ pendingTimers, e ∈ s.pendingTimers ∧
      (d.timer.periodic = true → e ≠ (d.timer.app, d.timerId))) →
      Inv { s with running := none, pendingTimers := pendingTimers } := by
    intro pendingTimers hsub
    refine { h with
      running := fun d' p hd' => by cases hd'
      callMade := fun d' hd' => by cases hd'
      weightLe := fun t ht hp => (hwt t).trans_le (h.weightLe t ht hp)
      weightEq := fun t ht hp hstop => (hwt t).trans (h.weightEq t ht hp hstop)
      gone := fun t ht hp hcall => absurd hcall (hgone t ht hp)
      pending := fun e he => ?_ }
    rcases hpend e (hsub e he).1 (hsub e he).2 with ⟨d', hd', hrest⟩ | hfir
    · exact .inl ⟨d', mem_dispatches.mpr (.inl hd'), hrest⟩
    · exact .inr hfir
  unfold State.endDispatch
  dsimp only
  split_ifs with hp
  · refine hended _ fun e he => ?_
    obtain ⟨he, hne⟩ := mem_filter.mp he
    exact ⟨he, fun _ => of_decide_eq_true hne⟩
  · exact hended _ fun e he => ⟨he, fun hyes => absurd hyes hp⟩

theorem Inv.stop (h : Inv s) (hs : s.starting = none) (app : AppId) (id : TimerId) : Inv (s.stop app id) := by
  unfold State.stop
  split_ifs with hreg
  · obtain ⟨t₀, ht₀, happ, hid⟩ := exists_registered hreg
    have hoth : ∀ t ∈ s.tasks, ¬ (t.app = app ∧ t.id = id) → t.id ≠ id := by
      intro t ht hne hsame
      have heq : t = t₀ := h.unique t ht t₀ (h.mem_tasks ht₀) (hsame.trans hid.symm)
      exact hne ⟨heq ▸ happ, hsame⟩
    refine { h with
      armed := fun id hid => h.armed id (mem_of_mem_erase hid)
      started := fun t ht => h.started t (by simpa using ht)
      stopped := fun app' id' hmem => ?_
      starting := fun t p ht => by rw [hs] at ht; cases ht
      registered := fun t ht => ?_
      called := fun app id hmem => h.called app id (by simpa using hmem)
      callMade := fun d hd => mem_cons_of_mem _ (h.callMade d hd)
      weightLe := fun t ht hp => ?_
      weightEq := fun t ht hp hstop => ?_
      live := fun t ht hp hstop hcall => ?_
      gone := fun t ht hp hcall => ?_
      legal := h.legal.cons (by simp) (by simp) (by simp) (by simp) }
    · rcases mem_cons.mp hmem with heq | hmem
      · obtain ⟨rfl, rfl⟩ := Event.stopped.inj heq
        exact ⟨t₀, mem_cons_of_mem _ (h.registered t₀ ht₀).1, happ, hid⟩
      · obtain ⟨t, ht, heq⟩ := h.stopped app' id' hmem
        exact ⟨t, mem_cons_of_mem _ ht, heq⟩
    · obtain ⟨ht, hkept⟩ := mem_filter.mp ht
      refine ⟨mem_cons_of_mem _ (h.registered t ht).1, fun hmem => ?_⟩
      rcases mem_cons.mp hmem with heq | hmem
      · exact absurd (Event.stopped.inj heq) (of_decide_eq_true hkept)
      · exact (h.registered t ht).2 hmem
    · refine le_trans ?_ (h.weightLe t ht hp)
      show (s.armed.erase id).count t.id + _ + aboutToCall s t + (Event.stopped app id :: s.history).count _ ≤ _
      rw [count_cons_of_ne (by simp)]
      unfold weight
      have hle : (s.armed.erase id).count t.id ≤ s.armed.count t.id :=
        (erase_sublist).count_le _
      show _ + s.queue.countP _ + _ + _ ≤ _
      omega
    · have hne : t.id ≠ id := hoth t ht fun hsame => by
        rw [hsame.1, hsame.2] at hstop
        exact hstop mem_cons_self
      rw [← h.weightEq t ht hp fun hmem => hstop (mem_cons_of_mem _ hmem)]
      show (s.armed.erase id).count t.id + _ + aboutToCall s t + (Event.stopped app id :: s.history).count _ = _
      rw [count_cons_of_ne (by simp), count_erase_of_ne hne]
      rfl
    · rcases h.live t ht hp (fun hmem => hstop (mem_cons_of_mem _ hmem))
        (fun hmem => hcall (mem_cons_of_mem _ hmem)) with hreg | hstart
      · refine .inl (mem_filter.mpr ⟨hreg, decide_eq_true fun hsame => ?_⟩)
        rw [hsame.1, hsame.2] at hstop
        exact hstop mem_cons_self
      · exact .inr hstart
    · exact h.gone t (mem_filter.mp ht).1 hp (by simpa using hcall)
  · exact h

/-! ### All runs -/

theorem inv_initial : Inv {} := by
  constructor
  case legal => exact ⟨by simp, by simp, by simp, by simp⟩
  all_goals simp

theorem appTimers_inductive : appTimers.Inductive InOrder Inv where
  init s hs := by
    obtain rfl : s = {} := hs
    exact inv_initial
  step s a s' h hc hst := by
    cases a with
    | start app periodic =>
      obtain ⟨hs, rfl⟩ : s.starting = none ∧ s.arm app periodic = s' := by
        simpa [appTimers, step] using hst
      exact h.arm hs app periodic
    | writeHolder =>
      simp only [appTimers, step] at hst
      split at hst
      · next t hs =>
        cases hst
        exact h.writeHolder hs
      · cases hst
    | register =>
      simp only [appTimers, step] at hst
      split at hst
      · next t hs =>
        cases hst
        exact h.register hs
      · cases hst
    | fire t posted =>
      obtain ⟨⟨ht, harmed, hfir⟩, hs'⟩ : (t ∈ s.tasks ∧ t.id ∈ s.armed ∧ s.firing = none) ∧
          (if t.periodic then s.firePeriodic t else s.fireDelayed t posted) = s' := by
        simpa [appTimers, step] using hst
      obtain ⟨hhol, hpost⟩ := hc
      rw [← hs']
      cases hp : t.periodic with
      | true => exact h.firePeriodic ht hp hhol hfir
      | false =>
        rw [hpost hp]
        exact h.fireDelayed ht harmed hp hhol
    | postPeriodic posted =>
      obtain rfl : posted = true := hc
      simp only [appTimers, step] at hst
      split at hst
      · next t hs =>
        cases hst
        exact h.postPeriodic hs
      · cases hst
    | beginDispatch =>
      simp only [appTimers, step] at hst
      split at hst
      · next d queue hq hr hs =>
        cases hst
        exact h.beginDispatch hq hr hs
      · cases hst
    | callOnTimer =>
      simp only [appTimers, step] at hst
      split at hst
      · next d hr =>
        cases hst
        exact h.callOnTimer hr (hc d hr)
      · cases hst
    | finishDispatch =>
      simp only [appTimers, step] at hst
      split at hst
      · next d hr hs =>
        cases hst
        exact h.finishDispatch hr
      · cases hst
    | endDispatch =>
      simp only [appTimers, step] at hst
      split at hst
      · next d hr =>
        cases hst
        exact h.endDispatch hr
      · cases hst
    | stop app id =>
      obtain ⟨hs, rfl⟩ : s.starting = none ∧ s.stop app id = s' := by
        simpa [appTimers, step] using hst
      exact h.stop hs app id
    | stopPending app id =>
      obtain ⟨_, rfl⟩ : (app, id) ∈ s.stopping ∧
          { s with stopping := s.stopping.erase (app, id) }.erasePending app id = s' := by
        simpa [appTimers, step] using hst
      have hers := h.erasePending app id
      exact { hers with }

/-- In every run in order, every timer is served. -/
theorem timers_delivered {s : State} (hs : appTimers.Reach InOrder s) : Delivered s :=
  (appTimers_inductive.reach hs).delivered

instance (s : State) (a : Action) : Decidable (InOrder s a) := by
  cases a with
  | fire timer posted => exact inferInstanceAs (Decidable (_ ∧ _))
  | postPeriodic posted => exact inferInstanceAs (Decidable (_ = _))
  | callOnTimer =>
    unfold InOrder
    cases s.running with
    | none => exact isTrue (by simp)
    | some x =>
      obtain ⟨d, p⟩ := x
      refine decidable_of_iff (p = .checked → s.isRegistered d.timer.app d.timerId = true) ?_
      simp only [some.injEq, Prod.mk.injEq, and_imp]
      exact ⟨fun h d' hd hp => hd ▸ h hp, fun h hp => h d rfl hp⟩
  | _ => exact isTrue trivial

/-! ### A slow start -/

def delayed : Timer := ⟨1, 7, false⟩

def promptRun : List Action :=
  [.start 7 false, .writeHolder, .register, .fire delayed true, .beginDispatch, .callOnTimer,
    .finishDispatch, .endDispatch]

theorem timers_delivered_promptRun : ∃ s : State, Delivered s ∧
    s.history = [.onTimer 7 1, .started delayed] ∧ s.timers = [] := by
  have hrun : ∃ s, appTimers.execWhen InOrder {} promptRun = some s ∧
      s.history = [.onTimer 7 1, .started delayed] ∧ s.timers = [] := by decide
  obtain ⟨s, hs, hhist, htims⟩ := hrun
  exact ⟨s, timers_delivered (.execWhen (.init rfl) hs), hhist, htims⟩

def slowRun : List Action :=
  [.start 7 false, .fire delayed true, .writeHolder, .register, .beginDispatch, .endDispatch]

/-- The dispatch has no timer, and the timer stays registered and is never called. -/
theorem slowRun_loses : ∃ s : State, appTimers.Reachable s ∧ s.history = [.started delayed] ∧
    s.timers = [delayed] ∧ ¬ Outstanding s delayed ∧ ¬ Delivered s := by
  have hrun : ∃ s, appTimers.exec {} slowRun = some s ∧ s.history = [.started delayed] ∧
      s.timers = [delayed] ∧ s.armed = [] ∧ s.dispatches = [] := by decide
  obtain ⟨s, hs, hhist, htims, harmed, hdispatches⟩ := hrun
  have hout : ¬ Outstanding s delayed := by
    unfold Outstanding
    rw [harmed, hdispatches]
    simp
  refine ⟨s, .exec (.init rfl) hs, hhist, htims, hout, fun hdelivered => ?_⟩
  obtain ⟨hcnt, _⟩ := hdelivered.delivered delayed (by simp [hhist]) rfl (by simp [hhist]) hout
  rw [hhist] at hcnt
  revert hcnt
  decide

end Brookesia.SystemCore.TimerDelivery
