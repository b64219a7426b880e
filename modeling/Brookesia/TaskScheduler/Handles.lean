import Brookesia.TaskScheduler.Steps

/-! # Well-formed handles

What holds of every handle in every reachable state, whatever is called: no handler exists before
`create_handle` has made the future (`TaskOk.early`), the handlers of a task are those of its type
(`TaskOk.waits`, `queue`, `flights`), `tasks_` holds created ids once each, and an operation under
the mutex that is half done concerns a task that is still in `tasks_` (`Wf`, `reachable_wf`). -/

namespace Brookesia.TaskScheduler.Handles

open Transition Model Steps List Option

def typeOf : Handler → TaskType
  | .wrapper => .immediate
  | .once => .delayed
  | .periodic | .resumed _ => .periodic

def periodicStage : Stage → Bool
  | .claiming | .skipping | .rearming _ | .returned _ | .exiting => true
  | _ => false

/-- A handler of a task of type `type`, at a stage it can be at. -/
structure FlightOk (type : TaskType) (f : Flight) : Prop where
  type : typeOf f.handler = type
  stage : periodicStage f.stage = true → f.handler.isPeriodic = true

/-- A handle before its future is made. -/
structure Early (t : Task) : Prop where
  promise : t.promise = false
  results : t.results = []
  waits : waits t = []
  queue : t.queue = []
  flights : t.flights = []
  savedTask : t.savedTask = false
  savedPeriodicTask : t.savedPeriodicTask = false

structure TaskOk (t : Task) : Prop where
  early : ¬ t.post.hasFuture → Early t
  waits : ∀ h ∈ waits t, typeOf h = t.type
  queue : ∀ c ∈ t.queue, typeOf c.handler = t.type
  flights : ∀ f ∈ t.flights, FlightOk t.type f

def LockedOp.inner : LockedOp → Option TaskId
  | .setSuspended id | .setRunning id | .rearm id => some id
  | _ => none

/-- Only the first operation can be half done. -/
structure LockOk (s : State) : Prop where
  tail : ∀ op ∈ s.lock.tail, LockedOp.inner op = none
  head : ∀ op ∈ s.lock.head?, ∀ id, LockedOp.inner op = some id → id ∈ s.tasks ∧ (s.heap id).type.hasTimer

structure Wf (s : State) : Prop where
  nodup : s.tasks.Nodup
  created : ∀ id ∈ s.tasks, s.created id
  le : s.firstId ≤ s.nextId
  fresh : ∀ id, ¬ s.created id → s.heap id = {}
  task : ∀ id, TaskOk (s.heap id)
  lock : LockOk s

/-! ### One handle -/

theorem typeOf_isPeriodic {h : Handler} : h.isPeriodic = true ↔ typeOf h = .periodic := by
  cases h <;> simp [Handler.isPeriodic, typeOf]

theorem taskOk_default : TaskOk {} :=
  ⟨fun _ => ⟨rfl, rfl, rfl, rfl, rfl, rfl, rfl⟩, by simp [waits], by simp, by simp⟩

variable {f : Flight} {s : State} {t : Task}

theorem mem_goes {f' : Flight} {next : Option Stage} (hf' : f' ∈ (t.goes f next).flights) :
    f' ∈ t.flights ∨ ∃ stage, next = some stage ∧ f' = ⟨f.handler, stage⟩ := by
  rcases mem_append.mp hf' with h | h
  · cases next with
    | none => cases h
    | some stage => exact .inr ⟨stage, rfl, by simpa using h⟩
  · exact .inl (mem_of_mem_erase h)

section TaskOk
variable {t : Task} (ht : TaskOk t)
include ht

theorem TaskOk.hasFuture_of_flight {f : Flight} (hf : f ∈ t.flights) : t.post.hasFuture := by
  by_contra hp
  rw [(ht.early hp).flights] at hf
  cases hf

variable {c : Completion}

theorem TaskOk.hasFuture_of_queue (hc : c ∈ t.queue) : t.post.hasFuture := by
  by_contra hp
  rw [(ht.early hp).queue] at hc
  cases hc

theorem TaskOk.hasFuture_of_waits (hw : Steps.waits t ≠ []) : t.post.hasFuture := by
  by_contra hp
  exact hw (ht.early hp).waits

theorem TaskOk.hasFuture_of_saved (hs : hasSaved t = true) : t.post.hasFuture := by
  by_contra hp
  unfold hasSaved at hs
  split at hs
  · cases hs
  · rw [(ht.early hp).savedTask] at hs; cases hs
  · rw [(ht.early hp).savedPeriodicTask] at hs; cases hs

theorem TaskOk.aborted (hc : c ∈ aborted (Steps.waits t)) : typeOf c.handler = t.type := by
  obtain ⟨h, hh, rfl⟩ := List.mem_map.mp hc
  exact ht.waits h hh

theorem TaskOk.mem_queue_aborted (hc : c ∈ t.queue ++ Model.aborted (Steps.waits t)) : typeOf c.handler = t.type :=
  (mem_append.mp hc).elim (ht.queue c) ht.aborted

theorem TaskOk.arm {expiry : ℤ} {h : Handler} (hh : typeOf h = t.type) (hp : t.post.hasFuture) :
    TaskOk (arm t expiry h) :=
  ⟨fun hp' => absurd hp hp', by simpa [Steps.arm, Steps.waits] using hh,
    fun _ hc => ht.mem_queue_aborted hc, ht.flights⟩

theorem TaskOk.early_aborted (hp : ¬ t.post.hasFuture) : t.queue ++ Model.aborted (Steps.waits t) = [] := by
  rw [(ht.early hp).queue, (ht.early hp).waits]; rfl

theorem TaskOk.drop : TaskOk (drop t) :=
  ⟨fun hp => { ht.early hp with waits := rfl, queue := ht.early_aborted hp },
    by simp [Steps.drop, Steps.waits], fun _ hc => ht.mem_queue_aborted hc, ht.flights⟩

theorem TaskOk.cancelTimer : TaskOk t.cancelTimer := by
  rw [cancelTimer_eq]
  refine ⟨fun hp => { ht.early hp with waits := ?_, queue := ht.early_aborted hp }, ?_,
    fun _ hc => ht.mem_queue_aborted hc, ht.flights⟩
  all_goals cases htim : t.timer <;> simp [Steps.waits]

theorem TaskOk.settle (value : Bool) : TaskOk (t.settle value) := by
  unfold Task.settle
  split
  · next hp =>
    refine ⟨fun hp' => ?_, ht.waits, ht.queue, ht.flights⟩
    rw [(ht.early hp').promise] at hp
    cases hp
  · exact ht

theorem TaskOk.enter (hc : c ∈ t.queue) : TaskOk (t.enter c) := by
  refine ⟨fun hp => absurd (ht.hasFuture_of_queue hc) hp, ht.waits,
    fun c' hc' => ht.queue c' (mem_of_mem_erase hc'), fun f hf => ?_⟩
  rcases mem_cons.mp hf with rfl | hf
  · exact ⟨ht.queue c hc, by simp [periodicStage]⟩
  · exact ht.flights f hf

theorem TaskOk.goes {f : Flight} (hf : f ∈ t.flights) {next : Option Stage}
    (hnext : ∀ stage, next = some stage → periodicStage stage = true →
      f.handler.isPeriodic = true) : TaskOk (t.goes f next) := by
  refine ⟨fun hp => absurd (ht.hasFuture_of_flight hf) hp, ht.waits, ht.queue, fun f' hf' => ?_⟩
  rcases mem_goes hf' with h | ⟨stage, hst, rfl⟩
  · exact ht.flights f' h
  · exact ⟨(ht.flights f hf).type, hnext stage hst⟩

end TaskOk

theorem next_periodic {stage : Stage} (hf : periodicStage f.stage = true → f.handler.isPeriodic = true)
    (h : t.next f = some stage) (hstg : periodicStage stage = true) :
    f.handler.isPeriodic = true := by
  unfold Task.next at h
  split at h
  · unfold afterEntered at h
    split_ifs at h <;> cases h <;> cases hstg
  · next ec _ =>
    cases ec with
    | operationAborted =>
      simp only [afterTested] at h
      split at h
      · next hh => rw [hh]; rfl
      · split_ifs at h; cases h; cases hstg
    | success =>
      simp only [afterTested] at h
      split_ifs at h with h1 h2
      · cases h; cases hstg
      · exact h2
      · cases h; cases hstg
  · next hst => exact hf (by rw [hst]; rfl)
  · next hst => exact hf (by rw [hst]; rfl)
  · next hst => exact hf (by rw [hst]; rfl)
  · cases h

theorem TaskOk.poster {now : ℤ} {t' : Task} (ht : TaskOk t) (h : Poster now t t') : TaskOk t' := by
  cases h with
  | timer hp =>
    have he := ht.early (by rw [hp]; exact id)
    exact ⟨fun _ => { he with waits := rfl }, by simp [Steps.waits], ht.queue, ht.flights⟩
  | promise hp =>
    exact ⟨fun hp' => absurd trivial hp', ht.waits, ht.queue, ht.flights⟩
  | wrapper hp htype =>
    refine ⟨fun hp' => absurd trivial hp', ht.waits, fun c hc => ?_, ht.flights⟩
    rcases mem_append.mp hc with hc | hc
    · exact ht.queue c hc
    · rw [mem_singleton.mp hc, htype]; rfl
  | savedTask hp _ => exact ⟨fun hp' => absurd trivial hp', ht.waits, ht.queue, ht.flights⟩
  | savedPeriodicTask hp _ =>
    exact ⟨fun hp' => absurd trivial hp', ht.waits, ht.queue, ht.flights⟩
  | scheduleOnce expiry hp htype _ =>
    have ha : TaskOk (Steps.arm t expiry .once) := ht.arm htype.symm (by rw [hp]; trivial)
    exact ⟨fun hp' => absurd trivial hp', ha.waits, ha.queue, ha.flights⟩
  | schedulePeriodic expiry hp htype _ =>
    have ha : TaskOk (Steps.arm t expiry .periodic) := ht.arm htype.symm (by rw [hp]; trivial)
    exact ⟨fun hp' => absurd trivial hp', ha.waits, ha.queue, ha.flights⟩

theorem TaskOk.expire (ht : TaskOk t) (hw : Steps.waits t ≠ []) {timer : Timer} (htim : timer.waits = []) :
    TaskOk { t with
      timer := some timer
      queue := t.queue ++ (Steps.waits t).map fun h => ⟨h, .success⟩ } := by
  refine ⟨fun hp => absurd (ht.hasFuture_of_waits hw) hp, by simp [Steps.waits, htim], fun c hc => ?_, ht.flights⟩
  rcases mem_append.mp hc with hc | hc
  · exact ht.queue c hc
  · obtain ⟨h, hh, rfl⟩ := List.mem_map.mp hc
    exact ht.waits h hh

/-! ### All handles -/

section Wf
variable {s : State} (hs : Wf s) {id : TaskId}
include hs

theorem Wf.created_of_flight {f : Flight} (hf : f ∈ (s.heap id).flights) : s.created id := by
  by_contra hc
  rw [hs.fresh id hc] at hf
  cases hf

theorem Wf.created_of_queue {c : Completion} (hq : c ∈ (s.heap id).queue) : s.created id := by
  by_contra hc
  rw [hs.fresh id hc] at hq
  cases hq

theorem Wf.created_of_waits (hw : Steps.waits (s.heap id) ≠ []) : s.created id := by
  by_contra hc
  rw [hs.fresh id hc] at hw
  exact hw rfl

theorem Wf.setTask (hid : s.created id) {t : Task} (ht : TaskOk t)
    (htype : t.type = (s.heap id).type) : Wf (s.setTask id t) := by
  refine ⟨hs.nodup, hs.created, hs.le, fun id' hid' => ?_, fun id' => ?_, hs.lock.tail, fun op hop id' hin => ?_⟩
  · have hne : id' ≠ id := fun he => hid' (he ▸ hid)
    simpa [State.setTask, hne] using hs.fresh id' hid'
  · by_cases he : id' = id
    · subst he; simpa [State.setTask] using ht
    · simpa [State.setTask, he] using hs.task id'
  · obtain ⟨hmem, hty⟩ := hs.lock.head op hop id' hin
    refine ⟨hmem, ?_⟩
    by_cases he : id' = id
    · subst he; simpa [State.setTask, htype] using hty
    · simpa [State.setTask, he] using hty

theorem Wf.setLock {lock : List LockedOp} (htail : ∀ op ∈ lock.tail, LockedOp.inner op = none)
    (hhead : ∀ op ∈ lock.head?, ∀ id, LockedOp.inner op = some id →
      id ∈ s.tasks ∧ (s.heap id).type.hasTimer) : Wf { s with lock := lock } :=
  ⟨hs.nodup, hs.created, hs.le, hs.fresh, hs.task, ⟨htail, hhead⟩⟩

theorem Wf.pop {op : LockedOp} {rest : List LockedOp} (hlock : s.lock = op :: rest) : Wf { s with lock := rest } := by
  have htail := hs.lock.tail
  rw [hlock] at htail
  refine hs.setLock (fun o ho => htail o (mem_of_mem_tail ho)) fun o ho id hin => ?_
  cases rest with
  | nil => cases ho
  | cons o' rest =>
    cases ho
    rw [htail o (by simp)] at hin
    cases hin

theorem Wf.without (hin : ∀ op ∈ s.lock.head?, LockedOp.inner op = none) (hid : s.created id)
    {t : Task} (ht : TaskOk t) (groups : Group → List TaskId) : Wf (without s id t groups) := by
  refine ⟨hs.nodup.erase id, fun id' h => hs.created id' (mem_of_mem_erase h), hs.le,
    fun id' hid' => ?_, fun id' => ?_, hs.lock.tail, fun op hop id' h => ?_⟩
  · have hne : id' ≠ id := fun he => hid' (he ▸ hid)
    simpa [Steps.without, hne] using hs.fresh id' hid'
  · by_cases he : id' = id
    · subst he
      simp only [Steps.without, Function.update_self]
      split
      · exact ht.drop
      · exact ht
    · simpa [Steps.without, he] using hs.task id'
  · rw [hin op hop] at h
    cases h

theorem Wf.insert {p : Post} {group : Group} (hfree : s.lock = []) : Wf (postInsert s group p) := by
  have hnew : s.nextId ∉ s.tasks := fun h => absurd (hs.created _ h).2 (Nat.lt_irrefl _)
  have hle := hs.le
  have key : ∀ type repeats interval, Wf (createHandle s type repeats interval group) := by
    intro type repeats interval
    refine ⟨?_, fun id hid => ?_, Nat.le_succ_of_le hle, fun id hid => ?_, fun id => ?_, ?_, ?_⟩
    · exact nodup_append.mpr ⟨hs.nodup, by simp, by simpa using fun id h => (ne_of_mem_of_not_mem h hnew)⟩
    · rcases mem_append.mp hid with h | h
      · have := hs.created id h
        exact ⟨this.1, Nat.lt_succ_of_lt this.2⟩
      · rw [mem_singleton.mp h]; exact ⟨hle, Nat.lt_succ_self _⟩
    · have hne : id ≠ s.nextId := by
        rintro rfl; exact hid ⟨hle, Nat.lt_succ_self _⟩
      have := hs.fresh id fun h => hid ⟨h.1, Nat.lt_succ_of_lt h.2⟩
      simpa [createHandle, hne] using this
    · by_cases he : id = s.nextId
      · subst he
        simp only [createHandle, Function.update_self]
        exact ⟨fun _ => ⟨rfl, rfl, rfl, rfl, rfl, rfl, rfl⟩, by simp [Steps.waits], by simp, by simp⟩
      · simpa [createHandle, he] using hs.task id
    · simp [createHandle, hfree]
    · simp [createHandle, hfree]
  cases p <;> exact key _ _ _

theorem Wf.locked {op : LockedOp} {rest : List LockedOp} (hlock : s.lock = op :: rest) {s' : State}
    (h : Locked { s with lock := rest } op s') : Wf s' := by
  have hp := hs.pop hlock
  have hext : ∀ o ∈ rest, LockedOp.inner o = none := by
    have := hs.lock.tail; rw [hlock] at this; exact this
  have hin : ∀ o ∈ rest.head?, LockedOp.inner o = none := fun o ho =>
    hext o (mem_of_mem_head? ho)
  have hhead : ∀ id, LockedOp.inner op = some id → id ∈ s.tasks ∧ (s.heap id).type.hasTimer :=
    hs.lock.head op (by simp [hlock])
  cases h with
  | none => exact hp
  | cancel hid groups =>
    have hp' : Wf { s with lock := rest, canceledTasks := s.canceledTasks + 1 } :=
      ⟨hp.nodup, hp.created, hp.le, hp.fresh, hp.task, ⟨hp.lock.tail, hp.lock.head⟩⟩
    refine hp'.without hin (hs.created _ hid) (TaskOk.settle (TaskOk.cancelTimer ?_) _) groups
    exact ⟨fun he => { (hs.task _).early he with }, (hs.task _).waits, (hs.task _).queue, (hs.task _).flights⟩
  | @suspend id hid htype hstate remaining =>
    have ht : TaskOk ({ s.heap id with remainingTime := remaining }.cancelTimer) :=
      TaskOk.cancelTimer ⟨fun he => { (hs.task _).early he with }, (hs.task _).waits,
        (hs.task _).queue, (hs.task _).flights⟩
    have hty : ({ s.heap id with remainingTime := remaining }.cancelTimer).type =
        (s.heap id).type := by rw [cancelTimer_eq]
    refine (hp.setTask (hs.created _ hid) ht hty).setLock hext ?_
    intro o ho id' hi
    cases ho
    cases hi
    exact ⟨hid, by simpa [State.setTask, hty] using htype⟩
  | setSuspended id =>
    obtain ⟨hid, -⟩ := hhead id rfl
    have := hp.setTask (hs.created _ hid) (t := { s.heap id with state := .suspended })
      ⟨fun he => { (hs.task _).early he with }, (hs.task _).waits, (hs.task _).queue, (hs.task _).flights⟩ rfl
    exact ⟨this.nodup, this.created, this.le, this.fresh, this.task, ⟨this.lock.tail, this.lock.head⟩⟩
  | resume hid htype hstate =>
    refine hp.setLock hext fun o ho id' hi => ?_
    cases ho
    cases hi
    exact ⟨hid, htype⟩
  | setRunning id =>
    obtain ⟨hid, htype⟩ := hhead id rfl
    have := hp.setTask (hs.created _ hid) (t := { s.heap id with state := .running })
      ⟨fun he => { (hs.task _).early he with }, (hs.task _).waits, (hs.task _).queue, (hs.task _).flights⟩ rfl
    refine ⟨this.nodup, this.created, this.le, this.fresh, this.task, hext, fun o ho id' hi => ?_⟩
    cases ho
    cases hi
    exact ⟨hid, by simpa [setRunning, State.setTask] using htype⟩
  | @rearm id hsaved htim expiry h htype =>
    have htype' : typeOf h = (s.heap id).type := by
      rcases htype with ⟨h1, rfl⟩ | ⟨h1, interval, rfl⟩ <;> exact h1.symm
    exact hp.setTask (hs.created _ (hhead id rfl).1)
      ((hs.task id).arm htype' ((hs.task id).hasFuture_of_saved hsaved)) rfl
  | rearmNone => exact hp
  | @restart id hid hstate hsaved htim expiry h htype =>
    have htype' : typeOf h = (s.heap id).type := by
      rcases htype with ⟨h1, rfl⟩ | ⟨h1, rfl⟩ <;> exact h1.symm
    exact hp.setTask (hs.created _ hid) ((hs.task id).arm htype' ((hs.task id).hasFuture_of_saved hsaved)) rfl
  | @restartNone id hid hsaved =>
    exact hp.setTask (hs.created _ hid) (hs.task id).cancelTimer (by rw [cancelTimer_eq])

theorem Wf.effect {a : Action} {s' : State} (h : Effect s a s') : Wf s' := by
  cases h with
  | tick => exact ⟨hs.nodup, hs.created, hs.le, hs.fresh, hs.task, ⟨hs.lock.tail, hs.lock.head⟩⟩
  | post p group hfree => exact hs.insert hfree
  | @postNext id t' hid h =>
    refine hs.setTask hid ((hs.task id).poster h) ?_
    cases h <;> rfl
  | call c hfree =>
    have hops : ∀ op ∈ c.ops s, LockedOp.inner op = none := by
      cases c <;> simp [Call.ops, LockedOp.inner]
    refine hs.setLock (fun op hop => hops op (mem_of_mem_tail hop)) fun op hop id hin => ?_
    rw [hops op (mem_of_mem_head? hop)] at hin
    cases hin
  | locked hlock h => exact hs.locked hlock h
  | @expire id hwaits timer htim =>
    exact hs.setTask (hs.created_of_waits hwaits) ((hs.task id).expire hwaits htim) rfl
  | @enter id c hc => exact hs.setTask (hs.created_of_queue hc) ((hs.task id).enter hc) rfl
  | @go id f hf hstg busy hbusy =>
    have ht : TaskOk ((s.heap id).goes f ((s.heap id).next f)) := (hs.task id).goes hf fun stage h =>
      next_periodic ((hs.task id).flights f hf).stage h
    exact hs.setTask (hs.created_of_flight hf) ⟨fun he => { ht.early he with }, ht.waits, ht.queue, ht.flights⟩ rfl
  | @rearming id f skip hf hstg htim expiry interval =>
    have hper : f.handler.isPeriodic = true :=
      ((hs.task id).flights f hf).stage (by rw [hstg]; rfl)
    have htype : typeOf .periodic = (s.heap id).type := by
      rw [← ((hs.task id).flights f hf).type, typeOf_isPeriodic.mp hper]; rfl
    have ha : TaskOk (arm (s.heap id) expiry .periodic) :=
      (hs.task id).arm htype ((hs.task id).hasFuture_of_flight hf)
    have ha' : TaskOk { arm (s.heap id) expiry .periodic with intervalMs := interval } :=
      ⟨fun he => { ha.early he with }, ha.waits, ha.queue, ha.flights⟩
    exact hs.setTask (hs.created_of_flight hf) (ha'.goes hf fun _ _ _ => hper) rfl
  | @finishing id f success hf hstg =>
    have ht : TaskOk ((s.heap id).goes f (some (.settling success))) :=
      (hs.task id).goes hf fun stage h hst => by cases h; cases hst
    have := hs.setTask (hs.created_of_flight hf)
      (t := { (s.heap id).goes f (some (.settling success)) with state := .finished })
      ⟨fun he => { ht.early he with }, ht.waits, ht.queue, ht.flights⟩ rfl
    exact ⟨this.nodup, this.created, this.le, this.fresh, this.task, ⟨this.lock.tail, this.lock.head⟩⟩
  | @settling id f success hf hstg hfree groups =>
    have ht : TaskOk ((s.heap id).settle success) := (hs.task id).settle success
    have hflights : ((s.heap id).settle success).flights = (s.heap id).flights := by
      unfold Task.settle; split <;> rfl
    refine hs.without (by simp [hfree]) (hs.created_of_flight hf)
      (ht.goes (by rw [hflights]; exact hf) fun stage h hst => ?_) groups
    split_ifs at h with hper
    exact hper
  | @removing id f hf hstg hfree groups =>
    exact hs.without (by simp [hfree]) (hs.created_of_flight hf) ((hs.task id).goes hf (by simp)) groups
  | @finish id f o hf hstg =>
    have hty := (hs.task id).flights f hf
    cases o with
    | returned shouldContinue =>
      refine hs.setTask (hs.created_of_flight hf) ((hs.task id).goes hf fun stage h hst => ?_) rfl
      cases h
      by_contra hper
      rw [if_neg hper] at hst
      cases hst
    | threw =>
      have ht : TaskOk ((s.heap id).goes f (some (.finishing false))) :=
        (hs.task id).goes hf fun stage h hst => by cases h; cases hst
      exact hs.setTask (hs.created_of_flight hf) ⟨fun he => { ht.early he with }, ht.waits, ht.queue, ht.flights⟩ rfl
  | wait => exact ⟨hs.nodup, hs.created, hs.le, hs.fresh, hs.task, ⟨hs.lock.tail, hs.lock.head⟩⟩
  | wake => exact ⟨hs.nodup, hs.created, hs.le, hs.fresh, hs.task, ⟨hs.lock.tail, hs.lock.head⟩⟩

end Wf

theorem wf_initial (n : TaskId) : Wf (initial n) :=
  ⟨nodup_nil, by simp [initial], Nat.le_refl _, fun _ _ => rfl, fun _ => taskOk_default,
    ⟨by simp [initial], by simp [initial]⟩⟩

theorem wf_inductive : scheduler.Inductive (fun _ _ => True) Wf where
  init := by rintro s ⟨n, rfl⟩; exact wf_initial n
  step _ _ _ hs _ h := hs.effect (step_effect h)

/-! ### The same task in the next state -/

theorem type_setTask {id : TaskId} (ht : t.type = (s.heap id).type)
    (p : TaskId) : ((s.setTask id t).heap p).type = (s.heap p).type := by
  by_cases he : p = id
  · subst he; simpa [State.setTask] using ht
  · simp [State.setTask, he]

theorem type_without {id : TaskId} (ht : t.type = (s.heap id).type) (groups : Group → List TaskId) (p : TaskId) :
    ((without s id t groups).heap p).type = (s.heap p).type := by
  by_cases he : p = id
  · subst he
    simp only [Steps.without, Function.update_self]
    split <;> exact ht
  · simp [Steps.without, he]

theorem type_settle (value : Bool) : (t.settle value).type = t.type := by
  unfold Task.settle; split <;> rfl

theorem type_locked {s' : State} {op : LockedOp} (h : Locked s op s') (p : TaskId) :
    (s'.heap p).type = (s.heap p).type := by
  cases h with
  | none | resume | rearmNone => rfl
  | @cancel id hid groups =>
    exact type_without (s := { s with canceledTasks := s.canceledTasks + 1 })
      (by rw [type_settle, cancelTimer_eq]) groups p
  | suspend => exact type_setTask (by rw [cancelTimer_eq]) p
  | setSuspended id => exact type_setTask (t := { s.heap id with state := .suspended }) rfl p
  | setRunning id => exact type_setTask (t := { s.heap id with state := .running }) rfl p
  | rearm | restart => exact type_setTask (by rfl) p
  | restartNone => exact type_setTask (by rw [cancelTimer_eq]) p

/-- A handle of the next state is one of this state, of the same type, or the one just posted. -/
theorem created_effect {s' : State} {a : Action} (h : Effect s a s') {p : TaskId}
    (hp : s'.created p) : (s.created p ∧ (s'.heap p).type = (s.heap p).type) ∨
      ∃ posted group, a = .post posted group ∧ s.lock = [] ∧ p = s.nextId := by
  cases h with
  | post posted group hfree =>
    by_cases he : p = s.nextId
    · exact .inr ⟨posted, group, rfl, hfree, he⟩
    · left
      have hlt : p < s.nextId + 1 := by cases posted <;> exact hp.2
      have hle : s.firstId ≤ p := by cases posted <;> exact hp.1
      refine ⟨⟨hle, Nat.lt_of_le_of_ne (Nat.le_of_lt_succ hlt) he⟩, ?_⟩
      cases posted <;> simp [postInsert, createHandle, he]
  | tick | call | wait | wake => exact .inl ⟨hp, rfl⟩
  | postNext _ h => exact .inl ⟨hp, type_setTask (by cases h <;> rfl) p⟩
  | locked _ h =>
    refine .inl ⟨?_, type_locked h p⟩
    cases h <;> exact hp
  | expire => exact .inl ⟨hp, type_setTask (by rfl) p⟩
  | enter => exact .inl ⟨hp, type_setTask (by rfl) p⟩
  | go => exact .inl ⟨hp, type_setTask (by rfl) p⟩
  | rearming => exact .inl ⟨hp, type_setTask (by rfl) p⟩
  | @finishing id f success =>
    exact .inl ⟨hp, type_setTask (t := { (s.heap id).goes f (some (.settling success)) with state := .finished }) rfl p⟩
  | settling => exact .inl ⟨hp, type_without (by exact type_settle _) _ p⟩
  | removing => exact .inl ⟨hp, type_without (by rfl) _ p⟩
  | finish o =>
    refine .inl ⟨hp, type_setTask ?_ p⟩
    cases o <;> rfl

theorem countP_goes (P : Flight → Bool) (hf : f ∈ t.flights) (next : Option Stage) :
    (t.goes f next).flights.countP P + (P f).toNat =
      t.flights.countP P + (next.elim false fun stage => P ⟨f.handler, stage⟩).toNat := by
  have herase : (t.flights.erase f).countP P + (P f).toNat = t.flights.countP P := by
    rw [(perm_cons_erase hf).countP_eq P, countP_cons]
    cases P f <;> rfl
  cases next with
  | none => simpa [Task.goes] using herase
  | some stage =>
    simp only [Task.goes, map_some, toList_some, singleton_append, countP_cons, elim_some]
    cases P ⟨f.handler, stage⟩ <;> simp <;> omega

end Brookesia.TaskScheduler.Handles
