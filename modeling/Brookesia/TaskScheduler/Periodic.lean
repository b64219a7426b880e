import Brookesia.TaskScheduler.Accounting

/-! # Periodic tasks are not lost

A periodic task whose closure always returns `true` and that nobody cancels (`Spared`) can leave
`tasks_` all the same: the handler that `resume_internal` made takes an aborted wait for the end of
the task, where the one of `schedule_periodic` looks at the state first, and a handler that finds the
task `Suspended` after the closure, or after an aborted wait, ends it. `KeepsPeriodic` leaves out
the three steps that do so.

* `Served`: a handler waits for the timer, or is queued or under way with success.
* `Lasting`, `lasting_inductive`: in the runs under both conditions the task stays, and is `Served`
  whenever it is `Running` and no suspend or resume of it is half done.
* `Served.willExecute`: such a task executes its closure by the steps of its handlers alone.
* `periodic_lasts`: the two together. -/

namespace Brookesia.TaskScheduler.Periodic

open Transition Model Steps List Option
open Handles

/-- Nobody cancels `p`, and its closure returns `true`. -/
def Spared (p : TaskId) (s : State) : Action → Prop
  | .call c => .cancel p ∉ c.ops s
  | .finish id _ o => id = p → o = .returned true
  | _ => True

def Handler.isResumed : Handler → Bool
  | .resumed _ => true
  | _ => false

/-- The handler `f` does not end the task: one that `resume_internal` made meets an aborted wait only
while the task is `Suspended`, and the task is `Running` when another one looks at the state after an
aborted wait and when one does after the closure. -/
def KeepsHandle (t : Task) (f : Flight) : Prop :=
  match f.stage with
  | .entered .operationAborted => Handler.isResumed f.handler = true → t.state = .suspended
  | .tested .operationAborted | .returned _ => t.state = .running
  | _ => True

instance (t : Task) (f : Flight) : Decidable (KeepsHandle t f) := by
  unfold KeepsHandle; split <;> infer_instance

/-- No handler of `p` ends the task. -/
def KeepsPeriodic (p : TaskId) (s : State) : Action → Prop
  | .advance id f => id = p → KeepsHandle (s.heap p) f
  | _ => True

/-- The steps of the runs in which `p` is kept. -/
def Steady (p : TaskId) (s : State) (a : Action) : Prop := Spared p s a ∧ KeepsPeriodic p s a

instance (p : TaskId) (s : State) (a : Action) : Decidable (Spared p s a) :=
  match a with
  | .call _ => inferInstanceAs (Decidable (_ ∉ _))
  | .finish _ _ _ => inferInstanceAs (Decidable (_ → _))
  | .tick | .post .. | .postNext _ | .locked | .expire _ | .enter .. | .advance .. | .wait _ | .wake _ =>
    isTrue trivial

instance (p : TaskId) (s : State) (a : Action) : Decidable (KeepsPeriodic p s a) :=
  match a with
  | .advance _ _ => inferInstanceAs (Decidable (_ → _))
  | .tick | .post .. | .postNext _ | .call _ | .locked | .expire _ | .enter .. | .finish .. | .wait _
  | .wake _ => isTrue trivial

instance (p : TaskId) (s : State) (a : Action) : Decidable (Steady p s a) :=
  inferInstanceAs (Decidable (_ ∧ _))

/-- The handler came with success and has neither set the timer anew nor ended. -/
def taken : Stage → Bool
  | .entered .success | .tested .success => true
  | .claiming | .skipping | .rearming _ | .executing | .returned _ => true
  | _ => false

/-- The handler that set `is_executing`. -/
def owns : Stage → Bool
  | .executing | .returned _ | .rearming false | .exiting => true
  | _ => false

def calm (f : Flight) : Bool :=
  match f.stage with
  | .finishing _ | .settling _ | .removing => false
  | .tested .operationAborted => !Handler.isResumed f.handler
  | .returned shouldContinue => shouldContinue
  | _ => true

/-- The closure will be called: a handler waits for the timer, or is queued or under way with
success. -/
def Served (t : Task) : Prop :=
  waits t ≠ [] ∨ (∃ c ∈ t.queue, c.ec = .success) ∨ ∃ f ∈ t.flights, taken f.stage = true

/-- A periodic task that is kept. -/
structure PeriodicOk (t : Task) : Prop where
  timer : t.post ≠ .inserted → t.timer ≠ none
  saved : t.post = .saved ∨ t.post = .scheduled → t.savedPeriodicTask = true
  state : t.state = .running ∨ t.state = .suspended
  repeats : t.repeats = true
  calm : ∀ f ∈ t.flights, calm f = true
  owner : t.flights.countP (owns ·.stage) = t.isExecuting.toNat

/-- A suspend of `p` has cancelled the timer and not set the state yet, or a resume has set the
state and not the timer. -/
def HalfDone (p : TaskId) (lock : List LockedOp) : Prop :=
  lock.head? = some (.setSuspended p) ∨ lock.head? = some (.rearm p)

instance (p : TaskId) (lock : List LockedOp) : Decidable (HalfDone p lock) := by
  unfold HalfDone; infer_instance

def ServedIf (t : Task) : Prop := t.post = .scheduled → t.state = .running → Served t

/-- What is kept for the periodic task `p`. -/
structure Lasting (p : TaskId) (s : State) : Prop where
  mem : p ∈ s.tasks
  lock : .cancel p ∉ s.lock
  task : PeriodicOk (s.heap p)
  served : ¬ HalfDone p s.lock → ServedIf (s.heap p)

/-! ### One handle -/

theorem servedIf_of_waits {t : Task} (h : waits t ≠ []) : ServedIf t := fun _ _ => .inl h

theorem servedIf_of_state {t : Task} (h : t.state = .suspended) : ServedIf t := by
  intro _ hr; rw [h] at hr; cases hr

section PeriodicOk
variable {t : Task} (ht : PeriodicOk t)
include ht

theorem PeriodicOk.arm {expiry : ℤ} {h : Handler} : PeriodicOk (arm t expiry h) :=
  ⟨fun _ => by simp [Steps.arm], ht.saved, ht.state, ht.repeats, ht.calm, ht.owner⟩

theorem PeriodicOk.cancelTimer : PeriodicOk t.cancelTimer := by
  rw [cancelTimer_eq]
  refine ⟨fun hp => ?_, ht.saved, ht.state, ht.repeats, ht.calm, ht.owner⟩
  simpa using ht.timer hp

theorem PeriodicOk.setState {state : TaskState} (h : state = .running ∨ state = .suspended) :
    PeriodicOk { t with state := state } :=
  ⟨ht.timer, ht.saved, h, ht.repeats, ht.calm, ht.owner⟩

theorem PeriodicOk.enter (c : Completion) : PeriodicOk (t.enter c) := by
  refine ⟨ht.timer, ht.saved, ht.state, ht.repeats, fun f hf => ?_, ?_⟩
  · rcases mem_cons.mp hf with rfl | hf
    · rfl
    · exact ht.calm f hf
  · exact ht.owner

theorem PeriodicOk.goes {f : Flight} (hf : f ∈ t.flights) {next : Option Stage} {b : Bool}
    (hcalm : ∀ stage, next = some stage → Periodic.calm ⟨f.handler, stage⟩ = true)
    (hbusy : b.toNat + (owns f.stage).toNat = t.isExecuting.toNat + (next.elim false owns).toNat) :
    PeriodicOk { t.goes f next with isExecuting := b } := by
  refine ⟨ht.timer, ht.saved, ht.state, ht.repeats, fun f' hf' => ?_, ?_⟩
  · rcases mem_goes hf' with h | ⟨stage, hst, rfl⟩
    · exact ht.calm f' h
    · exact hcalm stage hst
  · have hcnt : (t.goes f next).flights.countP (owns ·.stage) + (owns f.stage).toNat =
        t.flights.countP (owns ·.stage) + (next.elim false owns).toNat :=
      countP_goes (owns ·.stage) hf next
    have howner := ht.owner
    change (t.goes f next).flights.countP (owns ·.stage) = b.toNat
    omega

theorem PeriodicOk.isExecuting_of_owns {f : Flight} (hf : f ∈ t.flights)
    (h : owns f.stage = true) : t.isExecuting = true := by
  have hpos : 0 < t.flights.countP (owns ·.stage) := countP_pos_iff.mpr ⟨f, hf, h⟩
  rw [ht.owner] at hpos
  cases hb : t.isExecuting with
  | true => rfl
  | false => rw [hb] at hpos; cases hpos

end PeriodicOk

theorem Served.goes {t : Task} (h : Served t) {f : Flight} {next : Option Stage}
    (hnext : taken f.stage = true → ∃ stage, next = some stage ∧ taken stage = true) :
    Served (t.goes f next) := by
  rcases h with hw | hq | ⟨f', hf', htaken⟩
  · exact .inl hw
  · exact .inr (.inl hq)
  · refine .inr (.inr ?_)
    by_cases he : f' = f
    · subst he
      obtain ⟨stage, rfl, hst⟩ := hnext htaken
      exact ⟨⟨f'.handler, stage⟩, by simp [Task.goes], hst⟩
    · exact ⟨f', mem_append_right _ ((mem_erase_of_ne he).mpr hf'), htaken⟩

theorem Served.enter {t : Task} (h : Served t) (c : Completion) : Served (t.enter c) := by
  rcases h with hw | ⟨c', hc', hsucc⟩ | ⟨f, hf, htaken⟩
  · exact .inl hw
  · by_cases he : c' = c
    · subst he
      exact .inr (.inr ⟨_, mem_cons_self .., by simp [taken, hsucc]⟩)
    · exact .inr (.inl ⟨c', (mem_erase_of_ne he).mpr hc', hsucc⟩)
  · exact .inr (.inr ⟨f, mem_cons_of_mem _ hf, htaken⟩)

/-- A handler that only reads the handle stays calm, hands `is_executing` on, and does not lose the
closure it was to call. -/
theorem PeriodicOk.next {t : Task} (ht : PeriodicOk t) {f : Flight} (hf : f ∈ t.flights)
    (hok : FlightOk .periodic f) (hreads : reads f.stage = true) (hkeep : KeepsHandle t f) :
    (∀ stage, t.next f = some stage → Periodic.calm ⟨f.handler, stage⟩ = true) ∧
      (busyAfter t f).toNat + (owns f.stage).toNat = t.isExecuting.toNat + ((t.next f).elim false owns).toNat ∧
      (t.state = .running → taken f.stage = true → ∃ stage, t.next f = some stage ∧ taken stage = true) := by
  have hper : f.handler.isPeriodic = true := typeOf_isPeriodic.mpr hok.type
  have hwrap : f.handler ≠ .wrapper := by rintro h; rw [h] at hper; cases hper
  have hcanceled : t.state ≠ .canceled := by rcases ht.state with h | h <;> simp [h]
  have hcalm := ht.calm f hf
  have howns := ht.isExecuting_of_owns hf
  obtain ⟨handler, stage⟩ := f
  cases stage with
  | entered ec =>
    rcases ht.state with hst | hst
    · have hn : t.next ⟨handler, .entered ec⟩ = some (.tested ec) := by
        simp [Task.next, afterEntered, hwrap, hst]
      rw [hn]
      cases ec with
      | success => exact ⟨by rintro _ ⟨⟩; rfl, rfl, fun _ _ => ⟨_, rfl, rfl⟩⟩
      | operationAborted =>
        refine ⟨?_, rfl, fun _ h => by cases h⟩
        rintro _ ⟨⟩
        have : Handler.isResumed handler ≠ true := fun h => by
          have := hkeep h
          rw [hst] at this
          cases this
        simpa [Periodic.calm] using this
    · have hn : t.next ⟨handler, .entered ec⟩ = none := by
        simp [Task.next, afterEntered, hwrap, hst]
      rw [hn]
      exact ⟨by simp, rfl, fun h => by rw [hst] at h; cases h⟩
  | tested ec =>
    cases ec with
    | success =>
      have hn : t.next ⟨handler, .tested .success⟩ = some .claiming := by
        simp [Task.next, afterTested, hper, hcanceled]
      rw [hn]
      exact ⟨by rintro _ ⟨⟩; rfl, rfl, fun _ _ => ⟨_, rfl, rfl⟩⟩
    | operationAborted =>
      have hst : t.state = .running := hkeep
      have hn : t.next ⟨handler, .tested .operationAborted⟩ = none := by
        cases handler with
        | resumed => cases hcalm
        | _ => simp [Task.next, afterTested, hst]
      rw [hn]
      exact ⟨by simp, rfl, fun _ h => by cases h⟩
  | claiming =>
    cases hb : t.isExecuting with
    | true =>
      have hn : t.next ⟨handler, .claiming⟩ = some .skipping := by simp [Task.next, hb]
      rw [hn]
      exact ⟨by rintro _ ⟨⟩; rfl, rfl, fun _ _ => ⟨_, rfl, rfl⟩⟩
    | false =>
      have hn : t.next ⟨handler, .claiming⟩ = some .executing := by simp [Task.next, hb]
      rw [hn]
      exact ⟨by rintro _ ⟨⟩; rfl, rfl, fun _ _ => ⟨_, rfl, rfl⟩⟩
  | skipping =>
    have hn : t.next ⟨handler, .skipping⟩ =
        if t.state = .running then some (.rearming true) else none := by
      simp [Task.next, Task.continues, ht.repeats]
    rw [hn]
    rcases ht.state with hst | hst
    · rw [if_pos hst]
      exact ⟨by rintro _ ⟨⟩; rfl, rfl, fun _ _ => ⟨_, rfl, rfl⟩⟩
    · rw [if_neg (by rw [hst]; decide)]
      exact ⟨by simp, rfl, fun h => by rw [hst] at h; cases h⟩
  | returned shouldContinue =>
    have hst : t.state = .running := hkeep
    have hret : shouldContinue = true := hcalm
    have hn : t.next ⟨handler, .returned shouldContinue⟩ = some (.rearming false) := by
      simp [Task.next, Task.continues, ht.repeats, hst, hret]
    rw [hn]
    exact ⟨by rintro _ ⟨⟩; rfl, rfl, fun _ _ => ⟨_, rfl, rfl⟩⟩
  | exiting =>
    refine ⟨by simp [Task.next], ?_, fun _ h => by cases h⟩
    rw [howns rfl]
    rfl
  | _ => cases hreads

/-! ### Steps -/

section Lasting
variable {p : TaskId} {s s' : State} (hl : Lasting p s)
include hl

theorem Lasting.frame (hheap : s'.heap p = s.heap p) (hmem : p ∈ s'.tasks) (hlock : s'.lock = s.lock) : Lasting p s' :=
  ⟨hmem, hlock ▸ hl.lock, hheap ▸ hl.task, fun h => hheap ▸ hl.served (hlock ▸ h)⟩

theorem Lasting.setTask {id : TaskId} {t : Task} (h : id = p → PeriodicOk t ∧ (ServedIf (s.heap id) → ServedIf t)) :
    Lasting p (s.setTask id t) := by
  by_cases he : id = p
  · subst he
    have hheap : (s.setTask id t).heap id = t := by simp [State.setTask]
    refine ⟨hl.mem, hl.lock, ?_, fun hh => ?_⟩
    · rw [hheap]; exact (h rfl).1
    · rw [hheap]; exact (h rfl).2 (hl.served hh)
  · exact hl.frame (by simp [State.setTask, Ne.symm he]) hl.mem rfl

theorem Lasting.without {id : TaskId} (hne : id ≠ p) {t : Task} (groups : Group → List TaskId) :
    Lasting p (without s id t groups) :=
  hl.frame (by simp [Steps.without, Ne.symm hne]) ((mem_erase_of_ne (Ne.symm hne)).mpr hl.mem) rfl

theorem Lasting.poster (htype : (s.heap p).type = .periodic) {id : TaskId} {t' : Task}
    (h : Poster s.now (s.heap id) t') : Lasting p (s.setTask id t') := by
  refine hl.setTask fun he => ?_
  subst he
  have ht := hl.task
  cases h with
  | timer hp =>
    exact ⟨⟨fun _ => by simp, by simp, ht.state, ht.repeats, ht.calm, ht.owner⟩, fun _ hs => by cases hs⟩
  | promise hp =>
    exact ⟨⟨fun _ => ht.timer (by simp [hp]), by simp, ht.state, ht.repeats, ht.calm, ht.owner⟩,
      fun _ hs => by cases hs⟩
  | wrapper _ hty => rw [htype] at hty; cases hty
  | savedTask _ hty => rw [htype] at hty; cases hty
  | savedPeriodicTask hp =>
    exact ⟨⟨fun _ => ht.timer (by simp [hp]), fun _ => rfl, ht.state, ht.repeats, ht.calm, ht.owner⟩,
      fun _ hs => by cases hs⟩
  | scheduleOnce _ _ hty => rw [htype] at hty; cases hty
  | schedulePeriodic expiry hp =>
    have ha : PeriodicOk (Steps.arm (s.heap id) expiry .periodic) := ht.arm
    exact ⟨⟨fun _ => ha.timer (by simp [Steps.arm, hp]), fun _ => ht.saved (.inl hp), ha.state,
      ha.repeats, ha.calm, ha.owner⟩, fun _ => servedIf_of_waits (by simp [waits, Steps.arm])⟩

theorem Lasting.go (hw : Wf s) (htype : (s.heap p).type = .periodic) {id : TaskId} {f : Flight}
    (hf : f ∈ (s.heap id).flights) (hreads : reads f.stage = true)
    (hkeep : id = p → KeepsHandle (s.heap p) f) :
    Lasting p (s.setTask id { (s.heap id).goes f ((s.heap id).next f) with
      isExecuting := busyAfter (s.heap id) f }) := by
  refine hl.setTask fun he => ?_
  subst he
  have hok : FlightOk .periodic f := htype ▸ (hw.task id).flights f hf
  obtain ⟨hcalm, hbusy, htaken⟩ := hl.task.next hf hok hreads (hkeep rfl)
  exact ⟨hl.task.goes hf hcalm hbusy, fun hs hp hr => (hs hp hr).goes (htaken hr)⟩

theorem Lasting.locked (htype : (s.heap p).type = .periodic) {op : LockedOp}
    {rest : List LockedOp} (hlock : s.lock = op :: rest)
    (h : Locked { s with lock := rest } op s') : Lasting p s' := by
  have hrest : .cancel p ∉ rest := fun h => hl.lock (hlock ▸ mem_cons_of_mem _ h)
  have hop : op ≠ .cancel p := by
    rintro rfl
    exact hl.lock (hlock ▸ mem_cons_self ..)
  have hserved : op ≠ .setSuspended p → op ≠ .rearm p → ServedIf (s.heap p) := by
    intro h1 h2
    refine hl.served ?_
    rw [hlock]
    simp [HalfDone, h1, h2]
  -- the other tasks' operations leave the handle of `p`
  have same : ∀ {s' : State}, s'.heap p = s.heap p → p ∈ s'.tasks → .cancel p ∉ s'.lock →
      op ≠ .setSuspended p → op ≠ .rearm p → Lasting p s' := fun hh hm hlk h1 h2 =>
    ⟨hm, hlk, hh ▸ hl.task, fun _ => hh ▸ hserved h1 h2⟩
  have hsaved : hasSaved (s.heap p) = false → ∀ t : Task, t.post = (s.heap p).post → ServedIf t := by
    intro hs t ht hp
    rw [hasSaved, htype] at hs
    rw [hl.task.saved (.inr (ht ▸ hp))] at hs
    cases hs
  cases h with
  | none op hno => exact same rfl hl.mem hrest (hno p).2.1 (hno p).1
  | @cancel id hid groups =>
    have hne : p ≠ id := by rintro rfl; exact hop rfl
    exact same (by simp [Steps.without, hne]) ((mem_erase_of_ne hne).mpr hl.mem) hrest (by simp) (by simp)
  | @suspend id hid hty hstate remaining =>
    by_cases he : id = p
    · subst he
      have ht : PeriodicOk ({ s.heap id with remainingTime := remaining }.cancelTimer) :=
        PeriodicOk.cancelTimer ⟨hl.task.timer, hl.task.saved, hl.task.state, hl.task.repeats,
          hl.task.calm, hl.task.owner⟩
      exact ⟨hl.mem, by simpa using hrest, by simpa [State.setTask] using ht, fun h => absurd (.inl rfl) h⟩
    · exact same (by simp [State.setTask, Ne.symm he]) hl.mem (by simpa using hrest) (by simp) (by simp)
  | setSuspended id =>
    by_cases he : id = p
    · subst he
      refine ⟨hl.mem, hrest, ?_, fun _ => servedIf_of_state ?_⟩
      · simpa [setSuspended, State.setTask] using hl.task.setState (.inr rfl)
      · simp [setSuspended, State.setTask]
    · exact same (by simp [setSuspended, State.setTask, Ne.symm he]) hl.mem hrest (by simpa using he) (by simp)
  | @resume id hid hty hstate =>
    by_cases he : id = p
    · subst he
      exact ⟨hl.mem, by simpa using hrest, hl.task, fun _ => servedIf_of_state hstate⟩
    · exact same rfl hl.mem (by simpa using hrest) (by simp) (by simp)
  | setRunning id =>
    by_cases he : id = p
    · subst he
      refine ⟨hl.mem, by simpa [setRunning] using hrest, ?_, fun h => absurd (.inr rfl) h⟩
      simpa [setRunning, State.setTask] using hl.task.setState (.inl rfl)
    · exact same (by simp [setRunning, State.setTask, Ne.symm he]) hl.mem
        (by simpa [setRunning] using hrest) (by simp) (by simp)
  | @rearm id hsv htim expiry h hty =>
    by_cases he : id = p
    · subst he
      refine ⟨hl.mem, hrest, by simpa [State.setTask] using hl.task.arm, fun _ => ?_⟩
      exact servedIf_of_waits (by simp [State.setTask, waits, Steps.arm])
    · exact same (by simp [State.setTask, Ne.symm he]) hl.mem hrest (by simp) (by simpa using he)
  | @rearmNone id hsv =>
    by_cases he : id = p
    · subst he
      exact ⟨hl.mem, hrest, hl.task, fun _ => hsaved hsv _ rfl⟩
    · exact same rfl hl.mem hrest (by simp) (by simpa using he)
  | @restart id hid hstate hsv htim expiry h hty =>
    by_cases he : id = p
    · subst he
      refine ⟨hl.mem, hrest, by simpa [State.setTask] using hl.task.arm, fun _ => ?_⟩
      exact servedIf_of_waits (by simp [State.setTask, waits, Steps.arm])
    · exact same (by simp [State.setTask, Ne.symm he]) hl.mem hrest (by simp) (by simp)
  | @restartNone id hid hsv =>
    by_cases he : id = p
    · subst he
      refine ⟨hl.mem, hrest, by simpa [State.setTask] using hl.task.cancelTimer, fun _ => ?_⟩
      exact hsaved hsv _ (by simp [State.setTask, cancelTimer_eq])
    · exact same (by simp [State.setTask, Ne.symm he]) hl.mem hrest (by simp) (by simp)

theorem Lasting.effect (hw : Wf s) (htype : (s.heap p).type = .periodic) (hid : s.created p)
    {a : Action} (hc : Steady p s a) (h : Effect s a s') : Lasting p s' := by
  obtain ⟨hspared, hkeep⟩ := hc
  have ht := hl.task
  cases h with
  | tick => exact hl.frame rfl hl.mem rfl
  | post posted group hfree =>
    have hne : p ≠ s.nextId := Nat.ne_of_lt hid.2
    cases posted <;> exact hl.frame (by simp [postInsert, createHandle, hne])
      (mem_append_left _ hl.mem) rfl
  | postNext _ h => exact hl.poster htype h
  | call c hfree =>
    have hserved : ServedIf (s.heap p) := hl.served (by rw [hfree]; simp [HalfDone])
    exact ⟨hl.mem, hspared, ht, fun _ => hserved⟩
  | locked hlock h => exact hl.locked htype hlock h
  | @expire id hwaits timer htim =>
    refine hl.setTask fun he => ?_
    subst he
    refine ⟨⟨fun _ => by simp, ht.saved, ht.state, ht.repeats, ht.calm, ht.owner⟩, fun _ _ _ => ?_⟩
    obtain ⟨h, hh⟩ := exists_mem_of_ne_nil _ hwaits
    exact .inr (.inl ⟨⟨h, .success⟩, mem_append_right _ (List.mem_map_of_mem hh), rfl⟩)
  | @enter id c hc =>
    refine hl.setTask fun he => ?_
    subst he
    exact ⟨ht.enter c, fun hs hp hr => (hs hp hr).enter c⟩
  | go hf hstg hbusy =>
    subst hbusy
    exact hl.go hw htype hf hstg hkeep
  | @rearming id f skip hf hstg htim expiry interval =>
    refine hl.setTask fun he => ?_
    subst he
    have ha : PeriodicOk { Steps.arm (s.heap id) expiry .periodic with intervalMs := interval } :=
      have ha : PeriodicOk (Steps.arm (s.heap id) expiry .periodic) := ht.arm
      ⟨ha.timer, ha.saved, ha.state, ha.repeats, ha.calm, ha.owner⟩
    refine ⟨ha.goes (b := (s.heap id).isExecuting) hf (fun stage h => ?_) ?_,
      fun _ => servedIf_of_waits (by simp [waits, Steps.arm, Task.goes])⟩
    · cases skip <;> cases h; rfl
    · cases skip <;> simp [hstg, owns, Steps.arm]
  | @finishing id f success hf hstg =>
    have hne : id ≠ p := by
      rintro rfl
      have := ht.calm f hf
      simp [calm, hstg] at this
    exact hl.frame (by simp [finishingStep, State.setTask, Ne.symm hne]) hl.mem rfl
  | @settling id f success hf hstg hfree groups =>
    refine hl.without (fun he => ?_) groups
    subst he
    have := ht.calm f hf
    simp [calm, hstg] at this
  | @removing id f hf hstg hfree groups =>
    refine hl.without (fun he => ?_) groups
    subst he
    have := ht.calm f hf
    simp [calm, hstg] at this
  | @finish id f o hf hstg =>
    refine hl.setTask fun he => ?_
    subst he
    have ho : o = .returned true := hspared rfl
    have hper : f.handler.isPeriodic = true :=
      typeOf_isPeriodic.mpr (htype ▸ (hw.task id).flights f hf).type
    subst ho
    have hstep : executingStep (s.heap id) f (.returned true) =
        (s.heap id).goes f (some (.returned true)) := by simp [executingStep, hper]
    rw [hstep]
    refine ⟨ht.goes (b := (s.heap id).isExecuting) hf (fun stage h => ?_) ?_,
      fun hs hp hr => (hs hp hr).goes fun _ => ⟨_, rfl, rfl⟩⟩
    · cases h; rfl
    · simp [hstg, owns]
  | wait => exact hl.frame rfl hl.mem rfl
  | wake => exact hl.frame rfl hl.mem rfl

end Lasting

theorem lasting_post {s : State} (hfree : s.lock = []) {posted : Post} {group : Group}
    (htype : ((postInsert s group posted).heap s.nextId).type = .periodic) :
    Lasting s.nextId (postInsert s group posted) := by
  cases posted with
  | post => simp [postInsert, createHandle] at htype
  | postDelayed => simp [postInsert, createHandle] at htype
  | postPeriodic intervalMs =>
    refine ⟨by simp [postInsert, createHandle], by simp [postInsert, createHandle, hfree], ?_,
      fun _ hp => by simp [postInsert, createHandle] at hp⟩
    simp only [postInsert, createHandle, Function.update_self]
    exact ⟨by simp, by simp, .inl rfl, rfl, by simp, rfl⟩

/-- **A periodic task stays in `tasks_`** in the runs that keep it. -/
theorem lasting_inductive (p : TaskId) : scheduler.Inductive (Steady p) fun s =>
    Wf s ∧ (s.created p → (s.heap p).type = .periodic → Lasting p s) := by
  refine (wf_inductive.mono fun _ _ _ => trivial).and ?_ fun s a s' hw hl hc h hid htype => ?_
  · rintro s ⟨n, rfl⟩ hid
    exact absurd hid.2 (Nat.not_lt.mpr hid.1)
  · have he := step_effect h
    rcases created_effect he hid with ⟨hold, hty⟩ | ⟨posted, group, rfl, hfree, rfl⟩
    · rw [hty] at htype
      exact (hl hold htype).effect hw htype hold hc he
    · cases he
      exact lasting_post hfree htype

/-! ### The closure is executed -/

/-- The steps that time and the handlers of `p` make by themselves. -/
def byHandlers (p : TaskId) : Action → Bool
  | .tick => true
  | .expire id | .enter id _ | .advance id _ => id = p
  | _ => false

/-- Some steps of the handlers of `p` alone start its closure. -/
def WillExecute (p : TaskId) (s : State) : Prop :=
  ∃ as s', (∀ a ∈ as, byHandlers p a = true) ∧ scheduler.exec s as = some s' ∧
    (s'.heap p).executions = (s.heap p).executions + 1

section WillExecute
variable {p : TaskId} {s s' : State}

theorem WillExecute.before {a : Action} (hw : WillExecute p s') (ha : byHandlers p a = true)
    (hst : scheduler.step s a = some s') (he : (s'.heap p).executions = (s.heap p).executions) :
    WillExecute p s := by
  obtain ⟨as, s'', has, hex, hcnt⟩ := hw
  refine ⟨a :: as, s'', fun b hb => ?_, ?_, he ▸ hcnt⟩
  · rcases mem_cons.mp hb with rfl | hb
    · exact ha
    · exact has b hb
  · rw [Machine.exec]
    exact (bind_eq_some_iff).mpr ⟨s', hst, hex⟩

theorem WillExecute.next {f : Flight} (stage : Stage)
    (hst : scheduler.step s (.advance p f) = some (s.setTask p ((s.heap p).goes f (some stage))))
    (hne : stage ≠ .executing)
    (hw : WillExecute p (s.setTask p ((s.heap p).goes f (some stage)))) : WillExecute p s :=
  hw.before (by simp [byHandlers]) hst (by simp [State.setTask, Task.goes, hne])

/-- The handle is `Running`, and no handler owns the closure. -/
structure Idle (t : Task) : Prop where
  state : t.state = .running
  isExecuting : t.isExecuting = false

theorem willExecute_claiming (hi : Idle (s.heap p)) {h : Handler}
    (hf : ⟨h, .claiming⟩ ∈ (s.heap p).flights) : WillExecute p s := by
  refine ⟨[.advance p ⟨h, .claiming⟩], s.setTask p
    { (s.heap p).goes ⟨h, .claiming⟩ (some .executing) with isExecuting := true },
    by simp [byHandlers], ?_, ?_⟩
  · simp [Machine.exec, scheduler, step, hf, advance, Task.next, hi.isExecuting]
  · simp [State.setTask, Task.goes]

variable {h : Handler} (hper : h.isPeriodic = true)
include hper

theorem willExecute_tested (hi : Idle (s.heap p))
    (hf : ⟨h, .tested .success⟩ ∈ (s.heap p).flights) : WillExecute p s := by
  refine WillExecute.next .claiming (f := ⟨h, .tested .success⟩) ?_ (by simp) ?_
  · simp [scheduler, step, hf, advance, Task.next, afterTested, hi.state, hper]
  · exact willExecute_claiming (h := h) (by simpa [State.setTask] using ⟨hi.state, hi.isExecuting⟩)
      (by simp [State.setTask, Task.goes])

theorem willExecute_entered (hi : Idle (s.heap p))
    (hf : ⟨h, .entered .success⟩ ∈ (s.heap p).flights) : WillExecute p s := by
  have hwrap : h ≠ .wrapper := by rintro rfl; cases hper
  refine WillExecute.next (.tested .success) (f := ⟨h, .entered .success⟩) ?_ (by simp) ?_
  · simp [scheduler, step, hf, advance, Task.next, afterEntered, hi.state, hwrap]
  · exact willExecute_tested hper (by simpa [State.setTask] using ⟨hi.state, hi.isExecuting⟩)
      (by simp [State.setTask, Task.goes])

theorem willExecute_queued (hi : Idle (s.heap p)) (hc : ⟨h, .success⟩ ∈ (s.heap p).queue) : WillExecute p s := by
  refine WillExecute.before (a := .enter p ⟨h, .success⟩)
    (show WillExecute p (s.setTask p ((s.heap p).enter ⟨h, .success⟩)) from ?_)
    (by simp [byHandlers]) ?_ ?_
  · exact willExecute_entered hper (by simpa [State.setTask] using ⟨hi.state, hi.isExecuting⟩)
      (by simp [State.setTask, Task.enter])
  · simp [scheduler, step, hc]
  · simp [State.setTask, Task.enter]

theorem willExecute_waiting {timer : Timer} (hh : h ∈ timer.waits) :
    ∀ {s : State}, Idle (s.heap p) → (s.heap p).timer = some timer → WillExecute p s := by
  intro s hi htim
  induction hn : (timer.expiry - s.now).toNat generalizing s with
  | zero =>
    have hle : timer.expiry ≤ s.now := by omega
    have hne : timer.waits ≠ [] := ne_nil_of_mem hh
    refine WillExecute.before (a := .expire p) ?_ (by simp [byHandlers])
      (by simp only [scheduler, step, expire, htim, if_pos (And.intro hne hle)]; rfl) ?_
    · exact willExecute_queued (h := h) hper (by simpa [State.setTask] using ⟨hi.state, hi.isExecuting⟩)
        (by simpa [State.setTask] using .inr hh)
    · simp [State.setTask]
  | succ n ih =>
    refine WillExecute.before (a := .tick) (show WillExecute p { s with now := s.now + 1 } from ?_) rfl rfl rfl
    exact ih (s := { s with now := s.now + 1 }) hi htim (by simp only; omega)

theorem willExecute_rearming (hi : Idle (s.heap p)) (htim : (s.heap p).timer ≠ none)
    (hf : ⟨h, .rearming true⟩ ∈ (s.heap p).flights) : WillExecute p s := by
  obtain ⟨t', ht'⟩ : ∃ t', rearmingStep s.now (s.heap p) ⟨h, .rearming true⟩ true = some t' ∧
      Idle t' ∧ t'.executions = (s.heap p).executions ∧
      ∃ timer, t'.timer = some timer ∧ .periodic ∈ timer.waits := by
    obtain ⟨timer, ht⟩ := ne_none_iff_exists'.mp htim
    cases h <;>
      simp [rearmingStep, schedulePeriodic, Task.asyncWait, ht, Task.goes] <;>
      exact ⟨hi.state, hi.isExecuting⟩
  obtain ⟨hst, hi', hexec, timer, htm, hmem⟩ := ht'
  refine WillExecute.before (a := .advance p ⟨h, .rearming true⟩)
    (show WillExecute p (s.setTask p t') from ?_) (by simp [byHandlers]) (by simp [scheduler, step, hf, advance, hst])
    (by simpa [State.setTask] using hexec)
  exact willExecute_waiting (h := .periodic) rfl hmem (by simpa [State.setTask] using hi')
    (by simpa [State.setTask] using htm)

theorem willExecute_skipping (hi : Idle (s.heap p)) (htim : (s.heap p).timer ≠ none)
    (hrep : (s.heap p).repeats = true) (hf : ⟨h, .skipping⟩ ∈ (s.heap p).flights) :
    WillExecute p s := by
  refine WillExecute.next (.rearming true) (f := ⟨h, .skipping⟩) ?_ (by simp) ?_
  · simp [scheduler, step, hf, advance, Task.next, Task.continues, hi.state, hrep]
  · exact willExecute_rearming hper (by simpa [State.setTask] using ⟨hi.state, hi.isExecuting⟩)
      (by simpa [State.setTask, Task.goes] using htim) (by simp [State.setTask, Task.goes])

end WillExecute

theorem Lasting.willExecute {p : TaskId} {s : State} (hw : Wf s) (hl : Lasting p s)
    (htype : (s.heap p).type = .periodic) (hpost : (s.heap p).post = .scheduled)
    (hi : Idle (s.heap p)) (hs : Served (s.heap p)) : WillExecute p s := by
  have htim : (s.heap p).timer ≠ none := hl.task.timer (by simp [hpost])
  have hper : ∀ h, typeOf h = (s.heap p).type → h.isPeriodic = true := fun h hh =>
    typeOf_isPeriodic.mpr (hh.trans htype)
  rcases hs with hwaits | ⟨⟨h, ec⟩, hc, hsucc⟩ | ⟨⟨h, stage⟩, hf, htaken⟩
  · obtain ⟨timer, ht⟩ := ne_none_iff_exists'.mp htim
    obtain ⟨h, hh⟩ := exists_mem_of_ne_nil _ hwaits
    have hty := hper h ((hw.task p).waits h hh)
    rw [waits, ht] at hh
    exact willExecute_waiting hty hh hi ht
  · cases hsucc
    exact willExecute_queued (hper h ((hw.task p).queue _ hc)) hi hc
  · have hty := hper h ((hw.task p).flights _ hf).type
    have howns := hl.task.isExecuting_of_owns hf
    rw [hi.isExecuting] at howns
    cases stage with
    | entered ec =>
      cases ec with
      | success => exact willExecute_entered hty hi hf
      | operationAborted => cases htaken
    | tested ec =>
      cases ec with
      | success => exact willExecute_tested hty hi hf
      | operationAborted => cases htaken
    | claiming => exact willExecute_claiming hi hf
    | skipping => exact willExecute_skipping hty hi htim hl.task.repeats hf
    | rearming skip =>
      cases skip with
      | true => exact willExecute_rearming hty hi htim hf
      | false => exact absurd (howns rfl) (by simp)
    | executing => exact absurd (howns rfl) (by simp)
    | returned => exact absurd (howns rfl) (by simp)
    | _ => cases htaken

/-- **No periodic task is lost** in the runs in which `p` is spared and no handler ends it: it stays
in `tasks_`, and armed by its poster, `Running` and not halfway through a suspend or resume it is
served; if moreover its closure is not executing, its handlers alone execute it again. -/
theorem periodic_lasts {p : TaskId} {s : State} (h : scheduler.Reach (Steady p) s)
    (hid : s.created p) (htype : (s.heap p).type = .periodic) :
    p ∈ s.tasks ∧ (¬ HalfDone p s.lock → (s.heap p).post = .scheduled → (s.heap p).state = .running →
      Served (s.heap p) ∧ ((s.heap p).isExecuting = false → WillExecute p s)) := by
  obtain ⟨hw, hlasting⟩ := (lasting_inductive p).reach h
  have hl := hlasting hid htype
  refine ⟨hl.mem, fun hhalf hpost hstate => ?_⟩
  have hs := hl.served hhalf hpost hstate
  exact ⟨hs, fun hb => hl.willExecute hw htype hpost ⟨hstate, hb⟩ hs⟩

/-- Posted, suspended, resumed and executed once; the wait that the suspend aborted is dropped. -/
def keptRun : List Action :=
  [.post (.postPeriodic 0) "", .postNext 1, .postNext 1, .postNext 1, .postNext 1,
    .call (.suspend 1), .locked, .locked, .call (.resume 1), .locked, .locked, .locked, .expire 1,
    .enter 1 ⟨.periodic, .operationAborted⟩, .advance 1 ⟨.periodic, .entered .operationAborted⟩,
    .advance 1 ⟨.periodic, .tested .operationAborted⟩,
    .enter 1 ⟨.resumed 0, .success⟩, .advance 1 ⟨.resumed 0, .entered .success⟩,
    .advance 1 ⟨.resumed 0, .tested .success⟩, .advance 1 ⟨.resumed 0, .claiming⟩,
    .finish 1 ⟨.resumed 0, .executing⟩ (.returned true),
    .advance 1 ⟨.resumed 0, .returned true⟩, .advance 1 ⟨.resumed 0, .rearming false⟩,
    .advance 1 ⟨.resumed 0, .exiting⟩]

theorem periodic_lasts_keptRun : ∃ s, (s.heap 1).executions = 1 ∧ 1 ∈ s.tasks ∧
    Served (s.heap 1) ∧ WillExecute 1 s := by
  have hrun : ∃ s, scheduler.execWhen (Steady 1) (initial 1) keptRun = some s ∧
      s.created 1 ∧ (s.heap 1).type = .periodic ∧ ¬ HalfDone 1 s.lock ∧
      (s.heap 1).post = .scheduled ∧ (s.heap 1).state = .running ∧
      (s.heap 1).isExecuting = false ∧ (s.heap 1).executions = 1 := by decide
  obtain ⟨s, hs, hid, htype, hhalf, hpost, hstate, hb, hexec⟩ := hrun
  obtain ⟨hmem, hserved⟩ := periodic_lasts (.execWhen (.init ⟨1, rfl⟩) hs) hid htype
  have := hserved hhalf hpost hstate
  exact ⟨s, hexec, hmem, this.1, this.2 hb⟩

/-- After a resume the timer is restarted: the handler that `resume_internal` made is aborted and
takes the running task out of `tasks_`. -/
def losingRun : List Action :=
  [.post (.postPeriodic 10) "", .postNext 1, .postNext 1, .postNext 1, .postNext 1,
    .call (.suspend 1), .locked, .locked, .call (.resume 1), .locked, .locked, .locked,
    .call (.restartTimer 1), .locked, .enter 1 ⟨.resumed 10, .operationAborted⟩,
    .advance 1 ⟨.resumed 10, .entered .operationAborted⟩,
    .advance 1 ⟨.resumed 10, .tested .operationAborted⟩, .advance 1 ⟨.resumed 10, .removing⟩]

theorem losingRun_lost : ¬ ∀ (p : TaskId) (s : State), scheduler.Reach (Spared p) s →
    s.created p → (s.heap p).type = .periodic → p ∈ s.tasks := by
  intro h
  have hrun : ∃ s, scheduler.execWhen (Spared 1) (initial 1) losingRun = some s ∧
      s.created 1 ∧ (s.heap 1).type = .periodic ∧ 1 ∉ s.tasks := by decide
  obtain ⟨s, hs, hid, htype, hmem⟩ := hrun
  exact hmem (h 1 s (.execWhen (.init ⟨1, rfl⟩) hs) hid htype)

end Brookesia.TaskScheduler.Periodic
