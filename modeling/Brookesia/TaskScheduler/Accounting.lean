import Brookesia.TaskScheduler.Handles

/-! # The statistics add up

Every task in `tasks_` or already gone is counted once, in `total_tasks_` and on the other side, and
`suspended_tasks_` counts the suspended ones, with two exceptions. `mark_finished` counts a task a
moment before it takes it out of `tasks_` (`settling`); this is corrected by `count settling`. And
some steps count wrongly; `CountsOnce` leaves them out: cancelling a task that is suspended, or that
is counted as finished already, suspending one whose closure has ended meanwhile, finishing one that
is suspended, counted or gone, and taking one out that nobody has counted.

* `Balanced`, `balanced_inductive`: the equations in every state of the runs under this condition.
* `statistics_add_up`: the equations as the source states them, when no handler is between counting
  its task and removing it. -/

namespace Brookesia.TaskScheduler.Accounting

open Transition Model Steps List
open Handles

/-- The handler has counted its task and not removed it yet. -/
def settles : Stage → Bool
  | .settling _ => true
  | _ => false

def settling (t : Task) : Bool := t.flights.any (settles ·.stage)

def isSuspended (t : Task) : Bool := t.state = .suspended

/-- How many tasks in `tasks_` are so. -/
def count (P : Task → Bool) (s : State) : ℕ := s.tasks.countP fun id => P (s.heap id)

/-- The operation under the mutex does not count a task twice, or a wrong one. -/
def CountsLocked (s : State) : LockedOp → Prop
  | .cancel id => id ∈ s.tasks → (s.heap id).state ≠ .suspended ∧ settling (s.heap id) = false
  | .setSuspended id => (s.heap id).state = .running
  | _ => True

/-- The handler of `id` at `stage` does not count its task twice, or a wrong one, or forget it. -/
def CountsStage (s : State) (id : TaskId) : Stage → Prop
  | .finishing _ =>
    id ∈ s.tasks ∧ (s.heap id).state ≠ .suspended ∧ settling (s.heap id) = false
  | .removing => id ∈ s.tasks → settling (s.heap id) = true
  | _ => True

def CountsOnce (s : State) : Action → Prop
  | .locked => ∀ op ∈ s.lock.head?, CountsLocked s op
  | .advance id f => CountsStage s id f.stage
  | _ => True

instance (s : State) (op : LockedOp) : Decidable (CountsLocked s op) := by
  cases op <;> unfold CountsLocked <;> infer_instance

instance (s : State) (id : TaskId) (stage : Stage) : Decidable (CountsStage s id stage) := by
  cases stage <;> unfold CountsStage <;> infer_instance

instance (s : State) (a : Action) : Decidable (CountsOnce s a) := by
  cases a <;> unfold CountsOnce <;> infer_instance

structure Balanced (s : State) : Prop where
  total : s.totalTasks + count settling s = s.completedTasks + s.failedTasks + s.canceledTasks + s.tasks.length
  suspended : s.suspendedTasks = count isSuspended s
  settled : ∀ id ∈ s.tasks, settling (s.heap id) = true → (s.heap id).state = .finished
  resuming : ∀ id, s.lock.head? = some (.setRunning id) → (s.heap id).state = .suspended

/-! ### Counting -/

theorem countP_erase_of_ne {l : List TaskId} (hnd : l.Nodup) {id : TaskId} (hid : id ∈ l)
    {P Q : TaskId → Bool} (h : ∀ id' ≠ id, Q id' = P id') :
    (l.erase id).countP Q + (P id).toNat = l.countP P := by
  have hcongr : (l.erase id).countP Q = (l.erase id).countP P :=
    countP_congr fun id' hid' => by
      rw [h id' (ne_of_mem_of_not_mem hid' (Nodup.not_mem_erase hnd))]
  rw [hcongr, (perm_cons_erase hid).countP_eq P, countP_cons]
  cases P id <;> rfl

section count
variable {P : Task → Bool} {s : State} (hnd : s.tasks.Nodup) {id : TaskId} {t : Task}

include hnd in
theorem count_setTask (hid : id ∈ s.tasks) :
    count P (s.setTask id t) + (P (s.heap id)).toNat = count P s + (P t).toNat := by
  have h1 := countP_erase_of_ne hnd hid (P := fun x => P (s.heap x)) fun _ _ => rfl
  have h2 := countP_erase_of_ne hnd hid (P := fun x => P ((s.setTask id t).heap x))
    (Q := fun x => P (s.heap x)) fun id' hne => by simp [State.setTask, hne]
  have h3 : (s.setTask id t).heap id = t := by simp [State.setTask]
  simp only [h3] at h2
  change (s.tasks.countP fun x => P ((s.setTask id t).heap x)) + _ = _
  unfold count
  omega

theorem count_setTask_of_eq (h : id ∈ s.tasks → P t = P (s.heap id)) : count P (s.setTask id t) = count P s := by
  refine countP_congr fun id' hid' => ?_
  by_cases he : id' = id
  · subst he; simp [State.setTask, h hid']
  · simp [State.setTask, he]

include hnd in
theorem count_without (hid : id ∈ s.tasks) (groups : Group → List TaskId) :
    count P (without s id t groups) + (P (s.heap id)).toNat = count P s :=
  countP_erase_of_ne hnd hid (P := fun x => P (s.heap x))
    (Q := fun x => P ((without s id t groups).heap x)) fun id' hne => by simp [Steps.without, hne]

end count

theorem without_of_not_mem {s : State} {id : TaskId} (hid : id ∉ s.tasks) (t : Task) (groups : Group → List TaskId) :
    without s id t groups = { s.setTask id t with groups := groups } := by
  simp [Steps.without, State.setTask, hid, erase_of_not_mem]

/-! ### One handle -/

variable {f : Flight} {t : Task}

theorem settling_iff : settling t = true ↔ ∃ f ∈ t.flights, settles f.stage = true := by
  simp [settling]

theorem settling_of_mem (hf : f ∈ t.flights)
    (h : settles f.stage = true) : settling t = true := settling_iff.mpr ⟨f, hf, h⟩

theorem settling_goes {next : Option Stage} (hfrom : settles f.stage = false)
    (hnext : ∀ stage, next = some stage → settles stage = false) :
    settling (t.goes f next) = settling t := by
  rw [Bool.eq_iff_iff, settling_iff, settling_iff]
  constructor
  · rintro ⟨f', hf', hs⟩
    rcases mem_goes hf' with h | ⟨stage, hst, rfl⟩
    · exact ⟨f', h, hs⟩
    · rw [hnext stage hst] at hs; cases hs
  · rintro ⟨f', hf', hs⟩
    have hne : f' ≠ f := by rintro rfl; rw [hfrom] at hs; cases hs
    exact ⟨f', mem_append_right _ ((mem_erase_of_ne hne).mpr hf'), hs⟩

theorem settling_enter (t : Task) (c : Completion) : settling (t.enter c) = settling t := by
  simp [settling, Task.enter, settles]

theorem settles_next {stage : Stage} (h : t.next f = some stage) : settles stage = false := by
  unfold Task.next at h
  split at h
  · unfold afterEntered at h
    split_ifs at h <;> cases h <;> rfl
  · next ec _ =>
    cases ec with
    | success => simp only [afterTested] at h; split_ifs at h <;> cases h <;> rfl
    | operationAborted =>
      simp only [afterTested] at h
      split at h
      · cases h; rfl
      · split_ifs at h; cases h; rfl
  · split_ifs at h <;> cases h <;> rfl
  · split_ifs at h; cases h; rfl
  · split_ifs at h <;> cases h <;> rfl
  · cases h

theorem settles_of_reads {stage : Stage} (h : reads stage = true) : settles stage = false := by
  cases stage <;> first | rfl | cases h

/-! ### Steps -/

section Balanced
variable {s s' : State} (hw : Wf s) (hb : Balanced s)

section
include hb

theorem Balanced.setTask {id : TaskId} {t : Task}
    (hset : id ∈ s.tasks → settling t = settling (s.heap id)) (hstate : t.state = (s.heap id).state) :
    Balanced (s.setTask id t) := by
  have hsame : ∀ id', ((s.setTask id t).heap id').state = (s.heap id').state := by
    intro id'
    by_cases he : id' = id
    · subst he; simp [State.setTask, hstate]
    · simp [State.setTask, he]
  refine ⟨?_, ?_, fun id' hid' h => ?_, fun id' h => ?_⟩
  · rw [count_setTask_of_eq hset]; exact hb.total
  · rw [count_setTask_of_eq fun _ => by simp [isSuspended, hstate]]; exact hb.suspended
  · rw [hsame]
    refine hb.settled id' hid' ?_
    by_cases he : id' = id
    · subst he; simpa [State.setTask, hset hid'] using h
    · simpa [State.setTask, he] using h
  · rw [hsame]; exact hb.resuming id' h

theorem Balanced.setLock {lock : List LockedOp}
    (h : ∀ id, lock.head? = some (.setRunning id) → (s.heap id).state = .suspended) :
    Balanced { s with lock := lock } :=
  ⟨hb.total, hb.suspended, hb.settled, h⟩

end

include hw hb

variable {id : TaskId}

theorem Balanced.leave (hid : id ∈ s.tasks) {n : ℕ}
    (hcnt : n + (settling (s.heap id)).toNat = 1) (hstate : (s.heap id).state ≠ .suspended)
    {lock : List LockedOp} (hlock : ∀ id, lock.head? ≠ some (.setRunning id)) (t : Task)
    (groups : Group → List TaskId) :
    Balanced (without { s with lock := lock, canceledTasks := s.canceledTasks + n } id t groups) := by
  have h1 := count_without (P := settling) (t := t) hw.nodup hid groups
  have h2 := count_without (P := isSuspended) (t := t) hw.nodup hid groups
  rw [show isSuspended (s.heap id) = false by simp [isSuspended, hstate], Bool.toNat_false, Nat.add_zero] at h2
  have h3 := hb.total
  have h4 := length_erase_of_mem hid
  have h5 := length_pos_of_mem hid
  refine ⟨?_, ?_, fun id' hid' h => ?_, fun id' h => absurd h (hlock id')⟩
  · change s.totalTasks + count settling (without s id t groups) =
      s.completedTasks + s.failedTasks + (s.canceledTasks + n) + (s.tasks.erase id).length
    omega
  · change s.suspendedTasks = (count isSuspended (without s id t groups) : ℕ)
    rw [h2]
    exact hb.suspended
  · have hne : id' ≠ id := ne_of_mem_of_not_mem hid' (Nodup.not_mem_erase hw.nodup)
    simp only [Steps.without, Function.update_of_ne hne] at h ⊢
    exact hb.settled id' (mem_of_mem_erase hid') h

theorem Balanced.without (hlock : s.lock = []) {id : TaskId} {t : Task}
    (hset : id ∈ s.tasks → settling (s.heap id) = true) (hstate : t.state = (s.heap id).state)
    (groups : Group → List TaskId) : Balanced (without s id t groups) := by
  by_cases hid : id ∈ s.tasks
  · have hs := hset hid
    exact hb.leave hw hid (n := 0) (by rw [hs]; rfl) (by rw [hb.settled id hid hs]; decide) (by simp [hlock]) t groups
  · rw [without_of_not_mem hid]
    have : Balanced (s.setTask id t) := hb.setTask (fun h => absurd h hid) hstate
    exact ⟨this.total, this.suspended, this.settled, this.resuming⟩

theorem Balanced.insert (hfree : s.lock = []) (posted : Post) (group : Group) :
    Balanced (postInsert s group posted) := by
  have hnew : s.nextId ∉ s.tasks := fun h => Nat.lt_irrefl _ (hw.created _ h).2
  have key : ∀ type repeats interval, Balanced (createHandle s type repeats interval group) := by
    intro type repeats interval
    have hcnt : ∀ P : Task → Bool, P ((createHandle s type repeats interval group).heap s.nextId) = false →
        count P (createHandle s type repeats interval group) = count P s := by
      intro P hP
      unfold count
      rw [show (createHandle s type repeats interval group).tasks = s.tasks ++ [s.nextId] from rfl,
        countP_append, countP_singleton, if_neg (by rw [hP]; decide), Nat.add_zero]
      refine countP_congr fun id hid => ?_
      have hne : id ≠ s.nextId := ne_of_mem_of_not_mem hid hnew
      simp [createHandle, hne]
    have h1 := hcnt settling (by simp [createHandle, settling])
    have h2 := hcnt isSuspended (by simp [createHandle, isSuspended])
    have h3 := hb.total
    refine ⟨?_, ?_, fun id hid h => ?_, fun id h => by simp [createHandle, hfree] at h⟩
    · rw [h1]
      simp only [createHandle, length_append, length_singleton]
      omega
    · rw [h2]; exact hb.suspended
    · by_cases he : id = s.nextId
      · subst he
        simp [createHandle, settling] at h
      · simp only [createHandle, Function.update_of_ne he] at h ⊢
        rcases mem_append.mp hid with h' | h'
        · exact hb.settled id h' h
        · exact absurd (mem_singleton.mp h') he
  cases posted <;> exact key _ _ _

theorem Balanced.update (hid : id ∈ s.tasks) {t : Task} {completed failed : ℕ}
    {suspended : ℤ} {lock : List LockedOp}
    (htotal : s.completedTasks + s.failedTasks + (settling t).toNat = completed + failed + (settling (s.heap id)).toNat)
    (hsus : suspended + (isSuspended (s.heap id)).toNat = s.suspendedTasks + (isSuspended t).toNat)
    (hfin : settling t = true → t.state = .finished)
    (hlock : ∀ id', lock.head? = some (.setRunning id') → ((s.setTask id t).heap id').state = .suspended) :
    Balanced { s.setTask id t with
      completedTasks := completed
      failedTasks := failed
      suspendedTasks := suspended
      lock := lock } := by
  have h1 := count_setTask (P := settling) (t := t) hw.nodup hid
  have h2 := count_setTask (P := isSuspended) (t := t) hw.nodup hid
  have h3 := hb.total
  have h4 := hb.suspended
  refine ⟨?_, ?_, fun id' hid' h => ?_, hlock⟩
  · change s.totalTasks + count settling (s.setTask id t) = completed + failed + s.canceledTasks + s.tasks.length
    omega
  · change suspended = (count isSuspended (s.setTask id t) : ℕ)
    omega
  · by_cases he : id' = id
    · subst he
      simp only [State.setTask, Function.update_self] at h ⊢
      exact hfin h
    · simp only [State.setTask, Function.update_of_ne he] at h ⊢
      exact hb.settled id' hid' h

omit hw in
theorem Balanced.settling_of_state (hid : id ∈ s.tasks)
    (h : (s.heap id).state ≠ .finished) : settling (s.heap id) = false := by
  by_contra hs
  exact h (hb.settled id hid (by simpa using hs))

theorem Balanced.locked {op : LockedOp} {rest : List LockedOp} (hlock : s.lock = op :: rest)
    (hc : CountsLocked s op) (h : Locked { s with lock := rest } op s') : Balanced s' := by
  have hrest : ∀ id, rest.head? ≠ some (.setRunning id) := fun id hh => by
    have := hw.lock.tail (.setRunning id) (by rw [hlock]; exact mem_of_mem_head? hh)
    cases this
  have hp : Balanced { s with lock := rest } := hb.setLock fun id h => absurd h (hrest id)
  have hinner : ∀ id, LockedOp.inner op = some id → id ∈ s.tasks := fun id hi =>
    (hw.lock.head op (by simp [hlock]) id hi).1
  cases h with
  | none => exact hp
  | @cancel id hid groups =>
    obtain ⟨hstate, hset⟩ := hc hid
    exact hb.leave hw hid (n := 1) (by rw [hset]; rfl) hstate hrest _ groups
  | @suspend id hid htype hstate remaining =>
    have : Balanced (State.setTask _ id { s.heap id with remainingTime := remaining }.cancelTimer) :=
      hp.setTask (fun _ => by rw [cancelTimer_eq]; rfl) (by rw [cancelTimer_eq])
    exact this.setLock (by simp)
  | setSuspended id =>
    have hid := hinner id rfl
    have hstate : (s.heap id).state = .running := hc
    have hset := hb.settling_of_state hid (by rw [hstate]; decide)
    exact hb.update hw hid (t := { s.heap id with state := .suspended }) rfl
      (by simp [isSuspended, hstate]) (fun h => absurd (hset.symm.trans h) Bool.false_ne_true)
      fun id' h => absurd h (hrest id')
  | @resume id hid htype hstate =>
    refine hb.setLock fun id' h => ?_
    cases h
    exact hstate
  | setRunning id =>
    have hid := hinner id rfl
    have hstate : (s.heap id).state = .suspended := hb.resuming id (by rw [hlock]; rfl)
    have hset := hb.settling_of_state hid (by rw [hstate]; decide)
    exact hb.update hw hid (t := { s.heap id with state := .running }) rfl
      (by simp [isSuspended, hstate]) (fun h => absurd (hset.symm.trans h) Bool.false_ne_true) (by simp)
  | rearm => exact hp.setTask (fun _ => rfl) rfl
  | rearmNone => exact hp
  | restart => exact hp.setTask (fun _ => rfl) rfl
  | restartNone => exact hp.setTask (fun _ => by rw [cancelTimer_eq]; rfl) (by rw [cancelTimer_eq])

theorem Balanced.effect {a : Action} (hc : CountsOnce s a) (h : Effect s a s') : Balanced s' := by
  cases h with
  | tick => exact ⟨hb.total, hb.suspended, hb.settled, hb.resuming⟩
  | post posted group hfree => exact hb.insert hw hfree posted group
  | postNext _ h => exact hb.setTask (fun _ => by cases h <;> rfl) (by cases h <;> rfl)
  | call c hfree =>
    refine hb.setLock fun id h => ?_
    have hmem := mem_of_mem_head? h
    cases c <;> simp [Call.ops] at hmem
  | locked hlock h => exact hb.locked hw hlock (hc _ (by rw [hlock]; rfl)) h
  | expire => exact hb.setTask (fun _ => rfl) rfl
  | enter => exact hb.setTask (fun _ => settling_enter _ _) rfl
  | go hf hstg =>
    exact hb.setTask (fun _ => settling_goes (settles_of_reads hstg) fun _ => settles_next) rfl
  | @rearming id f skip hf hstg =>
    refine hb.setTask (fun _ => settling_goes (by rw [hstg]; rfl) fun stage h => ?_) rfl
    split_ifs at h
    cases h
    rfl
  | @finishing id f success hf hstg =>
    rw [CountsOnce, hstg] at hc
    obtain ⟨hid, hstate, hset⟩ := hc
    have hnew : settling { (s.heap id).goes f (some (.settling success)) with state := .finished } =
        true := by simp [settling, Task.goes, settles]
    refine hb.update hw hid ?_ (by simp [isSuspended, hstate, State.setTask]) (fun _ => rfl) fun id' h => ?_
    · rw [hnew, hset]
      cases success <;> simp <;> omega
    · have hst := hb.resuming id' h
      have hne : id' ≠ id := by rintro rfl; exact hstate hst
      simpa [State.setTask, hne] using hst
  | @settling id f success hf hstg hfree groups =>
    exact hb.without hw hfree (fun _ => settling_of_mem hf (by rw [hstg]; rfl))
      (by unfold Task.settle; split <;> rfl) groups
  | @removing id f hf hstg hfree groups =>
    rw [CountsOnce, hstg] at hc
    exact hb.without hw hfree (t := (s.heap id).goes f none) hc rfl groups
  | @finish id f o hf hstg =>
    have hfrom : settles f.stage = false := by rw [hstg]; rfl
    refine hb.setTask (fun _ => ?_) (by cases o <;> rfl)
    cases o with
    | returned shouldContinue =>
      exact settling_goes hfrom fun stage h => by cases h; split_ifs <;> rfl
    | threw => exact settling_goes hfrom fun stage h => by cases h; rfl
  | wait => exact ⟨hb.total, hb.suspended, hb.settled, hb.resuming⟩
  | wake => exact ⟨hb.total, hb.suspended, hb.settled, hb.resuming⟩

end Balanced

theorem balanced_inductive : scheduler.Inductive CountsOnce fun s => Wf s ∧ Balanced s := by
  refine (wf_inductive.mono fun _ _ _ => trivial).and ?_ fun s a s' hw hb hc h =>
    hb.effect hw hc (step_effect h)
  rintro s ⟨n, rfl⟩
  exact ⟨rfl, rfl, by simp [initial], by simp [initial]⟩

/-- **The statistics add up** in the runs that count each task once, whenever no handler of a task in
`tasks_` is between counting it and removing it. -/
theorem statistics_add_up {s : State} (h : scheduler.Reach CountsOnce s)
    (hquiet : ∀ id ∈ s.tasks, ∀ f ∈ (s.heap id).flights, settles f.stage = false) :
    s.totalTasks = s.completedTasks + s.failedTasks + s.canceledTasks + s.tasks.length ∧
      s.suspendedTasks = count isSuspended s := by
  have hb := (balanced_inductive.reach h).2
  have hzero : count settling s = 0 := by
    refine countP_eq_zero.mpr fun id hid => ?_
    rw [settling_iff]
    rintro ⟨f, hf, hs⟩
    rw [hquiet id hid f hf] at hs
    cases hs
  have htotal := hb.total
  rw [hzero, Nat.add_zero] at htotal
  exact ⟨htotal, hb.suspended⟩

def countedRun : List Action :=
  [.post .post "", .postNext 1, .postNext 1, .postNext 1,
    .post (.postDelayed 5) "g", .postNext 2, .postNext 2, .postNext 2, .postNext 2,
    .post (.postPeriodic 5) "", .postNext 3, .postNext 3, .postNext 3, .postNext 3,
    .enter 1 ⟨.wrapper, .success⟩, .advance 1 ⟨.wrapper, .entered .success⟩,
    .finish 1 ⟨.wrapper, .executing⟩ (.returned true), .advance 1 ⟨.wrapper, .finishing true⟩,
    .advance 1 ⟨.wrapper, .settling true⟩, .call (.cancelGroup "g"), .locked,
    .call (.suspend 3), .locked, .locked]

theorem statistics_add_up_countedRun : ∃ s, s.totalTasks = 3 ∧ s.completedTasks = 1 ∧ s.suspendedTasks = 1 ∧
    s.totalTasks = s.completedTasks + s.failedTasks + s.canceledTasks + s.tasks.length ∧
    s.suspendedTasks = count isSuspended s := by
  have hrun : ∃ s, scheduler.execWhen CountsOnce (initial 1) countedRun = some s ∧
      (∀ id ∈ s.tasks, ∀ f ∈ (s.heap id).flights, settles f.stage = false) ∧
      s.totalTasks = 3 ∧ s.completedTasks = 1 ∧ s.suspendedTasks = 1 := by decide
  obtain ⟨s, hs, hquiet, h1, h2, h3⟩ := hrun
  exact ⟨s, h1, h2, h3, statistics_add_up (.execWhen (.init ⟨1, rfl⟩) hs) hquiet⟩

def miscountedRun : List Action :=
  [.post (.postDelayed 5) "", .postNext 1, .postNext 1, .postNext 1, .postNext 1,
    .call (.suspend 1), .locked, .locked, .call (.cancel 1), .locked]

theorem miscountedRun_miscounted : ¬ ∀ s, scheduler.Reachable s → s.lock = [] → (∀ id, (s.heap id).flights = []) →
    s.totalTasks = s.completedTasks + s.failedTasks + s.canceledTasks + s.tasks.length ∧
      s.suspendedTasks = count isSuspended s := by
  intro h
  have hrun : ∃ s, scheduler.exec (initial 1) miscountedRun = some s ∧ s.lock = [] ∧
      s.firstId = 1 ∧ s.nextId = 2 ∧ (s.heap 1).flights = [] ∧ s.suspendedTasks = 1 ∧
      s.tasks = [] := by decide
  obtain ⟨s, hs, hlock, hfst, hnext, hflights, hsus, htks⟩ := hrun
  have hr : scheduler.Reachable s := .exec (.init ⟨1, rfl⟩) hs
  have hnone : ∀ id, (s.heap id).flights = [] := by
    intro id
    by_cases hc : s.created id
    · obtain ⟨h1, h2⟩ := hc
      rw [hfst] at h1
      rw [hnext] at h2
      rw [Nat.le_antisymm (Nat.le_of_lt_succ h2) h1]
      exact hflights
    · rw [(wf_inductive.reach hr).fresh id hc]
  have := (h s hr hlock hnone).2
  rw [hsus, count, htks] at this
  cases this

end Brookesia.TaskScheduler.Accounting
