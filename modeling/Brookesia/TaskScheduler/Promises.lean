import Brookesia.TaskScheduler.Handles

/-! # Promises and waiters

`remove_task_internal` takes a task out of `tasks_` and leaves its promise alone; `cancel_internal`
and `mark_finished` fulfil the promise first. A waiter is stranded if a handle leaves `tasks_` in
another way. There are two: a handler that calls `remove_task_internal` itself (`Stage.removing`) for
a task that is still there, and a `cancel_internal` that comes before `create_handle` has made the
promise. `noneStranded_iff`: a run strands no waiter if and only if it takes neither. -/

namespace Brookesia.TaskScheduler.Promises

open Transition Model Steps
open Handles

/-- Every handle that has left `tasks_` got its promise fulfilled exactly once, and a thread blocked
in `wait` waits for a task that is still in `tasks_`. -/
structure NoneStranded (s : State) : Prop where
  settled : ∀ id, s.created id → id ∉ s.tasks → (s.heap id).results.length = 1
  blocked : ∀ id ∈ s.waiters, (s.heap id).results = [] → id ∈ s.tasks

/-- A task is cancelled only once its promise is made, and a handler calls `remove_task_internal`
without fulfilling the promise only for a task that has left `tasks_` already. -/
def FulfilsFirst (s : State) : Action → Prop
  | .locked => ∀ id, s.lock.head? = some (.cancel id) → id ∈ s.tasks → (s.heap id).promise = true
  | .advance id f => f.stage = .removing → id ∉ s.tasks
  | _ => True

/-- The promise of a handle that is in `tasks_`, or not. -/
structure PromiseOk (t : Task) (present : Prop) : Prop where
  here : present → t.results = [] ∧ (t.post.hasFuture → t.promise = true)
  gone : ¬ present → t.results.length = 1 ∧ t.promise = false ∧ t.post.hasFuture

/-- The promises of all handles. -/
structure Kept (s : State) : Prop where
  promise : ∀ id, s.created id → PromiseOk (s.heap id) (id ∈ s.tasks)
  waiters : ∀ id ∈ s.waiters, s.created id

variable {s s' : State} {t : Task}

theorem Kept.noneStranded (h : Kept s) : NoneStranded s := by
  refine ⟨fun id hid hmem => ((h.promise id hid).gone hmem).1, fun id hid hres => ?_⟩
  by_contra hmem
  have := ((h.promise id (h.waiters id hid)).gone hmem).1
  rw [hres] at this
  cases this

theorem settle_of_promise (h : t.promise = true) (value : Bool) :
    t.settle value = { t with promise := false, results := t.results ++ [value] } := by
  unfold Task.settle; rw [if_pos h]

theorem settle_of_not_promise (h : t.promise = false) (value : Bool) : t.settle value = t := by
  unfold Task.settle; rw [if_neg (by rw [h]; decide)]

theorem Kept.setTask (hk : Kept s) {id : TaskId}
    (hres : t.results = (s.heap id).results) (hpro : t.promise = (s.heap id).promise)
    (hpost : t.post = (s.heap id).post) : Kept (s.setTask id t) := by
  refine ⟨fun id' hid' => ?_, hk.waiters⟩
  by_cases he : id' = id
  · subst he
    obtain ⟨h1, h2⟩ := hk.promise id' hid'
    simp only [State.setTask, Function.update_self]
    exact ⟨by rwa [hres, hpro, hpost], by rwa [hres, hpro, hpost]⟩
  · simpa [State.setTask, he] using hk.promise id' hid'

theorem Kept.without {s : State} (hnd : s.tasks.Nodup) (hk : Kept s) {id : TaskId} {t : Task}
    (ht : t.results.length = 1 ∧ t.promise = false ∧ t.post.hasFuture)
    (groups : Group → List TaskId) : Kept (without s id t groups) := by
  refine ⟨fun id' hid' => ?_, hk.waiters⟩
  by_cases he : id' = id
  · subst he
    simp only [Steps.without, Function.update_self]
    refine ⟨fun h => absurd h (List.Nodup.not_mem_erase hnd), fun _ => ?_⟩
    split <;> exact ht
  · have hmem : id' ∈ s.tasks.erase id ↔ id' ∈ s.tasks := List.mem_erase_of_ne he
    have := hk.promise id' hid'
    simp only [Steps.without, Function.update_of_ne he]
    exact ⟨fun h => this.here (hmem.mp h), fun h => this.gone fun h' => h (hmem.mpr h')⟩

theorem Kept.frame (hk : Kept s) (hheap : s'.heap = s.heap)
    (htks : s'.tasks = s.tasks) (hcreated : ∀ id, s'.created id ↔ s.created id)
    (hwaiters : ∀ id ∈ s'.waiters, s.created id) : Kept s' :=
  ⟨fun id hid => by rw [hheap, htks]; exact hk.promise id ((hcreated id).mp hid),
    fun id hid => (hcreated id).mpr (hwaiters id hid)⟩

theorem Kept.poster (hk : Kept s) {id : TaskId} (hid : s.created id) {t' : Task}
    (h : Poster s.now (s.heap id) t') : Kept (s.setTask id t') := by
  have hp := hk.promise id hid
  have key : PromiseOk t' (id ∈ s.tasks) := by
    cases h with
    | timer hpost =>
      refine ⟨fun hm => ⟨(hp.here hm).1, fun h => h.elim⟩, fun hm => ?_⟩
      have := (hp.gone hm).2.2
      rw [hpost] at this
      exact this.elim
    | promise hpost =>
      refine ⟨fun hm => ⟨(hp.here hm).1, fun _ => rfl⟩, fun hm => ?_⟩
      have := (hp.gone hm).2.2
      rw [hpost] at this
      exact this.elim
    | wrapper hpost _ =>
      exact ⟨fun hm => ⟨(hp.here hm).1, fun _ => (hp.here hm).2 (by rw [hpost]; trivial)⟩,
        fun hm => ⟨(hp.gone hm).1, (hp.gone hm).2.1, trivial⟩⟩
    | savedTask hpost _ =>
      exact ⟨fun hm => ⟨(hp.here hm).1, fun _ => (hp.here hm).2 (by rw [hpost]; trivial)⟩,
        fun hm => ⟨(hp.gone hm).1, (hp.gone hm).2.1, trivial⟩⟩
    | savedPeriodicTask hpost _ =>
      exact ⟨fun hm => ⟨(hp.here hm).1, fun _ => (hp.here hm).2 (by rw [hpost]; trivial)⟩,
        fun hm => ⟨(hp.gone hm).1, (hp.gone hm).2.1, trivial⟩⟩
    | scheduleOnce _ hpost _ _ =>
      exact ⟨fun hm => ⟨(hp.here hm).1, fun _ => (hp.here hm).2 (by rw [hpost]; trivial)⟩,
        fun hm => ⟨(hp.gone hm).1, (hp.gone hm).2.1, trivial⟩⟩
    | schedulePeriodic _ hpost _ _ =>
      exact ⟨fun hm => ⟨(hp.here hm).1, fun _ => (hp.here hm).2 (by rw [hpost]; trivial)⟩,
        fun hm => ⟨(hp.gone hm).1, (hp.gone hm).2.1, trivial⟩⟩
  refine ⟨fun id' hid' => ?_, hk.waiters⟩
  by_cases he : id' = id
  · subst he; simpa [State.setTask] using key
  · simpa [State.setTask, he] using hk.promise id' hid'

theorem Kept.insert (hw : Wf s) (hk : Kept s) {p : Post} {group : Group} : Kept (postInsert s group p) := by
  have key : ∀ type repeats interval, Kept (createHandle s type repeats interval group) := by
    intro type repeats interval
    refine ⟨fun id hid => ?_, fun id hid => ?_⟩
    · by_cases he : id = s.nextId
      · subst he
        simp only [createHandle, Function.update_self]
        exact ⟨fun _ => ⟨rfl, fun h => h.elim⟩, fun h => absurd (by simp) h⟩
      · have hid' : s.created id := ⟨hid.1, Nat.lt_of_le_of_ne (Nat.le_of_lt_succ hid.2) he⟩
        simpa [createHandle, he] using hk.promise id hid'
    · have := hk.waiters id hid
      exact ⟨this.1, Nat.lt_succ_of_lt this.2⟩
  have := hw.le
  cases p <;> exact key _ _ _

theorem Kept.locked (hw : Wf s) (hk : Kept s) {op : LockedOp} {rest : List LockedOp}
    (hlock : s.lock = op :: rest) (hc : FulfilsFirst s .locked)
    (h : Locked { s with lock := rest } op s') : Kept s' := by
  have hp : Kept { s with lock := rest } := hk.frame rfl rfl (fun _ => Iff.rfl) hk.waiters
  cases h with
  | none => exact hp
  | @cancel id hid groups =>
    have hpro : (s.heap id).promise = true := hc id (by rw [hlock]; rfl) hid
    have hfut : (s.heap id).post.hasFuture := by
      by_contra hf
      rw [((hw.task id).early hf).promise] at hpro
      cases hpro
    have hp' : Kept { s with lock := rest, canceledTasks := s.canceledTasks + 1 } :=
      hk.frame rfl rfl (fun _ => Iff.rfl) hk.waiters
    refine Kept.without (s := { s with lock := rest, canceledTasks := s.canceledTasks + 1 }) hw.nodup hp' ?_ groups
    rw [settle_of_promise (by rw [cancelTimer_eq]; exact hpro), cancelTimer_eq]
    exact ⟨by simp [((hk.promise id (hw.created id hid)).here hid).1], rfl, hfut⟩
  | @suspend id hid htype hstate remaining =>
    have : Kept (State.setTask _ id { s.heap id with remainingTime := remaining }.cancelTimer) :=
      hp.setTask (by rw [cancelTimer_eq]) (by rw [cancelTimer_eq]) (by rw [cancelTimer_eq])
    exact this.frame rfl rfl (fun _ => Iff.rfl) this.waiters
  | setSuspended id =>
    have : Kept (State.setTask _ id { s.heap id with state := .suspended }) :=
      hp.setTask rfl rfl rfl
    exact this.frame rfl rfl (fun _ => Iff.rfl) this.waiters
  | resume => exact hk.frame rfl rfl (fun _ => Iff.rfl) hk.waiters
  | setRunning id =>
    have : Kept (State.setTask _ id { s.heap id with state := .running }) := hp.setTask rfl rfl rfl
    exact this.frame rfl rfl (fun _ => Iff.rfl) this.waiters
  | rearm => exact hp.setTask rfl rfl rfl
  | rearmNone => exact hp
  | restart => exact hp.setTask rfl rfl rfl
  | restartNone =>
    exact hp.setTask (by rw [cancelTimer_eq]) (by rw [cancelTimer_eq]) (by rw [cancelTimer_eq])

theorem Kept.effect {a : Action} (hw : Wf s) (hk : Kept s) (hc : FulfilsFirst s a) (h : Effect s a s') : Kept s' := by
  cases h with
  | tick => exact hk.frame rfl rfl (fun _ => Iff.rfl) hk.waiters
  | post p group hfree => exact hk.insert hw
  | postNext hid h => exact hk.poster hid h
  | call c hfree => exact hk.frame rfl rfl (fun _ => Iff.rfl) hk.waiters
  | locked hlock h => exact hk.locked hw hlock hc h
  | expire => exact hk.setTask rfl rfl rfl
  | enter => exact hk.setTask rfl rfl rfl
  | go => exact hk.setTask rfl rfl rfl
  | rearming => exact hk.setTask rfl rfl rfl
  | @finishing id f success hf hstg =>
    have : Kept (s.setTask id
        { (s.heap id).goes f (some (.settling success)) with state := .finished }) :=
      hk.setTask rfl rfl rfl
    exact this.frame rfl rfl (fun _ => Iff.rfl) this.waiters
  | @settling id f success hf hstg hfree groups =>
    have hp := hk.promise id (hw.created_of_flight hf)
    have hfut := (hw.task id).hasFuture_of_flight hf
    refine hk.without hw.nodup ?_ groups
    by_cases hmem : id ∈ s.tasks
    · rw [settle_of_promise ((hp.here hmem).2 hfut)]
      exact ⟨by simp [Task.goes, (hp.here hmem).1], rfl, hfut⟩
    · rw [settle_of_not_promise (hp.gone hmem).2.1]
      exact hp.gone hmem
  | @removing id f hf hstg hfree groups =>
    exact hk.without (t := (s.heap id).goes f none) hw.nodup
      ((hk.promise id (hw.created_of_flight hf)).gone (hc hstg)) groups
  | finish o =>
    cases o <;> exact hk.setTask rfl rfl rfl
  | wait hfree hid hfut =>
    refine hk.frame rfl rfl (fun _ => Iff.rfl) fun id h => ?_
    rcases List.mem_cons.mp h with rfl | h
    · exact hw.created _ hid
    · exact hk.waiters id h
  | wake =>
    exact hk.frame rfl rfl (fun _ => Iff.rfl) fun id h => hk.waiters id (List.mem_of_mem_erase h)

/-- The promises are kept as long as they are fulfilled first. -/
theorem kept_inductive : scheduler.Inductive FulfilsFirst fun s => Wf s ∧ Kept s := by
  refine (wf_inductive.mono fun _ _ _ => trivial).and ?_ fun s a s' hw hk hc h =>
    hk.effect hw hc (step_effect h)
  rintro s ⟨n, rfl⟩
  exact ⟨fun id hid => absurd hid.2 (Nat.not_lt.mpr hid.1), by simp [initial]⟩

/-- Taking a handle out of `tasks_` otherwise strands its waiters at once. -/
theorem stranded_of_not_fulfilsFirst {a : Action} (hw : Wf s) (hk : Kept s)
    (hc : ¬ FulfilsFirst s a) (h : scheduler.step s a = some s') : ¬ NoneStranded s' := by
  intro hn
  have he := step_effect h
  cases a with
  | locked =>
    simp only [FulfilsFirst] at hc
    push Not at hc
    obtain ⟨id, hhead, hid, hpro⟩ := hc
    have hpro' : (s.heap id).promise = false := by simpa using hpro
    cases he with
    | locked hlock hl =>
      rw [hlock] at hhead
      cases hhead
      cases hl with
      | none _ _ hcancel => exact hcancel id rfl hid
      | cancel _ groups =>
        have := hn.settled id (hw.created id hid) (List.Nodup.not_mem_erase hw.nodup)
        rw [settle_of_not_promise (by rw [cancelTimer_eq]; exact hpro'), cancelTimer_eq] at this
        simp [without, drop, hid, ((hk.promise id (hw.created id hid)).here hid).1] at this
  | advance id f =>
    simp only [FulfilsFirst] at hc
    push Not at hc
    obtain ⟨hstg, hid⟩ := hc
    cases he with
    | removing hf _ hfree =>
      have := hn.settled id (hw.created id hid) (List.Nodup.not_mem_erase hw.nodup)
      simp [without, drop, Task.goes, hid, ((hk.promise id (hw.created id hid)).here hid).1] at this
    | go hf hr _ => rw [hstg] at hr; cases hr
    | rearming hf hst => rw [hstg] at hst; cases hst
    | finishing hf hst => rw [hstg] at hst; cases hst
    | settling hf hst => rw [hstg] at hst; cases hst
  | _ => exact hc trivial

/-- **A run strands no waiter if and only if it always fulfils first.** -/
theorem noneStranded_iff (n : TaskId) (as : List Action) :
    scheduler.Always NoneStranded (initial n) as ↔ scheduler.Keeps FulfilsFirst (initial n) as :=
  kept_inductive.exact (fun _ h => h.2.noneStranded)
    (fun _ _ _ h hc hst => stranded_of_not_fulfilsFirst h.1 h.2 hc hst) as _
    (kept_inductive.init _ ⟨n, rfl⟩)

/-- The handler that `resume` gave a periodic task is aborted by `restart_timer` and takes the
running task out of `tasks_`, while a thread is blocked in `wait`. -/
def strandingRun : List Action :=
  [.post (.postPeriodic 10) "", .postNext 1, .postNext 1, .postNext 1, .postNext 1, .wait 1,
    .call (.suspend 1), .locked, .locked, .call (.resume 1), .locked, .locked, .locked,
    .call (.restartTimer 1), .locked, .enter 1 ⟨.resumed 10, .operationAborted⟩,
    .advance 1 ⟨.resumed 10, .entered .operationAborted⟩,
    .advance 1 ⟨.resumed 10, .tested .operationAborted⟩, .advance 1 ⟨.resumed 10, .removing⟩]

theorem strandingRun_stranded : ¬ ∀ s, scheduler.Reachable s → NoneStranded s := by
  intro h
  have hrun : ∃ s, scheduler.exec (initial 1) strandingRun = some s ∧ 1 ∈ s.waiters ∧
      (s.heap 1).results = [] ∧ 1 ∉ s.tasks := by decide
  obtain ⟨s, hs, hwait, hres, hmem⟩ := hrun
  exact hmem ((h s (.exec (.init ⟨1, rfl⟩) hs)).blocked 1 hwait hres)

end Brookesia.TaskScheduler.Promises
