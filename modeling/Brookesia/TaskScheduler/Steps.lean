import Brookesia.TaskScheduler.Model

/-! # What a step of the scheduler can do

`Effect s a s'` lists the steps, one constructor for each way a step can go, with its guards and with
the state it ends in written out; `step_effect` says that the list is complete. The invariants of the
scheduler are proved from it.

Setting a timer, from wherever, is `Task.arm`, and losing it by `remove_task_internal` is
`Task.drop`. -/

namespace Brookesia.TaskScheduler.Steps

open Model Option

/-! ### Timers -/

def waits (t : Task) : List Handler :=
  match t.timer with
  | none => []
  | some timer => timer.waits

/-- The timer set to `expiry` for `handler`; what waited is aborted. -/
def arm (t : Task) (expiry : ℤ) (handler : Handler) : Task :=
  { t with timer := some ⟨expiry, [handler]⟩, queue := t.queue ++ aborted (waits t) }

def drop (t : Task) : Task := { t with timer := none, queue := t.queue ++ aborted (waits t) }

/-- The closure that `resume` and `restart_timer` schedule is there. -/
def hasSaved (t : Task) : Bool :=
  match t.type with
  | .immediate => false
  | .delayed => t.savedTask
  | .periodic => t.savedPeriodicTask

theorem asyncWait_eq_some {t t' : Task} {now delay : ℤ} {h : Handler} :
    t.asyncWait now delay h = some t' ↔ t.timer ≠ none ∧ t' = arm t (now + delay) h := by
  unfold Task.asyncWait arm waits
  cases ht : t.timer with
  | none => simp
  | some timer => simp [eq_comm]

theorem cancelTimer_of_none {t : Task} (h : t.timer = none) : t.cancelTimer = t := by
  unfold Task.cancelTimer; rw [h]

theorem cancelTimer_eq (t : Task) : t.cancelTimer = { t with
      timer := t.timer.map fun timer => { timer with waits := [] }
      queue := t.queue ++ aborted (waits t) } := by
  obtain ⟨⟩ := t
  unfold Task.cancelTimer waits
  split <;> simp_all [aborted]

@[simp] theorem waits_cancelTimer (t : Task) : waits t.cancelTimer = [] := by
  rw [cancelTimer_eq]; unfold waits; cases t.timer <;> rfl

theorem saveRemaining_eq (t : Task) (now : ℤ) :
    ∃ remaining, t.saveRemaining now = { t with remainingTime := remaining }.cancelTimer := by
  unfold Task.saveRemaining
  split
  · next ht => exact ⟨t.remainingTime, (cancelTimer_of_none ht).symm⟩
  · exact ⟨_, rfl⟩

theorem arm_cancelTimer (t : Task) (expiry : ℤ) (h : Handler) : arm t.cancelTimer expiry h = arm t expiry h := by
  unfold arm
  rw [waits_cancelTimer, cancelTimer_eq]
  simp [aborted]

theorem drop_eq (t : Task) : { t.cancelTimer with timer := none } = drop t := by
  rw [cancelTimer_eq]; rfl

/-- The handle of `id` becomes `t` and leaves `tasks_`, if it was there. -/
def without (s : State) (id : TaskId) (t : Task) (groups : Group → List TaskId) : State :=
  { s with
    heap := Function.update s.heap id (if id ∈ s.tasks then drop t else t)
    tasks := s.tasks.erase id
    groups := groups }

theorem removeTaskInternal_setTask (s : State) (id : TaskId) (t : Task) (group : Group) :
    ∃ groups, removeTaskInternal (s.setTask id t) id group = without s id t groups := by
  unfold removeTaskInternal without
  by_cases hg : group = "" <;> by_cases hid : id ∈ s.tasks <;>
    simp [State.setTask, hg, hid, drop_eq, List.erase_of_not_mem]

/-! ### The steps -/

/-- The poster's steps on the task it posts. -/
inductive Poster (now : ℤ) (t : Task) : Task → Prop
  | timer : t.post = .inserted → Poster now t { t with timer := some ⟨0, []⟩, post := .timed }
  | promise : t.post = .timed → Poster now t { t with promise := true, post := .promised }
  | wrapper : t.post = .promised → t.type = .immediate →
      Poster now t { t with queue := t.queue ++ [⟨.wrapper, .success⟩], post := .scheduled }
  | savedTask : t.post = .promised → t.type = .delayed →
      Poster now t { t with savedTask := true, post := .saved }
  | savedPeriodicTask : t.post = .promised → t.type = .periodic →
      Poster now t { t with savedPeriodicTask := true, post := .saved }
  | scheduleOnce (expiry : ℤ) : t.post = .saved → t.type = .delayed → t.timer ≠ none →
      Poster now t { arm t expiry .once with post := .scheduled }
  | schedulePeriodic (expiry : ℤ) : t.post = .saved → t.type = .periodic → t.timer ≠ none →
      Poster now t { arm t expiry .periodic with post := .scheduled }

theorem postNext_poster {now : ℤ} {t t' : Task} (h : postNext now t = some t') : Poster now t t' := by
  unfold postNext at h
  split at h
  · next hp => cases h; exact .timer hp
  · next hp => cases h; exact .promise hp
  · next hp =>
    split at h
    · next ht => cases h; exact .wrapper hp ht
    · next ht => cases h; exact .savedTask hp ht
    · next ht => cases h; exact .savedPeriodicTask hp ht
  · next hp =>
    split at h
    · cases h
    · next ht =>
      obtain ⟨t₁, h1, rfl⟩ := map_eq_some_iff.mp h
      obtain ⟨hne, rfl⟩ := asyncWait_eq_some.mp h1
      exact .scheduleOnce _ hp ht hne
    · next ht =>
      obtain ⟨t₁, h1, rfl⟩ := map_eq_some_iff.mp h
      obtain ⟨hne, rfl⟩ := asyncWait_eq_some.mp h1
      exact .schedulePeriodic _ hp ht hne
  · cases h

/-- The steps of the holder of the mutex. `s` is the state without the operation. -/
inductive Locked (s : State) : LockedOp → State → Prop
  | none (op : LockedOp) (h : ∀ id, op ≠ .rearm id ∧ op ≠ .setSuspended id ∧ op ≠ .setRunning id)
      (hc : ∀ id, op = .cancel id → id ∉ s.tasks) : Locked s op s
  | cancel {id : TaskId} (hid : id ∈ s.tasks) (groups : Group → List TaskId) :
      Locked s (.cancel id) (without { s with canceledTasks := s.canceledTasks + 1 } id
        (({ s.heap id with state := .canceled }.cancelTimer).settle false) groups)
  | suspend {id : TaskId} (hid : id ∈ s.tasks) (htype : (s.heap id).type.hasTimer)
      (hstate : (s.heap id).state = .running) (remaining : ℤ) :
      Locked s (.suspend id) { s.setTask id ({ s.heap id with remainingTime := remaining }.cancelTimer) with
        lock := .setSuspended id :: s.lock }
  | setSuspended (id : TaskId) : Locked s (.setSuspended id) (setSuspended s id)
  | resume {id : TaskId} (hid : id ∈ s.tasks) (htype : (s.heap id).type.hasTimer)
      (hstate : (s.heap id).state = .suspended) :
      Locked s (.resume id) { s with lock := .setRunning id :: s.lock }
  | setRunning (id : TaskId) : Locked s (.setRunning id) (setRunning s id)
  | rearm {id : TaskId} (hsaved : hasSaved (s.heap id) = true) (htimer : (s.heap id).timer ≠ none)
      (expiry : ℤ) {h : Handler} (htype : (s.heap id).type = .delayed ∧ h = .once ∨
        (s.heap id).type = .periodic ∧ ∃ interval, h = .resumed interval) :
      Locked s (.rearm id) (s.setTask id (arm (s.heap id) expiry h))
  | rearmNone {id : TaskId} (hsaved : hasSaved (s.heap id) = false) : Locked s (.rearm id) s
  | restart {id : TaskId} (hid : id ∈ s.tasks) (hstate : (s.heap id).state = .running)
      (hsaved : hasSaved (s.heap id) = true) (htimer : (s.heap id).timer ≠ none)
      (expiry : ℤ) {h : Handler} (htype : (s.heap id).type = .delayed ∧ h = .once ∨
        (s.heap id).type = .periodic ∧ h = .periodic) :
      Locked s (.restartTimer id) (s.setTask id (arm (s.heap id) expiry h))
  | restartNone {id : TaskId} (hid : id ∈ s.tasks) (hsaved : hasSaved (s.heap id) = false) :
      Locked s (.restartTimer id) (s.setTask id (s.heap id).cancelTimer)

theorem cancelInternal_locked (s : State) (id : TaskId) : Locked s (.cancel id) (cancelInternal s id) := by
  unfold cancelInternal
  split
  · next hid =>
    obtain ⟨groups, hg⟩ := removeTaskInternal_setTask
      { s with canceledTasks := s.canceledTasks + 1 } id
      (({ s.heap id with state := .canceled }.cancelTimer).settle false)
      (({ s.heap id with state := .canceled }.cancelTimer).settle false).group
    exact hg ▸ Locked.cancel hid groups
  · next hid => exact .none _ (by simp) fun _ h => by cases h; exact hid

theorem suspendInternal_locked (s : State) (id : TaskId) : Locked s (.suspend id) (suspendInternal s id) := by
  unfold suspendInternal
  dsimp only
  split
  · next h =>
    obtain ⟨hid, htype, hstate⟩ := h
    obtain ⟨remaining, hr⟩ := saveRemaining_eq (s.heap id) s.now
    rw [hr]
    exact .suspend hid htype hstate remaining
  · exact .none _ (by simp) (by simp)

theorem resumeInternal_locked (s : State) (id : TaskId) : Locked s (.resume id) (resumeInternal s id) := by
  unfold resumeInternal
  dsimp only
  split
  · next h => exact .resume h.1 h.2.1 h.2.2
  · exact .none _ (by simp) (by simp)

theorem rearm_locked {s s' : State} {id : TaskId} (h : rearm s id = some s') : Locked s (.rearm id) s' := by
  unfold rearm at h
  dsimp only at h
  split at h
  · next ht => cases h; exact .rearmNone (by simp [hasSaved, ht])
  · next ht =>
    split at h
    · next hs =>
      obtain ⟨t₁, h1, rfl⟩ := map_eq_some_iff.mp h
      obtain ⟨hne, rfl⟩ := asyncWait_eq_some.mp h1
      exact .rearm (by simp [hasSaved, ht, hs]) hne _ (.inl ⟨ht, rfl⟩)
    · next hs => cases h; exact .rearmNone (by simpa [hasSaved, ht] using hs)
  · next ht =>
    split at h
    · next hs =>
      obtain ⟨t₁, h1, rfl⟩ := map_eq_some_iff.mp h
      obtain ⟨hne, rfl⟩ := asyncWait_eq_some.mp h1
      exact .rearm (by simp [hasSaved, ht, hs]) hne _ (.inr ⟨ht, _, rfl⟩)
    · next hs => cases h; exact .rearmNone (by simpa [hasSaved, ht] using hs)

theorem restartTimer_locked {s s' : State} {id : TaskId} (h : restartTimer s id = some s') :
    Locked s (.restartTimer id) s' := by
  unfold restartTimer at h
  dsimp only at h
  split at h
  · next hguard =>
    obtain ⟨hid, htype, hstate, htim⟩ := hguard
    have hsome : (s.heap id).timer ≠ none := isSome_iff_ne_none.mp htim
    have htype' : (s.heap id).cancelTimer.type = (s.heap id).type := by rw [cancelTimer_eq]
    split at h
    · next ht => rw [htype'] at ht; rw [ht] at htype; simp [TaskType.hasTimer] at htype
    · next ht =>
      rw [htype'] at ht
      split at h
      · next hs =>
        obtain ⟨t₁, h1, rfl⟩ := map_eq_some_iff.mp h
        obtain ⟨-, rfl⟩ := asyncWait_eq_some.mp h1
        rw [arm_cancelTimer]
        refine .restart hid hstate ?_ hsome _ (.inl ⟨ht, rfl⟩)
        simpa [hasSaved, ht, cancelTimer_eq] using hs
      · next hs =>
        cases h
        exact .restartNone hid (by simpa [hasSaved, ht, cancelTimer_eq] using hs)
    · next ht =>
      rw [htype'] at ht
      split at h
      · next hs =>
        obtain ⟨t₁, h1, rfl⟩ := map_eq_some_iff.mp h
        obtain ⟨-, rfl⟩ := asyncWait_eq_some.mp h1
        rw [arm_cancelTimer]
        refine .restart hid hstate ?_ hsome _ (.inr ⟨ht, rfl⟩)
        simpa [hasSaved, ht, cancelTimer_eq] using hs
      · next hs =>
        cases h
        exact .restartNone hid (by simpa [hasSaved, ht, cancelTimer_eq] using hs)
  · cases h; exact .none _ (by simp) (by simp)

theorem runLocked_locked {s s' : State} {op : LockedOp} (h : runLocked s op = some s') : Locked s op s' := by
  cases op with
  | cancel id => cases h; exact cancelInternal_locked s id
  | suspend id => cases h; exact suspendInternal_locked s id
  | setSuspended id => cases h; exact .setSuspended id
  | resume id => cases h; exact resumeInternal_locked s id
  | setRunning id => cases h; exact .setRunning id
  | rearm id => exact rearm_locked h
  | restartTimer id => exact restartTimer_locked h

def reads : Stage → Bool
  | .entered _ | .tested _ | .claiming | .skipping | .returned _ | .exiting => true
  | _ => false

/-- `is_executing` after such a step. -/
def busyAfter (t : Task) (f : Flight) : Bool :=
  match f.stage with
  | .claiming => true
  | .exiting => false
  | _ => t.isExecuting

/-- The steps of the scheduler. -/
inductive Effect (s : State) : Action → State → Prop
  | tick : Effect s .tick { s with now := s.now + 1 }
  | post (p : Post) (group : Group) (hfree : s.lock = []) :
      Effect s (.post p group) (postInsert s group p)
  | postNext {id : TaskId} {t' : Task} (hid : s.created id) (h : Poster s.now (s.heap id) t') :
      Effect s (.postNext id) (s.setTask id t')
  | call (c : Call) (hfree : s.lock = []) : Effect s (.call c) { s with lock := c.ops s }
  | locked {op : LockedOp} {rest : List LockedOp} {s' : State} (hlock : s.lock = op :: rest)
      (h : Locked { s with lock := rest } op s') : Effect s .locked s'
  | expire {id : TaskId} (hwaits : waits (s.heap id) ≠ []) (timer : Timer) (htimer : timer.waits = []) :
      Effect s (.expire id) (s.setTask id { s.heap id with
        timer := some timer
        queue := (s.heap id).queue ++ (waits (s.heap id)).map fun h => ⟨h, .success⟩ })
  | enter {id : TaskId} {c : Completion} (hc : c ∈ (s.heap id).queue) :
      Effect s (.enter id c) (s.setTask id ((s.heap id).enter c))
  | go {id : TaskId} {f : Flight} (hf : f ∈ (s.heap id).flights) (hstage : reads f.stage = true)
      {busy : Bool} (hbusy : busy = busyAfter (s.heap id) f) : Effect s (.advance id f)
        (s.setTask id { (s.heap id).goes f ((s.heap id).next f) with isExecuting := busy })
  | rearming {id : TaskId} {f : Flight} {skip : Bool} (hf : f ∈ (s.heap id).flights)
      (hstage : f.stage = .rearming skip) (htimer : (s.heap id).timer ≠ none) (expiry interval : ℤ) :
      Effect s (.advance id f) (s.setTask id ({ arm (s.heap id) expiry .periodic with
        intervalMs := interval }.goes f (if skip then none else some .exiting)))
  | finishing {id : TaskId} {f : Flight} {success : Bool} (hf : f ∈ (s.heap id).flights)
      (hstage : f.stage = .finishing success) :
      Effect s (.advance id f) (finishingStep s id f success)
  | settling {id : TaskId} {f : Flight} {success : Bool} (hf : f ∈ (s.heap id).flights)
      (hstage : f.stage = .settling success) (hfree : s.lock = [])
      (groups : Group → List TaskId) :
      Effect s (.advance id f) (without s id (((s.heap id).settle success).goes f
        (if f.handler.isPeriodic then some .exiting else none)) groups)
  | removing {id : TaskId} {f : Flight} (hf : f ∈ (s.heap id).flights)
      (hstage : f.stage = .removing) (hfree : s.lock = []) (groups : Group → List TaskId) :
      Effect s (.advance id f) (without s id ((s.heap id).goes f none) groups)
  | finish {id : TaskId} {f : Flight} (o : Outcome) (hf : f ∈ (s.heap id).flights)
      (hstage : f.stage = .executing) :
      Effect s (.finish id f o) (s.setTask id (executingStep (s.heap id) f o))
  | wait {id : TaskId} (hfree : s.lock = []) (hid : id ∈ s.tasks)
      (hfuture : (s.heap id).post.hasFuture) :
      Effect s (.wait id) { s with waiters := id :: s.waiters }
  | wake {id : TaskId} (hid : id ∈ s.waiters) (hready : (s.heap id).results ≠ []) :
      Effect s (.wake id) { s with waiters := s.waiters.erase id }

theorem advance_effect {s s' : State} {id : TaskId} {f : Flight} (hf : f ∈ (s.heap id).flights)
    (h : advance s id f = some s') : Effect s (.advance id f) s' := by
  unfold advance at h
  dsimp only at h
  split at h
  · next hst => cases h; exact .go hf (by rw [hst]; rfl) (by rw [busyAfter, hst])
  · next hst => cases h; exact .go hf (by rw [hst]; rfl) (by rw [busyAfter, hst])
  · next hst => cases h; exact .go hf (by rw [hst]; rfl) (by rw [busyAfter, hst])
  · next hst => cases h; exact .go hf (by rw [hst]; rfl) (by rw [busyAfter, hst])
  · next hst => cases h; exact .go hf (by rw [hst]; rfl) (by rw [busyAfter, hst])
  · next skip hst =>
    obtain ⟨t₁, h1, rfl⟩ := map_eq_some_iff.mp h
    obtain ⟨t₂, h2, rfl⟩ := map_eq_some_iff.mp h1
    obtain ⟨hne, rfl⟩ := asyncWait_eq_some.mp h2
    cases hh : f.handler with
    | resumed interval =>
      simp only [hh] at hne ⊢
      exact .rearming hf hst hne _ interval
    | _ =>
      simp only [hh] at hne ⊢
      exact .rearming hf hst hne _ (s.heap id).intervalMs
  · cases h
  · next hst => cases h; exact .finishing hf hst
  · next success hst =>
    split at h
    · next hfree =>
      cases h
      obtain ⟨groups, hg⟩ := removeTaskInternal_setTask s id
        (((s.heap id).settle success).goes f (if f.handler.isPeriodic then some .exiting else none))
        ((s.heap id).settle success).group
      rw [settlingStep, hg]
      exact .settling hf hst hfree groups
    · cases h
  · next hst =>
    cases h
    have := @Effect.go s id f hf (by rw [hst]; rfl) false (by rw [busyAfter, hst])
    simpa [Task.next, hst] using this
  · next hst =>
    split at h
    · next hfree =>
      cases h
      obtain ⟨groups, hg⟩ := removeTaskInternal_setTask s id ((s.heap id).goes f none) (s.heap id).group
      rw [removingStep, hg]
      exact .removing hf hst hfree groups
    · cases h

theorem step_effect {s s' : State} {a : Action} (h : step s a = some s') : Effect s a s' := by
  cases a with
  | tick => cases h; exact .tick
  | post p group =>
    simp only [step, ite_none_right_eq_some] at h
    obtain ⟨hfree, h⟩ := h
    cases h
    exact .post p group hfree
  | postNext id =>
    simp only [step, ite_none_right_eq_some] at h
    obtain ⟨hid, h⟩ := h
    obtain ⟨t', h1, rfl⟩ := map_eq_some_iff.mp h
    exact .postNext hid (postNext_poster h1)
  | call c =>
    simp only [step, ite_none_right_eq_some] at h
    obtain ⟨hfree, h⟩ := h
    cases h
    exact .call c hfree
  | locked =>
    simp only [step] at h
    split at h
    · cases h
    · next hlock => exact .locked hlock (runLocked_locked h)
  | expire id =>
    obtain ⟨t', h1, rfl⟩ := map_eq_some_iff.mp h
    unfold expire at h1
    split at h1
    · cases h1
    · next timer ht =>
      split at h1
      · next hguard =>
        cases h1
        have hw : waits (s.heap id) = timer.waits := by simp [waits, ht]
        have := @Effect.expire s id (by rw [hw]; exact hguard.1)
          { timer with waits := [] } rfl
        rwa [hw] at this
      · cases h1
  | enter id c =>
    simp only [step, ite_none_right_eq_some] at h
    obtain ⟨hc, h⟩ := h
    cases h
    exact .enter hc
  | advance id f =>
    simp only [step, ite_none_right_eq_some] at h
    exact advance_effect h.1 h.2
  | finish id f o =>
    simp only [step, ite_none_right_eq_some] at h
    obtain ⟨⟨hf, hst⟩, h⟩ := h
    cases h
    exact .finish o hf hst
  | wait id =>
    simp only [step, ite_none_right_eq_some] at h
    obtain ⟨⟨hfree, hid, hfut⟩, h⟩ := h
    cases h
    exact .wait hfree hid hfut
  | wake id =>
    simp only [step, ite_none_right_eq_some] at h
    obtain ⟨⟨hid, hrdy⟩, h⟩ := h
    cases h
    exact .wake hid hrdy

end Brookesia.TaskScheduler.Steps
