import Mathlib

/-! # The WakeEnd timer of the audio encoder

What `encoder_state_mutex_` guards, one definition for each section under it, and the delayed task of the scheduler. The
section that checks a timeout and the publication of the event are two steps: the mutex is released between them.

`armings` counts the armings; `due`, `ended` and `wakeEnds` say for each of them whether its event is still to come, it was
replaced, cancelled or stopped, or its event was published. -/

namespace Brookesia.Audio

open List

/-- What is used of `AudioEncoderDynamicConfig`. -/
structure EncoderConfig where
  enableAfe : Bool := false
  afeWakeStartTimeoutMs : ℕ := 30000
  afeWakeEndTimeoutMs : ℕ := 10000
deriving DecidableEq

/-- A task of `post_delayed`. One that runs waits for the mutex, and `cancel` comes too late for it. -/
structure DelayedTask where
  id : ℕ
  sessionId : ℕ
  arming : ℕ
  running : Bool := false
deriving DecidableEq

/-- What becomes of a call of `post_delayed`. -/
inductive Posting
  | noScheduler | refused | posted
deriving DecidableEq

structure WakeTimer where
  paused : Bool := false
  pending : Bool := false
  taskId : ℕ := 0
  deadlineMs : ℤ := 0
  remainingMs : ℤ := 0
  sessionId : ℕ := 0
  tasks : List DelayedTask := []
  lastTaskId : ℕ := 0
  publishing : List ℕ := []
  armings : ℕ := 0
  current : ℕ := 0
  due : List ℕ := []
  ended : List ℕ := []
  wakeEnds : List ℕ := []
  whilePaused : Bool := false

namespace WakeTimer

/-- `++wake_end_session_id_`, of 32 bits. -/
def nextSession (s : WakeTimer) : ℕ := (s.sessionId + 1) % 2 ^ 32

/-- `TaskScheduler::cancel`. -/
def cancelTask (s : WakeTimer) : WakeTimer :=
  { s with tasks := s.tasks.filter fun task => task.id ≠ s.taskId || task.running }

def endDue (s : WakeTimer) : WakeTimer :=
  { s with ended := s.ended ++ s.due, due := [] }

/-- `cancel_wake_end_locked`. -/
def cancelLocked (s : WakeTimer) : WakeTimer :=
  { (if s.taskId ≠ 0 then s.cancelTask else s) with
    taskId := 0, deadlineMs := 0, remainingMs := 0, pending := false, sessionId := s.nextSession }

def cancelWakeEnd (s : WakeTimer) : WakeTimer := s.cancelLocked.endDue

/-- `schedule_wake_end_locked`. -/
def scheduleLocked (s : WakeTimer) (timeoutMs : ℕ) (posting : Posting) (nowMs : ℤ) : WakeTimer :=
  match posting with
  | .noScheduler => s
  | .refused => { s with sessionId := s.nextSession }
  | .posted =>
    { s with
      sessionId := s.nextSession
      tasks := s.tasks ++ [{ id := s.lastTaskId + 1, sessionId := s.nextSession, arming := s.current }]
      lastTaskId := s.lastTaskId + 1
      taskId := s.lastTaskId + 1
      deadlineMs := nowMs + timeoutMs
      remainingMs := timeoutMs
      pending := true }

def arm (s : WakeTimer) (timeoutMs : ℕ) : WakeTimer :=
  { s with
    pending := true, remainingMs := timeoutMs
    armings := s.armings + 1, current := s.armings, due := s.due ++ [s.armings] }

def scheduleWakeEnd (s : WakeTimer) (enableAfe : Bool) (timeoutMs : ℕ) (posting : Posting) (nowMs : ℤ) : WakeTimer :=
  let s := s.cancelWakeEnd
  if !enableAfe || timeoutMs = 0 then s
  else if s.paused then s.arm timeoutMs
  else (s.arm timeoutMs).scheduleLocked timeoutMs posting nowMs

/-- `function_pause_wake_end`. -/
def pauseWakeEnd (s : WakeTimer) (nowMs : ℤ) : WakeTimer :=
  if s.taskId ≠ 0 then
    { s.cancelTask with
      paused := true, taskId := 0, remainingMs := max 1 (s.deadlineMs - nowMs), deadlineMs := 0 }
  else { s with paused := true }

/-- Whether `function_resume_wake_end` posts a task. -/
def Resumes (s : WakeTimer) : Prop :=
  s.pending = true ∧ s.taskId = 0 ∧ 0 < s.remainingMs

instance (s : WakeTimer) : Decidable s.Resumes := inferInstanceAs (Decidable (_ ∧ _))

/-- `function_resume_wake_end`. -/
def resumeWakeEnd (s : WakeTimer) (posting : Posting) (nowMs : ℤ) : WakeTimer :=
  if s.Resumes then
    { s with paused := false }.scheduleLocked (s.remainingMs.toNat % 2 ^ 32) posting nowMs
  else { s with paused := false }

/-- The section of `start_encoder`. -/
def reset (s : WakeTimer) : WakeTimer :=
  { s with
    paused := false, pending := false, taskId := 0, deadlineMs := 0, remainingMs := 0, sessionId := s.nextSession }

/-- What `on_wake_end_timeout` checks under the mutex. -/
def Passes (s : WakeTimer) (task : DelayedTask) : Prop :=
  task.sessionId = s.sessionId ∧ s.paused = false ∧ s.pending = true

instance (s : WakeTimer) (task : DelayedTask) : Decidable (s.Passes task) := inferInstanceAs (Decidable (_ ∧ _))

/-- The delay of a task is over: the task runs, up to the mutex. -/
def expire (s : WakeTimer) (task : DelayedTask) : WakeTimer :=
  { s with tasks := { task with running := true } :: s.tasks.erase task }

/-- The section of `on_wake_end_timeout`. -/
def onWakeEndTimeout (s : WakeTimer) (task : DelayedTask) : WakeTimer :=
  if s.Passes task then
    { s with
      tasks := s.tasks.erase task, taskId := 0, deadlineMs := 0, remainingMs := 0, pending := false
      publishing := s.publishing ++ [task.arming] }
  else { s with tasks := s.tasks.erase task }

/-- `publish_afe_event` of `on_wake_end_timeout`. -/
def publishWakeEnd (s : WakeTimer) (arming : ℕ) : WakeTimer :=
  { s with
    publishing := s.publishing.erase arming
    due := s.due.erase arming
    wakeEnds := s.wakeEnds ++ [arming]
    whilePaused := s.whilePaused || s.paused }

end WakeTimer

namespace WakeTimer

/-! ### What the timer owes -/

/-- The event of an arming is on its way: its task will pass the check, or has passed it. -/
def Awaits (s : WakeTimer) (arming : ℕ) : Prop :=
  arming ∈ s.publishing ∨ ∃ task ∈ s.tasks, task.arming = arming ∧ s.Passes task

/-- One event for every arming that is neither replaced nor cancelled nor stopped, none for the others, and none while the
timer is paused. -/
structure Exact (s : WakeTimer) : Prop where
  unpaused : s.whilePaused = false
  armed : ∀ arming ∈ s.wakeEnds, arming < s.armings
  once : s.wakeEnds.Nodup
  none : ∀ arming ∈ s.ended, arming ∉ s.wakeEnds
  leads : ∀ arming < s.armings, arming ∉ s.ended → arming ∉ s.wakeEnds →
    s.Awaits arming ∨ (s.paused = true ∧ ∀ nowMs, (s.resumeWakeEnd .posted nowMs).Awaits arming)

theorem Exact.rest {s : WakeTimer} (h : s.Exact) (hpsd : s.paused = false) (htks : s.tasks = [])
    (hpublishing : s.publishing = []) {arming : ℕ} (harm : arming < s.armings) (hended : arming ∉ s.ended) :
    s.wakeEnds.count arming = 1 := by
  refine count_eq_one_of_mem h.once ?_
  by_contra hnone
  obtain (hpub | ⟨task, htask, -⟩) | ⟨hp, -⟩ := h.leads arming harm hended hnone
  · rw [hpublishing] at hpub
    exact not_mem_nil hpub
  · rw [htks] at htask
    exact not_mem_nil htask
  · rw [hpsd] at hp
    cases hp

/-- The task that is posted for what is pending, and no other one of its session. -/
structure Posted (s : WakeTimer) : Prop where
  id : s.taskId ≠ 0
  task : ∃ task ∈ s.tasks, task.arming = s.current ∧ task.sessionId = s.sessionId
  only : ∀ task ∈ s.tasks, task.sessionId = s.sessionId → task.arming = s.current

/-- The invariant of the timer. -/
structure Kept (s : WakeTimer) : Prop where
  account : (s.due ++ s.ended ++ s.wakeEnds).Perm (List.range s.armings)
  unpaused : s.whilePaused = false
  pending : s.pending = true → s.due = [s.current] ∧ s.publishing = []
  idle : s.pending = false → s.due = s.publishing ∧ s.taskId = 0
  waits : s.pending = true → s.paused = true → s.taskId = 0 ∧ 0 < s.remainingMs
  posted : s.pending = true → s.paused = false → s.Posted
  clear : s.publishing ≠ [] → s.paused = false

/-- The number that the next posting gives out is not that of a task that is still there. -/
def FreshSession (s : WakeTimer) (sessionId : ℕ) : Prop := ∀ task ∈ s.tasks, task.sessionId ≠ sessionId

instance (s : WakeTimer) (sessionId : ℕ) : Decidable (s.FreshSession sessionId) := inferInstanceAs (Decidable (∀ _ ∈ _, _))

variable {s : WakeTimer}

theorem Kept.of_idle (hacct : (s.due ++ s.ended ++ s.wakeEnds).Perm (List.range s.armings))
    (hunp : s.whilePaused = false) (hpend : s.pending = false) (hdue : s.due = s.publishing)
    (hid : s.taskId = 0) (hclear : s.publishing ≠ [] → s.paused = false) : s.Kept := by
  have hno : s.pending ≠ true := Bool.eq_false_iff.mp hpend
  exact ⟨hacct, hunp, fun h => absurd h hno, fun _ => ⟨hdue, hid⟩, fun h => absurd h hno, fun h => absurd h hno, hclear⟩

theorem Kept.init : Kept {} :=
  .of_idle (Perm.refl _) rfl rfl rfl rfl fun _ => rfl

theorem Kept.exact (h : s.Kept) : s.Exact := by
  have hnd : (s.due ++ s.ended ++ s.wakeEnds).Nodup := h.account.nodup_iff.mpr nodup_range
  have hmem : ∀ arming, arming ∈ s.due ++ s.ended ++ s.wakeEnds ↔ arming < s.armings := fun arming =>
    h.account.mem_iff.trans mem_range
  obtain ⟨-, honce, hapart⟩ := nodup_append.mp hnd
  refine ⟨h.unpaused, fun arming harm => ?_, honce, fun arming harm hwake => ?_, fun arming harm hended hwake => ?_⟩
  · exact (hmem arming).mp (mem_append_right _ harm)
  · exact hapart arming (mem_append_right _ harm) arming hwake rfl
  · have hdue : arming ∈ s.due := by
      have hall := (hmem arming).mpr harm
      simp only [mem_append] at hall
      tauto
    by_cases hpend : s.pending = true
    · obtain ⟨hcurrent, -⟩ := h.pending hpend
      rw [hcurrent, mem_singleton] at hdue
      by_cases hpsd : s.paused = true
      · obtain ⟨hid, hremaining⟩ := h.waits hpend hpsd
        refine .inr ⟨hpsd, fun nowMs => .inr ?_⟩
        rw [resumeWakeEnd, if_pos ⟨hpend, hid, hremaining⟩]
        exact ⟨_, mem_append_right _ (mem_singleton_self _), hdue.symm, rfl, rfl, rfl⟩
      · have hpsd := Bool.eq_false_iff.mpr hpsd
        obtain ⟨-, ⟨task, htask, hcur, hsess⟩, -⟩ := h.posted hpend hpsd
        exact .inl (.inr ⟨task, htask, hcur.trans hdue.symm, hsess, hpsd, hpend⟩)
    · obtain ⟨hpub, -⟩ := h.idle (Bool.eq_false_iff.mpr hpend)
      exact .inl (.inl (hpub ▸ hdue))

/-! ### One lemma for each section -/

theorem ended_perm (h : (s.due ++ s.ended ++ s.wakeEnds).Perm (List.range s.armings)) :
    ([] ++ (s.ended ++ s.due) ++ s.wakeEnds).Perm (List.range s.armings) :=
  ((@perm_append_comm _ s.ended s.due).append_right s.wakeEnds).trans h

theorem Kept.cancelWakeEnd (h : s.Kept) (hpub : s.publishing = []) : s.cancelWakeEnd.Kept := by
  unfold WakeTimer.cancelWakeEnd cancelLocked cancelTask endDue
  split
  · exact .of_idle (ended_perm h.account) h.unpaused rfl hpub.symm rfl fun hp => absurd hpub hp
  · exact .of_idle (ended_perm h.account) h.unpaused rfl hpub.symm rfl fun hp => absurd hpub hp

theorem Kept.scheduleLocked {timeoutMs : ℕ} {nowMs : ℤ} (hacct : (s.due ++ s.ended ++ s.wakeEnds).Perm (List.range s.armings))
    (hunp : s.whilePaused = false) (hdue : s.due = [s.current]) (hpub : s.publishing = [])
    (hpsd : s.paused = false) (hfresh : s.FreshSession s.nextSession) :
    (s.scheduleLocked timeoutMs .posted nowMs).Kept := by
  refine ⟨hacct, hunp, fun _ => ⟨hdue, hpub⟩, fun hp => ?_, fun _ hp => ?_, fun _ _ => ⟨?_, ?_, ?_⟩, fun _ => hpsd⟩
  · cases hp
  · cases hpsd.symm.trans hp
  · exact Nat.succ_ne_zero _
  · exact ⟨_, mem_append_right _ (mem_singleton_self _), rfl, rfl⟩
  · intro task htask hsess
    rcases mem_append.mp htask with hold | hnew
    · exact absurd hsess (hfresh task hold)
    · obtain rfl := mem_singleton.mp hnew
      rfl

theorem arm_perm (h : (s.due ++ s.ended ++ s.wakeEnds).Perm (List.range s.armings)) (hdue : s.due = []) :
    ((s.due ++ [s.armings]) ++ s.ended ++ s.wakeEnds).Perm (List.range (s.armings + 1)) := by
  rw [hdue, nil_append] at h
  rw [hdue, nil_append, range_succ, append_assoc]
  exact (Perm.append_left _ h).trans perm_append_comm

theorem Kept.scheduleWakeEnd (h : s.Kept) (hpub : s.publishing = []) {enableAfe : Bool} {timeoutMs : ℕ}
    {posting : Posting} {nowMs : ℤ}
    (hposts : enableAfe = true → timeoutMs ≠ 0 → s.paused = false →
      posting = .posted ∧ s.cancelWakeEnd.FreshSession s.cancelWakeEnd.nextSession) :
    (s.scheduleWakeEnd enableAfe timeoutMs posting nowMs).Kept := by
  have hcanc := h.cancelWakeEnd hpub
  have hdue : s.cancelWakeEnd.due = [] := by rfl
  have hpsd : s.cancelWakeEnd.paused = s.paused := by
    unfold WakeTimer.cancelWakeEnd cancelLocked cancelTask endDue
    split <;> rfl
  have hquiet : s.cancelWakeEnd.publishing = [] := by
    unfold WakeTimer.cancelWakeEnd cancelLocked cancelTask endDue
    split <;> exact hpub
  have hid : s.cancelWakeEnd.taskId = 0 := rfl
  unfold WakeTimer.scheduleWakeEnd
  generalize s.cancelWakeEnd = c at *
  dsimp only
  split_ifs with hskip hpause
  · exact hcanc
  · simp only [Bool.or_eq_true, decide_eq_true_eq, not_or] at hskip
    refine ⟨arm_perm hcanc.account hdue, hcanc.unpaused, fun _ => ⟨?_, hquiet⟩, fun hp => ?_, fun _ _ => ⟨hid, ?_⟩,
      fun _ hp => ?_, fun hp => absurd hquiet hp⟩
    · exact congrArg (· ++ [c.armings]) hdue
    · cases hp
    · exact Int.natCast_pos.mpr (Nat.pos_of_ne_zero hskip.2)
    · cases hpause.symm.trans hp
  · simp only [Bool.or_eq_true, decide_eq_true_eq, not_or, Bool.not_eq_true', Bool.not_eq_false] at hskip
    have hpause := Bool.eq_false_iff.mpr hpause
    obtain ⟨rfl, hfresh⟩ := hposts hskip.1 hskip.2 (hpsd.symm.trans hpause)
    exact .scheduleLocked (s := c.arm timeoutMs) (arm_perm hcanc.account hdue) hcanc.unpaused
      (congrArg (· ++ [c.armings]) hdue) hquiet hpause hfresh

theorem Kept.pauseWakeEnd (h : s.Kept) (hpub : s.publishing = []) (nowMs : ℤ) : (s.pauseWakeEnd nowMs).Kept := by
  unfold WakeTimer.pauseWakeEnd cancelTask
  split_ifs with hid
  · refine ⟨h.account, h.unpaused, h.pending, fun hp => ⟨(h.idle hp).1, rfl⟩, fun _ _ => ⟨rfl, ?_⟩, fun _ hp => ?_,
      fun hp => absurd hpub hp⟩
    · exact lt_max_of_lt_left Int.one_pos
    · cases hp
  · refine ⟨h.account, h.unpaused, h.pending, h.idle, fun hp _ => ?_, fun _ hp => ?_, fun hp => absurd hpub hp⟩
    · by_cases hpsd : s.paused = true
      · exact h.waits hp hpsd
      · exact absurd (h.posted hp (Bool.eq_false_iff.mpr hpsd)).id hid
    · cases hp

theorem Kept.resumeWakeEnd (h : s.Kept) {posting : Posting} {nowMs : ℤ}
    (hposts : s.Resumes → posting = .posted ∧ s.FreshSession s.nextSession) : (s.resumeWakeEnd posting nowMs).Kept := by
  unfold WakeTimer.resumeWakeEnd
  split_ifs with hresumes
  · obtain ⟨rfl, hfresh⟩ := hposts hresumes
    obtain ⟨hdue, hpub⟩ := h.pending hresumes.1
    exact .scheduleLocked (s := { s with paused := false }) h.account h.unpaused hdue hpub rfl hfresh
  · refine ⟨h.account, h.unpaused, h.pending, h.idle, fun _ hp => ?_, fun hp _ => ?_, fun _ => rfl⟩
    · cases hp
    · by_cases hpsd : s.paused = true
      · exact absurd ⟨hp, h.waits hp hpsd⟩ hresumes
      · exact ⟨(h.posted hp (Bool.eq_false_iff.mpr hpsd)).id, (h.posted hp (Bool.eq_false_iff.mpr hpsd)).task,
          (h.posted hp (Bool.eq_false_iff.mpr hpsd)).only⟩

theorem Kept.reset (h : s.Kept) (hpend : s.pending = false) : s.reset.Kept :=
  .of_idle h.account h.unpaused rfl (h.idle hpend).1 rfl fun _ => rfl

theorem Kept.endDue (h : s.Kept) (hpend : s.pending = false) (hpub : s.publishing = []) : s.endDue.Kept :=
  .of_idle (ended_perm h.account) h.unpaused hpend hpub.symm (h.idle hpend).2 h.clear

/-- The tasks may be others, as long as the one that is posted stays and none joins its session. -/
theorem Kept.tasks (h : s.Kept) {tasks : List DelayedTask}
    (hpost : s.Posted → ({ s with tasks := tasks }).Posted) : Kept { s with tasks := tasks } :=
  ⟨h.account, h.unpaused, h.pending, h.idle, h.waits, fun hp hpsd => hpost (h.posted hp hpsd), h.clear⟩

theorem Kept.expire (h : s.Kept) {task : DelayedTask} (htask : task ∈ s.tasks) : (s.expire task).Kept := by
  refine h.tasks fun hpost => ⟨hpost.id, ?_, ?_⟩
  · obtain ⟨other, hoth, hfacts⟩ := hpost.task
    by_cases heq : other = task
    · subst heq
      exact ⟨{ other with running := true }, mem_cons_self, hfacts⟩
    · exact ⟨other, mem_cons_of_mem _ ((mem_erase_of_ne heq).mpr hoth), hfacts⟩
  · intro other hoth hsess
    rcases mem_cons.mp hoth with heq | hrest
    · rw [heq] at hsess ⊢
      exact hpost.only task htask hsess
    · exact hpost.only other (mem_of_mem_erase hrest) hsess

theorem Kept.onWakeEndTimeout (h : s.Kept) {task : DelayedTask} (htask : task ∈ s.tasks) :
    (s.onWakeEndTimeout task).Kept := by
  unfold WakeTimer.onWakeEndTimeout
  split_ifs with hpass
  · obtain ⟨hsess, hpsd, hpend⟩ := hpass
    obtain ⟨hdue, hpub⟩ := h.pending hpend
    refine .of_idle h.account h.unpaused rfl ?_ rfl fun _ => hpsd
    rw [hpub, hdue, (h.posted hpend hpsd).only task htask hsess, nil_append]
  · refine ⟨h.account, h.unpaused, h.pending, h.idle, h.waits, fun hp hpsd => ?_, h.clear⟩
    obtain ⟨hid, ⟨other, hoth, hcur, hsess⟩, honly⟩ := h.posted hp hpsd
    have hne : other ≠ task := by
      rintro rfl
      exact hpass ⟨hsess, hpsd, hp⟩
    exact ⟨hid, ⟨other, (mem_erase_of_ne hne).mpr hoth, hcur, hsess⟩, fun t ht =>
      honly t (mem_of_mem_erase ht)⟩

theorem Kept.publishWakeEnd (h : s.Kept) {arming : ℕ} (harm : arming ∈ s.publishing) :
    (s.publishWakeEnd arming).Kept := by
  have hpsd : s.paused = false := h.clear (ne_nil_of_mem harm)
  have hpend : s.pending = false := by
    by_contra hp
    rw [(h.pending (Bool.of_not_eq_false hp)).2] at harm
    exact not_mem_nil harm
  obtain ⟨hdue, hid⟩ := h.idle hpend
  refine .of_idle ?_ ?_ hpend (congrArg (List.erase · arming) hdue) hid fun _ => hpsd
  · refine Perm.trans ?_ h.account
    refine perm_iff_count.mpr fun other => ?_
    have hcnt : s.due.count other = (s.due.erase arming).count other + [arming].count other := by
      rw [← count_append, (perm_cons_erase (hdue ▸ harm)).count_eq, count_append, ← singleton_append, count_append]
      omega
    simp only [WakeTimer.publishWakeEnd, count_append]
    omega
  · show (s.whilePaused || s.paused) = false
    rw [h.unpaused, hpsd]
    rfl

end WakeTimer

end Brookesia.Audio
