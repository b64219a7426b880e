import Brookesia.TaskScheduler.Accounting

/-! # Delayed tasks run at most once

The handler of a delayed task does not ask whether the closure has been executed, so each wait that
completes with success executes it. `fires` counts what has become of these waits: closures started,
handlers that wait for the timer, and handlers queued or under way with success. Only setting the
timer adds one, and it does no harm while the count is that of the waits, which it aborts
(`Unfired`). `delayed_once`: if the timer of the task is only ever set then, the closure is executed
at most once. -/

namespace Brookesia.TaskScheduler.Delayed

open Transition Model Steps
open Handles

/-- The handler came with success and has not called the closure. -/
def early : Stage → Bool
  | .entered .success | .tested .success => true
  | _ => false

/-- The executions of the closure that have been started or can still be. -/
def fires (t : Task) : ℕ :=
  t.executions + (waits t).length + t.queue.countP (·.ec = .success) + t.flights.countP (early ·.stage)

/-- No wait of the task has completed with success yet. -/
structure Unfired (t : Task) : Prop where
  executions : t.executions = 0
  queue : ∀ c ∈ t.queue, c.ec ≠ .success
  flights : ∀ f ∈ t.flights, early f.stage = false

instance (t : Task) : Decidable (Unfired t) :=
  decidable_of_iff (t.executions = 0 ∧ (∀ c ∈ t.queue, c.ec ≠ .success) ∧ ∀ f ∈ t.flights, early f.stage = false)
    ⟨fun h => ⟨h.1, h.2.1, h.2.2⟩, fun h => ⟨h.executions, h.queue, h.flights⟩⟩

/-- The next operation under the mutex sets the timer of `p`. -/
def Arms (p : TaskId) (s : State) : Prop :=
  s.lock.head? = some (.rearm p) ∨ s.lock.head? = some (.restartTimer p) ∧ p ∈ s.tasks ∧ (s.heap p).state = .running

instance (p : TaskId) (s : State) : Decidable (Arms p s) := by unfold Arms; infer_instance

/-- The timer of `p` is set, by its poster, by `resume` or by `restart_timer`, only while no wait of
`p` has completed with success. -/
def ArmsUnfired (p : TaskId) (s : State) : Action → Prop
  | .postNext id => id = p → (s.heap p).post = .saved → Unfired (s.heap p)
  | .locked => Arms p s → Unfired (s.heap p)
  | _ => True

instance (p : TaskId) (s : State) (a : Action) : Decidable (ArmsUnfired p s a) :=
  match a with
  | .postNext _ => inferInstanceAs (Decidable (_ → _))
  | .locked => inferInstanceAs (Decidable (_ → _))
  | .tick | .post .. | .call _ | .expire _ | .enter .. | .advance .. | .finish .. | .wait _ | .wake _ =>
    isTrue trivial

/-! ### One handle -/

theorem countP_aborted (hs : List Handler) : (aborted hs).countP (·.ec = .success) = 0 := by
  simp [aborted]

theorem fires_arm {t : Task} (h : Unfired t) (expiry : ℤ) (handler : Handler) : fires (arm t expiry handler) = 1 := by
  have hq : t.queue.countP (·.ec = .success) = 0 := by simpa using h.queue
  have hf : t.flights.countP (early ·.stage) = 0 := by simpa using h.flights
  have hw : waits (arm t expiry handler) = [handler] := rfl
  unfold fires
  rw [hw]
  simp [arm, List.countP_append, countP_aborted, hq, hf, h.executions]

theorem fires_drop (t : Task) : fires (drop t) ≤ fires t := by
  have hw : waits (drop t) = [] := rfl
  unfold fires
  rw [hw]
  simp only [drop, List.countP_append, countP_aborted, List.length_nil]
  omega

theorem fires_cancelTimer (t : Task) : fires t.cancelTimer ≤ fires t := by
  unfold fires
  rw [waits_cancelTimer, cancelTimer_eq]
  simp only [List.countP_append, countP_aborted, List.length_nil]
  omega

theorem fires_settle (t : Task) (value : Bool) : fires (t.settle value) = fires t := by
  unfold Task.settle; split <;> rfl

theorem fires_expire {t : Task} {timer : Timer} (htim : timer.waits = []) : fires { t with
      timer := some timer
      queue := t.queue ++ (waits t).map fun h => ⟨h, .success⟩ } = fires t := by
  have hq : ((waits t).map fun h => (⟨h, .success⟩ : Completion)).countP (·.ec = .success) = (waits t).length := by simp
  have hw : waits { t with
      timer := some timer
      queue := t.queue ++ (waits t).map fun h => ⟨h, .success⟩ } = [] := htim
  unfold fires
  rw [hw]
  simp only [List.countP_append, hq, List.length_nil]
  omega

theorem fires_goes {t : Task} {f : Flight} (hf : f ∈ t.flights) {next : Option Stage}
    (hnext : ∀ stage, next = some stage → stage = .executing ∨ early stage = true →
      early f.stage = true) : fires (t.goes f next) ≤ fires t := by
  have hcnt : (t.goes f next).flights.countP (early ·.stage) + (early f.stage).toNat =
      t.flights.countP (early ·.stage) + (next.elim false early).toNat :=
    countP_goes (early ·.stage) hf next
  have hexec : (t.goes f next).executions = t.executions + if next = some .executing then 1 else 0 := rfl
  have hw : waits (t.goes f next) = waits t := rfl
  have hq : (t.goes f next).queue = t.queue := rfl
  have hle : (next.elim false early).toNat + (if next = some .executing then 1 else 0) ≤ (early f.stage).toNat := by
    cases next with
    | none => simp
    | some stage =>
      by_cases hs : stage = .executing
      · have h1 : early f.stage = true := hnext stage rfl (.inl hs)
        rw [h1, hs]
        simp [early]
      · cases he : early stage with
        | true =>
          have h1 : early f.stage = true := hnext stage rfl (.inr he)
          simp [h1, he, hs]
        | false => simp [he, hs]
  unfold fires
  rw [hexec, hw, hq]
  omega

theorem fires_enter {t : Task} {c : Completion} (hc : c ∈ t.queue) : fires (t.enter c) = fires t := by
  have hq : (t.queue.erase c).countP (·.ec = .success) + (decide (c.ec = .success)).toNat =
      t.queue.countP (·.ec = .success) := by
    rw [(List.perm_cons_erase hc).countP_eq, List.countP_cons]
    cases c.ec <;> rfl
  have hw : waits (t.enter c) = waits t := rfl
  have he : early (.entered c.ec) = decide (c.ec = .success) := by cases c.ec <;> rfl
  unfold fires
  rw [hw]
  simp only [Task.enter, List.countP_cons, he]
  cases hd : decide (c.ec = .success) <;> simp [hd] at hq ⊢ <;> omega

theorem early_of_next {t : Task} {f : Flight} (hok : FlightOk .delayed f) {stage : Stage}
    (h : t.next f = some stage) (hs : stage = .executing ∨ early stage = true) :
    early f.stage = true := by
  have hh : f.handler = .once := by
    have := hok.type
    cases hf : f.handler <;> rw [hf] at this <;> first | rfl | cases this
  have hper : periodicStage f.stage ≠ true := fun hp => by
    have := hok.stage hp
    rw [hh] at this
    cases this
  obtain ⟨handler, st⟩ := f
  cases hh
  cases st with
  | entered ec =>
    cases ec with
    | success => rfl
    | operationAborted =>
      simp only [Task.next, afterEntered, reduceCtorEq, if_false] at h
      split_ifs at h
      cases h
      rcases hs with hs | hs <;> cases hs
  | tested ec =>
    cases ec with
    | success => rfl
    | operationAborted =>
      simp only [Task.next, afterTested] at h
      split_ifs at h
      cases h
      rcases hs with hs | hs <;> cases hs
  | claiming | skipping | rearming | returned | exiting => exact absurd rfl hper
  | _ => cases h

/-! ### Steps -/

/-- What is kept for the delayed task `p`. -/
def Once (p : TaskId) (s : State) : Prop := (s.heap p).type = .delayed → fires (s.heap p) ≤ 1

section Once
variable {p : TaskId} {s s' : State} (ho : Once p s)
include ho

theorem Once.frame (hheap : s'.heap p = s.heap p) : Once p s' := by
  unfold Once; rw [hheap]; exact ho

theorem Once.setTask {id : TaskId} {t : Task} (htype : t.type = (s.heap id).type)
    (h : id = p → t.type = .delayed → fires t ≤ fires (s.heap id) ∨ fires t = 1) :
    Once p (s.setTask id t) := by
  by_cases he : id = p
  · subst he
    intro hty
    have hheap : (s.setTask id t).heap id = t := by simp [State.setTask]
    rw [hheap] at hty ⊢
    rcases h rfl hty with hle | heq
    · exact Nat.le_trans hle (ho (htype ▸ hty))
    · exact Nat.le_of_eq heq
  · exact ho.frame (by simp [State.setTask, Ne.symm he])

theorem Once.without {id : TaskId} {t : Task} (htype : t.type = (s.heap id).type)
    (h : fires t ≤ fires (s.heap id)) (groups : Group → List TaskId) :
    Once p (without s id t groups) := by
  by_cases he : id = p
  · subst he
    intro hty
    rw [type_without htype] at hty
    simp only [Steps.without, Function.update_self]
    split
    · exact Nat.le_trans (fires_drop t) (Nat.le_trans h (ho hty))
    · exact Nat.le_trans h (ho hty)
  · exact ho.frame (by simp [Steps.without, Ne.symm he])

theorem Once.poster (hw : Wf s) {id : TaskId}
    (hc : id = p → (s.heap p).post = .saved → Unfired (s.heap p)) {t' : Task} (h : Poster s.now (s.heap id) t') :
    Once p (s.setTask id t') := by
  refine ho.setTask (by cases h <;> rfl) fun he hty => ?_
  subst he
  cases h with
  | timer hp =>
    have hearly := (hw.task id).early (by rw [hp]; exact fun h => h)
    left
    unfold fires
    rw [hearly.waits]
    exact Nat.le_refl _
  | promise | savedTask | savedPeriodicTask => exact .inl (Nat.le_refl _)
  | wrapper _ htype => rw [htype] at hty; cases hty
  | scheduleOnce expiry hp => exact .inr (fires_arm (hc rfl hp) expiry .once)
  | schedulePeriodic _ _ htype =>
    have hty' : (s.heap id).type = .delayed := hty
    rw [htype] at hty'
    cases hty'

theorem Once.locked {op : LockedOp} {rest : List LockedOp} (hlock : s.lock = op :: rest)
    (hc : Arms p s → Unfired (s.heap p)) (h : Locked { s with lock := rest } op s') :
    Once p s' := by
  have hp : Once p { s with lock := rest } := ho
  cases h with
  | none | resume | rearmNone => exact ho
  | @cancel id hid groups =>
    have hty : (({ s.heap id with state := .canceled }.cancelTimer).settle false).type =
        (s.heap id).type := by rw [type_settle, cancelTimer_eq]
    refine Once.without (s := { s with lock := rest, canceledTasks := s.canceledTasks + 1 }) ho hty ?_ groups
    rw [fires_settle]
    exact fires_cancelTimer { s.heap id with state := .canceled }
  | @suspend id hid hty hstate remaining =>
    exact hp.setTask (by rw [cancelTimer_eq]) fun _ _ =>
      .inl (fires_cancelTimer { s.heap id with remainingTime := remaining })
  | setSuspended id =>
    exact hp.setTask (t := { s.heap id with state := .suspended }) rfl fun _ _ =>
      .inl (Nat.le_refl _)
  | setRunning id =>
    exact hp.setTask (t := { s.heap id with state := .running }) rfl fun _ _ =>
      .inl (Nat.le_refl _)
  | @rearm id _ _ expiry h _ =>
    refine hp.setTask rfl fun he _ => .inr (fires_arm ?_ expiry h)
    subst he
    exact hc (.inl (by rw [hlock]; rfl))
  | @restart id hid hstate _ _ expiry h _ =>
    refine hp.setTask rfl fun he _ => .inr (fires_arm ?_ expiry h)
    subst he
    exact hc (.inr ⟨by rw [hlock]; rfl, hid, hstate⟩)
  | restartNone =>
    exact hp.setTask (by rw [cancelTimer_eq]) fun _ _ => .inl (fires_cancelTimer _)

theorem Once.effect (hw : Wf s) {a : Action} (hc : ArmsUnfired p s a) (h : Effect s a s') : Once p s' := by
  cases h with
  | tick | call | wait | wake => exact ho
  | post posted group =>
    by_cases he : p = s.nextId
    · subst he
      intro _
      cases posted <;> simp [postInsert, createHandle, fires, waits]
    · cases posted <;> exact ho.frame (by simp [postInsert, createHandle, he])
  | postNext _ h => exact ho.poster hw hc h
  | locked hlock h => exact ho.locked hlock hc h
  | @expire id hwaits timer htim =>
    refine ho.setTask rfl fun _ _ => .inl ?_
    exact Nat.le_of_eq (fires_expire htim)
  | enter hq => exact ho.setTask rfl fun _ _ => .inl (Nat.le_of_eq (fires_enter hq))
  | @go id f hf hstg busy hbusy =>
    refine ho.setTask rfl fun he hty => .inl ?_
    have hok : FlightOk .delayed f := by
      have := (hw.task id).flights f hf
      rwa [show (s.heap id).type = .delayed from hty] at this
    exact fires_goes hf fun stage h hs => early_of_next hok h hs
  | @rearming id f skip hf hstg =>
    refine ho.setTask rfl fun he hty => ?_
    have hok := (hw.task id).flights f hf
    have hper := hok.stage (by rw [hstg]; rfl)
    have hty' : (s.heap id).type = .delayed := hty
    rw [← hok.type, typeOf_isPeriodic.mp hper] at hty'
    cases hty'
  | @finishing id f success hf hstg =>
    exact ho.setTask (t := { (s.heap id).goes f (some (.settling success)) with state := .finished })
      rfl fun _ _ => .inl (fires_goes hf fun stage h hs => by
        cases h; rcases hs with hs | hs <;> cases hs)
  | @settling id f success hf hstg hfree groups =>
    have hflights : f ∈ ((s.heap id).settle success).flights := by
      unfold Task.settle; split <;> exact hf
    refine ho.without (by exact type_settle _) (Nat.le_trans (fires_goes hflights fun stage h hs => ?_)
      (Nat.le_of_eq (fires_settle _ _))) groups
    split_ifs at h
    cases h
    rcases hs with hs | hs <;> cases hs
  | @removing id f hf hstg hfree groups =>
    exact ho.without (t := (s.heap id).goes f none) rfl (fires_goes hf (by simp)) groups
  | @finish id f o hf hstg =>
    cases o with
    | returned shouldContinue =>
      refine ho.setTask rfl fun _ _ => .inl (fires_goes hf fun stage h hs => ?_)
      cases h
      split_ifs at hs <;> rcases hs with hs | hs <;> cases hs
    | threw =>
      refine ho.setTask rfl fun _ _ => .inl (fires_goes hf fun stage h hs => ?_)
      cases h
      rcases hs with hs | hs <;> cases hs

end Once

end Brookesia.TaskScheduler.Delayed
