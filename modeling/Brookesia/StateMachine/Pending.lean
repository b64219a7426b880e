import Brookesia.StateMachine.Runs

/-! # The count of pending transitions

`transition_count_` is raised when `trigger_action` accepts an action, before the scheduler has the task, and lowered by the task.
Here the machine meets a scheduler that may refuse a task, a `cancel_group` that drops the tasks of the group, and callbacks that
throw.

* An action is outstanding from the raising of the count until its task has ended: it is being posted, in the queue, or on the strand.
  A task that is refused or dropped is outstanding no longer.
* A callback that throws ends its task: the guard of an action is run on the way out, a periodic task is finished by the scheduler.
* `count_exact`: the count is the number of outstanding actions throughout a run exactly if no task of an action is refused or dropped
  while the machine runs, and no action of an earlier run is outstanding when it is started again. -/

namespace Brookesia.StateMachine.Pending

open Transition Model Runs List Option

/-- The actions that are accepted and have neither ended nor been dropped. -/
def outstanding (s : State) : ℕ :=
  s.posting.length + s.queue.countP Job.isTrigger + s.stack.countP Frame.isTrigger

def hasTransitionRunning (s : State) : Bool := 0 < s.transitionCount

inductive Event
  | action (a : Action)
  /-- The scheduler refuses the task: of an action that is posted, of one that a callback dispatches, of one that the timeout task
  dispatches. -/
  | refusePost (t : Trigger)
  | refuseDispatch
  | refuseTimeout
  /-- `cancel_group` of the group. -/
  | cancelGroup
  | throw
deriving DecidableEq

def throwing (s : State) : Option State :=
  match s.stack with
  | .trigger f :: rest =>
    if (Frame.trigger f).inCallback then some { s with stack := .trigger { f with stage := .releasing } :: rest } else none
  | .update t true :: rest => some { s.cancel t.id with stack := rest }
  | _ => none

def step (chart : Chart) (s : State) : Event → Option State
  | .action a => Model.step chart s a
  | .refusePost t => if t ∈ s.posting then some { s with posting := s.posting.erase t } else none
  | .refuseDispatch =>
    match s.stack with
    | [] => none
    | frame :: _ => if frame.inCallback && s.isRunning then some s.accept else none
  | .refuseTimeout =>
    match s.stack with
    | .timeout t false :: rest => if s.isRunning then some { s.accept with stack := .timeout t true :: rest } else none
    | _ => none
  | .cancelGroup => some { s with tasks := [], armed := [], queue := [] }
  | .throw => throwing s

def pendingMachine (chart : Chart) : Machine State Event where
  init s := s = {}
  step := step chart

/-- No task of an action is lost while the machine runs, and it starts when all actions have ended. -/
def NothingLost (chart : Chart) (s : State) : Event → Prop
  | .action (.control _) => setsScheduler chart s = true → s.isRunning = false → outstanding s = 0
  | .refusePost _ | .refuseDispatch | .refuseTimeout => s.isRunning = false
  | .cancelGroup => s.isRunning = true → s.queue.countP Job.isTrigger = 0
  | _ => True

instance (chart : Chart) (s : State) (e : Event) : Decidable (NothingLost chart s e) :=
  match e with
  | .action (.control _) => inferInstanceAs (Decidable (_ → _))
  | .action (.start _) | .action .stop | .action (.accept _) | .action (.post _) | .action (.expire _) => isTrue trivial
  | .action .take | .action (.strand _) | .action (.dispatch _) | .throw => isTrue trivial
  | .refusePost _ | .refuseDispatch | .refuseTimeout => inferInstanceAs (Decidable (_ = _))
  | .cancelGroup => inferInstanceAs (Decidable (_ → _))

/-- While the machine runs, the count is the number of outstanding actions. -/
def CountExact (s : State) : Prop := s.isRunning = true → s.transitionCount = outstanding s

/-- The count of a machine that does not run is zero. -/
structure Counted (s : State) : Prop where
  running : s.isRunning = true → s.transitionCount = outstanding s
  stopped : s.isRunning = false → s.transitionCount = 0

/-! ### What leaves the actions alone -/

structure Same (s s' : State) : Prop where
  isRunning : s'.isRunning = s.isRunning
  transitionCount : s'.transitionCount = s.transitionCount
  posting : s'.posting = s.posting
  queue : s'.queue.countP Job.isTrigger = s.queue.countP Job.isTrigger
  stack : s'.stack = s.stack

section
variable {s s' : State}

theorem Same.refl (s : State) : Same s s := ⟨rfl, rfl, rfl, rfl, rfl⟩

theorem Same.cancel (s : State) (id : TaskId) : Same s (s.cancel id) := by
  refine ⟨rfl, rfl, rfl, ?_, rfl⟩
  show (s.queue.filter _).countP Job.isTrigger = _
  rw [countP_filter]
  refine countP_congr fun job _ => ?_
  cases job with
  | trigger t => exact Iff.rfl
  | timer t => exact iff_of_false Bool.false_ne_true Bool.false_ne_true

theorem same_cancelStep (s : State) (c : CancelStage) : Same s (cancelStep s c).1 := by
  cases c with
  | taking => exact ⟨rfl, rfl, rfl, rfl, rfl⟩
  | timeout timeoutId updateId =>
    show Same s (if timeoutId = 0 then s else s.cancel timeoutId)
    split_ifs
    · exact .refl s
    · exact .cancel s timeoutId
  | update updateId =>
    show Same s (if updateId = 0 then s else s.cancel updateId)
    split_ifs
    · exact .refl s
    · exact .cancel s updateId

theorem same_setupStep (chart : Chart) (s : State) (name : StateName) (entry : ℕ) (u : SetupStage) :
    Same s (setupStep chart s name entry u).1 := by
  cases u with
  | checking => exact .refl s
  | reading => exact .refl s
  | postingUpdate =>
    unfold setupStep
    dsimp only
    split
    · exact .refl s
    · split_ifs
      · exact ⟨rfl, rfl, rfl, rfl, rfl⟩
      · exact .refl s
  | storingUpdate id => exact ⟨rfl, rfl, rfl, rfl, rfl⟩
  | postingTimeout =>
    unfold setupStep
    dsimp only
    split
    · exact .refl s
    · split_ifs
      · exact ⟨rfl, rfl, rfl, rfl, rfl⟩
      · exact .refl s
  | storingTimeout id => exact ⟨rfl, rfl, rfl, rfl, rfl⟩

theorem Same.noteLeak (h : Same s s') (t : Trigger) : Same s (s'.noteLeak t) := by
  unfold State.noteLeak
  split_ifs
  · exact h
  · exact ⟨h.isRunning, h.transitionCount, h.posting, h.queue, h.stack⟩

/-- An action goes on, or it ends: before its guard if the machine does not run, or with it. -/
theorem triggerStep_cases (chart : Chart) (s : State) (f : TriggerFrame) (ok : Bool) :
    (∃ s' f', triggerStep chart s f ok = (s', some f') ∧ Same s s') ∨
      (triggerStep chart s f ok = (s, none) ∧ (s.isRunning = true → s.transitionCount = 0)) ∨
        ∃ s', triggerStep chart s f ok = (s', none) ∧ Same { s with transitionCount := s.transitionCount - 1 } s' := by
  have hassign : ∀ name, Same s ((s.assign name).noteLeak f.trigger) := by
    intro name
    have hsame : Same s (s.assign name) := ⟨rfl, rfl, rfl, rfl, rfl⟩
    exact hsame.noteLeak f.trigger
  have hgoes : ∀ f' : TriggerFrame, ∃ s' f'', (s, some f') = (s', some f'') ∧ Same s s' := fun f' => ⟨s, f', rfl, .refl s⟩
  unfold triggerStep
  cases f.stage with
  | entered =>
    by_cases hrun : s.isRunning = true
    · refine .inl ⟨s, { f with stage := .looking }, ?_, .refl s⟩
      dsimp only
      rw [if_pos hrun]
    · refine .inr (.inl ⟨?_, fun h => absurd h hrun⟩)
      dsimp only
      rw [if_neg hrun]
  | looking =>
    dsimp only
    split_ifs
    · exact .inl (hgoes _)
    · split
      · exact .inl (hgoes _)
      · exact .inl (hgoes _)
  | validating =>
    dsimp only
    split_ifs
    · exact .inl (hgoes _)
    · exact .inl (hgoes _)
    · exact .inl (hgoes _)
  | exiting => exact .inl (hgoes _)
  | cancelling c =>
    have hsame := same_cancelStep s c
    dsimp only
    split
    next s' c' hc =>
      rw [hc] at hsame
      exact .inl ⟨s', _, rfl, hsame⟩
    next s' hc =>
      rw [hc] at hsame
      exact .inl ⟨s', _, rfl, hsame⟩
  | entering => exact .inl (hgoes _)
  | assigning => exact .inl ⟨_, _, rfl, hassign f.nextState⟩
  | restoring => exact .inl (hgoes _)
  | reassigning => exact .inl ⟨_, _, rfl, hassign f.previousState⟩
  | settingUp u success =>
    have hsame := same_setupStep chart s (f.target success) f.entry u
    dsimp only
    split
    next s' u' hu =>
      rw [hu] at hsame
      exact .inl ⟨s', _, rfl, hsame⟩
    next s' ready hu =>
      rw [hu] at hsame
      exact .inl ⟨s', _, rfl, hsame⟩
  | finishing => exact .inl (hgoes _)
  | calling => exact .inl ⟨_, _, rfl, (Same.refl s).noteLeak f.trigger⟩
  | called => exact .inl (hgoes _)
  | releasing =>
    dsimp only
    split_ifs with hcnt
    · exact .inr (.inr ⟨_, rfl, (Same.refl _).noteLeak f.trigger⟩)
    · exact .inr (.inl ⟨rfl, fun _ => Nat.eq_zero_of_not_pos hcnt⟩)

end

/-! ### Steps of the machine -/

section
variable {chart : Chart} {s s' : State} {frame : Frame} {rest : List Frame}

theorem Counted.same (hs : Counted s) (h : Same s s') : Counted s' := by
  have hout : outstanding s' = outstanding s := by
    unfold outstanding
    rw [h.posting, h.queue, h.stack]
  refine ⟨fun hrun => ?_, fun hstop => ?_⟩
  · rw [h.transitionCount, hout]
    exact hs.running (h.isRunning ▸ hrun)
  · rw [h.transitionCount]
    exact hs.stopped (h.isRunning ▸ hstop)

theorem Counted.setStack (hs : Counted s) {stack : List Frame}
    (h : stack.countP Frame.isTrigger = s.stack.countP Frame.isTrigger) : Counted { s with stack := stack } := by
  have hout : outstanding { s with stack := stack } = outstanding s := congrArg (_ + ·) h
  exact ⟨fun hrun => (hs.running hrun).trans hout.symm, hs.stopped⟩

theorem Counted.setControl (hs : Counted s) (control : Control) : Counted { s with control := control } :=
  ⟨hs.running, hs.stopped⟩

theorem Counted.accept (hs : Counted s) (hrun : s.isRunning = true) (f : TriggerFrame) {stack : List Frame}
    (h : stack.countP Frame.isTrigger = s.stack.countP Frame.isTrigger) :
    Counted { s.accept with stack := .trigger f :: stack } := by
  refine ⟨fun _ => ?_, fun hstop => absurd hrun (Bool.eq_false_iff.mp hstop)⟩
  have hcnt := hs.running hrun
  have hpush : (Frame.trigger f :: stack).countP Frame.isTrigger = s.stack.countP Frame.isTrigger + 1 := by
    rw [countP_cons_of_pos rfl, h]
  show s.transitionCount + 1 = s.posting.length + s.queue.countP Job.isTrigger + _
  rw [hpush, hcnt]
  unfold outstanding
  omega

theorem Counted.pop (hs : Counted s) {f : TriggerFrame} (hstk : s.stack = .trigger f :: rest) :
    Counted { s with transitionCount := s.transitionCount - 1, stack := rest } := by
  have hpop : s.stack.countP Frame.isTrigger = rest.countP Frame.isTrigger + 1 := by
    rw [hstk, countP_cons_of_pos rfl]
  refine ⟨fun hrun => ?_, fun hstop => ?_⟩
  · have hcnt := hs.running hrun
    unfold outstanding at hcnt
    show s.transitionCount - 1 = s.posting.length + s.queue.countP Job.isTrigger + rest.countP Frame.isTrigger
    omega
  · show s.transitionCount - 1 = 0
    rw [hs.stopped hstop]

theorem Counted.triggerStep (hs : Counted s) {f : TriggerFrame} (hstk : s.stack = .trigger f :: rest) (ok : Bool) :
    Counted (frameStep chart s (.trigger f) rest ok) := by
  unfold frameStep
  dsimp only
  rcases triggerStep_cases chart s f ok with ⟨s', f', heq, hsame⟩ | ⟨heq, hzero⟩ | ⟨s', heq, hsame⟩ <;> rw [heq]
  · refine (hs.same hsame).setStack ?_
    rw [hsame.stack, hstk, countP_cons_of_pos rfl, countP_cons_of_pos rfl]
  · have hpop : s.stack.countP Frame.isTrigger = rest.countP Frame.isTrigger + 1 := by
      rw [hstk, countP_cons_of_pos rfl]
    refine ⟨fun hrun => ?_, hs.stopped⟩
    have hcnt := hs.running hrun
    unfold outstanding at hcnt
    have hnone := hzero hrun
    omega
  · have hpopped : Counted { s with transitionCount := s.transitionCount - 1, stack := rest } := hs.pop hstk
    exact hpopped.same ⟨hsame.isRunning, hsame.transitionCount, hsame.posting, hsame.queue, rfl⟩

theorem Counted.frameStep (hs : Counted s) (hstk : s.stack = frame :: rest) (ok : Bool) :
    Counted (frameStep chart s frame rest ok) := by
  cases frame with
  | trigger f => exact hs.triggerStep hstk ok
  | update t running =>
    have hrest : s.stack.countP Frame.isTrigger = rest.countP Frame.isTrigger := by
      rw [hstk, countP_cons_of_neg Bool.false_ne_true]
    cases running with
    | false =>
      refine hs.setStack ?_
      rw [hrest, countP_cons_of_neg Bool.false_ne_true]
    | true =>
      have hpop : Counted { s with stack := rest } := hs.setStack hrest.symm
      exact hpop.same ⟨rfl, rfl, rfl, rfl, rfl⟩
  | timeout t triggered =>
    have hrest : s.stack.countP Frame.isTrigger = rest.countP Frame.isTrigger := by
      rw [hstk, countP_cons_of_neg Bool.false_ne_true]
    have hpush : (Frame.timeout t true :: rest).countP Frame.isTrigger = s.stack.countP Frame.isTrigger := by
      rw [hrest, countP_cons_of_neg Bool.false_ne_true]
    cases triggered with
    | true =>
      have hpop : Counted { s with stack := rest } := hs.setStack hrest.symm
      have hsame := Same.cancel s t.id
      exact hpop.same ⟨hsame.isRunning, hsame.transitionCount, hsame.posting, hsame.queue, rfl⟩
    | false =>
      unfold Model.frameStep
      dsimp only
      split
      · exact hs.setStack hpush
      · split_ifs with hrun
        · exact hs.accept hrun _ hpush
        · exact hs.setStack hpush

theorem Counted.startStep (hs : Counted s) {initialState : StateName} {stage : StartStage}
    (hctl : s.control = .starting initialState stage)
    (hdrained : setsScheduler chart s = true → s.isRunning = false → outstanding s = 0) (ok : Bool) :
    Counted (startStep chart s initialState ok stage) := by
  cases stage with
  | locking =>
    unfold Model.startStep
    by_cases hfnd : (chart.findState initialState).isSome = true
    · rw [if_pos hfnd]
      refine ⟨fun _ => ?_, fun hstop => Bool.noConfusion hstop⟩
      by_cases hrun : s.isRunning = true
      · exact hs.running hrun
      · have hstop : s.isRunning = false := Bool.eq_false_iff.mpr hrun
        have hsets : setsScheduler chart s = true := by
          unfold setsScheduler
          rw [hctl]
          exact hfnd
        exact (hs.stopped hstop).trans (hdrained hsets hstop).symm
    · rw [if_neg hfnd]
      exact hs.setControl _
  | cancelling c =>
    have hsame := same_cancelStep s c
    unfold Model.startStep
    dsimp only
    split <;> next heq =>
      rw [heq] at hsame
      exact (hs.same hsame).setControl _
  | settingUp entry u =>
    have hsame := same_setupStep chart s initialState entry u
    unfold Model.startStep
    dsimp only
    split <;> next heq =>
      rw [heq] at hsame
      exact (hs.same hsame).setControl _
  | assigning => exact hs.same ⟨rfl, rfl, rfl, rfl, rfl⟩
  | checking => exact hs.setControl _
  | finding => exact hs.setControl _
  | entering => exact hs.setControl _

theorem Counted.stopStep (hs : Counted s) (stage : StopStage) : Counted (stopStep s stage) := by
  cases stage with
  | checking => exact hs.setControl _
  | cancelling c =>
    have hsame := same_cancelStep s c
    unfold Model.stopStep
    dsimp only
    split <;> next heq =>
      rw [heq] at hsame
      exact (hs.same hsame).setControl _
  | clearing => exact ⟨fun hrun => absurd hrun Bool.false_ne_true, fun _ => rfl⟩

theorem Counted.action (hs : Counted s) {a : Action} (hc : NothingLost chart s (.action a))
    (hst : Model.step chart s a = some s') : Counted s' := by
  unfold Model.step at hst
  cases a with
  | start initialState =>
    obtain ⟨-, rfl⟩ := of_guard hst
    exact hs.setControl _
  | stop =>
    obtain ⟨-, rfl⟩ := of_guard hst
    exact hs.setControl _
  | control ok =>
    dsimp only at hst
    split at hst
    · cases hst
    next hctl => exact some.inj hst ▸ hs.startStep hctl hc ok
    · exact some.inj hst ▸ hs.stopStep _
  | accept action =>
    obtain ⟨hrun, rfl⟩ := of_guard hst
    refine ⟨fun _ => ?_, fun hstop => absurd hrun (Bool.eq_false_iff.mp hstop)⟩
    have hcnt := hs.running hrun
    show s.transitionCount + 1 = (s.posting ++ [_]).length + s.queue.countP Job.isTrigger + s.stack.countP Frame.isTrigger
    rw [hcnt, length_append, length_singleton]
    unfold outstanding
    omega
  | post t =>
    obtain ⟨hmem, rfl⟩ := of_guard hst
    have hout : outstanding { s with posting := s.posting.erase t, queue := s.queue ++ [.trigger t] } = outstanding s := by
      unfold outstanding
      have hlen := length_erase_of_mem hmem
      have hpos := length_pos_of_mem hmem
      have hpush : (s.queue ++ [Job.trigger t]).countP Job.isTrigger = s.queue.countP Job.isTrigger + 1 := by
        rw [countP_append]
        rfl
      dsimp only
      omega
    exact ⟨fun hrun => (hs.running hrun).trans hout.symm, hs.stopped⟩
  | expire t =>
    obtain ⟨-, rfl⟩ := of_guard hst
    refine hs.same ⟨rfl, rfl, rfl, ?_, rfl⟩
    show (s.queue ++ [Job.timer t]).countP Job.isTrigger = _
    rw [countP_append]
    rfl
  | take =>
    dsimp only at hst
    split at hst
    · cases hst
    next job rest hque =>
      obtain ⟨hemp, rfl⟩ := of_guard hst
      have hout : outstanding { s with queue := rest, stack := [job.frame] } = outstanding s := by
        have hjob : [job.frame].countP Frame.isTrigger = [job].countP Job.isTrigger := by
          rw [countP_singleton, countP_singleton, isTrigger_frame]
        have hsplit : s.queue.countP Job.isTrigger = [job].countP Job.isTrigger + rest.countP Job.isTrigger := by
          rw [hque, ← singleton_append, countP_append]
        unfold outstanding
        dsimp only
        rw [hjob, hsplit, hemp, countP_nil]
        omega
      exact ⟨fun hrun => (hs.running hrun).trans hout.symm, hs.stopped⟩
  | strand ok =>
    dsimp only at hst
    split at hst
    · cases hst
    next hstk => exact some.inj hst ▸ hs.frameStep hstk ok
  | dispatch action =>
    dsimp only at hst
    split at hst
    · cases hst
    next frame rest hstk =>
      obtain ⟨hguard, rfl⟩ := of_guard hst
      rw [← hstk]
      exact hs.accept (Bool.and_eq_true_iff.mp hguard).2 _ rfl

theorem Counted.throwing (hs : Counted s) (hst : throwing s = some s') : Counted s' := by
  unfold Pending.throwing at hst
  split at hst
  next f rest hstk =>
    obtain ⟨-, rfl⟩ := of_guard hst
    refine hs.setStack ?_
    rw [hstk, countP_cons_of_pos rfl, countP_cons_of_pos rfl]
  next t rest hstk =>
    cases hst
    have hrest : rest.countP Frame.isTrigger = s.stack.countP Frame.isTrigger := by
      rw [hstk, countP_cons_of_neg Bool.false_ne_true]
    have hpop : Counted { s with stack := rest } := hs.setStack hrest
    have hsame := Same.cancel s t.id
    exact hpop.same ⟨hsame.isRunning, hsame.transitionCount, hsame.posting, hsame.queue, rfl⟩
  · cases hst

end

theorem counted_inductive (chart : Chart) : (pendingMachine chart).Inductive (NothingLost chart) Counted where
  init s hs := by
    rw [show s = {} from hs]
    exact ⟨fun _ => rfl, fun _ => rfl⟩
  step s e s' hs hc hst := by
    have hst : step chart s e = some s' := hst
    unfold step at hst
    cases e with
    | action a => exact hs.action hc hst
    | refusePost t =>
      obtain ⟨-, rfl⟩ := of_guard hst
      have hstop : s.isRunning = false := hc
      exact ⟨fun hrun => absurd hrun (Bool.eq_false_iff.mp hstop), hs.stopped⟩
    | refuseDispatch =>
      dsimp only at hst
      split at hst
      · cases hst
      · obtain ⟨hguard, -⟩ := of_guard hst
        exact absurd (Bool.and_eq_true_iff.mp hguard).2 (Bool.eq_false_iff.mp hc)
    | refuseTimeout =>
      dsimp only at hst
      split at hst
      · obtain ⟨hrun, -⟩ := of_guard hst
        exact absurd hrun (Bool.eq_false_iff.mp hc)
      · cases hst
    | cancelGroup =>
      cases hst
      refine ⟨fun hrun => ?_, hs.stopped⟩
      have hcnt := hs.running hrun
      unfold outstanding at hcnt
      rw [show s.queue.countP Job.isTrigger = 0 from hc hrun] at hcnt
      exact hcnt
    | throw => exact hs.throwing hst

theorem Counted.lost {chart : Chart} {s s' : State} {e : Event} (hs : Counted s) (hc : ¬ NothingLost chart s e)
    (hst : step chart s e = some s') : ¬ CountExact s' := by
  intro hexact
  unfold step at hst
  cases e with
  | action a =>
    cases a with
    | control ok =>
      obtain ⟨hsets, hrest⟩ := Classical.not_imp.mp hc
      obtain ⟨hstop, hnot⟩ := Classical.not_imp.mp hrest
      unfold setsScheduler at hsets
      split at hsets
      next initialState hctl =>
        dsimp only [Model.step] at hst
        rw [hctl] at hst
        dsimp only at hst
        cases hst
        unfold Model.startStep CountExact at hexact
        dsimp only at hexact
        rw [if_pos hsets] at hexact
        exact hnot ((hexact rfl).symm.trans (hs.stopped hstop))
      · exact Bool.false_ne_true hsets
    | start _ => exact hc trivial
    | stop => exact hc trivial
    | accept _ => exact hc trivial
    | post _ => exact hc trivial
    | expire _ => exact hc trivial
    | take => exact hc trivial
    | strand _ => exact hc trivial
    | dispatch _ => exact hc trivial
  | refusePost t =>
    obtain ⟨hmem, rfl⟩ := of_guard hst
    have hrun : s.isRunning = true := Bool.not_eq_false _ ▸ hc
    have hbef := hs.running hrun
    have hafter : s.transitionCount =
        (s.posting.erase t).length + s.queue.countP Job.isTrigger + s.stack.countP Frame.isTrigger := hexact hrun
    unfold outstanding at hbef
    have hlen := length_erase_of_mem hmem
    have hpos := length_pos_of_mem hmem
    omega
  | refuseDispatch =>
    dsimp only at hst
    split at hst
    · cases hst
    · obtain ⟨hguard, rfl⟩ := of_guard hst
      have hrun := (Bool.and_eq_true_iff.mp hguard).2
      have hafter : s.transitionCount + 1 = outstanding s := hexact hrun
      have hbef := hs.running hrun
      omega
  | refuseTimeout =>
    dsimp only at hst
    split at hst
    next t rest hstk =>
      obtain ⟨hrun, rfl⟩ := of_guard hst
      have hafter : s.transitionCount + 1 = s.posting.length + s.queue.countP Job.isTrigger +
          (Frame.timeout t true :: rest).countP Frame.isTrigger := hexact hrun
      have hbef := hs.running hrun
      unfold outstanding at hbef
      have hsame : (Frame.timeout t true :: rest).countP Frame.isTrigger = s.stack.countP Frame.isTrigger := by
        rw [hstk, countP_cons_of_neg Bool.false_ne_true, countP_cons_of_neg Bool.false_ne_true]
      omega
    · cases hst
  | cancelGroup =>
    cases hst
    obtain ⟨hrun, hque⟩ := Classical.not_imp.mp hc
    have hafter : s.transitionCount = s.posting.length + 0 + s.stack.countP Frame.isTrigger := hexact hrun
    have hbef := hs.running hrun
    unfold outstanding at hbef
    omega
  | throw => exact hc trivial

/-- **The count of pending transitions.** It is the number of outstanding actions in every state of a run in which the machine runs,
exactly if no task of an action is lost. -/
theorem count_exact (chart : Chart) (events : List Event) :
    (pendingMachine chart).Always CountExact {} events ↔ (pendingMachine chart).Keeps (NothingLost chart) {} events :=
  (counted_inductive chart).exact (fun _ hs => hs.running) (fun _ _ _ hs hc hst => hs.lost hc hst) events {}
    ((counted_inductive chart).init {} rfl)

/-- `has_transition_running` says whether an action is outstanding. -/
theorem hasTransitionRunning_iff {chart : Chart} {s : State} (h : (pendingMachine chart).Reach (NothingLost chart) s)
    (hrun : s.isRunning = true) : hasTransitionRunning s = true ↔ 0 < outstanding s := by
  have hcnt := ((counted_inductive chart).reach h).running hrun
  unfold hasTransitionRunning
  rw [hcnt]
  exact decide_eq_true_iff

/-- The machine runs, an action is accepted and posted, and the group is cancelled. -/
def cancelledRun : List Event :=
  startRun.map .action ++ [.action (.accept "go"), .action (.post ⟨"go", 1, none⟩), .cancelGroup]

/-- No task is left, and the count is one. -/
theorem cancelledRun_miscounts : ¬ ∀ (chart : Chart) (s : State), (pendingMachine chart).Reachable s → CountExact s := by
  intro hall
  obtain ⟨s, hs, hfacts⟩ := map_eq_some_iff.mp (by decide +kernel :
    ((pendingMachine twoStates).exec {} cancelledRun).map (fun s => (s.isRunning, s.transitionCount, outstanding s)) =
      some (true, 1, 0))
  obtain ⟨hrun, hrest⟩ := Prod.mk.inj hfacts
  obtain ⟨hcnt, hout⟩ := Prod.mk.inj hrest
  have hexact := hall twoStates s (.exec (.init rfl) hs) hrun
  rw [hcnt, hout] at hexact
  exact Nat.one_ne_zero hexact

end Brookesia.StateMachine.Pending
