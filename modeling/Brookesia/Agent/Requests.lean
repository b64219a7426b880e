import Brookesia.Agent.Model

/-! # The requests of the agent manager

A call that finds something running reads the front of the queue before it asks whether there is one
(`FindsNothingRunning`, exact for the reads), and skips its action if it stands at the front or is running, whatever
is queued behind. Where a skipped action is the last one all the same, and the queue task is not caught between
its decision to end and its end (`Served`), the last request is the last action handed to the state machine. -/

namespace Brookesia.Agent

open Transition Runs List

namespace State

/-- No action, transition, update or queue task is running. -/
def isQuiet (s : State) : Bool :=
  !s.isActionRunning && !s.isGeneralActionQueueTaskRunning

def ReadsFront (s : State) : Prop :=
  s.badReads = 0

/-- The last request has come to the state machine, or was running with nothing behind it. -/
def Delivered (s : State) : Prop :=
  s.calls = [] → s.isQuiet = true → ∀ action, s.lastRequest = some action →
    s.handed.getLast? = some action ∨ s.wasRunning = true

end State

/-! ### The frame of a request -/

/-- A step outside of the calls: what it may do to the queue is to drop the queue task of an empty one. -/
structure SameRequests (s s' : State) : Prop where
  calls : s'.calls = s.calls
  handed : s'.handed = s.handed
  lastRequest : s'.lastRequest = s.lastRequest
  wasRunning : s'.wasRunning = s.wasRunning
  badReads : s'.badReads = s.badReads
  queue : s'.queue = s.queue
  queueTask : s'.queueTask = s.queueTask ∨ s.queue = [] ∧ s'.queueTask = .idle

theorem SameRequests.refl (s : State) : SameRequests s s :=
  ⟨rfl, rfl, rfl, rfl, rfl, rfl, .inl rfl⟩

/-- The transition of `action` drops the queue. -/
def State.dropsQueue (s : State) (action : MachineAction) : Prop :=
  (transition s.base.currentState action).isSome = true ∧ (action = .extra .timeout ∨ action = .extra .failed)

instance (s : State) (action : MachineAction) : Decidable (s.dropsQueue action) :=
  inferInstanceAs (Decidable (_ ∧ _))

theorem finishTransition_same (s : State) (watch : Option GeneralState) : SameRequests s (s.finishTransition watch) := by
  unfold State.finishTransition
  split
  · exact .refl s
  · exact ⟨rfl, rfl, rfl, rfl, rfl, rfl, .inl rfl⟩

theorem startTransition_same {s : State} {action : MachineAction} {watch : Option GeneralState}
    (hq : s.dropsQueue action → s.queue = []) : SameRequests s (s.startTransition action watch) := by
  unfold State.startTransition
  split
  · exact finishTransition_same s watch
  next next hnext =>
    split
    · exact finishTransition_same s watch
    · unfold State.onExit
      split
      next hexit =>
        have hemp : s.queue = [] := hq ⟨by rw [hnext]; rfl, hexit.2⟩
        exact ⟨rfl, rfl, rfl, rfl, rfl, hemp.symm, .inr ⟨hemp, rfl⟩⟩
      · exact ⟨rfl, rfl, rfl, rfl, rfl, rfl, .inl rfl⟩

theorem triggerAction_same (s : State) (action : MachineAction) (watch : Option GeneralState) :
    SameRequests s (s.triggerAction action watch) :=
  ⟨rfl, rfl, rfl, rfl, rfl, rfl, .inl rfl⟩

theorem onUpdate_same (s : State) (name : GeneralState) (synced : Bool) : SameRequests s (s.onUpdate name synced) := by
  unfold State.onUpdate
  dsimp only
  split
  · split
    · exact triggerAction_same s _ _
    · exact finishTransition_same s _
  · split
    · exact finishTransition_same s _
    · split
      · exact triggerAction_same s _ _
      · split
        · exact triggerAction_same s _ _
        · exact .refl s

/-- What the other labels may not do while the queue is in use. -/
def KeepsQueue (s : State) : Label → Prop
  | .begin => ∀ task ∈ s.posted.head?, s.dropsQueue task.action → s.queue = []
  | .timeout => s.dropsQueue (.extra .timeout) → s.queue = []
  | _ => True

theorem keepsQueue_of_empty {s : State} {label : Label} (h : s.queue = []) : KeepsQueue s label := by
  cases label with
  | begin => exact fun _ _ _ => h
  | timeout => exact fun _ => h
  | _ => exact trivial

theorem step_same {attributes : AgentAttributes} {s s' : State} {label : Label} (hl : label.isRequest = false)
    (hc : KeepsQueue s label) (hst : step attributes s label = some s') : SameRequests s s' := by
  cases label with
  | request | check | finish | queueStep => cases hl
  | begin =>
    have hst : s.begin = some s' := hst
    unfold State.begin at hst
    split at hst
    · cases hst
    next task posted hpost =>
      obtain ⟨-, rfl⟩ := of_guard hst
      have hq : s.dropsQueue task.action → s.queue = [] := hc task (by rw [hpost]; rfl)
      obtain ⟨h1, h2, h3, h4, h5, h6, h7⟩ :=
        @startTransition_same { s with posted := posted } task.action task.watch hq
      exact ⟨h1, h2, h3, h4, h5, h6, h7⟩
  | enter reply =>
    have hst : s.enter reply = some s' := hst
    unfold State.enter at hst
    split at hst
    · cases hst
      exact ⟨rfl, rfl, rfl, rfl, rfl, rfl, .inl rfl⟩
    · cases hst
  | assign =>
    have hst : s.assign = some s' := hst
    unfold State.assign at hst
    split at hst
    · cases hst
      exact ⟨rfl, rfl, rfl, rfl, rfl, rfl, .inl rfl⟩
    · cases hst
  | arm =>
    have hst : s.arm attributes = some s' := hst
    unfold State.arm at hst
    split at hst
    next action watch last next hjob =>
      cases hst
      obtain ⟨h1, h2, h3, h4, h5, h6, h7⟩ :=
        finishTransition_same { s with base := State.setupStateTasks attributes s.base next, job := none } watch
      exact ⟨h1, h2, h3, h4, h5, h6, h7⟩
    · cases hst
  | tick synced =>
    have hst : s.tick synced = some s' := hst
    unfold State.tick at hst
    split at hst
    · cases hst
    · obtain ⟨-, rfl⟩ := of_guard hst
      exact onUpdate_same s _ synced
  | timeout =>
    have hst : s.timeout = some s' := hst
    unfold State.timeout at hst
    split at hst
    · cases hst
    next name hname =>
      obtain ⟨-, rfl⟩ := of_guard hst
      obtain ⟨h1, h2, h3, h4, h5, h6, h7⟩ := @startTransition_same
        { s with base := { s.base with timeoutTask := none } } _ (some name) hc
      exact ⟨h1, h2, h3, h4, h5, h6, h7⟩
  | event | manualStartListening | manualStopListening | suspend | resume =>
    cases hst
    exact ⟨rfl, rfl, rfl, rfl, rfl, rfl, .inl rfl⟩

variable {attributes : AgentAttributes} {s s' : State} {label : Label}

/-! ### Reads of the front -/


def FindsNothingRunning (s : State) : Label → Prop
  | .check _ _ => s.isActionRunning = false
  | _ => True

/-- Then nothing ever is queued. -/
structure NeverQueued (s : State) : Prop where
  badReads : s.badReads = 0
  queue : s.queue = []
  queueTask : s.queueTask = .idle
  stages : ∀ call ∈ s.calls, call.stage ≠ .posting

theorem NeverQueued.same (h : NeverQueued s) (hs : SameRequests s s') : NeverQueued s' where
  badReads := hs.badReads.trans h.badReads
  queue := hs.queue.trans h.queue
  queueTask := by
    rcases hs.queueTask with he | ⟨-, he⟩
    · exact he.trans h.queueTask
    · exact he
  stages := by
    rw [hs.calls]
    exact h.stages

theorem checking_ne : CallStage.checking ≠ .posting := by
  decide

theorem direct_ne : CallStage.direct ≠ .posting := by
  decide

theorem rest_stages {call c : Call} (hc : c ∈ State.Call.rest call) : c.stage = .checking := by
  unfold State.Call.rest at hc
  split at hc
  · cases hc
  · rw [mem_singleton.mp hc]

variable {action : GeneralAction} {k : ℕ} {todo : List GeneralAction}

theorem setCall_stages {calls : List Call} (h : ∀ call ∈ s.calls, call.stage ≠ .posting)
    (hcs : ∀ call ∈ calls, call.stage ≠ .posting) : ∀ call ∈ (s.setCall k calls).calls, call.stage ≠ .posting := by
  intro call hcall
  rcases mem_append.mp hcall with hcall | hcall
  · rcases mem_append.mp hcall with hcall | hcall
    · exact h call (mem_of_mem_take hcall)
    · exact hcs call hcall
  · exact h call (mem_of_mem_drop hcall)

theorem NeverQueued.isBusy (h : NeverQueued s) : s.isBusy = s.isActionRunning := by
  unfold State.isBusy State.isGeneralActionQueueTaskRunning
  rw [h.queue, h.queueTask]
  simp

theorem neverQueued_inductive : (machine attributes).Inductive FindsNothingRunning NeverQueued where
  init := by
    rintro s rfl
    refine ⟨rfl, rfl, rfl, ?_⟩
    intro call hcall
    cases hcall
  step := by
    intro s label s' h hc hst
    have hst : step attributes s label = some s' := hst
    rcases Bool.eq_false_or_eq_true label.isRequest with hl | hl
    swap
    · exact h.same (step_same hl (keepsQueue_of_empty h.queue) hst)
    cases label with
    | request action =>
      cases hst
      refine ⟨h.badReads, h.queue, h.queueTask, ?_⟩
      intro call hcall
      rcases mem_append.mp hcall with hcall | hcall
      · exact h.stages call hcall
      · rw [mem_singleton.mp hcall]
        exact checking_ne
    | check k garbage =>
      have hst : s.check k garbage = some s' := hst
      unfold State.check at hst
      split at hst
      · rw [if_pos (h.isBusy.trans hc)] at hst
        cases hst
        refine ⟨h.badReads, h.queue, h.queueTask, setCall_stages h.stages ?_⟩
        intro call hcall
        rw [mem_singleton.mp hcall]
        exact direct_ne
      · cases hst
    | finish k =>
      have hst : s.finish k = some s' := hst
      unfold State.finish at hst
      split at hst
      next hcall =>
        exact absurd rfl (h.stages _ (mem_of_getElem? hcall))
      · cases hst
        refine ⟨h.badReads, h.queue, h.queueTask, setCall_stages (s := s.hand _) h.stages ?_⟩
        intro call hcall
        rw [rest_stages hcall]
        exact checking_ne
      · cases hst
    | queueStep =>
      have hst : s.queueStep = some s' := hst
      unfold State.queueStep at hst
      rw [h.queueTask] at hst
      cases hst
    | _ => cases hl

/-- A call that finds something running while nothing is queued reads a front that is not there. -/
theorem NeverQueued.badRead (h : NeverQueued s) (hc : ¬ FindsNothingRunning s label)
    (hst : (machine attributes).step s label = some s') : ¬ s'.ReadsFront := by
  cases label with
  | check k garbage =>
    have hst : s.check k garbage = some s' := hst
    have hbusy : ¬ s.isBusy = false := by
      rw [h.isBusy]
      exact hc
    have hbad : s.readFront.badReads ≠ 0 := by
      unfold State.readFront
      rw [h.queue]
      exact Nat.succ_ne_zero _
    unfold State.check at hst
    split at hst
    · rw [if_neg hbusy] at hst
      split at hst
      · cases hst
        exact hbad
      · cases hst
        exact hbad
    · cases hst
  | _ => exact absurd trivial hc

theorem readsFront_iff (labels : List Label) :
    (machine attributes).Always State.ReadsFront (started attributes) labels ↔
      (machine attributes).Keeps FindsNothingRunning (started attributes) labels :=
  neverQueued_inductive.exact (fun _ h => h.badReads) (fun _ _ _ h hc hst => h.badRead hc hst) labels _
    (neverQueued_inductive.init _ rfl)

/-! ### The last request -/

/-- Calls come one at a time; a skipped action is running with nothing behind it, or is the last one queued, or is
only the one that another needs first; no call leaves a queue to a task that has decided to end; and no transition
drops a queue. -/
def Served (s : State) : Label → Prop
  | .request _ => s.calls = []
  | .check k garbage => ∀ call ∈ s.calls[k]?, ∀ action ∈ call.todo.head?, s.isBusy = true → s.skips action garbage = true →
      call.todo.tail ≠ [] ∨ s.isRunningLast action = true ∨ s.queue.getLast? = some action
  | .finish k => ∀ call ∈ s.calls[k]?, call.stage = .posting → s.queueTask = .leaving ∨ s.queueTask = .returned →
      s.queue = []
  | label => KeepsQueue s label

theorem Served.keepsQueue (h : Served s label) (hl : label.isRequest = false) : KeepsQueue s label := by
  cases label with
  | request | check | finish | queueStep => cases hl
  | _ => exact h

instance (s : State) : (label : Label) → Decidable (Served s label)
  | .request _ => inferInstanceAs (Decidable (_ = _))
  | .check _ _ => inferInstanceAs (Decidable (∀ _ ∈ _, _))
  | .finish _ => inferInstanceAs (Decidable (∀ _ ∈ _, _))
  | .begin => inferInstanceAs (Decidable (∀ _ ∈ _, _))
  | .timeout => inferInstanceAs (Decidable (_ → _))
  | .queueStep | .enter _ | .assign | .arm | .tick _ | .event _ | .manualStartListening _ _ | .manualStopListening _
  | .suspend _ | .resume _ => .isTrue trivial

/-- `action` is the last that the state machine has got and will get, or it was running with nothing behind it. -/
def State.Kept (s : State) (action : GeneralAction) : Prop :=
  (s.handed ++ s.queue).getLast? = some action ∨ s.wasRunning = true ∧ s.queue = []

def State.OneCall (s : State) : Prop :=
  s.calls = [] ∨ ∃ call, s.calls = [call] ∧ call.todo.getLast? = s.lastRequest

structure Serves (s : State) : Prop where
  oneCall : s.OneCall
  alive : s.queue ≠ [] → s.queueTask = .waiting ∨ s.queueTask = .popped ∨ ∃ call ∈ s.calls, call.stage = .posting
  direct : ∀ call ∈ s.calls, call.stage = .direct → s.queue = []
  posted : ∀ action, s.calls = [{ todo := [action], stage := .posting }] → s.Kept action
  done : s.calls = [] → ∀ action, s.lastRequest = some action → s.Kept action

theorem Serves.same (h : Serves s) (hs : SameRequests s s') : Serves s' := by
  have hkept : ∀ {action}, s.Kept action → s'.Kept action := by
    intro action hk
    unfold State.Kept
    rw [hs.handed, hs.queue, hs.wasRunning]
    exact hk
  refine ⟨?_, ?_, ?_, ?_, ?_⟩
  · unfold State.OneCall
    rw [hs.calls, hs.lastRequest]
    exact h.oneCall
  · rw [hs.queue, hs.calls]
    intro hq
    rcases hs.queueTask with he | ⟨hemp, -⟩
    · rw [he]
      exact h.alive hq
    · exact absurd hemp hq
  · rw [hs.calls, hs.queue]
    exact h.direct
  · rw [hs.calls]
    exact fun action hcs => hkept (h.posted action hcs)
  · rw [hs.calls, hs.lastRequest]
    exact fun hcs action hlast => hkept (h.done hcs action hlast)

/-! The steps of the one call -/

theorem State.OneCall.setCall {call : Call} {calls : List Call} (h : s.OneCall) (hcall : s.calls[k]? = some call) :
    s.calls = [call] ∧ call.todo.getLast? = s.lastRequest ∧ (s.setCall k calls).calls = calls := by
  rcases h with h | ⟨c, h, hlast⟩
  · rw [h] at hcall
    cases hcall
  · cases k with
    | zero =>
      rw [h] at hcall
      cases hcall
      refine ⟨h, hlast, ?_⟩
      unfold State.setCall
      rw [h]
      exact append_nil calls
    | succ k =>
      rw [h] at hcall
      cases hcall

theorem rest_cases (action : GeneralAction) (todo : List GeneralAction) (stage : CallStage) :
    todo = [] ∧ State.Call.rest { todo := action :: todo, stage := stage } = [] ∨
      todo ≠ [] ∧ State.Call.rest { todo := action :: todo, stage := stage } = [{ todo := todo, stage := .checking }] := by
  cases todo with
  | nil => exact .inl ⟨rfl, rfl⟩
  | cons other todo => exact .inr ⟨cons_ne_nil other todo, rfl⟩

theorem Serves.of_rest {stage : CallStage} (hcs : s.calls = State.Call.rest { todo := action :: todo, stage := stage })
    (hlast : (action :: todo).getLast? = s.lastRequest)
    (halive : s.queue ≠ [] → s.queueTask = .waiting ∨ s.queueTask = .popped)
    (hkept : todo = [] → s.Kept action) : Serves s := by
  have halive' : s.queue ≠ [] → s.queueTask = .waiting ∨ s.queueTask = .popped ∨ ∃ call ∈ s.calls, call.stage = .posting :=
    fun hq => (halive hq).imp id .inl
  have hstg : ∀ call ∈ s.calls, call.stage = .checking := by
    rw [hcs]
    exact fun call hcall => rest_stages hcall
  refine ⟨?_, halive', ?_, ?_, ?_⟩
  · rcases rest_cases action todo stage with ⟨-, hrest⟩ | ⟨hne, hrest⟩
    · exact .inl (hcs.trans hrest)
    · refine .inr ⟨_, hcs.trans hrest, ?_⟩
      obtain ⟨other, rest, rfl⟩ := exists_cons_of_ne_nil hne
      rw [← hlast]
      exact (List.getLast?_cons_cons ..).symm
  · intro call hcall hdrct
    rw [hstg call hcall] at hdrct
    cases hdrct
  · intro other hpstg
    have := hstg _ (by rw [hpstg]; exact mem_singleton_self _)
    cases this
  · intro hnil other hoth
    rcases rest_cases action todo stage with ⟨rfl, -⟩ | ⟨-, hrest⟩
    · rw [← hlast] at hoth
      cases hoth
      exact hkept rfl
    · rw [hcs, hrest] at hnil
      cases hnil

theorem Serves.of_direct (hcs : s.calls = [{ todo := action :: todo, stage := .direct }])
    (hlast : (action :: todo).getLast? = s.lastRequest) (hq : s.queue = []) : Serves s := by
  refine ⟨.inr ⟨_, hcs, hlast⟩, fun hne => absurd hq hne, fun _ _ _ => hq, ?_, ?_⟩
  · rw [hcs]
    intro other hpstg
    have := congrArg (List.map Call.stage) hpstg
    cases this
  · rw [hcs]
    intro hnil
    cases hnil

theorem Serves.of_posting (hcs : s.calls = [{ todo := action :: todo, stage := .posting }])
    (hlast : (action :: todo).getLast? = s.lastRequest)
    (hkept : (s.handed ++ s.queue).getLast? = some action) : Serves s := by
  refine ⟨.inr ⟨_, hcs, hlast⟩, ?_, ?_, ?_, ?_⟩
  · rw [hcs]
    exact fun _ => .inr (.inr ⟨_, mem_singleton_self _, rfl⟩)
  · rw [hcs]
    intro call hcall hdrct
    rw [mem_singleton.mp hcall] at hdrct
    cases hdrct
  · rw [hcs]
    intro other hpstg
    obtain ⟨rfl, -⟩ := cons.inj (Call.mk.inj (cons.inj hpstg).1).1
    exact .inl hkept
  · rw [hcs]
    intro hnil
    cases hnil

theorem Serves.request (h : Serves s) (hc : s.calls = []) : Serves (s.request action) := by
  have hcs : (s.request action).calls = [{ todo := s.todoOf action, stage := .checking }] := by
    unfold State.request
    rw [hc]
    rfl
  refine ⟨.inr ⟨_, hcs, ?_⟩, ?_, ?_, ?_, ?_⟩
  · show (s.todoOf action).getLast? = some action
    unfold State.todoOf
    split
    next hstart =>
      rw [hstart.1]
      rfl
    · rfl
  · intro hq
    rcases h.alive hq with ht | ht | ⟨call, hcall, -⟩
    · exact .inl ht
    · exact .inr (.inl ht)
    · rw [hc] at hcall
      cases hcall
  · rw [hcs]
    intro call hcall hdrct
    rw [mem_singleton.mp hcall] at hdrct
    cases hdrct
  · rw [hcs]
    intro other hpstg
    have := congrArg (List.map Call.stage) hpstg
    cases this
  · rw [hcs]
    intro hnil
    cases hnil

theorem Serves.check {garbage : GeneralAction} (h : Serves s) (hc : Served s (.check k garbage))
    (hst : s.check k garbage = some s') : Serves s' := by
  unfold State.check at hst
  split at hst
  next action todo hcall =>
    have hset : ∀ calls, s.calls = [_] ∧ (action :: todo).getLast? = s.lastRequest ∧ (s.setCall k calls).calls = calls :=
      fun calls => h.oneCall.setCall hcall
    obtain ⟨hone, hlast, -⟩ := hset []
    have halive : s.queue ≠ [] → s.queueTask = .waiting ∨ s.queueTask = .popped := by
      intro hq
      rcases h.alive hq with ht | ht | ⟨call, hmem, hpstg⟩
      · exact .inl ht
      · exact .inr ht
      · rw [hone] at hmem
        rw [mem_singleton.mp hmem] at hpstg
        cases hpstg
    split at hst
    next hbusy =>
      cases hst
      have hemp : (!s.queue.isEmpty) = false := (Bool.or_eq_false_iff.mp hbusy).2
      have hq : s.queue = [] := by simpa using hemp
      exact Serves.of_direct (hset _).2.2 hlast hq
    next hbusy =>
      have hbusy : s.isBusy = true := Bool.eq_true_of_not_eq_false hbusy
      split at hst
      next hskips =>
        cases hst
        refine Serves.of_rest (hset _).2.2 hlast halive ?_
        rintro rfl
        rcases hc _ hcall action rfl hbusy hskips with htail | hrun | hque
        · exact absurd rfl htail
        · refine .inr ⟨?_, ?_⟩
          · show (s.wasRunning || (true && s.isRunningLast action)) = true
            rw [hrun]
            exact Bool.or_true _
          · have : s.queue.isEmpty = true := (Bool.and_eq_true_iff.mp (Bool.and_eq_true_iff.mp hrun).1).2
            exact List.isEmpty_iff.mp this
        · refine .inl ?_
          show (s.handed ++ s.queue).getLast? = some action
          rw [List.getLast?_append, hque]
          rfl
      · cases hst
        refine Serves.of_posting (hset _).2.2 hlast ?_
        show (s.handed ++ (s.queue ++ [action])).getLast? = some action
        rw [← append_assoc]
        exact List.getLast?_concat
  · cases hst

theorem startGeneralActionQueueTask_alive (h : s.queueTask = .leaving ∨ s.queueTask = .returned → s.queue = [])
    (hq : s.queue ≠ []) :
    s.startGeneralActionQueueTask.queueTask = .waiting ∨ s.startGeneralActionQueueTask.queueTask = .popped := by
  unfold State.startGeneralActionQueueTask State.isGeneralActionQueueTaskRunning
  cases ht : s.queueTask with
  | idle => exact .inl rfl
  | waiting => exact .inl ht
  | popped => exact .inr ht
  | leaving => exact absurd (h (.inl ht)) hq
  | returned => exact absurd (h (.inr ht)) hq

theorem startGeneralActionQueueTask_same (s : State) :
    s.startGeneralActionQueueTask = { s with queueTask := s.startGeneralActionQueueTask.queueTask } := by
  unfold State.startGeneralActionQueueTask
  split <;> rfl

theorem Serves.finish (h : Serves s) (hc : Served s (.finish k)) (hst : s.finish k = some s') : Serves s' := by
  unfold State.finish at hst
  split at hst
  next action todo hcall =>
    cases hst
    have hset := @State.OneCall.setCall s k _ (State.Call.rest { todo := action :: todo, stage := .posting }) h.oneCall hcall
    have halive := startGeneralActionQueueTask_alive (hc _ hcall rfl)
    rw [startGeneralActionQueueTask_same] at halive ⊢
    refine Serves.of_rest hset.2.2 hset.2.1 halive ?_
    rintro rfl
    exact h.posted action hset.1
  next action todo hcall =>
    cases hst
    have hset := @State.OneCall.setCall s k _ (State.Call.rest { todo := action :: todo, stage := .direct }) h.oneCall hcall
    have hq : s.queue = [] := h.direct _ (mem_of_getElem? hcall) rfl
    refine Serves.of_rest hset.2.2 hset.2.1 (fun hne => absurd hq hne) ?_
    rintro -
    refine .inl ?_
    show ((s.handed ++ [action]) ++ s.queue).getLast? = some action
    rw [hq, append_nil]
    exact List.getLast?_concat
  · cases hst

theorem Serves.queueStep (h : Serves s) (hst : s.queueStep = some s') : Serves s' := by
  unfold State.queueStep at hst
  split at hst
  · cases hst
  next htask =>
    split at hst
    · cases hst
    split at hst
    · cases hst
      exact h
    split at hst
    next hq =>
      cases hst
      exact ⟨h.oneCall, fun hne => absurd hq hne, h.direct, h.posted, h.done⟩
    next action queue hq =>
      cases hst
      -- what is popped goes from the front of the queue to the end of what is handed over
      have hkept : ∀ other, s.Kept other → (s.handed ++ [action] ++ queue).getLast? = some other := by
        rintro other (hk | ⟨-, hk⟩)
        · rw [hq] at hk
          rw [append_assoc]
          exact hk
        · rw [hq] at hk
          cases hk
      refine ⟨h.oneCall, fun _ => .inr (.inl rfl), ?_, ?_, ?_⟩
      · intro call hcall hdrct
        have := h.direct call hcall hdrct
        rw [hq] at this
        cases this
      · exact fun other hpstg => .inl (hkept other (h.posted other hpstg))
      · exact fun hnil other hoth => .inl (hkept other (h.done hnil other hoth))
  next htask =>
    cases hst
    refine ⟨h.oneCall, ?_, h.direct, h.posted, h.done⟩
    intro hne
    have : s.queue.isEmpty = false := by
      rw [isEmpty_eq_false_iff]
      exact hne
    rw [this]
    exact .inl rfl
  all_goals
    next htask =>
      cases hst
      refine ⟨h.oneCall, ?_, h.direct, h.posted, h.done⟩
      intro hne
      rcases h.alive hne with ht | ht | hpstg
      · rw [htask] at ht
        cases ht
      · rw [htask] at ht
        cases ht
      · exact .inr (.inr hpstg)

theorem served_inductive : (machine attributes).Inductive Served Serves where
  init := by
    rintro s rfl
    refine ⟨.inl rfl, fun hne => absurd rfl hne, ?_, ?_, ?_⟩
    · intro call hcall
      cases hcall
    · intro action hpstg
      cases hpstg
    · intro _ action hlast
      cases hlast
  step := by
    intro s label s' h hc hst
    have hst : step attributes s label = some s' := hst
    rcases Bool.eq_false_or_eq_true label.isRequest with hl | hl
    swap
    · exact h.same (step_same hl (hc.keepsQueue hl) hst)
    cases label with
    | request action =>
      cases hst
      exact h.request hc
    | check k garbage => exact h.check hc hst
    | finish k => exact h.finish hc hst
    | queueStep => exact h.queueStep hst
    | _ => cases hl

theorem Serves.delivered (h : Serves s) : s.Delivered := by
  intro hcs hquiet action hac
  have htask : s.queueTask = .idle := by
    have : (!s.isGeneralActionQueueTaskRunning) = true := (Bool.and_eq_true_iff.mp hquiet).2
    unfold State.isGeneralActionQueueTaskRunning at this
    simpa using this
  have hq : s.queue = [] := by
    by_contra hne
    rcases h.alive hne with ht | ht | ⟨call, hcall, -⟩
    · rw [htask] at ht
      cases ht
    · rw [htask] at ht
      cases ht
    · rw [hcs] at hcall
      cases hcall
  rcases h.done hcs action hac with hk | ⟨hk, -⟩
  · rw [hq, append_nil] at hk
    exact .inl hk
  · exact .inr hk

/-- **Requests.** The front of the queue is read of no empty queue exactly in the runs in which every call finds nothing
running; and the last request is delivered in every run in which the calls are served. -/
theorem requests_served (attributes : AgentAttributes) :
    (∀ labels, (machine attributes).Always State.ReadsFront (started attributes) labels ↔
      (machine attributes).Keeps FindsNothingRunning (started attributes) labels) ∧
    ∀ s, (machine attributes).Reach Served s → s.Delivered :=
  ⟨readsFront_iff, fun _ hs => (served_inductive.reach hs).delivered⟩

/-! ### Runs -/

def stopRun : List Label :=
  directRun .activate [] ++ [.request .stop, .check 0 .activate, .finish 0, .queueStep] ++
    [.event { event := .activated, ok := true }] ++ tickRun ++ [.queueStep, .queueStep, .queueStep, .begin] ++
    transitionRun [{ event := .stopped, ok := true }] ++ tickRun

/-- The agent is asked to start while it is not activated. -/
def startRun : List Label :=
  [.request .start, .check 0 .timeSync, .finish 0, .check 0 .start, .begin] ++
    transitionRun [{ event := .activated, ok := true }] ++ tickRun

theorem requests_served_stopRun :
    ∃ s, (machine timedAgent).Reach Served s ∧ s.calls = [] ∧ s.isQuiet = true ∧ s.lastRequest = some .stop ∧
      (s.handed.getLast? = some .stop ∨ s.wasRunning = true) := by
  obtain ⟨s, hs, hfacts⟩ := Option.map_eq_some_iff.mp (by decide +kernel :
    ((machine timedAgent).execWhen Served (started timedAgent) stopRun).map
      (fun s => (s.calls, s.isQuiet, s.lastRequest)) = some ([], true, some .stop))
  have hreach : (machine timedAgent).Reach Served s := .execWhen (.init rfl) hs
  obtain ⟨hcs, hquiet, hlast⟩ := Prod.mk.inj hfacts |>.imp id Prod.mk.inj
  exact ⟨s, hreach, hcs, hquiet, hlast, (requests_served timedAgent).2 s hreach hcs hquiet .stop hlast⟩

/-- An agent that is not activated is asked to start: the call reads the front of an empty queue, finds its own action in
what stood there and hands over `Activate` only. -/
theorem startRun_loses : ∃ s, (machine timedAgent).Reachable s ∧ ¬ s.ReadsFront ∧ ¬ s.Delivered := by
  obtain ⟨s, hs, hfacts⟩ := Option.map_eq_some_iff.mp (by decide +kernel :
    ((machine timedAgent).exec (started timedAgent) startRun).map (fun s =>
      ((s.calls, s.isQuiet, s.lastRequest), s.badReads, s.handed, s.wasRunning)) =
        some (([], true, some .start), 1, [.activate], false))
  obtain ⟨hend, hgot⟩ := Prod.mk.inj hfacts
  obtain ⟨hcs, hquiet, hlast⟩ := Prod.mk.inj hend |>.imp id Prod.mk.inj
  obtain ⟨hbad, hhanded, hrun⟩ := Prod.mk.inj hgot |>.imp id Prod.mk.inj
  refine ⟨s, .exec (.init rfl) hs, ?_, ?_⟩
  · unfold State.ReadsFront
    rw [hbad]
    exact Nat.one_ne_zero
  · intro hd
    have hstart := hd hcs hquiet .start hlast
    rw [hhanded, hrun] at hstart
    revert hstart
    decide

end Brookesia.Agent
