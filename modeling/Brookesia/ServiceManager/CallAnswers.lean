import Brookesia.ServiceManager.CallSteps

/-! # Calls are answered once

What a call's handler is given, for every interleaving of calls, `start`, `stop` and `deinit` with what
the scheduler does. A call is lost where the scheduler forgets its task, which `stop` makes it do, or
where a function throws what nothing catches; and a batch calls its handler under `state_mutex`. -/

namespace Brookesia.ServiceManager.Calls

open Transition List Option

variable {c : Config} {s s' : State} {id : CallId} {call call' : Call} {env : Env} {effect : Effect}

/-- The task is accepted or called, and has not come to its handler. -/
def Phase.isPending : Phase → Bool
  | .queued | .locking | .locked | .looping _ | .running _ _ | .answering _ | .delivering _ => true
  | .entering | .lookingUp | .checking | .posting | .handling | .refused | .done | .dropped | .escaped => false

structure Answers (s : State) : Prop where
  /-- The handler of a call that returned true is called once, or its task is still on its way. -/
  once : ∀ id call, s.calls id = some call → call.returned = some true → call.hasHandler = true →
    call.answers.length = 1 ∨ call.answers = [] ∧ call.phase.isPending = true
  atMostOnce : ∀ id call, s.calls id = some call → call.answers.length ≤ 1
  never : ∀ id call, s.calls id = some call → call.returned = some false → call.answers = []
  /-- The error is given where no function has been called, and only there. -/
  notRunning : ∀ id call, s.calls id = some call → .notRunning ∈ call.answers → call.started = 0
  completed : ∀ id call success, s.calls id = some call → call.requireScheduler = true →
    .completed success ∈ call.answers → 0 < call.started
  /-- A function that requires the scheduler runs only while the service is not marked stopped. -/
  running : ∀ id call name rest, s.calls id = some call → call.requireScheduler = true →
    call.phase = .running name rest → s.isRunning = true
  unlocked : ∀ id call, s.calls id = some call → call.phase = .handling → id ∉ s.readers

/-! ### Conditions -/

/-- No call with a handler waits in `scheduler`. -/
def ForgetsNone (s : State) (scheduler : Scheduler) : Prop :=
  ∀ id ∈ s.queue, ∀ call ∈ s.calls id, call.scheduler = scheduler → call.hasHandler = false

/-- A batch has no handler, and what a posted call runs throws nothing that is not caught. -/
def Call.AdvancesWell (env : Env) (call : Call) : Prop :=
  call.hasHandler = true →
    match call.phase with
    | .running _ _ => env.outcome = .escapes → call.requireScheduler = false
    | .delivering _ => call.batch = false
    | _ => True

/-- Nothing with a handler is queued where the scheduler is stopped or the group cancelled. -/
def Condition (s : State) : Label → Prop
  | .advance id env => ∀ call ∈ s.calls id, call.AdvancesWell env
  | .cancel id => ∀ call ∈ s.calls id, call.hasHandler = false
  | .finishStart ok =>
    (ok && s.resources.any s.schedulers) = false → ∀ scheduler ∈ s.resources, ForgetsNone s scheduler
  | .drain index => ∀ d ∈ s.draining[index]?, ∀ scheduler ∈ d.scheduler, ForgetsNone s scheduler
  | .stopScheduler scheduler => ForgetsNone s scheduler
  | .callFunctionAsync _ _ _ | .callFunctionsAsync _ _ _ | .execute _ | .init _ _ | .start | .stop | .deinit
  | .markStopped | .relock | .finishDeinit => True

/-- What the condition keeps. -/
structure Call.Kept (call : Call) : Prop where
  lost : call.phase = .dropped ∨ call.phase = .escaped ∧ call.requireScheduler = true → call.hasHandler = false
  unlocked : call.phase = .handling → call.batch = false

theorem Phase.isPending_or_lost {phase : Phase} {require : Bool} (h : phase.returns require = some true)
    (hnot : phase.isAnswered = false) :
    phase.isPending = true ∨ phase = .dropped ∨ phase = .escaped ∧ require = true := by
  cases phase <;> simp_all [Phase.returns, Phase.isAnswered, Phase.isPending]

theorem Phase.not_isAnswered_of_returns {phase : Phase} {require : Bool} (h : phase.returns require = some false) :
    phase.isAnswered = false := by
  cases phase <;> simp_all [Phase.returns, Phase.isAnswered]

theorem Inv.answers (h : Inv s) (hkept : ∀ id call, s.calls id = some call → call.Kept) : Answers s where
  once := by
    intro id call hcall htrue hhdl
    have hok := h.ok id call hcall
    have hlost := (hkept id call hcall).lost
    have hret := hok.returned
    cases hans : call.phase.isAnswered with
    | true =>
      left
      rw [hok.answered hans, if_pos hhdl]
    | false =>
      right
      refine ⟨hok.silent hans, ?_⟩
      rw [htrue] at hret
      obtain hpend | hgone := Phase.isPending_or_lost hret.symm hans
      · exact hpend
      · rw [hlost hgone] at hhdl
        cases hhdl
  atMostOnce := by
    intro id call hcall
    have hok := h.ok id call hcall
    cases hans : call.phase.isAnswered with
    | true =>
      rw [hok.answered hans]
      split <;> decide
    | false =>
      rw [hok.silent hans]
      exact Nat.zero_le 1
  never := by
    intro id call hcall hfalse
    have hok := h.ok id call hcall
    have hret := hok.returned
    rw [hfalse] at hret
    exact hok.silent (Phase.not_isAnswered_of_returns hret.symm)
  notRunning := fun id call hcall hmem => (h.ok id call hcall).answers _ hmem
  completed := fun id call success hcall hrequ hmem => (h.ok id call hcall).answers _ hmem hrequ
  running := by
    intro id call name rest hcall hrequ hph
    refine h.running id call hcall ?_ hrequ
    rw [hph]
    rfl
  unlocked := by
    intro id call hcall hph hreading
    obtain ⟨call', hcall', hholds⟩ := (h.reading id).mp hreading
    obtain rfl := some.inj (hcall.symm.trans hcall')
    unfold Call.holds at hholds
    rw [hph, (hkept id call hcall).unlocked hph] at hholds
    cases hholds

/-! ### Keeping the condition -/

theorem Call.ends (hst : call.next c s env = some (call', effect))
    (hph : call'.phase = .dropped ∨ call'.phase = .escaped ∨ call'.phase = .handling) :
    (∃ name rest, call.phase = .running name rest ∧ env.outcome = .escapes ∧ call' = { call with phase := .escaped }) ∨
      ∃ answer, call.phase = .delivering answer ∧ call.hasHandler = true ∧
        call' = { call with phase := .handling, answers := call.answers ++ [answer] } := by
  have hnot : ∀ {r : Call × Effect}, (r.1.phase ≠ .dropped ∧ r.1.phase ≠ .escaped ∧ r.1.phase ≠ .handling) →
      some r ≠ some (call', effect) := by
    rintro r ⟨hdrop, hescaped, hhandling⟩ heq
    cases heq
    obtain heq | heq | heq := hph
    · exact hdrop heq
    · exact hescaped heq
    · exact hhandling heq
  unfold Call.next at hst
  cases hfrom : call.phase with
  | running name rest =>
    rw [hfrom] at hst
    dsimp only at hst
    split at hst
    · exact absurd hst (hnot (by simp [Call.goOn]))
    · exact absurd hst (hnot (by simp [Call.goOn]))
    · next hescapes => exact .inl ⟨name, rest, rfl, hescapes, (Prod.mk.inj (some.inj hst)).1.symm⟩
  | delivering answer =>
    rw [hfrom] at hst
    dsimp only at hst
    split at hst
    · next hhdl => exact .inr ⟨answer, rfl, hhdl, (Prod.mk.inj (some.inj hst)).1.symm⟩
    · exact absurd hst (hnot (by simp [Call.finish]))
  | looping names =>
    rw [hfrom] at hst
    cases names with
    | nil => exact absurd hst (hnot (by simp [Call.goOn]))
    | cons name rest => exact absurd hst (hnot (by simp))
  | lookingUp =>
    rw [hfrom] at hst
    dsimp only at hst
    split at hst
    · refine absurd hst (hnot ?_)
      dsimp only
      split <;> simp
    · exact absurd hst (hnot (by simp [Call.refuse]))
  | entering =>
    rw [hfrom] at hst
    dsimp only at hst
    split at hst <;> exact absurd hst (hnot (by simp [Call.goOn, Call.refuse]))
  | checking =>
    rw [hfrom] at hst
    dsimp only at hst
    split at hst <;> exact absurd hst (hnot (by simp [Call.goOn, Call.refuse]))
  | posting =>
    rw [hfrom] at hst
    dsimp only at hst
    split at hst <;> exact absurd hst (hnot (by simp [Call.refuse]))
  | locking =>
    rw [hfrom] at hst
    exact absurd (ite_none_right_eq_some.mp hst).2 (hnot (by simp))
  | locked =>
    rw [hfrom] at hst
    dsimp only at hst
    split at hst <;> exact absurd hst (hnot (by simp [Call.goOn]))
  | answering answer =>
    rw [hfrom] at hst
    exact absurd hst (hnot (by simp))
  | handling =>
    rw [hfrom] at hst
    exact absurd hst (hnot (by simp [Call.finish]))
  | queued => rw [hfrom] at hst; cases hst
  | refused => rw [hfrom] at hst; cases hst
  | done => rw [hfrom] at hst; cases hst
  | dropped => rw [hfrom] at hst; cases hst
  | escaped => rw [hfrom] at hst; cases hst

theorem Call.kept_next (hwell : call.AdvancesWell env) (hst : call.next c s env = some (call', effect)) : call'.Kept where
  lost := by
    intro hph
    obtain ⟨name, rest, hfrom, hescapes, rfl⟩ | ⟨answer, -, -, rfl⟩ := Call.ends hst (hph.imp_right fun h => .inl h.1)
    · obtain heq | ⟨-, hrequ⟩ := hph
      · cases heq
      · by_contra hhdl
        have hcaught := hwell (Bool.eq_true_of_not_eq_false hhdl)
        rw [hfrom] at hcaught
        have hrequ : call.requireScheduler = true := hrequ
        rw [hcaught hescapes] at hrequ
        cases hrequ
    · obtain heq | ⟨heq, -⟩ := hph <;> cases heq
  unlocked := by
    intro hph
    obtain ⟨name, rest, -, -, rfl⟩ | ⟨answer, hfrom, hhdl, rfl⟩ := Call.ends hst (.inr (.inr hph))
    · cases hph
    · have hsgl := hwell hhdl
      rw [hfrom] at hsgl
      exact hsgl

def AllKept (s : State) : Prop := ∀ id call, s.calls id = some call → call.Kept

theorem AllKept.setCall (h : AllKept s) (hcall : call.Kept) : AllKept (setCall s id call) := by
  intro j x hx
  simp only [Calls.setCall, Function.update_apply] at hx
  split at hx
  · exact some.inj hx ▸ hcall
  · exact h j x hx

theorem AllKept.dequeue (h : AllKept s) {phase : Phase} (hst : Calls.dequeue s id phase = some s')
    (hph : phase = .locking ∨ phase = .dropped ∧ ∀ call ∈ s.calls id, call.hasHandler = false) : AllKept s' := by
  obtain ⟨-, hst⟩ := ite_none_right_eq_some.mp hst
  obtain ⟨call, hcall, rfl⟩ := map_eq_some_iff.mp hst
  have hkept : AllKept { s with queue := s.queue.erase id } := h
  refine hkept.setCall ?_
  obtain rfl | ⟨rfl, hhdl⟩ := hph
  · refine ⟨fun hlost => ?_, fun heq => Phase.noConfusion heq⟩
    obtain heq | ⟨heq, -⟩ := hlost
    · cases heq
    · cases heq
  · exact ⟨fun _ => hhdl call hcall, fun heq => Phase.noConfusion heq⟩

theorem AllKept.cancelGroup (h : AllKept s) {scheduler : Scheduler} (hforg : ForgetsNone s scheduler) :
    AllKept (cancelGroup s scheduler) := by
  intro j x hx
  obtain ⟨-, hx⟩ | ⟨hwaits, call, hcall, rfl⟩ := cancelGroup_calls hx
  · exact h j x hx
  · obtain ⟨hmem, hany⟩ := Bool.and_eq_true_iff.mp hwaits
    rw [hcall] at hany
    exact ⟨fun _ => hforg j (of_decide_eq_true hmem) call hcall (beq_iff_eq.mp hany), fun heq => Phase.noConfusion heq⟩

theorem drain_calls (c : Config) (scheduler : Scheduler) :
    (drain s c (some scheduler)).calls = (cancelGroup s scheduler).calls := by
  unfold drain
  dsimp only
  split <;> rfl

theorem AllKept.drain (h : AllKept s) (c : Config) {scheduler : Option Scheduler}
    (hforg : ∀ g ∈ scheduler, ForgetsNone s g) : AllKept (drain s c scheduler) := by
  cases scheduler with
  | none => exact h
  | some g =>
    unfold AllKept
    rw [drain_calls]
    exact h.cancelGroup (hforg g rfl)

theorem kept_entering (batch : Bool) (names : List String) (hasHandler : Bool) :
    Call.Kept { batch := batch, names := names, hasHandler := hasHandler } where
  lost := fun hlost => by
    obtain heq | ⟨heq, -⟩ := hlost
    · cases heq
    · cases heq
  unlocked := fun heq => Phase.noConfusion heq

theorem start_calls (s : State) (c : Config) : (start s c).calls = s.calls := by
  unfold start
  split <;> rfl

theorem stop_calls (s : State) (deinit : Bool) : (stop s deinit).calls = s.calls := by
  unfold stop
  split_ifs <;> rfl

theorem initInternal_calls (s : State) (c : Config) (scheduler : Scheduler) (running : Bool) :
    (initInternal s c scheduler running).calls = s.calls := by
  unfold initInternal
  split_ifs <;> rfl

theorem AllKept.step (h : AllKept s) {label : Label} (hcond : Condition s label) (hst : step s c label = some s') :
    AllKept s' := by
  unfold Calls.step at hst
  cases label with
  | callFunctionAsync id name hasHandler =>
    obtain ⟨-, rfl⟩ := of_guard hst
    exact h.setCall (kept_entering _ _ _)
  | callFunctionsAsync id names hasHandler =>
    obtain ⟨-, rfl⟩ := of_guard hst
    exact h.setCall (kept_entering _ _ _)
  | advance id env =>
    obtain ⟨call, hcall, hst⟩ := bind_eq_some_iff.mp hst
    obtain ⟨⟨call', effect⟩, hnext, rfl⟩ := map_eq_some_iff.mp hst
    unfold AllKept
    rw [apply_calls]
    exact h.setCall (Call.kept_next (hcond call hcall) hnext)
  | execute id => exact h.dequeue hst (.inl rfl)
  | cancel id => exact h.dequeue hst (.inr ⟨rfl, hcond⟩)
  | init scheduler running =>
    obtain ⟨-, rfl⟩ := of_guard hst
    unfold AllKept
    rw [initInternal_calls]
    exact h
  | start =>
    obtain ⟨-, rfl⟩ := of_guard hst
    unfold AllKept
    rw [start_calls]
    exact h
  | finishStart ok =>
    obtain ⟨-, rfl⟩ := of_guard hst
    unfold finishStart
    split
    · exact h
    · next hfails =>
      have hstop : AllKept { s with isRunning := false, holder := none } := h
      exact hstop.drain c (hcond (Bool.eq_false_iff.mpr hfails))
  | stop =>
    obtain ⟨-, rfl⟩ := of_guard hst
    unfold AllKept
    rw [stop_calls]
    exact h
  | deinit =>
    obtain ⟨-, rfl⟩ := of_guard hst
    unfold AllKept
    rw [stop_calls]
    exact h
  | markStopped =>
    dsimp only at hst
    split at hst
    · cases hst
      exact h
    · cases hst
  | drain index =>
    obtain ⟨d, hd, rfl⟩ := map_eq_some_iff.mp hst
    exact h.drain c (hcond d hd)
  | relock =>
    obtain ⟨-, rfl⟩ := of_guard hst
    exact h
  | finishDeinit =>
    obtain ⟨-, rfl⟩ := of_guard hst
    exact h
  | stopScheduler scheduler =>
    obtain ⟨-, rfl⟩ := of_guard hst
    exact h.cancelGroup hcond

theorem kept_inductive (c : Config) : (machine c).Inductive Condition fun s => Inv s ∧ AllKept s :=
  ((inv_inductive c).mono fun _ _ _ => trivial).and (by
      rintro _ rfl id call hcall
      exact absurd hcall (some_ne_none call).symm)
    fun _ _ _ _ hkept hcond hst => hkept.step hcond hst

/-- The label is a step of the call, or the scheduler's beginning of its task. -/
def Label.moves (id : CallId) : Label → Prop
  | .advance j _ | .execute j => j = id
  | _ => False

def wellEnv : Env := ⟨true, .succeeds⟩

/-- How many steps a call on its way has before it at most. -/
def Call.left (call : Call) : Nat :=
  match call.phase with
  | .queued => 2 * call.names.length + 6
  | .locking => 2 * call.names.length + 5
  | .locked => 2 * call.names.length + 4
  | .looping rest => 2 * rest.length + 3
  | .running _ rest => 2 * rest.length + 4
  | .answering _ => 2
  | .delivering _ => 1
  | _ => 0

def stoppedRun : List Label :=
  [.init 0 false, .start, .finishStart true, .callFunctionAsync 0 "SetOn" true] ++
    List.replicate 4 (.advance 0 wellEnv) ++ [.stop, .markStopped, .drain 0]

end Brookesia.ServiceManager.Calls
