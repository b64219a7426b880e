import Brookesia.ServiceManager.Calls

/-! # What the steps of calls keep

Invariants of the calls of a service over all runs: what a call has returned and been given in each
phase, and which calls are queued or share the lock. -/

namespace Brookesia.ServiceManager.Calls

open Transition List Option

variable {c : Config} {s s' : State} {id : CallId} {call call' : Call} {env : Env} {effect : Effect}

def Phase.returns (require : Bool) : Phase → Option Bool
  | .entering | .lookingUp | .checking | .posting => none
  | .refused => some false
  | .done => some true
  | .queued | .locking | .locked | .looping _ | .running _ _ | .answering _ | .delivering _ | .handling | .dropped
  | .escaped => if require then some true else none

def Phase.isAnswered : Phase → Bool
  | .handling | .done => true
  | _ => false

def Phase.isActive : Phase → Bool
  | .looping _ | .running _ _ => true
  | _ => false

def Call.holds (call : Call) : Bool :=
  match call.phase with
  | .locked | .looping _ | .running _ _ | .answering _ => true
  | .delivering _ | .handling => call.batch
  | _ => false

def Answer.Fits (call : Call) : Answer → Prop
  | .notRunning => call.started = 0
  | .completed _ => call.requireScheduler = true → 0 < call.started

def Phase.Fits (call : Call) : Phase → Prop
  | .entering | .lookingUp | .locking | .locked => call.started = 0
  | .checking | .posting | .queued => call.started = 0 ∧ call.requireScheduler = true
  | .looping rest => rest = call.names ∨ 0 < call.started
  | .running _ _ => 0 < call.started
  | .answering answer | .delivering answer => answer.Fits call
  | .handling | .refused | .done | .dropped | .escaped => True

/-- What holds of a call by itself. -/
structure Call.Ok (call : Call) : Prop where
  returned : call.returned = call.phase.returns call.requireScheduler
  silent : call.phase.isAnswered = false → call.answers = []
  answered : call.phase.isAnswered = true → call.answers.length = if call.hasHandler then 1 else 0
  phase : call.phase.Fits call
  answers : ∀ answer ∈ call.answers, answer.Fits call
  names : call.requireScheduler = true → call.names ≠ []

structure Inv (s : State) : Prop where
  ok : ∀ id call, s.calls id = some call → call.Ok
  queued : ∀ id, id ∈ s.queue ↔ ∃ call ∈ s.calls id, call.phase = .queued
  reading : ∀ id, id ∈ s.readers ↔ ∃ call ∈ s.calls id, call.holds = true
  running : ∀ id call, s.calls id = some call → call.phase.isActive = true → call.requireScheduler = true →
    s.isRunning = true
  exclusive : s.holder ≠ none → s.readers = ∅

/-! ### A step of a call -/

variable {phase : Phase} {scheduler : Scheduler}

theorem Call.Ok.goOn (h : call.Ok) (hrets : call.returned = phase.returns call.requireScheduler)
    (hfrom : call.phase.isAnswered = false) (hto : phase.isAnswered = false) (hfits : phase.Fits call) :
    { call with phase := phase }.Ok where
  returned := hrets
  silent := fun _ => h.silent hfrom
  answered := fun hans => by
    dsimp only at hans
    rw [hto] at hans
    cases hans
  phase := hfits
  answers := h.answers
  names := h.names

theorem Call.Ok.refuse (h : call.Ok) (hph : call.phase.isAnswered = false) : call.refuse.1.Ok where
  returned := rfl
  silent := fun _ => h.silent hph
  answered := fun hans => absurd hans Bool.false_ne_true
  phase := trivial
  answers := h.answers
  names := h.names

theorem Call.Ok.finish (h : call.Ok) (hansw : call.answers.length = if call.hasHandler then 1 else 0) :
    call.finish.1.Ok where
  returned := rfl
  silent := fun hph => absurd hph.symm Bool.false_ne_true
  answered := fun _ => hansw
  phase := trivial
  answers := h.answers
  names := h.names

theorem requireScheduler_ne_nil {names : List String} (h : requireScheduler c names = some true) : names ≠ [] := by
  rintro rfl
  cases h

theorem Call.Ok.begin (h : call.Ok) {name : String} {rest : List String} (hph : call.phase = .looping (name :: rest)) :
    { call with phase := .running name rest, started := call.started + 1 }.Ok where
  returned := by
    have hret := h.returned
    rw [hph] at hret
    exact hret
  silent := fun _ => h.silent (by rw [hph]; rfl)
  answered := fun hans => absurd hans Bool.false_ne_true
  phase := Nat.succ_pos _
  answers := by
    have hnil := h.silent (by rw [hph]; rfl)
    intro answer hmem
    have hmem : answer ∈ call.answers := hmem
    rw [hnil] at hmem
    cases hmem
  names := h.names

theorem Call.Ok.found (h : call.Ok) (hph : call.phase = .lookingUp) {require : Bool} (scheduler : Scheduler)
    (hrequ : Calls.requireScheduler c call.names = some require) :
    { call with
      requireScheduler := require
      scheduler := scheduler
      phase := if require then .checking else .locking }.Ok := by
  have hret := h.returned
  have hfits := h.phase
  rw [hph] at hret hfits
  have hnil : call.answers = [] := h.silent (by rw [hph]; rfl)
  have hansw : ∀ answer ∈ call.answers, answer.Fits { call with requireScheduler := require } := by
    rw [hnil]
    exact fun answer hmem => absurd hmem not_mem_nil
  have hnms : require = true → call.names ≠ [] := fun heq => requireScheduler_ne_nil (heq ▸ hrequ)
  cases require with
  | true => exact ⟨hret, fun _ => hnil, fun hans => absurd hans Bool.false_ne_true, ⟨hfits, rfl⟩,
      hansw, hnms⟩
  | false => exact ⟨hret, fun _ => hnil, fun hans => absurd hans Bool.false_ne_true, hfits,
      hansw, hnms⟩

theorem Call.Ok.next (h : call.Ok) (hst : call.next c s env = some (call', effect)) : call'.Ok := by
  have hret := h.returned
  have hfits := h.phase
  unfold Call.next at hst
  cases hph : call.phase with
  | entering =>
    rw [hph] at hst hret hfits
    have hans : call.phase.isAnswered = false := by rw [hph]; rfl
    dsimp only at hst
    split at hst
    · cases hst
      exact h.goOn hret hans rfl hfits
    · cases hst
      exact h.refuse hans
  | lookingUp =>
    rw [hph] at hst
    dsimp only at hst
    split at hst
    · next scheduler require hrsc hrequ =>
      cases hst
      exact h.found hph scheduler hrequ
    · cases hst
      exact h.refuse (by rw [hph]; rfl)
  | checking =>
    rw [hph] at hst hret hfits
    have hans : call.phase.isAnswered = false := by rw [hph]; rfl
    dsimp only at hst
    split at hst
    · cases hst
      exact h.goOn hret hans rfl hfits
    · cases hst
      exact h.refuse hans
  | posting =>
    rw [hph] at hst hfits
    have hans : call.phase.isAnswered = false := by rw [hph]; rfl
    dsimp only at hst
    split at hst
    · cases hst
      have hrets : some true = Phase.queued.returns call.requireScheduler := by
        rw [hfits.2]
        rfl
      exact ⟨hrets, fun _ => h.silent hans, fun hans => absurd hans Bool.false_ne_true, hfits, h.answers, h.names⟩
    · cases hst
      exact h.refuse hans
  | locking =>
    rw [hph] at hst hret hfits
    obtain ⟨-, hst⟩ := ite_none_right_eq_some.mp hst
    cases hst
    exact h.goOn hret (by rw [hph]; rfl) rfl hfits
  | locked =>
    rw [hph] at hst hret hfits
    have hans : call.phase.isAnswered = false := by rw [hph]; rfl
    dsimp only at hst
    split at hst
    · cases hst
      exact h.goOn hret hans rfl (.inl rfl)
    · cases hst
      exact h.goOn hret hans rfl hfits
  | looping names =>
    rw [hph] at hst hret hfits
    cases names with
    | nil =>
      cases hst
      refine h.goOn hret (by rw [hph]; rfl) rfl fun hrequ => ?_
      obtain hnms | hstd := hfits
      · exact absurd hnms.symm (h.names hrequ)
      · exact hstd
    | cons name rest =>
      cases hst
      exact h.begin hph
  | running name rest =>
    rw [hph] at hst hret hfits
    have hans : call.phase.isAnswered = false := by rw [hph]; rfl
    dsimp only at hst
    split at hst
    · cases hst
      exact h.goOn hret hans rfl (.inr hfits)
    · cases hst
      exact h.goOn hret hans rfl fun _ => hfits
    · cases hst
      exact h.goOn hret hans rfl trivial
  | answering answer =>
    rw [hph] at hst hret hfits
    cases hst
    exact h.goOn hret (by rw [hph]; rfl) rfl hfits
  | delivering answer =>
    rw [hph] at hst hret hfits
    have hnil := h.silent (by rw [hph]; rfl)
    dsimp only at hst
    split at hst
    · next hhdl =>
      cases hst
      refine ⟨hret, fun hph => absurd hph.symm Bool.false_ne_true, fun _ => ?_, trivial, ?_, h.names⟩
      · rw [hnil, if_pos hhdl]
        rfl
      · rw [hnil]
        intro a ha
        exact mem_singleton.mp ha ▸ hfits
    · next hhdl =>
      cases hst
      refine h.finish ?_
      rw [hnil, if_neg hhdl]
      rfl
  | handling =>
    rw [hph] at hst
    cases hst
    exact h.finish (h.answered (by rw [hph]; rfl))
  | queued => rw [hph] at hst; cases hst
  | refused => rw [hph] at hst; cases hst
  | done => rw [hph] at hst; cases hst
  | dropped => rw [hph] at hst; cases hst
  | escaped => rw [hph] at hst; cases hst

/-- What a step of a call does to the queue and the lock. -/
structure Moves (s : State) (call call' : Call) (effect : Effect) : Prop where
  left : call.phase ≠ .queued
  queued : call'.phase = .queued ↔ effect = .posts
  acquires : effect = .acquires → s.holder = none
  holds : call'.holds = match effect with
    | .acquires => true
    | .releases => false
    | .nothing | .posts => call.holds
  active : call'.phase.isActive = true → call'.requireScheduler = true →
    s.isRunning = true ∨ call.phase.isActive = true ∧ call.requireScheduler = true

theorem Moves.of_nothing (hleft : call.phase ≠ .queued) (hqd : call'.phase ≠ .queued) (hholds : call'.holds = call.holds)
    (hact : call'.phase.isActive = true → call'.requireScheduler = true →
      s.isRunning = true ∨ call.phase.isActive = true ∧ call.requireScheduler = true) : Moves s call call' .nothing :=
  ⟨hleft, ⟨fun heq => absurd heq hqd, fun heq => Effect.noConfusion heq⟩, fun heq => Effect.noConfusion heq, hholds,
    hact⟩

theorem Moves.of_releases (hleft : call.phase ≠ .queued) (hqd : call'.phase ≠ .queued) (hholds : call'.holds = false)
    (hact : call'.phase.isActive = false) : Moves s call call' .releases :=
  ⟨hleft, ⟨fun heq => absurd heq hqd, fun heq => Effect.noConfusion heq⟩, fun heq => Effect.noConfusion heq, hholds,
    fun heq => absurd (hact.symm.trans heq) Bool.false_ne_true⟩

theorem Moves.of_quiet (hleft : call.phase ≠ .queued) (hqd : call'.phase ≠ .queued) (hholds : call'.holds = call.holds)
    (hact : call'.phase.isActive = false) : Moves s call call' .nothing :=
  .of_nothing hleft hqd hholds fun heq => absurd (hact.symm.trans heq) Bool.false_ne_true

theorem moves_refuse (hleft : call.phase ≠ .queued) (hholds : call.holds = false) : Moves s call call.refuse.1 .nothing :=
  .of_quiet hleft (fun heq => Phase.noConfusion heq) hholds.symm rfl

theorem moves_finish (hleft : call.phase ≠ .queued) (hholds : call.holds = call.batch) :
    Moves s call call.finish.1 call.finish.2 := by
  have hqd : call.finish.1.phase ≠ .queued := fun heq => Phase.noConfusion heq
  have hact : call.finish.1.phase.isActive = false := rfl
  unfold Call.finish at hqd hact ⊢
  cases hbatch : call.batch with
  | true =>
    rw [if_pos rfl]
    exact .of_releases hleft hqd rfl hact
  | false =>
    rw [if_neg Bool.false_ne_true]
    rw [hbatch] at hholds
    exact .of_quiet hleft hqd hholds.symm hact

theorem Call.moves (hst : call.next c s env = some (call', effect)) : Moves s call call' effect := by
  unfold Call.next at hst
  cases hph : call.phase with
  | entering =>
    rw [hph] at hst
    have hholds : call.holds = false := by simp [Call.holds, hph]
    dsimp only at hst
    split at hst
    · cases hst
      exact .of_quiet (by simp [hph]) (fun heq => Phase.noConfusion heq) hholds.symm rfl
    · cases hst
      exact moves_refuse (by simp [hph]) hholds
  | lookingUp =>
    rw [hph] at hst
    have hholds : call.holds = false := by simp [Call.holds, hph]
    dsimp only at hst
    split at hst
    · next scheduler require hrsc hrequ =>
      cases hst
      cases require with
      | true => exact .of_quiet (by simp [hph]) (fun heq => Phase.noConfusion heq) hholds.symm rfl
      | false => exact .of_quiet (by simp [hph]) (fun heq => Phase.noConfusion heq) hholds.symm rfl
    · cases hst
      exact moves_refuse (by simp [hph]) hholds
  | checking =>
    rw [hph] at hst
    have hholds : call.holds = false := by simp [Call.holds, hph]
    dsimp only at hst
    split at hst
    · cases hst
      exact .of_quiet (by simp [hph]) (fun heq => Phase.noConfusion heq) hholds.symm rfl
    · cases hst
      exact moves_refuse (by simp [hph]) hholds
  | posting =>
    rw [hph] at hst
    have hholds : call.holds = false := by simp [Call.holds, hph]
    dsimp only at hst
    split at hst
    · cases hst
      exact ⟨by simp [hph], ⟨fun _ => rfl, fun _ => rfl⟩, fun heq => Effect.noConfusion heq, hholds.symm,
        fun heq => absurd heq Bool.false_ne_true⟩
    · cases hst
      exact moves_refuse (by simp [hph]) hholds
  | locking =>
    rw [hph] at hst
    obtain ⟨hhol, hst⟩ := ite_none_right_eq_some.mp hst
    cases hst
    exact ⟨by simp [hph], ⟨fun heq => Phase.noConfusion heq, fun heq => Effect.noConfusion heq⟩, fun _ => hhol, rfl,
      fun heq => absurd heq Bool.false_ne_true⟩
  | locked =>
    rw [hph] at hst
    have hholds : call.holds = true := by simp [Call.holds, hph]
    dsimp only at hst
    split at hst
    · next hruns =>
      cases hst
      refine .of_nothing (by simp [hph]) (fun heq => Phase.noConfusion heq) hholds.symm fun _ hrequ => .inl ?_
      have hrequ : call.requireScheduler = true := hrequ
      simpa [hrequ] using hruns
    · cases hst
      exact .of_quiet (by simp [hph]) (fun heq => Phase.noConfusion heq) hholds.symm rfl
  | looping names =>
    rw [hph] at hst
    have hholds : call.holds = true := by simp [Call.holds, hph]
    cases names with
    | nil =>
      cases hst
      exact .of_quiet (by simp [hph]) (fun heq => Phase.noConfusion heq) hholds.symm rfl
    | cons name rest =>
      cases hst
      exact .of_nothing (by simp [hph]) (fun heq => Phase.noConfusion heq) hholds.symm
        fun _ hrequ => .inr ⟨by rw [hph]; rfl, hrequ⟩
  | running name rest =>
    rw [hph] at hst
    have hholds : call.holds = true := by simp [Call.holds, hph]
    dsimp only at hst
    split at hst
    · cases hst
      exact .of_nothing (by simp [hph]) (fun heq => Phase.noConfusion heq) hholds.symm
        fun _ hrequ => .inr ⟨by rw [hph]; rfl, hrequ⟩
    · cases hst
      exact .of_quiet (by simp [hph]) (fun heq => Phase.noConfusion heq) hholds.symm rfl
    · cases hst
      exact .of_releases (by simp [hph]) (fun heq => Phase.noConfusion heq) rfl rfl
  | answering answer =>
    rw [hph] at hst
    have hholds : call.holds = true := by simp [Call.holds, hph]
    cases hst
    cases hbatch : call.batch with
    | true => exact .of_quiet (by simp [hph]) (fun heq => Phase.noConfusion heq) hholds.symm rfl
    | false => exact .of_releases (by simp [hph]) (fun heq => Phase.noConfusion heq) rfl rfl
  | delivering answer =>
    rw [hph] at hst
    have hholds : call.holds = call.batch := by simp [Call.holds, hph]
    dsimp only at hst
    split at hst
    · cases hst
      exact .of_quiet (by simp [hph]) (fun heq => Phase.noConfusion heq) hholds.symm rfl
    · cases hst
      exact moves_finish (by simp [hph]) hholds
  | handling =>
    rw [hph] at hst
    cases hst
    exact moves_finish (by simp [hph]) (by simp [Call.holds, hph])
  | queued => rw [hph] at hst; cases hst
  | refused => rw [hph] at hst; cases hst
  | done => rw [hph] at hst; cases hst
  | dropped => rw [hph] at hst; cases hst
  | escaped => rw [hph] at hst; cases hst

@[simp] theorem apply_calls (s : State) (id : CallId) (effect : Effect) : (apply s id effect).calls = s.calls := by
  cases effect <;> rfl

@[simp] theorem apply_isRunning (s : State) (id : CallId) (effect : Effect) : (apply s id effect).isRunning = s.isRunning := by
  cases effect <;> rfl

@[simp] theorem apply_holder (s : State) (id : CallId) (effect : Effect) : (apply s id effect).holder = s.holder := by
  cases effect <;> rfl

theorem mem_apply_queue (j : CallId) : j ∈ (apply s id effect).queue ↔ effect = .posts ∧ j = id ∨ j ∈ s.queue := by
  cases effect <;> simp [apply]

theorem mem_apply_readers_of_ne {j : CallId} (hj : j ≠ id) : j ∈ (apply s id effect).readers ↔ j ∈ s.readers := by
  cases effect <;> simp [apply, hj]

theorem exists_mem_update {calls : CallId → Option Call} {P : Call → Prop} (j : CallId) :
    (∃ x ∈ Function.update calls id (some call') j, P x) ↔ if j = id then P call' else ∃ x ∈ calls j, P x := by
  rw [Function.update_apply]
  split
  · simp
  · rfl

theorem Inv.advance (h : Inv s) (hcall : s.calls id = some call) (hst : call.next c s env = some (call', effect)) :
    Inv (apply (setCall s id call') id effect) where
  ok := by
    intro j x hx
    rw [apply_calls] at hx
    simp only [setCall, Function.update_apply] at hx
    split at hx
    · exact some.inj hx ▸ (h.ok id call hcall).next hst
    · exact h.ok j x hx
  queued := by
    have hmoves := Call.moves hst
    intro j
    rw [apply_calls, mem_apply_queue]
    refine Iff.trans ?_ (exists_mem_update j).symm
    split
    · next heq =>
      subst heq
      rw [hmoves.queued]
      refine ⟨fun hor => ?_, fun heffect => .inl ⟨heffect, rfl⟩⟩
      obtain ⟨heffect, -⟩ | hmem := hor
      · exact heffect
      · obtain ⟨x, hx, hph⟩ := (h.queued j).mp hmem
        obtain rfl := some.inj (hcall.symm.trans hx)
        exact absurd hph hmoves.left
    · next hne =>
      exact ⟨fun hor => (h.queued j).mp (hor.resolve_left fun hboth => hne hboth.2),
        fun hex => .inr ((h.queued j).mpr hex)⟩
  reading := by
    have hmoves := Call.moves hst
    have hold : id ∈ s.readers ↔ call.holds = true := by
      rw [h.reading id, hcall]
      simp
    intro j
    rw [apply_calls]
    refine Iff.trans ?_ (exists_mem_update j).symm
    split
    · next heq =>
      subst heq
      rw [hmoves.holds]
      cases effect with
      | nothing => exact hold
      | posts => exact hold
      | acquires => simp [apply]
      | releases => simp [apply]
    · next hne => exact (mem_apply_readers_of_ne hne).trans (h.reading j)
  running := by
    have hmoves := Call.moves hst
    intro j x hx hact hrequ
    rw [apply_calls] at hx
    rw [apply_isRunning]
    simp only [setCall, Function.update_apply] at hx
    split at hx
    · cases hx
      obtain hrun | ⟨hact, hrequ⟩ := hmoves.active hact hrequ
      · exact hrun
      · exact h.running id call hcall hact hrequ
    · exact h.running j x hx hact hrequ
  exclusive := by
    have hmoves := Call.moves hst
    intro hhol
    rw [apply_holder] at hhol
    have hemp : s.readers = ∅ := h.exclusive hhol
    cases effect with
    | nothing => exact hemp
    | posts => exact hemp
    | acquires => exact absurd (hmoves.acquires rfl) hhol
    | releases =>
      unfold apply
      rw [show (setCall s id call').readers = ∅ from hemp]
      rfl

/-! ### Other steps -/

theorem Call.Ok.dequeued (h : call.Ok) (hqd : call.phase = .queued)
    (hph : phase = .locking ∨ phase = .dropped) : { call with phase := phase }.Ok := by
  have hret := h.returned
  have hfits := h.phase
  rw [hqd] at hret hfits
  have hans : call.phase.isAnswered = false := by rw [hqd]; rfl
  obtain rfl | rfl := hph
  · exact h.goOn hret hans rfl hfits.1
  · exact h.goOn hret hans rfl trivial

theorem idle_of_dequeued (call : Call) (hph : phase = .locking ∨ phase = .dropped) :
    phase ≠ .queued ∧ { call with phase := phase }.holds = false ∧ phase.isActive = false := by
  obtain rfl | rfl := hph
  · exact ⟨fun heq => Phase.noConfusion heq, rfl, rfl⟩
  · exact ⟨fun heq => Phase.noConfusion heq, rfl, rfl⟩

theorem not_holds_of_queued (hph : call.phase = .queued) : call.holds = false := by
  unfold Call.holds
  rw [hph]

theorem holds_of_isActive (hact : call.phase.isActive = true) : call.holds = true := by
  unfold Call.holds
  cases hph : call.phase <;> simp_all [Phase.isActive]

theorem Inv.dequeue (h : Inv s) (hph : phase = .locking ∨ phase = .dropped)
    (hst : dequeue s id phase = some s') : Inv s' := by
  obtain ⟨hmem, hst⟩ := ite_none_right_eq_some.mp hst
  obtain ⟨call, hcall, rfl⟩ := map_eq_some_iff.mp hst
  have hqd : call.phase = .queued := by
    obtain ⟨x, hx, hqd⟩ := (h.queued id).mp hmem
    exact some.inj (hcall.symm.trans hx) ▸ hqd
  obtain ⟨hnot, hholds, hact⟩ := idle_of_dequeued call hph
  refine ⟨fun j x hx => ?_, fun j => ?_, fun j => ?_, fun j x hx hact' hrequ => ?_, h.exclusive⟩
  · simp only [setCall, Function.update_apply] at hx
    split at hx
    · exact some.inj hx ▸ (h.ok id call hcall).dequeued hqd hph
    · exact h.ok j x hx
  · refine Iff.trans ?_ (exists_mem_update j).symm
    split
    · next heq =>
      subst heq
      exact ⟨fun hmem => absurd hmem (Finset.notMem_erase j s.queue), fun heq => absurd heq hnot⟩
    · next hne =>
      refine Iff.trans ?_ (h.queued j)
      exact ⟨Finset.mem_of_mem_erase, Finset.mem_erase_of_ne_of_mem hne⟩
  · refine Iff.trans ?_ (exists_mem_update j).symm
    split
    · next heq =>
      subst heq
      rw [hholds]
      refine ⟨fun hreading => ?_, fun heq => absurd heq Bool.false_ne_true⟩
      obtain ⟨x, hx, hreads⟩ := (h.reading j).mp hreading
      obtain rfl := some.inj (hcall.symm.trans hx)
      rw [not_holds_of_queued hqd] at hreads
      exact hreads
    · exact h.reading j
  · simp only [setCall, Function.update_apply] at hx
    split at hx
    · cases hx
      rw [hact] at hact'
      cases hact'
    · exact h.running j x hx hact' hrequ

theorem Inv.queued_of_waitsIn (h : Inv s) (hwaits : waitsIn s scheduler id = true)
    (hcall : s.calls id = some call) : call.phase = .queued ∧ call.scheduler = scheduler := by
  obtain ⟨hmem, hany⟩ := Bool.and_eq_true_iff.mp hwaits
  obtain ⟨x, hx, hqd⟩ := (h.queued id).mp (of_decide_eq_true hmem)
  obtain rfl := some.inj (hcall.symm.trans hx)
  rw [hcall] at hany
  exact ⟨hqd, beq_iff_eq.mp hany⟩

theorem cancelGroup_calls {j : CallId} (hcall' : (cancelGroup s scheduler).calls j = some call') :
    waitsIn s scheduler j = false ∧ s.calls j = some call' ∨
      waitsIn s scheduler j = true ∧ ∃ call, s.calls j = some call ∧ call' = { call with phase := .dropped } := by
  simp only [cancelGroup] at hcall'
  split at hcall'
  · next hwaits =>
    obtain ⟨call, hcall, rfl⟩ := map_eq_some_iff.mp hcall'
    exact .inr ⟨hwaits, call, hcall, rfl⟩
  · next hnot => exact .inl ⟨Bool.eq_false_iff.mpr hnot, hcall'⟩

theorem exists_cancelGroup {P : Call → Prop} (hold : ∀ call, s.calls id = some call →
      waitsIn s scheduler id = true → ¬ P call) (hnew : ∀ call : Call, ¬ P { call with phase := .dropped }) :
    (∃ x ∈ (cancelGroup s scheduler).calls id, P x) ↔ ∃ x ∈ s.calls id, P x := by
  simp only [cancelGroup]
  split
  · next hwaits =>
    constructor
    · rintro ⟨x, hx, hp⟩
      obtain ⟨call, -, rfl⟩ := map_eq_some_iff.mp hx
      exact absurd hp (hnew call)
    · rintro ⟨x, hx, hp⟩
      exact absurd hp (hold x hx hwaits)
  · exact Iff.rfl

theorem Inv.cancelGroup (h : Inv s) (scheduler : Scheduler) : Inv (cancelGroup s scheduler) where
  ok := by
    intro j x hx
    obtain ⟨-, hx⟩ | ⟨hwaits, call, hcall, rfl⟩ := cancelGroup_calls hx
    · exact h.ok j x hx
    · exact (h.ok j call hcall).dequeued (h.queued_of_waitsIn hwaits hcall).1 (.inr rfl)
  queued := by
    intro j
    rw [show (Calls.cancelGroup s scheduler).queue = s.queue.filter fun id => waitsIn s scheduler id = false from rfl,
      Finset.mem_filter]
    constructor
    · rintro ⟨hmem, hnot⟩
      obtain ⟨x, hx, hqd⟩ := (h.queued j).mp hmem
      refine ⟨x, ?_, hqd⟩
      simp only [Calls.cancelGroup]
      rw [if_neg (Bool.eq_false_iff.mp hnot)]
      exact hx
    · rintro ⟨x, hx, hqd⟩
      obtain ⟨hnot, hx⟩ | ⟨hwaits, call, hcall, rfl⟩ := cancelGroup_calls hx
      · exact ⟨(h.queued j).mpr ⟨x, hx, hqd⟩, hnot⟩
      · cases hqd
  reading := by
    intro j
    refine (h.reading j).trans (exists_cancelGroup (fun call hcall hwaits hreads => ?_) fun call hreads => ?_).symm
    · rw [not_holds_of_queued (h.queued_of_waitsIn hwaits hcall).1] at hreads
      cases hreads
    · cases hreads
  running := by
    intro j x hx hact hrequ
    obtain ⟨-, hx⟩ | ⟨-, call, hcall, rfl⟩ := cancelGroup_calls hx
    · exact h.running j x hx hact hrequ
    · cases hact
  exclusive := h.exclusive

/-- The service's state changes while no task shares the lock, or stays as it is for the tasks. -/
theorem Inv.of_service (h : Inv s) (hcs : s'.calls = s.calls) (hque : s'.queue = s.queue)
    (hreaders : s'.readers = s.readers) (hrun : s.readers = ∅ ∨ s'.isRunning = s.isRunning)
    (hhol : s.readers = ∅ ∨ s'.holder = none) : Inv s' where
  ok := hcs ▸ h.ok
  queued := hcs ▸ hque ▸ h.queued
  reading := hcs ▸ hreaders ▸ h.reading
  running := by
    rw [hcs]
    intro j x hx hact hrequ
    obtain hemp | hsame := hrun
    · have hreads : j ∈ s.readers := (h.reading j).mpr ⟨x, hx, holds_of_isActive hact⟩
      rw [hemp] at hreads
      exact absurd hreads (Finset.notMem_empty j)
    · exact hsame ▸ h.running j x hx hact hrequ
  exclusive := by
    rw [hreaders]
    exact fun hne => hhol.resolve_right hne

theorem Inv.same (h : Inv s) (hcs : s'.calls = s.calls) (hque : s'.queue = s.queue) (hreaders : s'.readers = s.readers)
    (hrun : s'.isRunning = s.isRunning) (hhol : s'.holder = s.holder) : Inv s' := by
  refine h.of_service hcs hque hreaders (.inr hrun) ?_
  by_cases hnone : s.holder = none
  · exact .inr (hhol.trans hnone)
  · exact .inl (h.exclusive hnone)

theorem Inv.drain (h : Inv s) (c : Config) (scheduler : Option Scheduler) : Inv (drain s c scheduler) := by
  unfold Calls.drain
  split
  · exact h
  · next scheduler =>
    split
    · exact (h.cancelGroup scheduler).same rfl rfl rfl rfl rfl
    · exact h.cancelGroup scheduler

theorem Inv.newCall (h : Inv s) (hfresh : s.calls id = none) (hok : call.Ok) (hph : call.phase = .entering) :
    Inv (setCall s id call) := by
  have hnone : ∀ P : Call → Prop, ¬ ∃ x ∈ s.calls id, P x := by
    rintro P ⟨x, hx, -⟩
    rw [hfresh] at hx
    cases hx
  refine ⟨fun j x hx => ?_, fun j => ?_, fun j => ?_, fun j x hx hact hrequ => ?_, h.exclusive⟩
  · simp only [setCall, Function.update_apply] at hx
    split at hx
    · exact some.inj hx ▸ hok
    · exact h.ok j x hx
  · refine Iff.trans (h.queued j) (Iff.trans ?_ (exists_mem_update j).symm)
    split
    · next heq =>
      subst heq
      rw [hph]
      exact ⟨fun hex => absurd hex (hnone _), fun heq => Phase.noConfusion heq⟩
    · exact Iff.rfl
  · refine Iff.trans (h.reading j) (Iff.trans ?_ (exists_mem_update j).symm)
    split
    · next heq =>
      subst heq
      refine ⟨fun hex => absurd hex (hnone _), fun hholds => ?_⟩
      unfold Call.holds at hholds
      rw [hph] at hholds
      cases hholds
    · exact Iff.rfl
  · simp only [setCall, Function.update_apply] at hx
    split at hx
    · rw [← some.inj hx, hph] at hact
      cases hact
    · exact h.running j x hx hact hrequ

theorem ok_entering (batch : Bool) (names : List String) (hasHandler : Bool) :
    Call.Ok { batch := batch, names := names, hasHandler := hasHandler } where
  returned := rfl
  silent := fun _ => rfl
  answered := fun hans => absurd hans Bool.false_ne_true
  phase := rfl
  answers := fun _ hmem => absurd hmem not_mem_nil
  names := fun hrequ => absurd hrequ Bool.false_ne_true

theorem Inv.start (h : Inv s) (c : Config) (hemp : s.readers = ∅) : Inv (start s c) := by
  unfold Calls.start
  split
  · exact h.of_service rfl rfl rfl (.inl hemp) (.inl hemp)
  · exact h

theorem Inv.stop (h : Inv s) (deinit : Bool) (hemp : s.readers = ∅) : Inv (stop s deinit) := by
  unfold Calls.stop
  split
  · exact h
  · split
    · exact h.of_service rfl rfl rfl (.inl hemp) (.inl hemp)
    · split
      · exact h.of_service rfl rfl rfl (.inl hemp) (.inl hemp)
      · exact h

theorem Inv.initInternal (h : Inv s) (c : Config) (scheduler : Scheduler) (running : Bool) (hemp : s.readers = ∅) :
    Inv (initInternal s c scheduler running) := by
  unfold Calls.initInternal
  split
  · exact h
  · split
    · exact h.of_service rfl rfl rfl (.inl hemp) (.inl hemp)
    · exact h.of_service rfl rfl rfl (.inl hemp) (.inl hemp)

theorem Inv.finishStart (h : Inv s) (c : Config) (ok : Bool) (hhol : s.holder = some .starting) :
    Inv (finishStart s c ok) := by
  have hemp : s.readers = ∅ := h.exclusive (by rw [hhol]; exact some_ne_none _)
  unfold Calls.finishStart
  split
  · exact h.of_service rfl rfl rfl (.inr rfl) (.inr rfl)
  · have hstop : Inv { s with isRunning := false, holder := none } :=
      h.of_service rfl rfl rfl (.inl hemp) (.inr rfl)
    exact hstop.drain c s.resources

theorem inv_init : Inv init where
  ok := fun id call hcall => absurd hcall (some_ne_none call).symm
  queued := by simp [init]
  reading := by simp [init]
  running := fun id call hcall => absurd hcall (some_ne_none call).symm
  exclusive := fun hne => absurd rfl hne

theorem inv_inductive (c : Config) : (machine c).Inductive (fun _ _ => True) Inv where
  init := by
    rintro _ rfl
    exact inv_init
  step := by
    intro s label s' h _ hst
    have hst : step s c label = some s' := hst
    have hemp : ∀ {holder}, s.holder = some holder → s.readers = ∅ := fun hhol =>
      h.exclusive (by rw [hhol]; exact some_ne_none _)
    unfold step at hst
    cases label with
    | callFunctionAsync id name hasHandler =>
      obtain ⟨hfresh, rfl⟩ := of_guard hst
      exact h.newCall hfresh (ok_entering _ _ _) rfl
    | callFunctionsAsync id names hasHandler =>
      obtain ⟨hfresh, rfl⟩ := of_guard hst
      exact h.newCall hfresh (ok_entering _ _ _) rfl
    | advance id env =>
      obtain ⟨call, hcall, hst⟩ := bind_eq_some_iff.mp hst
      obtain ⟨⟨call', effect⟩, hnext, rfl⟩ := map_eq_some_iff.mp hst
      exact h.advance hcall hnext
    | execute id => exact h.dequeue (.inl rfl) hst
    | cancel id => exact h.dequeue (.inr rfl) hst
    | init scheduler running =>
      obtain ⟨hfree, rfl⟩ := of_guard hst
      exact h.initInternal c scheduler running hfree.2
    | start =>
      obtain ⟨hfree, rfl⟩ := of_guard hst
      exact h.start c hfree.2
    | finishStart ok =>
      obtain ⟨hhol, rfl⟩ := of_guard hst
      exact h.finishStart c ok hhol
    | stop =>
      obtain ⟨hfree, rfl⟩ := of_guard hst
      exact h.stop false hfree.2
    | deinit =>
      obtain ⟨hfree, rfl⟩ := of_guard hst
      exact h.stop true hfree.2
    | markStopped =>
      dsimp only at hst
      split at hst
      · next deinit hhol =>
        cases hst
        exact h.of_service rfl rfl rfl (.inl (hemp hhol)) (.inr rfl)
      · cases hst
    | drain index =>
      obtain ⟨d, -, rfl⟩ := map_eq_some_iff.mp hst
      exact (h.drain c d.scheduler).same rfl rfl rfl rfl rfl
    | relock =>
      obtain ⟨⟨-, hfree⟩, rfl⟩ := of_guard hst
      exact h.of_service rfl rfl rfl (.inl hfree.2) (.inl hfree.2)
    | finishDeinit =>
      obtain ⟨hhol, rfl⟩ := of_guard hst
      exact h.of_service rfl rfl rfl (.inl (hemp hhol)) (.inr rfl)
    | stopScheduler scheduler =>
      obtain ⟨-, rfl⟩ := of_guard hst
      exact (h.cancelGroup scheduler).same rfl rfl rfl rfl rfl

end Brookesia.ServiceManager.Calls
