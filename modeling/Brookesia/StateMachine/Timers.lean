import Brookesia.StateMachine.Runs
import Brookesia.StateMachine.TimerInvariant

/-! # Timers belong to the current state

The steps of the strand, of `start` and of the scheduler keep the invariant, in the runs in which
transitions keep the timers.

* `inv_inductive`: the invariant of these runs.
* `timers_current`: hence only timers of the latest entry are executed, and the stored ids are
  theirs. -/

namespace Brookesia.StateMachine.Timers

open Transition Model List

/-! ### The strand -/

variable {chart : Chart} {control : Control} {extra : List TaskId} {s : State}

theorem Inv.strandGoes (hi : Inv chart extra s)
    (hentd : s.entries ≠ 0) (hpend : startPending chart s = false) {f g : TriggerFrame}
    {rest : List Frame} (hstk : s.stack = .trigger f :: rest) (htop : TopOk s (.trigger g))
    {e : List TaskId} (hknown : ∀ t ∈ s.tasks, t.id ∈ extra ∨ t.id ∈ frameIds (.trigger f) →
      t.id ∈ e ∨ t.id ∈ frameIds (.trigger g)) :
    Inv chart e { s with stack := .trigger g :: rest } := by
  refine hi.setTop hstk htop (fun t ht h => ?_) (fun hp => ?_) fun h => absurd h hentd
  · exact (hknown t ht h).imp_right .inl
  · rw [hpend] at hp
    cases hp

section Strand
variable {chart : Chart} {s : State} (hi : Inv chart [] s) {rest : List Frame}
include hi

theorem Inv.entered {frame : Frame} (hstk : s.stack = frame :: rest)
    (h : ¬ UnenteredFrame frame) : s.entries ≠ 0 := fun h0 =>
  h ((hi.unentered h0).stack frame (by rw [hstk]; exact mem_cons_self ..))

variable {f : TriggerFrame}

theorem Inv.not_pending (hstk : s.stack = .trigger f :: rest)
    (h : early f.stage = false) : startPending chart s = false := by
  by_contra hp
  have := hi.pending (by simpa using hp) f (by rw [hstk]; exact mem_cons_self ..)
  rw [h] at this
  cases this

theorem Inv.goes {f' : TriggerFrame} (hstk : s.stack = .trigger f :: rest)
    (hids : frameIds (.trigger f) = []) (htop : TopOk s (.trigger f'))
    (hearly : early f.stage = true → early f'.stage = true)
    (hun : s.entries = 0 → UnenteredFrame (.trigger f')) :
    Inv chart [] { s with stack := .trigger f' :: rest } := by
  refine hi.setTop hstk htop (fun t _ h => ?_) (fun hp g hg => ?_) hun
  · rw [hids] at h; simp at h
  · cases hg
    exact hearly (hi.pending hp f (by rw [hstk]; exact mem_cons_self ..))

theorem Inv.noTasks (hstk : s.stack = .trigger f :: rest)
    (hpend : startPending chart s = false) (hids : frameIds (.trigger f) = [])
    (h0 : s.timeoutTaskId = 0 ∧ s.updateTaskId = 0) : s.tasks = [] := by
  refine eq_nil_iff_forall_not_mem.mpr fun t ht => ?_
  obtain ⟨hne, -, hk⟩ := hi.tasks t ht
  rcases hk with h | h | h | h | h
  · cases h
  · exact hne (h.trans h0.1)
  · exact hne (h.trans h0.2)
  · rw [controlIds_of_not_pending hpend] at h; cases h
  · rw [hstk, stackIds, hids] at h; cases h

theorem Inv.control_of_not_pending (hentd : s.entries ≠ 0)
    (hpend : startPending chart s = false) {s' : State} (hentd' : s'.entries ≠ 0) :
    ControlOk chart s' s.control := by
  have hc := hi.control
  unfold startPending at hpend
  cases hctl : s.control with
  | idle => trivial
  | stopping stage => rw [hctl] at hc; exact absurd hc hentd
  | starting initialState stage =>
    rw [hctl] at hc hpend
    cases stage with
    | checking => trivial
    | locking => exact absurd hc hentd
    | settingUp entry u =>
      refine ⟨hentd', hc.2.1, fun hp => ?_⟩
      change pendingSetup chart initialState u = false at hpend
      rw [hp] at hpend
      cases hpend
    | _ => exact absurd hc.1 hentd

theorem Inv.frameAssign (hstk : s.stack = .trigger f :: rest) (hst : f.stage = .assigning ∨ f.stage = .reassigning)
    (h0 : s.timeoutTaskId = 0 ∧ s.updateTaskId = 0) (name : StateName) {ok : Bool}
    (hname : f.target ok = name) : Inv chart [] { (s.assign name).noteLeak f.trigger with
      stack := .trigger { f with stage := .settingUp .checking ok, entry := s.entries + 1 } :: rest } := by
  have hnot : early f.stage = false := by rcases hst with h | h <;> rw [h] <;> rfl
  have hids : frameIds (.trigger f) = [] := by rcases hst with h | h <;> simp [frameIds, h]
  have hentd : s.entries ≠ 0 := hi.entered hstk (by
    rintro ⟨-, h⟩; rcases hst with h' | h' <;> rw [h'] at h <;> simp at h)
  have hpend := hi.not_pending hstk hnot
  have htop : ∀ g ∈ s.stack.head?, TopOk (s.assign name) g := by
    intro g hg
    rw [hstk] at hg
    cases hg
    exact ⟨fun h => by rcases hst with h' | h' <;> rw [h'] at h <;> simp at h,
      fun u ok h => by rcases hst with h' | h' <;> rw [h'] at h <;> cases h⟩
  have ha : Inv chart [] (s.assign name) :=
    hi.assign s.control (hi.noTasks hstk hpend hids h0) h0 (hi.running hentd)
      htop (hi.control_of_not_pending hentd hpend (Nat.succ_ne_zero _)) fun h => by
        have : startPending chart s = true := h
        rw [hpend] at this
        cases this
  have hset : TopOk (s.assign name) (.trigger { f with stage := .settingUp .checking ok, entry := s.entries + 1 }) := by
    refine ⟨fun h => by simp at h, fun u ok' h => ?_⟩
    cases h
    exact ⟨hname, rfl, h0.2, h0.1⟩
  rw [noteLeak_setStack]
  refine Inv.noteLeak (ha.strandGoes (Nat.succ_ne_zero _) hpend hstk hset fun t _ h => ?_) _
  rw [hids] at h
  simp at h

theorem Inv.frameCancel {c : CancelStage} (hstk : s.stack = .trigger f :: rest)
    (hst : f.stage = .cancelling c) (hk : c = .taking → startPending chart s = false) (ok : Bool) :
    Inv chart [] (frameStep chart s (.trigger f) rest ok) := by
  have hentd : s.entries ≠ 0 := hi.entered hstk (by rintro ⟨-, h⟩; rw [hst] at h; simp at h)
  have hpend : startPending chart s = false := by
    by_cases hc : c = .taking
    · exact hk hc
    · exact hi.not_pending hstk (by rw [hst]; cases c <;> first | rfl | exact absurd rfl hc)
  have hids : frameIds (.trigger f) = cancelIds c := by simp only [frameIds, hst]
  simp only [frameStep, triggerStep, hst]
  cases c with
  | taking =>
    simp only [cancelStep]
    rw [if_pos (hi.running hentd)]
    refine Inv.strandGoes hi.takeIds hentd hpend hstk
      (g := { f with stage := .cancelling (.timeout _ _) }) (topOk_of_quiet rfl) fun t _ h => ?_
    rw [hids] at h
    exact .inr (by simpa [frameIds, cancelIds] using h)
  | timeout timeoutId updateId =>
    simp only [cancelStep]
    obtain ⟨s', hs', hi', hne, hstk', hent', hpend'⟩ := hi.cancelOne timeoutId
    rw [hs']
    refine Inv.strandGoes hi' (hent' ▸ hentd) (hpend'.trans hpend) (hstk'.trans hstk)
      (topOk_of_quiet rfl) fun t ht h => ?_
    rw [hids] at h
    simp only [cancelIds, not_mem_nil, mem_cons, or_false, false_or] at h
    exact .inr (by simpa [frameIds, cancelIds] using h.resolve_left (hne t ht))
  | update updateId =>
    simp only [cancelStep]
    obtain ⟨s', hs', hi', hne, hstk', hent', hpend'⟩ := hi.cancelOne updateId
    rw [hs']
    refine Inv.strandGoes hi' (hent' ▸ hentd) (hpend'.trans hpend) (hstk'.trans hstk)
      (topOk_of_quiet rfl) fun t ht h => ?_
    rw [hids] at h
    simp only [cancelIds, not_mem_nil, mem_cons, or_false, false_or] at h
    exact absurd h (hne t ht)

theorem Inv.frameSetup {u : SetupStage} {success : Bool}
    (hstk : s.stack = .trigger f :: rest) (hst : f.stage = .settingUp u success) (ok : Bool) :
    Inv chart [] (frameStep chart s (.trigger f) rest ok) := by
  have hentd : s.entries ≠ 0 := hi.entered hstk (by rintro ⟨-, h⟩; rw [hst] at h; simp at h)
  have hpend : startPending chart s = false := hi.not_pending hstk (by rw [hst]; rfl)
  have hctl : ∀ {s' : State}, s'.entries ≠ 0 → ControlOk chart s' s.control :=
    hi.control_of_not_pending hentd hpend
  obtain ⟨htgt, hent, hsetup⟩ := (hi.top (.trigger f) (by simp [hstk])).2 u success hst
  have htop : ∀ {s' : State} (u' : SetupStage), s'.currentState = s.currentState →
      s'.entries = s.entries → SetupOk s' u' → TopOk s' (.trigger { f with stage := .settingUp u' success }) := by
    refine fun u' hstate hents hs => ⟨fun h => by simp at h, fun u ok h => ?_⟩
    cases h
    exact ⟨htgt.trans hstate.symm, hent.trans hents.symm, hs⟩
  have hends : ∀ {s' : State} {b : Bool}, TopOk s'
      (.trigger { f with stage := if (success && b) = true then .finishing else .releasing }) :=
    topOk_of_quiet (by dsimp only; split <;> rfl)
  have hids : frameIds (.trigger f) = storingIds u := by simp only [frameIds, hst]
  have he := setupStep_effect chart (hi.running hentd) (f.target success) f.entry u
  simp only [frameStep, triggerStep, hst]
  generalize setupStep chart s (f.target success) f.entry u = result at he
  cases he with
  | goes hnil _ hok _ =>
    refine hi.strandGoes hentd hpend hstk (htop _ rfl rfl (hok hsetup)) fun t _ h => ?_
    rw [hids, hnil] at h
    simp at h
  | returns hnil _ =>
    refine hi.strandGoes hentd hpend hstk hends fun t _ h => ?_
    rw [hids, hnil] at h
    simp at h
  | postUpdate _ =>
    obtain ⟨hi', hp⟩ := hi.postTimer hentd .update htgt hent
    refine hi'.strandGoes hentd hpend hstk (htop (.storingUpdate _) rfl rfl ⟨hsetup.1, hsetup.2, hp⟩) fun t _ h => ?_
    rw [hids] at h
    exact .inr (by simpa [frameIds, storingIds] using h)
  | storeUpdate =>
    have hi' := hi.strandGoes (e := [_]) hentd hpend hstk
      (g := { f with stage := .settingUp .postingTimeout success }) (htop _ rfl rfl hsetup.2.1)
      fun t _ h => .inl (by rw [hids] at h; simpa [storingIds] using h)
    exact hi'.storeUpdate hsetup.1 hsetup.2.2
      (fun _ h => by cases h; exact htop _ rfl rfl hsetup.2.1) (hctl hentd) hentd
  | postTimeout _ =>
    obtain ⟨hi', hp⟩ := hi.postTimer hentd (.timeout _) htgt hent
    refine hi'.strandGoes hentd hpend hstk (htop (.storingTimeout _) rfl rfl ⟨hsetup, hp⟩) fun t _ h => ?_
    rw [hids] at h
    exact .inr (by simpa [frameIds, storingIds] using h)
  | storeTimeout =>
    have hi' := hi.strandGoes (e := [_]) hentd hpend hstk
      (g := { f with stage := if (success && true) = true then .finishing else .releasing })
      hends fun t _ h => .inl (by rw [hids] at h; simpa [storingIds] using h)
    exact hi'.storeTimeout hsetup.1 hsetup.2 (fun _ h => by cases h; exact hends) (hctl hentd) hentd

theorem Inv.frameTrigger (hstk : s.stack = .trigger f :: rest) (hkeeps : KeepsFrame chart s f) (ok : Bool) :
    Inv chart [] (frameStep chart s (.trigger f) rest ok) := by
  have hun : s.entries = 0 → UnenteredFrame (.trigger f) := fun h0 =>
    (hi.unentered h0).stack _ (by rw [hstk]; exact mem_cons_self ..)
  have htim := (hi.top (.trigger f) (by simp [hstk])).1
  have hgoes : ∀ {st st' : Stage} {f' : TriggerFrame}, f.stage = st → f'.stage = st' →
      frameIds (.trigger f) = [] → (early st = true → early st' = true) → quiet st' = true →
        st' = .releasing ∧ f'.trigger = f.trigger ∨ (st ≠ .entered ∧ st ≠ .looking ∧
          st ≠ .releasing) → Inv chart [] { s with stack := .trigger f' :: rest } := by
    rintro _ _ f' rfl rfl hids hearly hquiet hst
    refine hi.goes hstk hids (topOk_of_quiet hquiet) hearly fun h0 => ?_
    rcases hst with ⟨hst, htr⟩ | ⟨h1, h2, h3⟩
    · exact ⟨htr ▸ (hun h0).1, .inr (.inr hst)⟩
    · rcases (hun h0).2 with h | h | h
      · exact absurd h h1
      · exact absurd h h2
      · exact absurd h h3
  cases hst : f.stage with
  | cancelling c => exact hi.frameCancel hstk hst (fun hc => hkeeps.1 (hc ▸ hst)) ok
  | settingUp u success => exact hi.frameSetup hstk hst ok
  | assigning =>
    simp only [frameStep, triggerStep, hst]
    exact hi.frameAssign hstk (.inl hst) (hkeeps.2 (.inl hst)) f.nextState rfl
  | reassigning =>
    simp only [frameStep, triggerStep, hst]
    exact hi.frameAssign hstk (.inr hst) (hkeeps.2 (.inr hst)) f.previousState rfl
  | entered =>
    have hids : frameIds (.trigger f) = [] := by simp only [frameIds, hst]
    simp only [frameStep, triggerStep, hst]
    by_cases hr : s.isRunning = true
    · simp only [if_pos hr]
      refine hi.goes hstk hids ⟨fun _ => htim (.inl hst), fun u ok h => by cases h⟩
        (fun _ => rfl) fun h0 => ⟨(hun h0).1, .inr (.inl rfl)⟩
    · simp only [if_neg hr]
      exact hi.pop hstk fun t _ h => by rw [hids] at h; simp at h
  | looking =>
    have hids : frameIds (.trigger f) = [] := by simp only [frameIds, hst]
    simp only [frameStep, triggerStep, hst]
    by_cases hcur : s.currentState = ""
    · simp only [if_pos hcur]
      exact hgoes hst rfl hids (fun _ => rfl) rfl (.inl ⟨rfl, rfl⟩)
    · simp only [if_neg hcur]
      cases chart.transition s.currentState f.trigger.action with
      | none => exact hgoes hst rfl hids (fun _ => rfl) rfl (.inl ⟨rfl, rfl⟩)
      | some next =>
        exact hi.goes hstk hids (topOk_of_quiet rfl) (fun _ => rfl) fun h0 => absurd (hi.unentered h0).currentState hcur
  | validating =>
    have hids : frameIds (.trigger f) = [] := by simp only [frameIds, hst]
    simp only [frameStep, triggerStep, hst]
    by_cases hcur : s.currentState = f.nextState
    · simp only [if_pos hcur]
      exact hgoes hst rfl hids (fun _ => rfl) rfl (.inr (by simp))
    · simp only [if_neg hcur]
      by_cases hfind : ((chart.findState s.currentState).isSome && (chart.findState f.nextState).isSome) = true
      · simp only [if_pos hfind]
        exact hgoes hst rfl hids (fun _ => rfl) rfl (.inr (by simp))
      · simp only [if_neg hfind]
        exact hgoes hst rfl hids (fun _ => rfl) rfl (.inl ⟨rfl, rfl⟩)
  | exiting =>
    have hids : frameIds (.trigger f) = [] := by simp only [frameIds, hst]
    simp only [frameStep, triggerStep, hst]
    exact hgoes hst rfl hids (fun _ => by cases ok <;> rfl) (by cases ok <;> rfl) (.inr (by simp))
  | entering =>
    have hids : frameIds (.trigger f) = [] := by simp only [frameIds, hst]
    simp only [frameStep, triggerStep, hst]
    exact hgoes hst rfl hids (fun h => by cases h) (by cases ok <;> rfl) (.inr (by simp))
  | restoring =>
    have hids : frameIds (.trigger f) = [] := by simp only [frameIds, hst]
    simp only [frameStep, triggerStep, hst]
    exact hgoes hst rfl hids (fun h => by cases h) rfl (.inr (by simp))
  | finishing =>
    have hids : frameIds (.trigger f) = [] := by simp only [frameIds, hst]
    simp only [frameStep, triggerStep, hst]
    exact hgoes hst rfl hids (fun _ => by cases ok <;> rfl) (by cases ok <;> rfl) (.inr (by simp))
  | calling =>
    have hids : frameIds (.trigger f) = [] := by simp only [frameIds, hst]
    simp only [frameStep, triggerStep, hst, noteLeak_setStack]
    exact (hgoes hst rfl hids (fun _ => rfl) rfl (.inr (by simp))).noteLeak _
  | called =>
    have hids : frameIds (.trigger f) = [] := by simp only [frameIds, hst]
    simp only [frameStep, triggerStep, hst]
    exact hgoes hst rfl hids (fun _ => rfl) rfl (.inr (by simp))
  | releasing =>
    have hids : frameIds (.trigger f) = [] := by simp only [frameIds, hst]
    have hpop := hi.pop hstk fun t _ h => by rw [hids] at h; simp at h
    simp only [frameStep, triggerStep, hst]
    by_cases hcnt : 0 < s.transitionCount
    · simp only [if_pos hcnt, noteLeak_setStack]
      exact (hpop.count _).noteLeak _
    · simp only [if_neg hcnt]
      exact hpop

theorem Inv.frame {frame : Frame} (hstk : s.stack = frame :: rest)
    (hkeeps : ∀ f, frame = .trigger f → KeepsFrame chart s f) (ok : Bool) :
    Inv chart [] (frameStep chart s frame rest ok) := by
  have htop := hi.top frame (by simp [hstk])
  have hgoes : ∀ {frame' : Frame}, frameIds frame = [] → ¬ UnenteredFrame frame →
      waiting frame' = true → (∀ f, frame' ≠ .trigger f) → Inv chart [] { s with stack := frame' :: rest } := by
    intro frame' hids hne hwait hnot
    refine hi.setTop hstk (topOk_of_waiting hwait) (fun t _ h => ?_) (fun _ f h => ?_)
      fun h0 => absurd h0 (hi.entered hstk hne)
    · rw [hids] at h; simp at h
    · exact absurd h (hnot f)
  cases frame with
  | trigger f => exact hi.frameTrigger hstk (hkeeps f rfl) ok
  | update t running =>
    cases running with
    | false => exact hgoes rfl id rfl fun _ h => by cases h
    | true =>
      have hpop := hi.pop hstk fun t' _ h => by simp [frameIds] at h
      simp only [frameStep]
      split
      · next ht => exact hpop.rearm ht
      · exact hpop
  | timeout t triggered =>
    cases triggered with
    | false =>
      have hwait : Inv chart [] { s with stack := .timeout t true :: rest } :=
        hgoes rfl id rfl fun _ h => by cases h
      simp only [frameStep]
      cases t.kind with
      | update => exact hwait
      | timeout action =>
        dsimp only
        split
        · refine (hwait.push (fun _ h => by cases h; rfl)
            (.trigger { trigger := ⟨action, s.runs, some t⟩ }) ⟨fun _ t' h => ?_,
              fun u ok h => by cases h⟩ (fun _ f h => by cases h; rfl)
            fun h0 => absurd h0 (hi.entered hstk id)).count _
          cases h
          exact htop
        · exact hwait
    | true =>
      exact (hi.cancel t.id).pop hstk fun t' _ h => by simp [frameIds] at h

end Strand

/-! ### The call of `start`, and of `stop` when it fails -/

theorem not_pending_of_unentered (hok : ControlOk chart s control) (h0 : s.entries = 0) :
    startPending chart { s with control := control } = false := by
  cases control with
  | starting initialState stage =>
    cases stage with
    | settingUp entry u => exact absurd h0 hok.1
    | _ => rfl
  | _ => rfl

theorem Inv.controlGoes (hi : Inv chart extra s) (h0 : s.entries = 0) (hok : ControlOk chart s control) :
    Inv chart [] { s with control := control } := by
  have hu := hi.unentered h0
  refine hi.setControl _ hok (fun t ht => ?_) fun hp => ?_
  · rw [hu.tasks] at ht
    cases ht
  · rw [not_pending_of_unentered hok h0] at hp
    cases hp

theorem Inv.setRunning (hi : Inv chart extra s) (h0 : s.entries = 0) (running : Bool) (runs : ℕ)
    (hok : ControlOk chart { s with isRunning := running, runs := runs } control) :
    Inv chart [] { s with isRunning := running, runs := runs, control := control } := by
  have hu := hi.unentered h0
  have hidle : Inv chart [] { s with control := .idle } := hi.controlGoes h0 trivial
  have hrun : Inv chart [] { s with isRunning := running, runs := runs, control := .idle } :=
    { hidle with
      top := fun g hg => topOk_of_unentered (hu.stack g (mem_of_mem_head? hg))
      running := fun h => absurd h0 h
      unentered := fun _ => hu }
  exact hrun.controlGoes h0 (hok.congr rfl rfl rfl fun _ h => h)

theorem Inv.cancelNothing (hi : Inv chart [] s) (c : CancelStage) : ∃ extra, Inv chart extra (cancelStep s c).1 ∧
      (cancelStep s c).1.entries = s.entries ∧ (cancelStep s c).1.isRunning = s.isRunning := by
  cases c with
  | taking => exact ⟨_, hi.takeIds, rfl, rfl⟩
  | timeout timeoutId updateId =>
    refine ⟨[], ?_, ?_, ?_⟩ <;> simp only [cancelStep] <;> split <;>
      first | exact hi | exact hi.cancel _ | rfl
  | update updateId =>
    refine ⟨[], ?_, ?_, ?_⟩ <;> simp only [cancelStep] <;> split <;>
      first | exact hi | exact hi.cancel _ | rfl

section Control
variable {chart : Chart} {s : State} (hi : Inv chart [] s) {initialState : StateName}
include hi

theorem Inv.startAssign (hc : s.control = .starting initialState .assigning) : Inv chart [] { s.assign initialState with
      control := .starting initialState (.settingUp (s.entries + 1) .checking) } := by
  have hok := hi.control
  rw [hc] at hok
  obtain ⟨h0, hrun, hfind⟩ := hok
  have hu := hi.unentered h0
  refine hi.assign _ hu.tasks ⟨hu.timeoutTaskId, hu.updateTaskId⟩ hrun
    (fun g hg => topOk_of_unentered (hu.stack g (mem_of_mem_head? hg)))
    ⟨Nat.succ_ne_zero _, hfind, fun _ => ⟨rfl, rfl, hu.updateTaskId, hu.timeoutTaskId⟩⟩
    fun _ f hf => ?_
  rcases (hu.stack _ hf).2 with h | h | h <;> rw [h] <;> rfl

theorem Inv.startSetup {entry : ℕ} {u : SetupStage}
    (hc : s.control = .starting initialState (.settingUp entry u)) (ok : Bool) :
    Inv chart [] (startStep chart s initialState ok (.settingUp entry u)) := by
  have hok := hi.control
  rw [hc] at hok
  obtain ⟨hentd, hfind, hsetup⟩ := hok
  have hids : controlIds s.control = storingIds u := by rw [hc]; rfl
  have hpend : startPending chart s = pendingSetup chart initialState u := by
    unfold startPending; rw [hc]
  have htop : pendingSetup chart initialState u = true → ∀ {s' : State},
      s'.currentState = s.currentState → s'.entries = s.entries → ∀ g ∈ s.stack.head?, TopOk s' g := by
    intro hp s' hstate hents g hg
    refine (hi.top g hg).congr_of_early hstate hents fun f hf => ?_
    exact hi.pending (hpend.trans hp) f (hf ▸ mem_of_mem_head? hg)
  have he := setupStep_effect chart (hi.running hentd) initialState entry u
  simp only [startStep]
  generalize setupStep chart s initialState entry u = result at he
  cases he with
  | @goes _ u' hnil _ hok hpend' =>
    refine hi.setControl (.starting initialState (.settingUp entry u'))
      ⟨hentd, hfind, fun hp => ?_⟩ (fun t _ h => ?_) fun hp => hpend.trans (hpend' hp)
    · obtain ⟨h1, h2, h3⟩ := hsetup (hpend' hp)
      exact ⟨h1, h2, hok h3⟩
    · rw [hids, hnil] at h; simp at h
  | returns hnil hrdy =>
    simp only [hrdy hfind, if_true]
    refine hi.setControl .idle trivial (fun t _ h => ?_) fun hp => by cases hp
    rw [hids, hnil] at h; simp at h
  | postUpdate hp =>
    obtain ⟨hname, hent, hs⟩ := hsetup hp
    obtain ⟨hi', hp'⟩ := hi.postTimer hentd .update hname hent
    refine hi'.setControl (.starting initialState (.settingUp entry (.storingUpdate _)))
      ⟨hentd, hfind, fun _ => ⟨hname, hent, hs.1, hs.2, hp'⟩⟩ (fun t _ h => ?_)
      fun _ => hpend.trans hp
    change _ ∨ t.id ∈ controlIds s.control at h
    rw [hids] at h
    exact .inr (.inl (by simpa [controlIds, storingIds] using h))
  | @storeUpdate id =>
    obtain ⟨hname, hent, hs⟩ := hsetup rfl
    have hi' := hi.setControl (e := [id]) (.starting initialState (.settingUp entry .postingTimeout))
      ⟨hentd, hfind, fun _ => ⟨hname, hent, hs.2.1⟩⟩
      (fun t _ h => .inl (by rw [hids] at h; simpa [storingIds] using h)) fun _ => hpend
    exact hi'.storeUpdate hs.1 hs.2.2 (htop rfl rfl rfl) ⟨hentd, hfind, fun _ => ⟨hname, hent, hs.2.1⟩⟩ hentd
  | postTimeout hp =>
    obtain ⟨hname, hent, hs⟩ := hsetup hp
    obtain ⟨hi', hp'⟩ := hi.postTimer hentd (.timeout _) hname hent
    refine hi'.setControl (.starting initialState (.settingUp entry (.storingTimeout _)))
      ⟨hentd, hfind, fun _ => ⟨hname, hent, hs, hp'⟩⟩ (fun t _ h => ?_)
      fun _ => hpend.trans hp
    change _ ∨ t.id ∈ controlIds s.control at h
    rw [hids] at h
    exact .inr (.inl (by simpa [controlIds, storingIds] using h))
  | @storeTimeout id =>
    obtain ⟨hname, hent, hs⟩ := hsetup rfl
    have hi' := hi.setControl (e := [id]) .idle trivial
      (fun t _ h => .inl (by rw [hids] at h; simpa [storingIds] using h)) fun h => by cases h
    exact hi'.storeTimeout hs.1 hs.2 (htop rfl rfl rfl) trivial hentd

theorem Inv.start {stage : StartStage} (hc : s.control = .starting initialState stage)
    (ok : Bool) : Inv chart [] (startStep chart s initialState ok stage) := by
  have hok := hi.control
  rw [hc] at hok
  cases stage with
  | checking =>
    simp only [startStep]
    by_cases hr : s.isRunning = true
    · rw [if_pos hr]
      exact hi.setControl .idle trivial (fun t _ h => by rw [hc] at h; simp [controlIds] at h) fun hp => by cases hp
    · rw [if_neg hr]
      exact hi.controlGoes (not_imp_comm.mp hi.running hr) (not_imp_comm.mp hi.running hr)
  | locking =>
    simp only [startStep]
    by_cases hfind : (chart.findState initialState).isSome = true
    · rw [if_pos hfind]
      refine hi.setRunning hok true _ ?_
      cases ok with
      | true => exact ⟨hok, rfl⟩
      | false => exact hok
    · rw [if_neg hfind]
      exact hi.controlGoes hok hok
  | cancelling c =>
    obtain ⟨extra, hi', hents, hrun⟩ := hi.cancelNothing c
    have h0 := hents.trans hok.1
    have hr := hrun.trans hok.2
    simp only [startStep]
    generalize cancelStep s c = result at hi' hents hrun h0 hr
    obtain ⟨s', _ | c'⟩ := result
    · exact hi'.controlGoes h0 ⟨h0, hr⟩
    · exact hi'.controlGoes h0 ⟨h0, hr⟩
  | finding =>
    refine hi.controlGoes hok.1 ?_
    by_cases hfind : (chart.findState initialState).isSome = true
    · rw [if_pos hfind]; exact ⟨hok.1, hok.2, hfind⟩
    · rw [if_neg hfind]; exact hok.1
  | entering =>
    refine hi.controlGoes hok.1 ?_
    cases ok with
    | true => exact hok
    | false => exact hok.1
  | assigning => exact hi.startAssign hc
  | settingUp entry u => exact hi.startSetup hc ok

theorem Inv.stop {stage : StopStage} (hc : s.control = .stopping stage) : Inv chart [] (stopStep s stage) := by
  have h0 : s.entries = 0 := by
    have hok := hi.control
    rwa [hc] at hok
  have hu := hi.unentered h0
  cases stage with
  | checking =>
    refine hi.controlGoes h0 ?_
    split
    · exact h0
    · trivial
  | cancelling c =>
    obtain ⟨extra, hi', hents, -⟩ := hi.cancelNothing c
    simp only [stopStep]
    generalize cancelStep s c = result at hi' hents
    obtain ⟨s', _ | c'⟩ := result
    · exact hi'.controlGoes (hents.trans h0) (hents.trans h0)
    · exact hi'.controlGoes (hents.trans h0) (hents.trans h0)
  | clearing =>
    have hstate : stopStep s .clearing = { s with
        isRunning := false, runs := s.runs, transitionCount := 0, control := .idle } := by
      rw [stopStep, ← hu.currentState]
    rw [hstate]
    exact (hi.count 0).setRunning h0 false s.runs trivial

end Control

/-! ### Runs -/

section Step
variable {chart : Chart} {s s' : State} (hi : Inv chart [] s)
include hi

theorem Inv.take {job : Job} {rest : List Job} (hque : s.queue = job :: rest)
    (hstk : s.stack = []) : Inv chart [] { s with queue := rest, stack := [job.frame] } := by
  have hmem : ∀ j ∈ rest, j ∈ s.queue := fun j hj => by
    rw [hque]; exact mem_cons_of_mem _ hj
  have hrest : Inv chart [] { s with queue := rest } :=
    { hi with
      queue := fun t ht => hi.queue t (hmem _ ht)
      plain := fun t ht => hi.plain t (ht.imp_right (hmem _)) }
  have hhead : job ∈ s.queue := by rw [hque]; exact mem_cons_self ..
  have hpush : ∀ frame, TopOk s frame → (∀ f, frame = .trigger f → early f.stage = true) →
      (s.entries = 0 → UnenteredFrame frame) → Inv chart [] { s with queue := rest, stack := [frame] } := by
    intro frame htop hearly hun
    have hwait : ∀ g ∈ s.stack.head?, waiting g = true := by
      rw [hstk]; intro g hg; cases hg
    have := hrest.push hwait frame (htop.congr rfl rfl fun _ h => h) (fun _ => hearly) hun
    simpa only [hstk] using this
  cases job with
  | trigger t =>
    have hplain := hi.plain t (.inr hhead)
    refine hpush _ ⟨fun _ t' h => ?_, fun u ok h => by cases h⟩ (fun f h => by cases h; rfl) fun _ => ⟨hplain, .inl rfl⟩
    rw [hplain] at h; cases h
  | timer t =>
    have ht := hi.queue t hhead
    have hcur := (hi.tasks t ht).2.1
    have hne : s.entries = 0 → ∀ frame, UnenteredFrame frame := fun h0 => by
      rw [(hi.unentered h0).tasks] at ht; cases ht
    simp only [Job.frame]
    cases t.kind with
    | update => exact hpush _ hcur (fun f h => by cases h) fun h0 => hne h0 _
    | timeout action => exact hpush _ hcur (fun f h => by cases h) fun h0 => hne h0 _

theorem Inv.step {a : Action} (hkeeps : Unstopped chart s a) (h : step chart s a = some s') : Inv chart [] s' := by
  cases a with
  | stop => exact absurd rfl hkeeps.1
  | start initialState =>
    simp only [Model.step] at h
    split at h
    · next hc =>
      cases h
      exact hi.setControl (.starting initialState .checking) trivial
        (fun t _ h => by rw [hc] at h; simp [controlIds] at h) fun h => by cases h
    · cases h
  | control ok =>
    simp only [Model.step] at h
    split at h
    · cases h
    · next hc => cases h; exact hi.start hc ok
    · next hc => cases h; exact hi.stop hc
  | accept action =>
    simp only [Model.step] at h
    split at h
    · cases h
      refine { hi.count (s.transitionCount + 1) with plain := fun t ht => ?_ }
      rcases ht with ht | ht
      · rcases mem_append.mp ht with ht | ht
        · exact hi.plain t (.inl ht)
        · rw [mem_singleton.mp ht]
      · exact hi.plain t (.inr ht)
    · cases h
  | post t =>
    simp only [Model.step] at h
    split at h
    · next ht =>
      cases h
      refine { hi with
        queue := fun t' ht' => hi.queue t' (by simpa using ht')
        plain := fun t' ht' => ?_ }
      rcases ht' with ht' | ht'
      · exact hi.plain t' (.inl (mem_of_mem_erase ht'))
      · rcases mem_append.mp ht' with ht' | ht'
        · exact hi.plain t' (.inr ht')
        · cases mem_singleton.mp ht'
          exact hi.plain t (.inl ht)
    · cases h
  | expire t =>
    simp only [Model.step] at h
    split at h
    · next ht =>
      cases h
      exact { hi with
        armed := fun t' ht' => hi.armed t' (mem_of_mem_erase ht')
        queue := fun t' ht' => by
          rcases mem_append.mp ht' with ht' | ht'
          · exact hi.queue t' ht'
          · cases mem_singleton.mp ht'
            exact hi.armed t ht
        plain := fun t' ht' => hi.plain t' (by simpa using ht') }
    · cases h
  | take =>
    simp only [Model.step] at h
    split at h
    · cases h
    · next hque =>
      split at h
      · next hstk => cases h; exact hi.take hque hstk
      · cases h
  | strand ok =>
    simp only [Model.step] at h
    split at h
    · cases h
    · next frame rest hstk =>
      cases h
      refine hi.frame hstk (fun f hf => ?_) ok
      have := hkeeps.2
      simp only [KeepsTimers, hstk, hf] at this
      exact this
  | dispatch action =>
    simp only [Model.step] at h
    split at h
    · cases h
    · next frame rest hstk =>
      split at h
      · next hguard =>
        cases h
        simp only [Bool.and_eq_true] at hguard
        have hwait : ∀ g ∈ s.stack.head?, waiting g = true := by
          rw [hstk]
          intro g hg
          cases hg
          exact waiting_of_inCallback hguard.1
        have := (hi.push hwait (.trigger { trigger := ⟨action, s.runs, none⟩ })
          ⟨fun _ t h => (by cases h), fun u ok h => (by cases h)⟩
          (fun _ f h => by cases h; rfl) fun _ => ⟨rfl, .inl rfl⟩).count (s.transitionCount + 1)
        rwa [hstk] at this
      · cases h

end Step

/-- In the runs under the condition every timer is current and known. -/
theorem inv_inductive (chart : Chart) : (stateMachine chart).Inductive (Unstopped chart) (Inv chart []) where
  init := by
    rintro s rfl
    refine ⟨?_, ?_, ?_, ?_, ?_, ?_, ?_, ?_, trivial, ?_, ?_, fun _ => ⟨rfl, rfl, rfl, rfl, ?_⟩, ?_⟩ <;>
      simp [startPending]
  step _ _ _ hi hkeeps h := hi.step hkeeps h

theorem Inv.timersCurrent (hi : Inv chart [] s) : TimersCurrent s where
  update _ ht := hi.top _ ht
  timeout _ ht := hi.top _ ht
  action _ t ht htim hstg := (hi.top _ ht).1 hstg t htim
  timeoutTaskId := or_iff_not_imp_left.mpr fun h => (hi.timeoutId h).2
  updateTaskId := or_iff_not_imp_left.mpr fun h => (hi.updateId h).2

/-- **Timers belong to the current state**, in the runs without `stop` in which no transition takes
the ids while `start` has still to post or to store one, and none assigns a state while an id is
stored. -/
theorem timers_current {chart : Chart} {s : State}
    (h : (stateMachine chart).Reach (Unstopped chart) s) : TimersCurrent s :=
  ((inv_inductive chart).reach h).timersCurrent

/-- Two states that time out, one of them with `on_update`. -/
def timedStates : Chart where
  findState name :=
    if name = "A" then some { updateInterval := 10, timeoutMs := 100, timeoutAction := "go" }
    else if name = "B" then some { timeoutMs := 100, timeoutAction := "go" }
    else none
  transition name action := if name = "A" ∧ action = "go" then some "B" else none

def timedRun : List Action :=
  .start "A" :: List.replicate 14 (.control true) ++ [.expire ⟨2, .timeout "go", "A", 1⟩, .take] ++
    List.replicate 20 (.strand true) ++ [.expire ⟨3, .timeout "go", "B", 2⟩, .take]

theorem timers_current_timedRun : ∃ s : State, s.currentState = "B" ∧
    s.stack = [.timeout ⟨3, .timeout "go", "B", 2⟩ false] ∧ s.timeoutTaskId = 3 ∧ TimersCurrent s := by
  have hrun : ∃ s, (stateMachine timedStates).execWhen (Unstopped timedStates) {} timedRun =
      some s ∧ s.currentState = "B" ∧ s.stack = [.timeout ⟨3, .timeout "go", "B", 2⟩ false] ∧
        s.timeoutTaskId = 3 := by decide
  obtain ⟨s, hs, h1, h2, h3⟩ := hrun
  exact ⟨s, h1, h2, h3, timers_current (.execWhen (.init rfl) hs)⟩

/-- An action leaves the initial state before `start` has posted its timeout task. -/
def overtakenRun : List Action :=
  .start "A" :: List.replicate 12 (.control true) ++
    [.accept "go", .post ⟨"go", 1, none⟩, .take] ++ List.replicate 18 (.strand true) ++
    List.replicate 2 (.control true) ++ [.expire ⟨3, .timeout "go", "A", 1⟩, .take]

theorem overtakenRun_not_current : ¬ ∀ (chart : Chart) (s : State),
    (stateMachine chart).Reach (fun _ a => a ≠ .stop) s → TimersCurrent s := by
  intro h
  have hrun : ∃ s, (stateMachine timedStates).execWhen (fun _ a => a ≠ .stop) {} overtakenRun =
      some s ∧ s.currentState = "B" ∧ s.stack = [.timeout ⟨3, .timeout "go", "A", 1⟩ false] := by decide
  obtain ⟨s, hs, hstate, hstk⟩ := hrun
  have hcur := (h timedStates s (.execWhen (.init rfl) hs)).timeout ⟨3, .timeout "go", "A", 1⟩ (by rw [hstk]; rfl)
  rw [Current, hstate] at hcur
  exact absurd hcur.1 (by decide)

end Brookesia.StateMachine.Timers
