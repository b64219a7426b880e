import Brookesia.TaskScheduler.Handles

/-! # A periodic closure does not overlap itself

Several handlers of a periodic task can be under way with success at once, after `resume` or `restart_timer` for example. They exchange
`is_executing`, and the one that finds it clear executes the closure, goes on and clears it in the end. The flag is held by as many
handlers as its value says (`Sole`), unless a closure throws: then it is cleared at once, and again in the end. -/

namespace Brookesia.TaskScheduler.Exclusion

open Transition Model Steps Handles

/-- The closure of `p` does not throw. -/
def NoThrow (p : TaskId) (_ : State) : Action → Prop
  | .finish id _ o => id = p → o ≠ .threw
  | _ => True

instance (p : TaskId) (s : State) (a : Action) : Decidable (NoThrow p s a) :=
  match a with
  | .finish .. => inferInstanceAs (Decidable (_ → _))
  | .tick | .post .. | .postNext _ | .call _ | .locked | .expire _ | .enter .. | .advance .. | .wait _ | .wake _ => isTrue trivial

/-- The handler has set `is_executing` and not cleared it yet. -/
def holds : Stage → Bool
  | .executing | .returned _ | .rearming false | .finishing _ | .settling _ | .exiting => true
  | _ => false

def Sole (t : Task) : Prop := t.type = .periodic → t.flights.countP (holds ·.stage) = t.isExecuting.toNat

/-! ### One handle -/

section

variable {t t' : Task}

theorem isPeriodic_of_type (hw : TaskOk t) {f : Flight} (hf : f ∈ t.flights) (htype : t.type = .periodic) :
    f.handler.isPeriodic = true :=
  typeOf_isPeriodic.mpr ((hw.flights f hf).type.trans htype)

variable (h : Sole t)
include h

theorem Sole.same (htype : t'.type = t.type) (hflights : t'.flights = t.flights) (hbusy : t'.isExecuting = t.isExecuting) :
    Sole t' := by
  intro hty
  rw [hflights, hbusy]
  exact h (htype ▸ hty)

theorem Sole.goes {f : Flight} (hf : f ∈ t.flights) {next : Option Stage} {busy : Bool}
    (hbusy : t.type = .periodic → (next.elim false holds).toNat + t.isExecuting.toNat = (holds f.stage).toNat + busy.toNat) :
    Sole { t.goes f next with isExecuting := busy } := by
  intro hty
  have hcount : (t.goes f next).flights.countP (holds ·.stage) + (holds f.stage).toNat =
      t.flights.countP (holds ·.stage) + (next.elim false holds).toNat := countP_goes (holds ·.stage) hf next
  have hsole := h hty
  have hbalance := hbusy hty
  show (t.goes f next).flights.countP (holds ·.stage) = busy.toNat
  omega

theorem Sole.isExecuting {f : Flight} (hf : f ∈ t.flights) (hholds : holds f.stage = true) (htype : t.type = .periodic) :
    t.isExecuting = true := by
  have hpos : 0 < t.flights.countP (holds ·.stage) := List.countP_pos_iff.mpr ⟨f, hf, hholds⟩
  rw [h htype] at hpos
  cases hb : t.isExecuting with
  | true => rfl
  | false => simp [hb] at hpos

theorem Sole.settle (value : Bool) : Sole (t.settle value) := by
  unfold Task.settle
  split
  · exact h.same rfl rfl rfl
  · exact h

theorem Sole.cancelTimer : Sole t.cancelTimer := by
  rw [cancelTimer_eq]
  exact h.same rfl rfl rfl

theorem Sole.next (hw : TaskOk t) {f : Flight} (hf : f ∈ t.flights) (hreads : reads f.stage = true) :
    Sole { t.goes f (t.next f) with isExecuting := busyAfter t f } := by
  refine h.goes hf fun htype => ?_
  have hperiodic := isPeriodic_of_type hw hf htype
  have hwrapper : f.handler ≠ .wrapper := by
    intro heq
    rw [heq] at hperiodic
    cases hperiodic
  obtain ⟨handler, stage⟩ := f
  cases stage with
  | entered ec =>
    simp only [Task.next, afterEntered, if_neg hwrapper, busyAfter, holds]
    split <;> simp [holds]
  | tested ec =>
    simp only [Task.next, busyAfter, holds]
    cases ec with
    | success =>
      simp only [afterTested, hperiodic, if_true]
      split <;> simp [holds]
    | operationAborted =>
      simp only [afterTested]
      split
      · simp [holds]
      · split <;> simp [holds]
  | claiming =>
    simp only [Task.next, busyAfter]
    cases t.isExecuting <;> simp [holds]
  | skipping =>
    simp only [Task.next, busyAfter]
    split <;> simp [holds]
  | returned shouldContinue =>
    simp only [Task.next, busyAfter]
    split <;> simp [holds]
  | exiting => simp [Task.next, busyAfter, holds, h.isExecuting hf rfl htype]
  | _ => cases hreads

end

/-! ### Steps -/

section

variable {p : TaskId} {s s' : State} (h : Sole (s.heap p))
include h

theorem sole_setTask {id : TaskId} {t : Task} (ht : Sole (s.heap id) → Sole t) : Sole ((s.setTask id t).heap p) := by
  by_cases he : p = id
  · subst he
    simpa [State.setTask] using ht h
  · simpa [State.setTask, he] using h

theorem sole_without {id : TaskId} {t : Task} (ht : Sole (s.heap id) → Sole t) (groups : Group → List TaskId) :
    Sole ((without s id t groups).heap p) := by
  by_cases he : p = id
  · subst he
    simp only [without, Function.update_self]
    split
    · exact (ht h).same rfl rfl rfl
    · exact ht h
  · simpa [without, he] using h

theorem sole_locked {op : LockedOp} (hlocked : Locked s op s') : Sole (s'.heap p) := by
  cases hlocked with
  | none | resume | rearmNone => exact h
  | @cancel id hid groups =>
    refine sole_without (s := { s with canceledTasks := s.canceledTasks + 1 }) h (fun ht => ?_) groups
    have hcanceled : Sole { s.heap id with state := .canceled } := ht.same rfl rfl rfl
    exact hcanceled.cancelTimer.settle false
  | @suspend id hid htype hstate remaining => exact sole_setTask h fun ht => .cancelTimer (ht.same rfl rfl rfl)
  | setSuspended id => exact sole_setTask h fun ht => ht.same rfl rfl rfl
  | setRunning id => exact sole_setTask h fun ht => ht.same rfl rfl rfl
  | rearm | restart => exact sole_setTask h fun ht => ht.same rfl rfl rfl
  | restartNone => exact sole_setTask h fun ht => ht.cancelTimer

theorem sole_effect (hw : Wf s) {a : Action} (hc : NoThrow p s a) (heffect : Effect s a s') : Sole (s'.heap p) := by
  cases heffect with
  | tick | call | wait | wake => exact h
  | post posted group =>
    by_cases he : p = s.nextId
    · subst he
      intro _
      cases posted <;> simp [postInsert, createHandle]
    · cases posted <;> simpa [postInsert, createHandle, he] using h
  | postNext hid hposter => exact sole_setTask h fun ht => by cases hposter <;> exact ht.same rfl rfl rfl
  | @locked op rest _ hlock hlocked => exact sole_locked (s := { s with lock := rest }) h hlocked
  | expire => exact sole_setTask h fun ht => ht.same rfl rfl rfl
  | @enter id c hcompletion => exact sole_setTask h fun ht hty => by simpa [Task.enter, holds] using ht hty
  | @go id f hf hstage busy hbusy => exact sole_setTask h fun ht => hbusy ▸ ht.next (hw.task id) hf hstage
  | @rearming id f skip hf hstage htimer expiry interval =>
    refine sole_setTask h fun ht => ?_
    have harm : Sole { arm (s.heap id) expiry .periodic with intervalMs := interval } := ht.same rfl rfl rfl
    refine harm.goes hf fun _ => ?_
    rw [hstage]
    cases skip <;> simp [holds, arm]
  | @finishing id f success hf hstage =>
    refine sole_setTask h fun ht => ?_
    have hgoes : Sole { (s.heap id).goes f (some (.settling success)) with isExecuting := (s.heap id).isExecuting } :=
      ht.goes hf fun _ => by simp [hstage, holds]
    exact hgoes.same rfl rfl rfl
  | @settling id f success hf hstage hfree groups =>
    refine sole_without h (fun ht => ?_) groups
    have hflights : f ∈ ((s.heap id).settle success).flights := by
      unfold Task.settle
      split <;> exact hf
    have hgoes : Sole { ((s.heap id).settle success).goes f (if f.handler.isPeriodic then some .exiting else none) with
        isExecuting := ((s.heap id).settle success).isExecuting } := by
      refine (ht.settle success).goes hflights fun htype => ?_
      rw [type_settle] at htype
      simp [hstage, isPeriodic_of_type (hw.task id) hf htype, holds]
    exact hgoes.same rfl rfl rfl
  | @removing id f hf hstage hfree groups =>
    refine sole_without h (fun ht => ?_) groups
    have hgoes : Sole { (s.heap id).goes f none with isExecuting := (s.heap id).isExecuting } :=
      ht.goes hf fun _ => by simp [hstage, holds]
    exact hgoes.same rfl rfl rfl
  | @finish id f o hf hstage =>
    by_cases he : id = p
    · cases o with
      | threw => exact absurd rfl (hc he)
      | returned shouldContinue =>
        refine sole_setTask h fun ht => ?_
        have hgoes : Sole { (s.heap id).goes f (some (if f.handler.isPeriodic then .returned shouldContinue else .finishing true)) with
            isExecuting := (s.heap id).isExecuting } := by
          refine ht.goes hf fun htype => ?_
          simp [hstage, isPeriodic_of_type (hw.task id) hf htype, holds]
        exact hgoes.same rfl rfl rfl
    · simpa [State.setTask, Ne.symm he] using h

end

theorem sole_inductive (p : TaskId) : scheduler.Inductive (NoThrow p) fun s => Wf s ∧ Sole (s.heap p) :=
  (wf_inductive.mono fun _ _ _ => trivial).and (by rintro s ⟨n, rfl⟩ _; rfl)
    fun _ _ _ hw h hc hstep => sole_effect h hw hc (step_effect hstep)

/-- While the closure of a periodic task does not throw, at most one handler executes it, whatever is called; and `is_executing` says
exactly that some handler of the task is between its exchange and its end. -/
theorem one_executing {p : TaskId} {s : State} (h : scheduler.Reach (NoThrow p) s) (htype : (s.heap p).type = .periodic) :
    (s.heap p).flights.countP (·.stage = .executing) ≤ 1 ∧
      ((s.heap p).isExecuting = true ↔ ∃ f ∈ (s.heap p).flights, holds f.stage = true) := by
  have hsole := ((sole_inductive p).reach h).2 htype
  have hle : (s.heap p).flights.countP (·.stage = .executing) ≤ (s.heap p).flights.countP (holds ·.stage) :=
    List.countP_mono_left fun f _ hf => by simp [of_decide_eq_true hf, holds]
  have hbool : (s.heap p).isExecuting.toNat ≤ 1 := Bool.toNat_le _
  constructor
  · omega
  · rw [← List.countP_pos_iff, hsole]
    cases (s.heap p).isExecuting <;> simp

/-- The timer is restarted while the closure executes, and a second handler finds it executing. -/
def overlappingRun : List Action :=
  [.post (.postPeriodic 0) "", .postNext 1, .postNext 1, .postNext 1, .postNext 1, .expire 1,
    .enter 1 ⟨.periodic, .success⟩, .advance 1 ⟨.periodic, .entered .success⟩, .advance 1 ⟨.periodic, .tested .success⟩,
    .advance 1 ⟨.periodic, .claiming⟩, .call (.restartTimer 1), .locked, .expire 1, .enter 1 ⟨.periodic, .success⟩,
    .advance 1 ⟨.periodic, .entered .success⟩, .advance 1 ⟨.periodic, .tested .success⟩, .advance 1 ⟨.periodic, .claiming⟩]

theorem one_executing_overlappingRun : ∃ s : State, (s.heap 1).flights = [⟨.periodic, .skipping⟩, ⟨.periodic, .executing⟩] ∧
    (s.heap 1).flights.countP (·.stage = .executing) ≤ 1 ∧ (s.heap 1).isExecuting = true := by
  have hrun : ∃ s, scheduler.execWhen (NoThrow 1) (initial 1) overlappingRun = some s ∧ (s.heap 1).type = .periodic ∧
      (s.heap 1).flights = [⟨.periodic, .skipping⟩, ⟨.periodic, .executing⟩] := by decide
  obtain ⟨s, hs, htype, hflights⟩ := hrun
  obtain ⟨hone, hbusy⟩ := one_executing (.execWhen (.init ⟨1, rfl⟩) hs) htype
  exact ⟨s, hflights, hone, hbusy.mpr ⟨⟨.periodic, .executing⟩, by simp [hflights], rfl⟩⟩

end Brookesia.TaskScheduler.Exclusion
