import Brookesia.Audio.Encoder

/-! # One owner of the encoder, and one WakeEnd for an arming

The lease has one owner in every run, and only its owner starts and stops the encoder (`OneOwner`). The timer publishes what it
should (`WakeTimer.Exact`) in the runs in which nothing comes between the check of a timeout and the publication of its event,
nothing is armed between the cancelling of the timer and the stop of the encoder, and every posting succeeds (`Calm`). -/

namespace Brookesia.Audio

open Transition Option

namespace OperationPhase

/-- In `start`, after the lease was reserved. -/
def starts : OperationPhase → Bool
  | .reserved _ | .starting _ | .releasing => true
  | _ => false

/-- In `stop`, before `finish_stop`. -/
def stops : OperationPhase → Bool
  | .begun | .stopping _ | .finishing => true
  | _ => false

def encoderCall : OperationPhase → Option EncoderCall
  | .starting call | .stopping call => some call
  | _ => none

end OperationPhase

namespace AudioCaptureOperationLease

variable {l l' : AudioCaptureOperationLease} {i : ℕ}

theorem tryReserve_eq (h : l.tryReserve i = some l') :
    (l.owner = none ∨ l.owner = some i) ∧ l.stopping = false ∧ l' = { owner := some i, stopping := false } := by
  unfold tryReserve at h
  split_ifs at h with howner hstpg
  have hstpg := Bool.eq_false_iff.mpr hstpg
  refine ⟨by tauto, hstpg, ?_⟩
  rw [← some.inj h, hstpg]

theorem beginStop_eq (h : l.beginStop i = some l') :
    l.owner = some i ∧ l.stopping = false ∧ l' = { owner := some i, stopping := true } := by
  unfold beginStop at h
  split_ifs at h with href
  simp only [not_or, not_not] at href
  obtain ⟨howner, hstpg⟩ := href
  refine ⟨howner, Bool.eq_false_iff.mpr hstpg, ?_⟩
  rw [← some.inj h, howner]

theorem beginStop_none (h : l.beginStop i = none) : l.owner ≠ some i ∨ l.stopping = true := by
  unfold beginStop at h
  split_ifs at h with href
  exact href

end AudioCaptureOperationLease

/-- What the lease says about the operation `i`. -/
structure OperationKept (l : AudioCaptureOperationLease) (i : ℕ) (operation : CaptureOperation) : Prop where
  holds : operation.holds = true ↔ l.owner = some i
  starts : operation.phase.starts = true → l.owner = some i ∧ l.stopping = false
  stops : operation.phase.stops = true ↔ l.owner = some i ∧ l.stopping = true
  closed : operation.closed = true → operation.available = false
  gone : operation.gone = true → operation.closed = true ∧ operation.phase = .idle ∧ l.owner ≠ some i

variable {i : ℕ} {l : AudioCaptureOperationLease} {operation : CaptureOperation}

/-- The lease may go from one operation to another, for all who have it neither before nor after. -/
theorem OperationKept.other {l' : AudioCaptureOperationLease}
    (h : OperationKept l i operation) (hl : l.owner ≠ some i) (hl' : l'.owner ≠ some i) : OperationKept l' i operation :=
  ⟨iff_of_false (fun hh => hl (h.holds.mp hh)) hl', fun hs => absurd (h.starts hs).1 hl,
    iff_of_false (fun hs => hl (h.stops.mp hs).1) fun hs => hl' hs.1, h.closed,
    fun hg => ⟨(h.gone hg).1, (h.gone hg).2.1, hl'⟩⟩

theorem OperationKept.busy (h : OperationKept l i operation) (hph : operation.phase ≠ .idle) : operation.gone ≠ true :=
  fun hgone => hph (h.gone hgone).2.1

theorem OperationKept.move
    (h : OperationKept l i operation) (hph : operation.phase ≠ .idle) (phase : OperationPhase) (started : Bool)
    (hstarts : phase.starts = true → l.owner = some i ∧ l.stopping = false)
    (hstops : phase.stops = true ↔ l.owner = some i ∧ l.stopping = true) :
    OperationKept l i { operation with phase := phase, startedByOperation := started } :=
  ⟨h.holds, hstarts, hstops, h.closed, fun hgone => absurd hgone (h.busy hph)⟩

namespace AudioEncoder

/-- The invariant of the lease. -/
structure Leased (s : AudioEncoder) : Prop where
  operation : ∀ i, OperationKept s.lease i (s.operation i)
  free : s.lease.owner = none → s.lease.stopping = false
  inside : s.trespass = false

/-- At most one operation holds the lease, only the one that holds it starts and stops the encoder, one that was closed or
destroyed does not hold it, and while none holds it every operation can have it. While the owner stops, none can. -/
structure OneOwner (s : AudioEncoder) : Prop where
  one : ∀ i j, (s.operation i).holds = true → (s.operation j).holds = true → i = j
  inside : s.trespass = false
  gone : ∀ i, (s.operation i).gone = true → (s.operation i).holds = false
  free : (∀ i, (s.operation i).holds = false) → ∀ j, (s.lease.tryReserve j).isSome = true
  stopping : s.lease.stopping = true → ∀ j, s.lease.tryReserve j = none

variable {s s' : AudioEncoder} {i : ℕ}

theorem Leased.oneOwner (h : s.Leased) : s.OneOwner := by
  refine ⟨fun i j hi hj => ?_, h.inside, fun i hi => ?_, fun hnone j => ?_, fun hstpg j => ?_⟩
  · have howner := (h.operation i).holds.mp hi
    rw [(h.operation j).holds.mp hj] at howner
    exact (some.inj howner).symm
  · by_contra hholds
    exact ((h.operation i).gone hi).2.2 ((h.operation i).holds.mp (Bool.of_not_eq_false hholds))
  · have howner : s.lease.owner = none := by
      cases hs : s.lease.owner with
      | none => rfl
      | some i =>
        have hholds := (h.operation i).holds.mpr hs
        rw [hnone i] at hholds
        cases hholds
    unfold AudioCaptureOperationLease.tryReserve
    rw [if_neg fun hc => hc.1 howner, if_neg (Bool.eq_false_iff.mp (h.free howner))]
    rfl
  · unfold AudioCaptureOperationLease.tryReserve
    rw [if_pos hstpg]
    split <;> rfl

/-! ### The sections of the encoder -/

theorem encoderSection_frame (s : AudioEncoder) (call : EncoderCall) (ok : Bool) :
    (s.encoderSection call ok).1.lease = s.lease ∧ (s.encoderSection call ok).1.operation = s.operation ∧
      (s.encoderSection call ok).1.trespass = s.trespass := by
  unfold encoderSection
  split
  · split
    · exact ⟨rfl, rfl, rfl⟩
    · split <;> exact ⟨rfl, rfl, rfl⟩
  · exact ⟨rfl, rfl, rfl⟩
  · split <;> exact ⟨rfl, rfl, rfl⟩
  · split <;> exact ⟨rfl, rfl, rfl⟩
  · exact ⟨rfl, rfl, rfl⟩
  · exact ⟨rfl, rfl, rfl⟩
  · split <;> exact ⟨rfl, rfl, rfl⟩

variable {operation : CaptureOperation}

theorem Leased.put (h : s.Leased) {l : AudioCaptureOperationLease} {t : AudioEncoder}
    (hlease : t.lease = l) (hop : t.operation = Function.update s.operation i operation)
    (hins : t.trespass = false) (hfree : l.owner = none → l.stopping = false)
    (hoths : ∀ j, j ≠ i → l = s.lease ∨ s.lease.owner ≠ some j ∧ l.owner ≠ some j)
    (hkept : OperationKept l i operation) : t.Leased := by
  refine ⟨fun j => ?_, hlease ▸ hfree, hins⟩
  rw [hlease, hop]
  by_cases hj : j = i
  · subst hj
    rw [Function.update_self]
    exact hkept
  · rw [Function.update_of_ne hj]
    rcases hoths j hj with rfl | ⟨hold, hnew⟩
    · exact h.operation j
    · exact (h.operation j).other hold hnew

theorem Leased.setOperation (h : s.Leased) (hkept : OperationKept s.lease i operation) :
    (s.setOperation i operation).Leased :=
  h.put rfl rfl h.inside h.free (fun _ _ => .inl rfl) hkept

theorem Leased.construct (h : s.Leased) (hgone : (s.operation i).gone = true) : (s.construct i).Leased := by
  have howner := ((h.operation i).gone hgone).2.2
  refine h.setOperation ⟨iff_of_false Bool.false_ne_true howner, fun hp => ?_, ?_, fun hp => ?_, fun hp => ?_⟩
  · cases hp
  · exact iff_of_false Bool.false_ne_true fun hp => howner hp.1
  · cases hp
  · cases hp

theorem Leased.setState (h : s.Leased) (available : Bool) : (s.setState i available).Leased := by
  unfold AudioEncoder.setState
  split
  · exact h
  · next hcl =>
    obtain ⟨hholds, hstarts, hstops, -, hgone⟩ := h.operation i
    exact h.setOperation ⟨hholds, hstarts, hstops, fun hp => absurd hp hcl, hgone⟩

theorem Leased.close (h : s.Leased) : (s.close i).Leased := by
  obtain ⟨hholds, hstarts, hstops, -, hgone⟩ := h.operation i
  exact h.setOperation ⟨hholds, hstarts, hstops, fun _ => rfl, fun hp => ⟨rfl, (hgone hp).2⟩⟩

theorem Leased.call (h : s.Leased) (hidle : (s.operation i).phase = .idle) (config : Option EncoderConfig) :
    (s.call i config).Leased := by
  unfold AudioEncoder.call
  split
  · next havailable =>
    obtain ⟨hholds, -, hstops, hcl, hgone⟩ := h.operation i
    rw [hidle] at hstops
    refine h.setOperation ⟨hholds, fun hp => ?_, hstops, hcl, fun hp => ?_⟩
    · cases hp
    · rw [hcl (hgone hp).1] at havailable
      cases havailable
  · exact h

theorem Leased.stop (h : s.Leased) (hidle : (s.operation i).phase = .idle) : (s.stop i).Leased := by
  obtain ⟨hholds, hstarts, hstops, hcl, hgone⟩ := h.operation i
  rw [hidle] at hstops
  unfold AudioEncoder.stop
  split
  · next hnone =>
    refine h.setOperation ⟨hholds, hstarts, hidle ▸ hstops, hcl, fun hp => ⟨hp, hidle, fun howner => ?_⟩⟩
    rcases AudioCaptureOperationLease.beginStop_none hnone with hoth | hstpg
    · exact hoth howner
    · exact Bool.false_ne_true (hstops.mpr ⟨howner, hstpg⟩)
  · next l hl =>
    obtain ⟨howner, -, rfl⟩ := AudioCaptureOperationLease.beginStop_eq hl
    refine h.put rfl rfl h.inside (fun hp => ?_) (fun j hj => .inr ⟨?_, ?_⟩) ⟨?_, fun hp => ?_, ?_, hcl, fun hp => ?_⟩
    · cases hp
    · rw [howner]
      exact fun hp => hj (some.inj hp).symm
    · exact fun hp => hj (some.inj hp).symm
    · exact iff_of_true (hholds.mpr howner) rfl
    · cases hp
    · exact iff_of_true rfl ⟨rfl, rfl⟩
    · exact absurd howner (hgone hp).2.2

theorem Leased.tryReserve (h : s.Leased) {config : Option EncoderConfig} (hph : (s.operation i).phase = .reserving config) :
    (s.tryReserve i config).Leased := by
  obtain ⟨hholds, -, hstops, hcl, hgone⟩ := h.operation i
  rw [hph] at hstops hgone
  unfold AudioEncoder.tryReserve
  split
  · refine h.setOperation ⟨hholds, fun hp => ?_, hstops, hcl, fun hp => ?_⟩
    · cases hp
    · cases (hgone hp).2.1
  · next l hl =>
    obtain ⟨howner, -, rfl⟩ := AudioCaptureOperationLease.tryReserve_eq hl
    refine h.put rfl rfl h.inside (fun hp => ?_) (fun j hj => .inr ⟨?_, ?_⟩) ⟨?_, fun _ => ⟨rfl, rfl⟩, ?_, hcl, fun hp => ?_⟩
    · cases hp
    · rcases howner with hnone | hsome
      · rw [hnone]
        exact some_ne_none j |>.symm
      · rw [hsome]
        exact fun hp => hj (some.inj hp).symm
    · exact fun hp => hj (some.inj hp).symm
    · exact iff_of_true rfl rfl
    · refine iff_of_false ?_ fun hp => Bool.false_ne_true hp.2
      cases config <;> exact Bool.false_ne_true
    · cases (hgone hp).2.1

theorem Leased.act (h : s.Leased) (howner : s.lease.owner = some i) (call : EncoderCall) (ok : Bool)
    (hkept : OperationKept s.lease i operation) : ((s.act i call ok).1.setOperation i operation).Leased := by
  obtain ⟨hlease, hop, htresp⟩ :=
    encoderSection_frame { s with trespass := s.trespass || decide (s.lease.owner ≠ some i) } call ok
  have hput : ((s.act i call ok).1.setOperation i operation).operation = Function.update s.operation i operation := by
    unfold AudioEncoder.setOperation AudioEncoder.act
    dsimp only
    rw [hop]
  refine h.put hlease hput (htresp.trans ?_) h.free (fun _ _ => .inl rfl) hkept
  simp only [h.inside, howner, ne_eq, not_true_eq_false, decide_false, Bool.or_false]

theorem Leased.giveBack (h : s.Leased) (howner : s.lease.owner = some i)
    (hholds : operation.holds = false) (hidle : operation.phase = .idle) (hcl : operation.closed = true → operation.available = false)
    (hgone : operation.gone = true → operation.closed = true) :
    ({ s with lease := { owner := none, stopping := false } }.setOperation i operation).Leased := by
  refine h.put rfl rfl h.inside (fun _ => rfl) (fun j hj => .inr ⟨?_, ?_⟩) ⟨?_, fun hp => ?_, ?_, hcl, fun hp => ?_⟩
  · rw [howner]
    exact fun hp => hj (some.inj hp).symm
  · exact (some_ne_none j).symm
  · exact iff_of_false (Bool.eq_false_iff.mp hholds) (some_ne_none i).symm
  · rw [hidle] at hp
    cases hp
  · rw [hidle]
    exact iff_of_false Bool.false_ne_true fun hp => (some_ne_none i).symm hp.1
  · exact ⟨hgone hp, hidle, (some_ne_none i).symm⟩

theorem Leased.advance (h : s.Leased) (ok : Bool) : (s.advance i ok).Leased := by
  have hkept := h.operation i
  have hstarts := hkept.starts
  have hstops := hkept.stops
  unfold AudioEncoder.advance
  dsimp only
  split
  · exact h
  · next hph => exact h.tryReserve hph
  · next hph =>
    have hbusy : (s.operation i).phase ≠ .idle := hph ▸ OperationPhase.noConfusion
    rw [hph] at hstarts
    obtain ⟨howner, hrun⟩ := hstarts rfl
    refine h.setOperation (hkept.move hbusy _ _ (fun _ => ⟨howner, hrun⟩) ?_)
    refine iff_of_false ?_ fun hp => Bool.false_ne_true (hrun.symm.trans hp.2)
    split <;> exact Bool.false_ne_true
  · next call hph =>
    have hbusy : (s.operation i).phase ≠ .idle := hph ▸ OperationPhase.noConfusion
    rw [hph] at hstarts
    obtain ⟨howner, hrun⟩ := hstarts rfl
    have hnot : ¬ (s.lease.owner = some i ∧ s.lease.stopping = true) := fun hp => Bool.false_ne_true (hrun.symm.trans hp.2)
    refine h.act howner call ok ?_
    unfold afterStart
    split
    · exact hkept.move hbusy _ _ (fun _ => ⟨howner, hrun⟩) (iff_of_false Bool.false_ne_true hnot)
    · exact hkept.move hbusy _ _ (fun hp => absurd hp Bool.false_ne_true) (iff_of_false Bool.false_ne_true hnot)
    · exact hkept.move hbusy _ _ (fun _ => ⟨howner, hrun⟩) (iff_of_false Bool.false_ne_true hnot)
  · next hph =>
    rw [hph] at hstarts
    obtain ⟨howner, -⟩ := hstarts rfl
    have hrels : s.lease.release i = { owner := none, stopping := false } := by
      unfold AudioCaptureOperationLease.release
      exact if_neg (not_not.mpr howner)
    rw [hrels]
    exact h.giveBack howner rfl rfl hkept.closed fun hp => (hkept.gone hp).1
  · next hph =>
    have hbusy : (s.operation i).phase ≠ .idle := hph ▸ OperationPhase.noConfusion
    rw [hph] at hstops
    refine h.setOperation (hkept.move hbusy _ _ (fun hp => ?_) (iff_of_true ?_ (hstops.mp rfl)))
    · split at hp <;> cases hp
    · split <;> rfl
  · next call hph =>
    have hbusy : (s.operation i).phase ≠ .idle := hph ▸ OperationPhase.noConfusion
    rw [hph] at hstops
    have hin := hstops.mp rfl
    refine h.act hin.1 call ok ?_
    unfold afterStop
    split
    · exact hkept.move hbusy _ _ (fun hp => absurd hp Bool.false_ne_true) (iff_of_true rfl hin)
    · exact hkept.move hbusy _ _ (fun hp => absurd hp Bool.false_ne_true) (iff_of_true rfl hin)
  · next hph =>
    rw [hph] at hstops
    obtain ⟨howner, -⟩ := hstops.mp rfl
    have hfinish : s.lease.finishStop i = { owner := none, stopping := false } := by
      unfold AudioCaptureOperationLease.finishStop
      exact if_neg (not_not.mpr howner)
    rw [hfinish]
    exact h.giveBack howner rfl rfl hkept.closed id

theorem Leased.same (h : s.Leased) (hlease : s'.lease = s.lease) (hop : s'.operation = s.operation)
    (htresp : s'.trespass = s.trespass) : s'.Leased := by
  refine ⟨fun j => ?_, ?_, htresp.trans h.inside⟩
  · rw [hlease, hop]
    exact h.operation j
  · rw [hlease]
    exact h.free

theorem Leased.serve (h : s.Leased) (thread : ℕ) (call : EncoderCall) (ok : Bool) : (s.serve thread call ok).Leased := by
  obtain ⟨hlease, hop, htresp⟩ := encoderSection_frame s call ok
  exact h.same hlease hop htresp

theorem Leased.onAfeEvent (h : s.Leased) (event : AfeEvent) : (s.onAfeEvent event).Leased := by
  cases event <;> exact h.same rfl rfl rfl

end AudioEncoder

open AudioEncoder

theorem leased_inductive : encoderMachine.Inductive (fun _ _ => True) Leased := by
  refine ⟨?_, ?_⟩
  · rintro s rfl
    have hkept : ∀ i, OperationKept {} i {} := fun i =>
      ⟨iff_of_false Bool.false_ne_true (some_ne_none i).symm, fun hp => absurd hp Bool.false_ne_true,
        iff_of_false Bool.false_ne_true fun hp => Bool.false_ne_true hp.2, fun _ => rfl,
        fun _ => ⟨rfl, rfl, (some_ne_none i).symm⟩⟩
    exact ⟨hkept, fun _ => rfl, rfl⟩
  · intro s label s' h _ hst
    have hst : s.step label = some s' := hst
    cases label with
    | attach iface => exact some.inj hst ▸ h.same rfl rfl rfl
    | construct i =>
      obtain ⟨⟨hgone, -⟩, rfl⟩ := of_guard hst
      exact h.construct hgone
    | setState i available => exact some.inj hst ▸ h.setState available
    | close i => exact some.inj hst ▸ h.close
    | reserve i =>
      obtain ⟨hidle, rfl⟩ := of_guard hst
      exact h.call hidle none
    | start i config =>
      obtain ⟨hidle, rfl⟩ := of_guard hst
      exact h.call hidle (some config)
    | stop i =>
      obtain ⟨hidle, rfl⟩ := of_guard hst
      exact h.stop hidle
    | advance i ok => exact some.inj hst ▸ h.advance ok
    | functionStart thread config =>
      obtain ⟨-, rfl⟩ := of_guard hst
      exact h.same rfl rfl rfl
    | functionStop thread =>
      obtain ⟨-, rfl⟩ := of_guard hst
      exact h.same rfl rfl rfl
    | serve thread ok =>
      obtain ⟨call, -, rfl⟩ := map_eq_some_iff.mp hst
      exact h.serve thread call ok
    | afe event => exact some.inj hst ▸ h.onAfeEvent event
    | handle posting nowMs =>
      unfold AudioEncoder.step at hst
      dsimp only at hst
      split at hst
      · cases hst
      · exact some.inj hst ▸ h.same rfl rfl rfl
    | pauseWakeEnd nowMs => exact some.inj hst ▸ h.same rfl rfl rfl
    | resumeWakeEnd posting nowMs => exact some.inj hst ▸ h.same rfl rfl rfl
    | expire task =>
      obtain ⟨-, rfl⟩ := of_guard hst
      exact h.same rfl rfl rfl
    | timeout task =>
      obtain ⟨-, rfl⟩ := of_guard hst
      exact h.same rfl rfl rfl
    | publish arming =>
      obtain ⟨-, rfl⟩ := of_guard hst
      exact h.same rfl rfl rfl

namespace AudioEncoder

/-! ### The timer in the runs of the encoder -/

variable {s : AudioEncoder} {i : ℕ}

/-- A section of `start_encoder` or `stop_encoder` that the timer can take: a reset or the stop of the encoder with nothing
pending, and no cancelling between a check and its publication. -/
def CalmCall (s : AudioEncoder) : EncoderCall → Prop
  | .reset _ => s.timer.pending = false
  | .cancel => s.timer.publishing = []
  | .abort => s.timer.pending = false ∧ s.timer.publishing = []
  | .closeIface => s.isStarted = true → s.timer.pending = false ∧ s.timer.publishing = []
  | _ => True

instance (s : AudioEncoder) (call : EncoderCall) : Decidable (s.CalmCall call) :=
  match call with
  | .reset _ => inferInstanceAs (Decidable (_ = _))
  | .cancel => inferInstanceAs (Decidable (_ = _))
  | .abort => inferInstanceAs (Decidable (_ ∧ _))
  | .closeIface => inferInstanceAs (Decidable (_ → _))
  | .check _ | .openIface | .postFetch => inferInstanceAs (Decidable True)

/-- An event of the front end that comes to the mutex: no event is being published, and if it posts a task, the posting
succeeds and the task has a session of its own. -/
def CalmEvent (s : AudioEncoder) (posting : Posting) (entry : AfeEvent × ℕ) : Prop :=
  s.timer.publishing = [] ∧ (s.config.enableAfe = true → entry.2 ≠ 0 → s.timer.paused = false →
      posting = .posted ∧ s.timer.cancelWakeEnd.FreshSession s.timer.cancelWakeEnd.nextSession)

instance (s : AudioEncoder) (posting : Posting) (entry : AfeEvent × ℕ) : Decidable (s.CalmEvent posting entry) :=
  inferInstanceAs (Decidable (_ ∧ _))

def Calm (s : AudioEncoder) : Label → Prop
  | .advance i _ => ∀ call ∈ (s.operation i).phase.encoderCall, s.CalmCall call
  | .serve thread _ => ∀ call ∈ s.service thread, s.CalmCall call
  | .handle posting _ => ∀ entry ∈ s.raised.head?, s.CalmEvent posting entry
  | .pauseWakeEnd _ => s.timer.publishing = []
  | .resumeWakeEnd posting _ =>
    s.timer.Resumes → posting = .posted ∧ s.timer.FreshSession s.timer.nextSession
  | _ => True

instance (s : AudioEncoder) (label : Label) : Decidable (s.Calm label) :=
  match label with
  | .advance _ _ => inferInstanceAs (Decidable (∀ _ ∈ _, _))
  | .serve _ _ => inferInstanceAs (Decidable (∀ _ ∈ _, _))
  | .handle _ _ => inferInstanceAs (Decidable (∀ _ ∈ _, _))
  | .pauseWakeEnd _ => inferInstanceAs (Decidable (_ = _))
  | .resumeWakeEnd _ _ => inferInstanceAs (Decidable (_ → _))
  | .attach _ | .construct _ | .setState _ _ | .close _ | .reserve _ | .start _ _ | .stop _ | .functionStart _ _ | .functionStop _
  | .afe _ | .expire _ | .timeout _ | .publish _ => inferInstanceAs (Decidable True)

theorem kept_encoderSection (h : s.timer.Kept) {call : EncoderCall} (hc : s.CalmCall call) (ok : Bool) :
    (s.encoderSection call ok).1.timer.Kept := by
  unfold encoderSection
  split
  · split
    · exact h
    · split <;> exact h
  · exact h.reset hc
  · split <;> exact h
  · split <;> exact h
  · exact h.endDue hc.1 hc.2
  · exact h.cancelWakeEnd hc
  · split
    · next hstd => exact h.endDue (hc hstd).1 (hc hstd).2
    · exact h

theorem kept_advance (h : s.timer.Kept) (hc : ∀ call ∈ (s.operation i).phase.encoderCall, s.CalmCall call) (ok : Bool) :
    (s.advance i ok).timer.Kept := by
  unfold advance
  dsimp only
  split
  · exact h
  · unfold AudioEncoder.tryReserve
    split <;> exact h
  · exact h
  · next call hph =>
    rw [hph] at hc
    exact @kept_encoderSection { s with trespass := s.trespass || decide (s.lease.owner ≠ some i) } h call (hc call rfl) ok
  · exact h
  · exact h
  · next call hph =>
    rw [hph] at hc
    exact @kept_encoderSection { s with trespass := s.trespass || decide (s.lease.owner ≠ some i) } h call (hc call rfl) ok
  · exact h

theorem kept_handle (h : s.timer.Kept) {event : AfeEvent} {timeoutMs : ℕ} {posting : Posting}
    (hc : s.CalmEvent posting (event, timeoutMs)) (nowMs : ℤ) : (s.handle event timeoutMs posting nowMs).Kept := by
  unfold AudioEncoder.handle
  split
  · exact h.scheduleWakeEnd hc.1 hc.2
  · exact h.scheduleWakeEnd hc.1 hc.2
  · exact h.cancelWakeEnd hc.1
  · exact h
  · exact h

end AudioEncoder

theorem kept_timer_inductive : encoderMachine.Inductive Calm fun s => s.timer.Kept := by
  refine ⟨?_, ?_⟩
  · rintro s rfl
    exact .init
  · intro s label s' h hc hst
    have hst : s.step label = some s' := hst
    cases label with
    | attach iface => exact some.inj hst ▸ h
    | construct i =>
      obtain ⟨-, rfl⟩ := of_guard hst
      exact h
    | setState i available =>
      cases hst
      unfold AudioEncoder.setState
      split <;> exact h
    | close i => exact some.inj hst ▸ h
    | reserve i =>
      obtain ⟨-, rfl⟩ := of_guard hst
      unfold AudioEncoder.call
      split <;> exact h
    | start i config =>
      obtain ⟨-, rfl⟩ := of_guard hst
      unfold AudioEncoder.call
      split <;> exact h
    | stop i =>
      obtain ⟨-, rfl⟩ := of_guard hst
      unfold AudioEncoder.stop
      split <;> exact h
    | advance i ok => exact some.inj hst ▸ kept_advance h hc ok
    | functionStart thread config =>
      obtain ⟨-, rfl⟩ := of_guard hst
      exact h
    | functionStop thread =>
      obtain ⟨-, rfl⟩ := of_guard hst
      exact h
    | serve thread ok =>
      obtain ⟨call, hcall, rfl⟩ := map_eq_some_iff.mp hst
      exact kept_encoderSection h (hc call hcall) ok
    | afe event =>
      cases hst
      cases event <;> exact h
    | handle posting nowMs =>
      have hc : ∀ entry ∈ s.raised.head?, s.CalmEvent posting entry := hc
      unfold AudioEncoder.step at hst
      dsimp only at hst
      split at hst
      · cases hst
      · next event timeoutMs rest hraised =>
        rw [hraised] at hc
        exact some.inj hst ▸ kept_handle h (hc _ rfl) nowMs
    | pauseWakeEnd nowMs => exact some.inj hst ▸ h.pauseWakeEnd hc nowMs
    | resumeWakeEnd posting nowMs => exact some.inj hst ▸ h.resumeWakeEnd hc
    | expire task =>
      obtain ⟨⟨htask, -⟩, rfl⟩ := of_guard hst
      exact h.expire htask
    | timeout task =>
      obtain ⟨⟨htask, -⟩, rfl⟩ := of_guard hst
      exact h.onWakeEndTimeout htask
    | publish arming =>
      obtain ⟨harm, rfl⟩ := of_guard hst
      exact h.publishWakeEnd harm

/-- One owner in every run, and one WakeEnd for an arming in every calm one. -/
theorem capture_owner (s : AudioEncoder) : (encoderMachine.Reachable s → s.OneOwner) ∧
      (encoderMachine.Reach Calm s → s.timer.Exact ∧
        (s.timer.paused = false → s.timer.tasks = [] → s.timer.publishing = [] →
          ∀ arming < s.timer.armings, arming ∉ s.timer.ended → s.timer.wakeEnds.count arming = 1)) := by
  refine ⟨fun hs => (leased_inductive.reach hs).oneOwner, fun hs => ?_⟩
  have hexact := (kept_timer_inductive.reach hs).exact
  exact ⟨hexact, fun hpsd htks hpub arming harm hended => hexact.rest hpsd htks hpub harm hended⟩

/-- An operation is opened and starts the encoder, the timer is armed, paused, resumed and runs out, and the operation is
closed; then another one is opened. -/
def captureRun : List AudioEncoder.Label :=
  [.attach true, .construct 0, .reserve 0, .advance 0 true, .start 0 { enableAfe := true }, .advance 0 true, .advance 0 true,
    .advance 0 true, .advance 0 true, .advance 0 true, .advance 0 true, .afe .wakeStart, .handle .posted 0,
    .pauseWakeEnd 1000, .resumeWakeEnd .posted 2000,
    .expire { id := 2, sessionId := 4, arming := 0 }, .timeout { id := 2, sessionId := 4, arming := 0, running := true }, .publish 0,
    .close 0, .stop 0, .advance 0 true, .advance 0 true, .advance 0 true, .advance 0 true, .construct 1, .reserve 1, .advance 1 true]

theorem capture_owner_captureRun :
    ∃ s : AudioEncoder, s.OneOwner ∧ s.timer.Exact ∧ s.timer.wakeEnds = [0] ∧ s.lease.owner = some 1 := by
  obtain ⟨s, hs, hfacts⟩ := map_eq_some_iff.mp (by decide +kernel :
    (encoderMachine.execWhen Calm {} captureRun).map (fun s => (s.timer.wakeEnds, s.lease.owner)) = some ([0], some 1))
  have hreach : encoderMachine.Reach Calm s := .execWhen (.init rfl) hs
  have hpair := hfacts
  exact ⟨s, (capture_owner s).1 hreach.reachable, ((capture_owner s).2 hreach).1, congrArg Prod.fst hpair, congrArg Prod.snd hpair⟩

/-- The timer is paused between the check of the timeout and the publication. -/
def latePauseRun : List AudioEncoder.Label :=
  [.attach true, .construct 0, .reserve 0, .advance 0 true, .start 0 { enableAfe := true }, .advance 0 true, .advance 0 true,
    .advance 0 true, .advance 0 true, .advance 0 true, .advance 0 true, .afe .wakeStart, .handle .posted 0,
    .expire { id := 1, sessionId := 3, arming := 0 }, .timeout { id := 1, sessionId := 3, arming := 0, running := true },
    .pauseWakeEnd 30000, .publish 0]

/-- The event is published all the same. -/
theorem capture_owner_latePauseRun : ¬ ∀ s, encoderMachine.Reachable s → s.OneOwner ∧ s.timer.Exact := by
  intro hall
  obtain ⟨s, hs, hfacts⟩ := map_eq_some_iff.mp (by decide +kernel :
    (encoderMachine.exec {} latePauseRun).map (fun s => s.timer.whilePaused) = some true)
  have hpsd : s.timer.whilePaused = true := hfacts
  rw [(hall s (.exec (.init rfl) hs)).2.unpaused] at hpsd
  cases hpsd

end Brookesia.Audio
