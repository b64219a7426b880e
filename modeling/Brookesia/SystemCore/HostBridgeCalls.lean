import Brookesia.SystemCore.HostBridge

/-! # The callbacks of asynchronous calls

`complete_async_call` takes a callback inside `mutex_` and calls it outside, and a release clears the
records that it sees. `OvertakesNone` are the runs where no call is overtaken by a release: neither
before its record is created nor while its callback is on its way.

* `weight`: the callback of a call is with the call, in its record, on its way or called, and only one
  of these.
* `callbacks_called`: under `OvertakesNone` every callback is called as it should be. -/

namespace Brookesia.SystemCore.HostBridgeCalls

open Transition HostBridge List Option

/-- Each callback is called at most once; it has been called if the app is not released, a completion has
been reported and the callback is not on its way; and it is not called after a release of its app has
returned, in the run of the app that the call was made in or in a later one. -/
structure CallbacksCalled (s : State) : Prop where
  atMostOnce : ∀ c, s.history.count (.invoked c) ≤ 1
  exactlyOnce : ∀ c source, .reported c source ∈ s.history → s.begun c.app < c.run → c ∉ s.taken →
    s.history.count (.invoked c) = 1
  afterRelease : ∀ c run later earlier, s.history = later ++ .invoked c :: earlier →
    .released c.app run ∈ earlier → run < c.run

/-- A call is refused before a release of its app has returned, and creates its record before one has
begun; and no release returns while a callback of its app is on its way. -/
def OvertakesNone (s : State) : Action → Prop
  | .refuse c => s.returned c.app < c.run
  | .create c => s.begun c.app < c.run
  | .releaseReturn r => ∀ c ∈ s.taken, c.app = r.app → r.run < c.run
  | _ => True

instance (s : State) (a : Action) : Decidable (OvertakesNone s a) := by
  cases a <;> unfold OvertakesNone <;> infer_instance

/-! ### The invariant -/

def HasRecord (p : CallPoint) : Prop := p ≠ .notMade ∧ p ≠ .entered ∧ p ≠ .refused

def weight (s : State) (c : Call) : ℕ :=
  (if s.point c = .entered then 1 else 0) + (if (s.record c).callback = true then 1 else 0) +
    s.taken.count c + s.history.count (.invoked c)

structure Inv (s : State) : Prop where
  ordered : Ordered s.returned s.begun s.run s.releasing
  runLe : ∀ c, s.point c ≠ .notMade → c.run ≤ s.run c.app
  notMade : ∀ c, s.point c = .notMade → weight s c = 0
  reported : ∀ c source, .reported c source ∈ s.history → HasRecord (s.point c) ∧ (s.record c).callback = false
  timeouts : ∀ c ∈ s.timeouts, HasRecord (s.point c)
  callback : ∀ c, (s.record c).callback = true →
    HasRecord (s.point c) ∧ c ∈ s.asyncCalls ∧ (s.record c).completed = false ∧ s.begun c.app < c.run
  taken : ∀ c ∈ s.taken, HasRecord (s.point c) ∧ s.returned c.app < c.run
  weightLe : ∀ c, weight s c ≤ 1
  weightEq : ∀ c, s.point c ≠ .notMade → s.begun c.app < c.run → weight s c = 1
  released : ∀ app run, .released app run ∈ s.history → run ≤ s.returned app
  afterRelease : ∀ c run later earlier, s.history = later ++ .invoked c :: earlier →
    .released c.app run ∈ earlier → run < c.run

variable {s : State} {c : Call} {app : AppId}

theorem Inv.callbacksCalled (h : Inv s) : CallbacksCalled s where
  atMostOnce c := by
    have hw := h.weightLe c
    unfold weight at hw
    omega
  exactlyOnce c source hrep hlive htaken := by
    obtain ⟨⟨hmade, hentd, _⟩, hcb⟩ := h.reported c source hrep
    have hw := h.weightEq c hmade hlive
    have hcnt : s.taken.count c = 0 := count_eq_zero.mpr htaken
    unfold weight at hw
    rw [if_neg hentd, if_neg (by simp [hcb]), hcnt] at hw
    omega
  afterRelease := h.afterRelease

/-! ### Requests -/

theorem Inv.stepRequest (h : Inv s) (c : RequestCall) (ok : Bool) : Inv (stepRequest s c ok) := by
  unfold HostBridge.stepRequest
  split
  · split
    · split
      · exact { h with }
      · unfold State.stopService
        split <;> exact { h with }
      · unfold State.findService
        split <;> exact { h with }
      · exact { h with }
      · unfold State.unsubscribe
        split <;> exact { h with }
    · exact { h with }
  · exact { h with }
  · split <;> exact { h with }
  · exact { h with }
  · exact { h with }
  · exact { h with }

/-! ### Calls -/

theorem setPoint_point (c c' : Call) (p : CallPoint) :
    (s.setPoint c p).point c' = if c' = c then p else s.point c' := Function.update_apply ..

/-- `setPoint` keeps what holds of all points where it held of the old and holds of the new one. -/
theorem setPoint_hasRecord {p : CallPoint} (hp : HasRecord p) {c' : Call}
    (h : HasRecord (s.point c')) : HasRecord ((s.setPoint c p).point c') := by
  rw [setPoint_point]
  split_ifs
  · exact hp
  · exact h

/-- A call without a record is not one of those that have one. -/
theorem setPoint_hasRecord_of_not {p : CallPoint} (hc : ¬ HasRecord (s.point c)) {c' : Call}
    (h : HasRecord (s.point c')) : HasRecord ((s.setPoint c p).point c') := by
  rw [setPoint_point, if_neg]
  · exact h
  · rintro rfl
    exact hc h

theorem weight_setPoint {p : CallPoint} (hold : s.point c ≠ .entered) (hp : p ≠ .entered) (c' : Call) :
    weight (s.setPoint c p) c' = weight s c' := by
  have hiff : (s.setPoint c p).point c' = .entered ↔ s.point c' = .entered := by
    rw [setPoint_point]
    split_ifs with heq
    · subst heq
      simp [hold, hp]
    · rfl
  unfold weight
  rw [if_congr hiff rfl rfl]
  rfl

theorem Inv.setPoint (h : Inv s) {p : CallPoint} (hold : HasRecord (s.point c)) (hp : HasRecord p) :
    Inv (s.setPoint c p) := by
  have hw := weight_setPoint (s := s) hold.2.1 hp.2.1
  have hmade : ∀ c', (s.setPoint c p).point c' = .notMade ↔ s.point c' = .notMade := by
    intro c'
    rw [setPoint_point]
    split_ifs with heq
    · subst heq
      simp [hold.1, hp.1]
    · rfl
  refine { h with
    runLe := fun c' hc => h.runLe c' fun hc' => hc ((hmade c').mpr hc')
    notMade := fun c' hc => ?_
    reported := fun c' source hmem => ?_
    timeouts := fun c' hc => setPoint_hasRecord hp (h.timeouts c' hc)
    callback := fun c' hc => ?_
    taken := fun c' hc => ⟨setPoint_hasRecord hp (h.taken c' hc).1, (h.taken c' hc).2⟩
    weightLe := fun c' => by rw [hw]; exact h.weightLe c'
    weightEq := fun c' hc hlive => ?_ }
  · rw [hw]
    exact h.notMade c' ((hmade c').mp hc)
  · obtain ⟨hrec, hcb⟩ := h.reported c' source hmem
    exact ⟨setPoint_hasRecord hp hrec, hcb⟩
  · obtain ⟨hrec, hrest⟩ := h.callback c' hc
    exact ⟨setPoint_hasRecord hp hrec, hrest⟩
  · rw [hw]
    exact h.weightEq c' (fun hc' => hc ((hmade c').mpr hc')) hlive

theorem Inv.enter (h : Inv s) (hc : s.point c = .notMade) (hrun : c.run = s.run c.app) :
    Inv (s.setPoint c .entered) := by
  have hpoint : ∀ c', HasRecord (s.point c') → HasRecord ((s.setPoint c .entered).point c') :=
    fun c' => setPoint_hasRecord_of_not fun hrec => hrec.1 hc
  have hself : weight (s.setPoint c .entered) c = 1 := by
    have hw := h.notMade c hc
    unfold weight at hw ⊢
    rw [setPoint_point, if_pos rfl, if_pos rfl]
    rw [hc, if_neg (by simp)] at hw
    show 1 + _ + s.taken.count c + s.history.count _ = 1
    change 0 + (if (s.record c).callback = true then 1 else 0) + _ + _ = 0 at hw
    show 1 + (if (s.record c).callback = true then 1 else 0) + _ + _ = 1
    omega
  have hoth : ∀ c', c' ≠ c → weight (s.setPoint c .entered) c' = weight s c' := by
    intro c' hne
    unfold weight
    rw [setPoint_point, if_neg hne]
    rfl
  refine { h with
    runLe := fun c' hc' => ?_
    notMade := fun c' hc' => ?_
    reported := fun c' source hmem => ⟨hpoint c' (h.reported c' source hmem).1, (h.reported c' source hmem).2⟩
    timeouts := fun c' hc' => hpoint c' (h.timeouts c' hc')
    callback := fun c' hc' => ⟨hpoint c' (h.callback c' hc').1, (h.callback c' hc').2⟩
    taken := fun c' hc' => ⟨hpoint c' (h.taken c' hc').1, (h.taken c' hc').2⟩
    weightLe := fun c' => ?_
    weightEq := fun c' hc' hlive => ?_ }
  · rw [setPoint_point] at hc'
    split_ifs at hc' with heq
    · exact heq ▸ hrun.le
    · exact h.runLe c' hc'
  · rw [setPoint_point] at hc'
    split_ifs at hc' with heq
    rw [hoth c' heq]
    exact h.notMade c' hc'
  · by_cases heq : c' = c
    · exact heq ▸ hself.le
    · rw [hoth c' heq]
      exact h.weightLe c'
  · by_cases heq : c' = c
    · exact heq ▸ hself
    · rw [setPoint_point, if_neg heq] at hc'
      rw [hoth c' heq]
      exact h.weightEq c' hc' hlive

@[simp] theorem log_history (s : State) (e : Event) : (s.log e).history = e :: s.history := rfl

theorem Inv.refuse (h : Inv s) (hc : s.point c = .entered) (hok : s.returned c.app < c.run) :
    Inv ((s.setPoint c .refused).log (.invoked c)) := by
  have hpoint : ∀ c', HasRecord (s.point c') → HasRecord ((s.setPoint c .refused).point c') :=
    fun c' => setPoint_hasRecord_of_not fun hrec => hrec.2.1 hc
  have hwt : ∀ c', weight ((s.setPoint c .refused).log (.invoked c)) c' = weight s c' := by
    intro c'
    show (if (s.setPoint c .refused).point c' = .entered then 1 else 0) +
      (if (s.record c').callback = true then 1 else 0) + s.taken.count c' +
      (Event.invoked c :: s.history).count (.invoked c') = _
    rw [setPoint_point]
    unfold weight
    by_cases heq : c' = c
    · subst heq
      rw [if_pos rfl, if_neg (by simp), if_pos hc, count_cons_self]
      omega
    · rw [if_neg heq, count_cons_of_ne (by simpa using Ne.symm heq)]
  have hmade : ∀ c', s.point c' = .notMade → ((s.setPoint c .refused).log (.invoked c)).point c' = .notMade := by
    intro c' hc'
    refine (setPoint_point ..).trans ((if_neg ?_).trans hc')
    rintro rfl
    rw [hc] at hc'
    cases hc'
  refine { h with
    runLe := fun c' hc' => h.runLe c' fun hc'' => hc' (hmade c' hc'')
    notMade := fun c' hc' => ?_
    reported := fun c' source hmem => ?_
    timeouts := fun c' hc' => hpoint c' (h.timeouts c' hc')
    callback := fun c' hc' => ⟨hpoint c' (h.callback c' hc').1, (h.callback c' hc').2⟩
    taken := fun c' hc' => ⟨hpoint c' (h.taken c' hc').1, (h.taken c' hc').2⟩
    weightLe := fun c' => by rw [hwt]; exact h.weightLe c'
    weightEq := fun c' hc' hlive => ?_
    released := fun app run hmem => h.released app run (mem_of_ne_of_mem (by simp) hmem)
    afterRelease := fun c' run later earlier heq hmem => ?_ }
  · rw [hwt]
    refine h.notMade c' ?_
    change (s.setPoint c .refused).point c' = .notMade at hc'
    rw [setPoint_point] at hc'
    split_ifs at hc' with heq
    exact hc'
  · obtain ⟨hrec, hcb⟩ := h.reported c' source (mem_of_ne_of_mem (by simp) hmem)
    exact ⟨hpoint c' hrec, hcb⟩
  · rw [hwt]
    exact h.weightEq c' (fun hc'' => hc' (hmade c' hc'')) hlive
  · cases later with
    | nil =>
      obtain ⟨he, rfl⟩ := cons.inj heq
      cases he
      exact (h.released _ run hmem).trans_lt hok
    | cons e later => exact h.afterRelease c' run later earlier (cons.inj heq).2 hmem

theorem hasRecord_created (c : Call) : HasRecord (if c.timeout then .created else .scheduled) := by
  unfold HasRecord
  split_ifs <;> simp

theorem Inv.createAsyncCall (h : Inv s) (hc : s.point c = .entered) (hok : s.begun c.app < c.run) :
    Inv (s.createAsyncCall c) := by
  have hnot : ¬ HasRecord (s.point c) := fun hrec => hrec.2.1 hc
  have hpoint : ∀ c', HasRecord (s.point c') → HasRecord ((s.createAsyncCall c).point c') :=
    fun c' => setPoint_hasRecord_of_not hnot
  have hself : HasRecord ((s.createAsyncCall c).point c) := by
    show HasRecord ((s.setPoint c _).point c)
    rw [setPoint_point, if_pos rfl]
    exact hasRecord_created c
  have hrecord : ∀ c', (s.createAsyncCall c).record c' = if c' = c then ⟨false, true⟩ else s.record c' :=
    fun c' => Function.update_apply ..
  have hwt : ∀ c', weight (s.createAsyncCall c) c' = weight s c' := by
    intro c'
    have hentd : (s.createAsyncCall c).point c' = if c' = c then (if c.timeout then .created else .scheduled)
        else s.point c' := setPoint_point ..
    by_cases heq : c' = c
    · subst heq
      have hcb : (s.record c').callback ≠ true := fun hcb => hnot (h.callback c' hcb).1
      unfold weight
      rw [if_neg hself.2.1, hrecord, if_pos rfl, if_pos rfl, if_pos hc, if_neg hcb]
      rfl
    · unfold weight
      rw [hentd, hrecord, if_neg heq, if_neg heq]
      rfl
  have hmade : ∀ c', s.point c' = .notMade → (s.createAsyncCall c).point c' = .notMade := by
    intro c' hc'
    refine (setPoint_point ..).trans ((if_neg ?_).trans hc')
    rintro rfl
    rw [hc] at hc'
    cases hc'
  refine { h with
    runLe := fun c' hc' => h.runLe c' fun hc'' => hc' (hmade c' hc'')
    notMade := fun c' hc' => ?_
    reported := fun c' source hmem => ?_
    timeouts := fun c' hc' => hpoint c' (h.timeouts c' hc')
    callback := fun c' hc' => ?_
    taken := fun c' hc' => ⟨hpoint c' (h.taken c' hc').1, (h.taken c' hc').2⟩
    weightLe := fun c' => by rw [hwt]; exact h.weightLe c'
    weightEq := fun c' hc' hlive => ?_ }
  · rw [hwt]
    by_cases heq : c' = c
    · exact absurd (heq ▸ hc') hself.1
    · refine h.notMade c' ?_
      rw [← hc']
      exact ((setPoint_point ..).trans (if_neg heq)).symm
  · obtain ⟨hrec, hcb⟩ := h.reported c' source hmem
    refine ⟨hpoint c' hrec, ?_⟩
    rw [hrecord, if_neg]
    · exact hcb
    · rintro rfl
      exact hnot hrec
  · rw [hrecord] at hc' ⊢
    by_cases heq : c' = c
    · subst heq
      rw [if_pos rfl]
      exact ⟨hself, mem_cons_self, rfl, hok⟩
    · rw [if_neg heq] at hc' ⊢
      obtain ⟨hrec, hmem, hrest⟩ := h.callback c' hc'
      exact ⟨hpoint c' hrec, mem_cons_of_mem _ hmem, hrest⟩
  · rw [hwt]
    exact h.weightEq c' (fun hc'' => hc' (hmade c' hc'')) hlive

theorem Inv.logReported (h : Inv s) {source : Source} (hrec : HasRecord (s.point c))
    (hcb : (s.record c).callback = false) : Inv (s.log (.reported c source)) := by
  have hwt : ∀ c', weight (s.log (.reported c source)) c' = weight s c' := by
    intro c'
    show _ + _ + _ + (Event.reported c source :: s.history).count (.invoked c') = _
    rw [count_cons_of_ne (by simp)]
    rfl
  refine { h with
    notMade := fun c' hc' => by rw [hwt]; exact h.notMade c' hc'
    reported := fun c' source' hmem => ?_
    weightLe := fun c' => by rw [hwt]; exact h.weightLe c'
    weightEq := fun c' hc' hlive => by rw [hwt]; exact h.weightEq c' hc' hlive
    released := fun app run hmem => h.released app run (by simpa using hmem)
    afterRelease := fun c' run later earlier heq hmem => ?_ }
  · rcases mem_cons.mp hmem with heq | hmem
    · cases heq
      exact ⟨hrec, hcb⟩
    · exact h.reported c' source' hmem
  · cases later with
    | nil => cases (cons.inj heq).1
    | cons e later => exact h.afterRelease c' run later earlier (cons.inj heq).2 hmem

/-- What `complete_async_call` does with a callback that is there, before it is logged. -/
def take (s : State) (c : Call) : State :=
  { s with
    record := Function.update s.record c ⟨true, false⟩
    asyncCalls := s.asyncCalls.erase c
    taken := c :: s.taken }

theorem Inv.take (h : Inv s) (hcb : (s.record c).callback = true) : Inv (take s c) := by
  obtain ⟨hrec, hmem, hcompleted, hlive⟩ := h.callback c hcb
  have hrecord : ∀ c', (HostBridgeCalls.take s c).record c' = if c' = c then ⟨true, false⟩ else s.record c' :=
    fun c' => Function.update_apply ..
  have hwt : ∀ c', weight (HostBridgeCalls.take s c) c' = weight s c' := by
    intro c'
    show (if s.point c' = .entered then 1 else 0) +
      (if ((HostBridgeCalls.take s c).record c').callback = true then 1 else 0) +
      (c :: s.taken).count c' + s.history.count _ = _
    rw [hrecord]
    unfold weight
    by_cases heq : c' = c
    · subst heq
      rw [if_pos rfl, if_pos hcb, count_cons_self]
      change _ + 0 + _ + _ = _
      omega
    · rw [if_neg heq, count_cons_of_ne (Ne.symm heq)]
  refine { h with
    notMade := fun c' hc' => by rw [hwt]; exact h.notMade c' hc'
    reported := fun c' source hmem' => ?_
    callback := fun c' hc' => ?_
    taken := fun c' hc' => ?_
    weightLe := fun c' => by rw [hwt]; exact h.weightLe c'
    weightEq := fun c' hc' hlive' => by rw [hwt]; exact h.weightEq c' hc' hlive' }
  · obtain ⟨hrec', hcb'⟩ := h.reported c' source hmem'
    refine ⟨hrec', ?_⟩
    rw [hrecord]
    split_ifs
    · rfl
    · exact hcb'
  · rw [hrecord] at hc' ⊢
    split_ifs at hc' ⊢ with heq
    obtain ⟨hrec', hmem', hrest⟩ := h.callback c' hc'
    exact ⟨hrec', (mem_erase_of_ne heq).mpr hmem', hrest⟩
  · rcases mem_cons.mp hc' with rfl | hc'
    · exact ⟨hrec, (h.ordered.returnedLe _).trans_lt hlive⟩
    · exact h.taken c' hc'

theorem Inv.completeAsyncCall (h : Inv s) (hrec : HasRecord (s.point c)) (source : Source) :
    Inv (s.completeAsyncCall c source) := by
  unfold State.completeAsyncCall
  split_ifs with hstale
  · refine h.logReported hrec ?_
    rcases hstale with hcompleted | hcb
    · by_contra hcb
      have hnot := (h.callback c (by simpa using hcb)).2.2.1
      rw [hcompleted] at hnot
      cases hnot
    · exact hcb
  · obtain ⟨_, hcb⟩ := not_or.mp hstale
    have ht := h.take (by simpa using hcb : (s.record c).callback = true)
    refine ht.logReported hrec ?_
    show (Function.update s.record c ⟨true, false⟩ c).callback = false
    rw [Function.update_self]

theorem Inv.schedule (h : Inv s) (hc : s.point c = .created) (posted : Bool) : Inv (s.schedule c posted) := by
  have hrec : HasRecord (s.point c) := by
    rw [hc]
    simp [HasRecord]
  unfold State.schedule
  split_ifs
  · have hp := h.setPoint hrec (p := .scheduled) (by simp [HasRecord])
    refine { hp with timeouts := fun c' hc' => ?_ }
    rcases mem_cons.mp hc' with rfl | hc'
    · exact setPoint_hasRecord (by simp [HasRecord]) hrec
    · exact hp.timeouts c' hc'
  · have hp := h.setPoint hrec (p := .unscheduled) (by simp [HasRecord])
    exact hp.completeAsyncCall (setPoint_hasRecord (by simp [HasRecord]) hrec) _

theorem Inv.returnSubmitted (h : Inv s) (hc : s.point c = .submitted) (accepted : Bool) :
    Inv (s.returnSubmitted c accepted) := by
  have hrec : HasRecord (s.point c) := by
    rw [hc]
    simp [HasRecord]
  have hp := h.setPoint hrec (p := .returned) (by simp [HasRecord])
  unfold State.returnSubmitted
  split_ifs
  · exact hp
  · exact hp.completeAsyncCall (setPoint_hasRecord (by simp [HasRecord]) hrec) _

theorem Inv.fireTimeout (h : Inv s) (hc : c ∈ s.timeouts) : Inv (s.fireTimeout c) := by
  have he : Inv { s with timeouts := s.timeouts.erase c } :=
    { h with timeouts := fun c' hc' => h.timeouts c' (mem_of_mem_erase hc') }
  exact he.completeAsyncCall (h.timeouts c hc) _

theorem Inv.invoke (h : Inv s) (hc : c ∈ s.taken) : Inv (s.invoke c) := by
  have hwt : ∀ c', weight (s.invoke c) c' = weight s c' := by
    intro c'
    have hpos : 0 < s.taken.count c := count_pos_iff.mpr hc
    show _ + _ + (s.taken.erase c).count c' + (Event.invoked c :: s.history).count (.invoked c') = _
    unfold weight
    by_cases heq : c' = c
    · subst heq
      rw [count_erase_self, count_cons_self]
      change (if s.point c' = .entered then 1 else 0) + (if (s.record c').callback = true then 1 else 0) + _ + _ = _
      omega
    · rw [count_erase_of_ne heq, count_cons_of_ne (by simpa using Ne.symm heq)]
      rfl
  refine { h with
    notMade := fun c' hc' => by rw [hwt]; exact h.notMade c' hc'
    reported := fun c' source hmem => h.reported c' source (mem_of_ne_of_mem (by simp) hmem)
    taken := fun c' hc' => h.taken c' (mem_of_mem_erase hc')
    weightLe := fun c' => by rw [hwt]; exact h.weightLe c'
    weightEq := fun c' hc' hlive => by rw [hwt]; exact h.weightEq c' hc' hlive
    released := fun app run hmem => h.released app run (mem_of_ne_of_mem (by simp) hmem)
    afterRelease := fun c' run later earlier heq hmem => ?_ }
  cases later with
  | nil =>
    obtain ⟨he, rfl⟩ := cons.inj heq
    cases he
    exact (h.released _ run hmem).trans_lt (h.taken _ hc).2
  | cons e later => exact h.afterRelease c' run later earlier (cons.inj heq).2 hmem

/-! ### Releases -/

theorem begun_release (s : State) (app app' : AppId) :
    (s.release app).begun app' = if app' = app then s.run app else s.begun app' :=
  Function.update_apply ..

theorem Inv.release (h : Inv s) (app : AppId) : Inv (s.release app) := by
  have hcallback : ∀ c, ((s.release app).record c).callback = true →
      (s.record c).callback = true ∧ c.app ≠ app ∧ (s.release app).record c = s.record c := by
    intro c hc
    change (s.releasedRecord app c).callback = true at hc
    show _ ∧ _ ∧ s.releasedRecord app c = _
    unfold State.releasedRecord at hc ⊢
    split_ifs at hc ⊢ with hin
    refine ⟨hc, fun heq => hin ⟨(h.callback c hc).2.1, heq⟩, rfl⟩
  have hwt : ∀ c, weight (s.release app) c ≤ weight s c := by
    intro c
    have hle : (if ((s.release app).record c).callback = true then 1 else 0) ≤
        if (s.record c).callback = true then 1 else 0 := by
      split_ifs with h1 h2
      · exact le_rfl
      · exact absurd (hcallback c h1).1 h2
      · exact Nat.zero_le _
      · exact le_rfl
    exact Nat.add_le_add_right (Nat.add_le_add_right (Nat.add_le_add_left hle _) _) _
  refine { h with
    ordered := h.ordered.release app _ _
    notMade := fun c hc => Nat.le_zero.mp ((hwt c).trans_eq (h.notMade c hc))
    reported := fun c source hmem => ?_
    callback := fun c hc => ?_
    weightLe := fun c => (hwt c).trans (h.weightLe c)
    weightEq := fun c hc hlive => ?_ }
  · obtain ⟨hrec, hcb⟩ := h.reported c source hmem
    refine ⟨hrec, ?_⟩
    by_contra hnot
    have hold := (hcallback c (by simpa using hnot)).1
    rw [hcb] at hold
    cases hold
  · obtain ⟨hold, hne, heq⟩ := hcallback c hc
    obtain ⟨hrec, hmem, hcompleted, hlive⟩ := h.callback c hold
    rw [heq, begun_release, if_neg hne]
    exact ⟨hrec, mem_filter.mpr ⟨hmem, by simpa using hne⟩, hcompleted, hlive⟩
  · rw [begun_release] at hlive
    split_ifs at hlive with heq
    · exact absurd (h.runLe c hc) (by rw [heq]; exact not_le.mpr hlive)
    · have hsame : (s.release app).record c = s.record c := if_neg fun hin => heq hin.2
      rw [← h.weightEq c hc hlive]
      show _ + (if ((s.release app).record c).callback = true then 1 else 0) + _ + _ = _
      rw [hsame]
      rfl

theorem Inv.releaseReturn (h : Inv s) {r : Release} (hr : r ∈ s.releasing)
    (hok : ∀ c ∈ s.taken, c.app = r.app → r.run < c.run) : Inv (s.releaseReturn r) := by
  have hret : ∀ app, (s.releaseReturn r).returned app =
      if app = r.app then max (s.returned r.app) r.run else s.returned app :=
    fun app => Function.update_apply ..
  have hwt : ∀ c, weight (s.releaseReturn r) c = weight s c := by
    intro c
    show _ + _ + _ + (Event.released r.app r.run :: s.history).count (.invoked c) = _
    rw [count_cons_of_ne (by simp)]
    rfl
  refine { h with
    ordered := h.ordered.releaseReturn hr
    notMade := fun c hc => by rw [hwt]; exact h.notMade c hc
    reported := fun c source hmem => h.reported c source (mem_of_ne_of_mem (by simp) hmem)
    taken := fun c hc => ⟨(h.taken c hc).1, ?_⟩
    weightLe := fun c => by rw [hwt]; exact h.weightLe c
    weightEq := fun c hc hlive => by rw [hwt]; exact h.weightEq c hc hlive
    released := fun app run hmem => ?_
    afterRelease := fun c run later earlier heq hmem => ?_ }
  · rw [hret]
    split_ifs with heq
    · exact max_lt (heq ▸ (h.taken c hc).2) (hok c hc heq)
    · exact (h.taken c hc).2
  · rw [hret]
    rcases mem_cons.mp hmem with heq | hmem
    · cases heq
      rw [if_pos rfl]
      exact le_max_right _ _
    · split_ifs with heq
      · subst heq
        exact (h.released _ run hmem).trans (le_max_left _ _)
      · exact h.released app run hmem
  · cases later with
    | nil => cases (cons.inj heq).1
    | cons e later => exact h.afterRelease c run later earlier (cons.inj heq).2 hmem

theorem Inv.startApp (h : Inv s) (app : AppId) : Inv { s with run := Function.update s.run app (s.run app + 1) } :=
  { h with
    ordered := h.ordered.startApp app
    runLe := fun c hc => (h.runLe c hc).trans (le_startApp s.run app c.app) }

/-! ### Runs -/

theorem calls_inductive : hostBridge.Inductive OvertakesNone Inv where
  init s hs := by
    subst hs
    exact { ordered := ⟨by simp, by simp, by simp⟩, runLe := by simp, notMade := by simp [weight],
            reported := by simp, timeouts := by simp, callback := by simp, taken := by simp,
            weightLe := by simp [weight], weightEq := by simp, released := by simp,
            afterRelease := by simp }
  step s a s' h hok hst := by
    cases a with
    | startApp app => exact some.inj hst ▸ h.startApp app
    | request app request =>
      cases some.inj hst
      exact { h with }
    | proceed c ok =>
      obtain ⟨_, rfl⟩ := of_guard hst
      exact h.stepRequest c ok
    | enter c =>
      obtain ⟨⟨hc, hrun⟩, rfl⟩ := of_guard hst
      exact h.enter hc hrun
    | refuse c =>
      obtain ⟨hc, rfl⟩ := of_guard hst
      exact h.refuse hc hok
    | create c =>
      obtain ⟨hc, rfl⟩ := of_guard hst
      exact h.createAsyncCall hc hok
    | schedule c posted =>
      obtain ⟨hc, rfl⟩ := of_guard hst
      exact h.schedule hc posted
    | submit c =>
      obtain ⟨hc, rfl⟩ := of_guard hst
      exact h.setPoint (by rw [hc]; simp [HasRecord]) (by simp [HasRecord])
    | submitted c accepted =>
      obtain ⟨hc, rfl⟩ := of_guard hst
      exact h.returnSubmitted hc accepted
    | report c =>
      obtain ⟨hc, rfl⟩ := of_guard hst
      refine h.completeAsyncCall ?_ _
      rcases hc with hc | hc <;> rw [hc] <;> simp [HasRecord]
    | fireTimeout c =>
      obtain ⟨hc, rfl⟩ := of_guard hst
      exact h.fireTimeout hc
    | invoke c =>
      obtain ⟨hc, rfl⟩ := of_guard hst
      exact h.invoke hc
    | release app => exact some.inj hst ▸ h.release app
    | releaseReturn r =>
      obtain ⟨hr, rfl⟩ := of_guard hst
      exact h.releaseReturn hr hok

/-- **The callbacks of asynchronous calls.** While no call is overtaken by a release of its app, each
script callback is called at most once, once if the app is not released and a completion is reported,
and not after a release of its app has returned. -/
theorem callbacks_called (h : hostBridge.Reach OvertakesNone s) : CallbacksCalled s :=
  (calls_inductive.reach h).callbacksCalled

/-! ### Two runs -/

/-- A call with a timeout, made in the first run of its app. -/
def firstCall : Call := ⟨0, 7, 1, true⟩

/-- The result comes, the timeout fires as well, and then the app is released. -/
def answeredRun : List Action :=
  [.enter firstCall, .create firstCall, .schedule firstCall true, .submit firstCall,
    .submitted firstCall true, .report firstCall, .fireTimeout firstCall, .invoke firstCall,
    .report firstCall, .release 7, .releaseReturn ⟨7, 1, [], []⟩]

def overtakenRun : List Action :=
  [.enter firstCall, .create firstCall, .schedule firstCall true, .submit firstCall,
    .report firstCall, .release 7, .releaseReturn ⟨7, 1, [], []⟩, .invoke firstCall]

theorem callbacks_called_answeredRun :
    ∃ s, hostBridge.execWhen OvertakesNone {} answeredRun = some s ∧ CallbacksCalled s := by
  obtain ⟨s, hs⟩ := isSome_iff_exists.mp (by decide : (hostBridge.execWhen OvertakesNone {} answeredRun).isSome = true)
  exact ⟨s, hs, callbacks_called (.execWhen (.init rfl) hs)⟩

/-- The callback is called after the release has returned. -/
theorem overtakenRun_calls_late : ∃ s, hostBridge.Reachable s ∧ ¬ CallbacksCalled s := by
  obtain ⟨s, hs⟩ := isSome_iff_exists.mp (by decide : (hostBridge.exec {} overtakenRun).isSome = true)
  have hhist : (hostBridge.exec {} overtakenRun).map (·.history) =
      some [.invoked firstCall, .released 7 1, .reported firstCall .service] := by decide
  rw [hs] at hhist
  refine ⟨s, .exec (.init rfl) hs, fun h => ?_⟩
  have hlt := h.afterRelease firstCall 1 [] _ (some.inj hhist) (by simp [firstCall])
  exact absurd hlt (by decide)

end Brookesia.SystemCore.HostBridgeCalls
