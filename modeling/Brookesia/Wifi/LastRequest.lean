import Brookesia.Wifi.Actions

/-! # Wi-Fi: the last request

A request is dropped if its action stands at the front of the queue, whatever is queued behind, and a request that finds
the task of the queue between its decision to end and its end leaves its action to nobody. Where neither happens
(`Served`) and the HAL answers every action by its event before the timeout, the service comes to rest with empty queues,
in a stable state that meets the goal of the last request. -/

namespace Brookesia.Wifi.Actions

open Transition List Option

/-! ### Stable states -/

def bitsOf : GeneralState → Bits
  | .inited => { inited := true }
  | .started => { inited := true, started := true }
  | .connected => { inited := true, started := true, connected := true }
  | _ => {}

/-- The stable state that a transient state is entered from, by way of the queue. -/
def origin : GeneralState → GeneralState
  | .initing => .idle
  | .deiniting => .inited
  | .starting => .inited
  | .stopping => .started
  | .connecting => .started
  | .disconnecting => .connected
  | state => state

def settled (state : GeneralState) : GeneralState :=
  (transition state (.extra .success)).getD state

def afterAction (state : GeneralState) (action : GeneralAction) : GeneralState :=
  match transition state (.general action) with
  | none => state
  | some next => settled next

def Goal (action : GeneralAction) (state : GeneralState) : Prop :=
  match action with
  | .init => state ≠ .idle
  | .deinit => state = .idle
  | .start => state = .started ∨ state = .connected
  | .stop => state = .idle ∨ state = .inited
  | .connect => state = .connected
  | .disconnect => state ≠ .connected

instance (action : GeneralAction) (state : GeneralState) : Decidable (Goal action state) :=
  match action with
  | .init => inferInstanceAs (Decidable (_ ≠ _))
  | .deinit => inferInstanceAs (Decidable (_ = _))
  | .start => inferInstanceAs (Decidable (_ ∨ _))
  | .stop => inferInstanceAs (Decidable (_ ∨ _))
  | .connect => inferInstanceAs (Decidable (_ = _))
  | .disconnect => inferInstanceAs (Decidable (_ ≠ _))

theorem settled_of_stable {y : GeneralState} (h : isTransient y = false) : settled y = y := by
  cases y <;> first | rfl | cases h

theorem settled_stable (t : GeneralState) : isTransient (settled t) = false := by
  cases t <;> rfl

theorem transition_success {t : GeneralState} : isTransient t = true →
    transition t (.extra .success) = some (settled t) ∧ settled t ≠ t ∧
      getTransientStateTargetAction (settled t) = none := by
  cases t <;> decide

/-- Only `connect` comes to `Connected`, and only `disconnect` leaves it. -/
theorem afterAction_connected {y : GeneralState} {a : GeneralAction} :
    isTransient y = false → afterAction y a = .connected → a ≠ .connect → y = .connected ∧ a ≠ .disconnect := by
  cases y <;> cases a <;> decide

/-- The queue disconnects before it stops, and connects last. -/
def Safe (y : GeneralState) (actions : List GeneralAction) : Prop :=
  .stop ∈ actions → .connect ∉ actions ∧ (y = .connected → actions.head? = some .disconnect)

namespace Safe

variable {y : GeneralState} {a : GeneralAction} {actions : List GeneralAction}

theorem of_ne (h : Safe y actions) {z : GeneralState} (hz : z ≠ .connected) : Safe z actions :=
  fun hstop => ⟨(h hstop).1, fun he => absurd he hz⟩

theorem legal (h : Safe y (a :: actions)) : ¬(y = .connected ∧ a = .stop) := by
  rintro ⟨rfl, rfl⟩
  have hhead : some GeneralAction.stop = some .disconnect := (h (mem_cons_self ..)).2 rfl
  cases hhead

theorem after (h : Safe y (a :: actions)) (hy : isTransient y = false) : Safe (afterAction y a) actions := by
  intro hstop
  obtain ⟨hconnect, hhead⟩ := h (mem_cons_of_mem a hstop)
  refine ⟨fun hmem => hconnect (mem_cons_of_mem a hmem), fun he => ?_⟩
  have ha : a ≠ .connect := fun ha => hconnect (ha ▸ mem_cons_self ..)
  obtain ⟨hcon, hoth⟩ := afterAction_connected hy he ha
  exact absurd (some.inj (hhead hcon)) hoth

end Safe

theorem makeReady_safe {y : GeneralState} (a : GeneralAction) (hy : isTransient y = false) :
    Safe y (State.makeReady ⟨bitsOf y, []⟩ 3 a) := by
  unfold Safe
  revert hy
  cases y <;> cases a <;> decide

theorem makeReady_goal {y : GeneralState} (a : GeneralAction) (hy : isTransient y = false) :
    Goal a ((State.makeReady ⟨bitsOf y, []⟩ 3 a).foldl afterAction y) := by
  revert hy
  cases y <;> cases a <;> decide

theorem makeReady_ne_nil (hal : Hal) (a : GeneralAction) : State.makeReady hal 3 a ≠ [] := by
  unfold State.makeReady
  split
  · exact cons_ne_nil _ _
  · exact append_ne_nil_of_right_ne_nil _ (cons_ne_nil _ _)

theorem doGeneralAction_asks {y : GeneralState} {a : GeneralAction} :
    isTransient y = false → ¬(y = .connected ∧ a = .stop) → ∀ t ∈ transition y (.general a), t ≠ y →
      getTransientStateTargetAction t = some a ∧ origin t = y ∧
        Hal.doGeneralAction ⟨bitsOf y, []⟩ a = ⟨bitsOf y, [a]⟩ := by
  cases y <;> cases a <;> decide

/-! ### Where the state machine and the HAL are -/

namespace State

def entering (s : State) : Option GeneralState :=
  match s.strand with
  | .entering next => some next
  | _ => none

/-- The transient state `t` is being entered, or has been and waits for its answer or its timeout. -/
def Waits (s : State) (t : GeneralState) : Prop :=
  s.entering = some t ∧ s.timeoutTask = none ∨ s.entering = none ∧ s.currentState = t ∧ s.timeoutTask = some t

/-- The general actions that the state machine has yet to get. -/
def coming (s : State) : List GeneralAction :=
  (s.posted.filterMap fun
    | .general action => some action
    | .extra _ => none) ++ s.ready

end State

/-- What is under way, and the stable state `y` that it ends in. -/
inductive Phase (s : State) (y : GeneralState) : Prop
  | rest (posted : Option GeneralAction) (stable : isTransient y = false) (current : s.currentState = y)
      (entering : s.entering = none) (timer : s.timeoutTask = none)
      (queue : s.posted = posted.toList.map .general) (hal : s.hal = ⟨bitsOf y, []⟩)
  | asked (t : GeneralState) (a : GeneralAction) (waits : s.Waits t) (asks : getTransientStateTargetAction t = some a)
      (leads : settled t = y) (queue : s.posted = []) (hal : s.hal = ⟨bitsOf (origin t), [a]⟩)
  | answered (t : GeneralState) (waits : s.Waits t) (transient : isTransient t = true) (leads : settled t = y)
      (queue : s.posted = [.extra .success]) (hal : s.hal = ⟨bitsOf y, []⟩)
  | settling (transient : isTransient s.currentState = true) (stable : isTransient y = false)
      (entering : s.entering = some y) (timer : s.timeoutTask = none) (queue : s.posted = []) (hal : s.hal = ⟨bitsOf y, []⟩)

namespace Phase

variable {s s' : State} {y : GeneralState}

theorem congr (h : Phase s y) (hcur : s'.currentState = s.currentState) (hent : s'.entering = s.entering)
    (htim : s'.timeoutTask = s.timeoutTask) (hpost : s'.posted = s.posted) (hhal : s'.hal = s.hal) : Phase s' y := by
  have hwaits : ∀ {t}, s.Waits t → s'.Waits t := by
    unfold State.Waits
    rw [hcur, hent, htim]
    exact id
  cases h with
  | rest posted h1 h2 h3 h4 h5 h6 =>
    exact .rest posted h1 (hcur.trans h2) (hent.trans h3) (htim.trans h4) (hpost.trans h5) (hhal.trans h6)
  | asked t a h1 h2 h3 h4 h5 => exact .asked t a (hwaits h1) h2 h3 (hpost.trans h4) (hhal.trans h5)
  | answered t h1 h2 h3 h4 h5 => exact .answered t (hwaits h1) h2 h3 (hpost.trans h4) (hhal.trans h5)
  | settling h1 h2 h3 h4 h5 h6 =>
    exact .settling (hcur ▸ h1) h2 (hent.trans h3) (htim.trans h4) (hpost.trans h5) (hhal.trans h6)

theorem stable (h : Phase s y) : isTransient y = false := by
  cases h with
  | rest _ h => exact h
  | asked t _ _ _ h => exact h ▸ settled_stable t
  | answered t _ _ h => exact h ▸ settled_stable t
  | settling _ h => exact h

theorem at_rest (h : Phase s y) (hcur : isTransient s.currentState = false) (hent : s.entering = none) :
    s.currentState = y ∧ s.timeoutTask = none ∧ s.hal = ⟨bitsOf y, []⟩ := by
  have hno : ∀ {t}, s.Waits t → isTransient t = true → False := by
    rintro t (⟨he, -⟩ | ⟨-, rfl, -⟩) ht
    · rw [hent] at he
      cases he
    · rw [hcur] at ht
      cases ht
  cases h with
  | rest _ _ h1 _ h2 _ h3 => exact ⟨h1, h2, h3⟩
  | asked t a h1 h2 => exact (hno h1 (by unfold isTransient; rw [h2]; rfl)).elim
  | answered t h1 h2 => exact (hno h1 h2).elim
  | settling h1 => rw [hcur] at h1; cases h1

theorem report {a : GeneralAction} (h : Phase s y) (hst : s.report a = some s') :
    Phase s' y ∧ s'.coming = s.coming := by
  unfold State.report at hst
  obtain ⟨ha, rfl⟩ := of_guard hst
  have hnot : ∀ {bits}, s.hal = ⟨bits, []⟩ → False := by
    intro bits hhal
    rw [hhal] at ha
    cases ha
  cases h with
  | rest _ _ _ _ _ _ h => exact (hnot h).elim
  | answered _ _ _ _ _ h => exact (hnot h).elim
  | settling _ _ _ _ _ h => exact (hnot h).elim
  | asked t b waits asks leads queue hal =>
    rw [hal] at ha
    obtain rfl := mem_singleton.mp ha
    have hbits : (bitsOf (origin t)).set (getGeneralActionTargetEvent a) = bitsOf y := by
      subst leads
      cases t <;> cases asks <;> rfl
    refine ⟨.answered t waits (by unfold isTransient; rw [asks]; rfl) leads ?_ ?_, ?_⟩
    · show s.posted ++ [.extra .success] = [.extra .success]
      rw [queue]
      rfl
    · show Hal.mk (s.hal.bits.set (getGeneralActionTargetEvent a)) (s.hal.running.erase a) = ⟨bitsOf y, []⟩
      rw [hal, hbits, erase_cons_head]
    · unfold State.coming
      show List.filterMap _ (s.posted ++ [.extra .success]) ++ s.ready = _
      rw [filterMap_append]
      simp

theorem begin (h : Phase s y) (hsafe : Safe y s.coming) (hst : s.begin = some s') :
    (∃ a, s.coming = a :: s'.coming ∧ Phase s' (afterAction y a)) ∨ Phase s' y ∧ s'.coming = s.coming := by
  unfold State.begin at hst
  split at hst
  · cases hst
  next action posted hpost =>
    obtain ⟨hstr, rfl⟩ := of_guard hst
    have hent : s.entering = none := by
      unfold State.entering
      rw [hstr]
    cases h with
    | asked _ _ _ _ _ queue => rw [hpost] at queue; cases queue
    | settling _ _ entering => rw [hent] at entering; cases entering
    | rest a stable current _ timer queue hal =>
      rw [hpost] at queue
      cases a with
      | none => cases queue
      | some a =>
        obtain ⟨rfl, rfl⟩ := cons.inj queue
        have hcom : s.coming = a :: s.ready := by
          unfold State.coming
          rw [hpost]
          rfl
        refine .inl ⟨a, ?_⟩
        rw [hcom] at hsafe
        unfold State.startTransition
        cases ht : transition s.currentState (.general a) with
        | none =>
          have hafter : afterAction y a = y := by
            unfold afterAction
            rw [← current, ht]
          dsimp only
          rw [hafter]
          exact ⟨hcom, .rest none stable current hent timer rfl hal⟩
        | some next =>
          dsimp only
          have hafter : afterAction y a = settled next := by
            unfold afterAction
            rw [← current, ht]
          rw [hafter]
          split
          next hself =>
            have hy : settled next = y := by
              rw [hself, current]
              exact settled_of_stable stable
            rw [hy]
            exact ⟨hcom, .rest none stable current hent timer rfl hal⟩
          next hself =>
            obtain ⟨hasks, horigin, hhal⟩ := doGeneralAction_asks stable hsafe.legal next (by rw [← current]; exact ht)
              (fun he => hself (he.trans current.symm))
            refine ⟨hcom, .asked next a (.inl ⟨rfl, rfl⟩) hasks rfl rfl ?_⟩
            show State.onEnter _ next = _
            unfold State.onEnter
            rw [hasks, horigin]
            show s.hal.doGeneralAction a = _
            rw [hal, hhal]
    | answered t waits transient leads queue hal =>
      rw [hpost] at queue
      obtain ⟨rfl, rfl⟩ := cons.inj queue
      have hcur : s.currentState = t ∧ s.timeoutTask = some t := by
        rcases waits with ⟨he, -⟩ | ⟨-, hc⟩
        · rw [hent] at he
          cases he
        · exact hc
      have hnext : transition s.currentState (.extra .success) = some y ∧ y ≠ s.currentState ∧
          getTransientStateTargetAction y = none := by
        rw [hcur.1, ← leads]
        exact transition_success transient
      refine .inr ?_
      unfold State.startTransition
      dsimp only
      rw [hnext.1]
      dsimp only
      rw [if_neg hnext.2.1]
      refine ⟨.settling (hcur.1 ▸ transient) (leads ▸ settled_stable t) rfl rfl rfl ?_, ?_⟩
      · show State.onEnter _ y = _
        unfold State.onEnter
        rw [hnext.2.2]
        exact hal
      · unfold State.coming
        rw [hpost]
        rfl

theorem assign (h : Phase s y) (hst : s.assign = some s') : Phase s' y ∧ s'.coming = s.coming := by
  unfold State.assign at hst
  split at hst
  next next hstr =>
    cases hst
    have hent : s.entering = some next := by
      unfold State.entering
      rw [hstr]
    have hwaits : ∀ {t}, s.Waits t → next = t := by
      rintro t (⟨he, -⟩ | ⟨he, -⟩)
      · exact some.inj (hent.symm.trans he)
      · rw [hent] at he
        cases he
    refine ⟨?_, rfl⟩
    cases h with
    | rest _ _ _ he => rw [hent] at he; cases he
    | asked t a waits asks leads queue hal =>
      obtain rfl := hwaits waits
      have htrans : isTransient next = true := by
        unfold isTransient
        rw [asks]
        rfl
      exact .asked next a (.inr ⟨rfl, rfl, if_pos htrans⟩) asks leads queue hal
    | answered t waits transient leads queue hal =>
      obtain rfl := hwaits waits
      exact .answered next (.inr ⟨rfl, rfl, if_pos transient⟩) transient leads queue hal
    | settling _ stable entering _ queue hal =>
      obtain rfl := some.inj (hent.symm.trans entering)
      refine .rest none stable rfl rfl ?_ queue hal
      show (if isTransient next = true then some next else none) = none
      rw [stable]
      rfl
  · cases hst

end Phase

/-! ### The queue -/

/-- A goal that the goal of `b` takes care of. -/
def Covers (b a : GeneralAction) : Prop :=
  ∀ y ∈ [GeneralState.idle, .inited, .started, .connected], Goal b y → Goal a y

instance (b a : GeneralAction) : Decidable (Covers b a) := inferInstanceAs (Decidable (∀ _ ∈ _, _))

theorem Covers.goal {a b : GeneralAction} (h : Covers b a) {y : GeneralState} (hy : isTransient y = false)
    (hb : Goal b y) : Goal a y := by
  refine h y ?_ hb
  revert hy
  cases y <;> decide

namespace State

variable (s : State)

/-- A task of the queue is running that has not decided to end. -/
def Attended : Prop :=
  ∃ id ∈ s.tasks, s.strand ≠ .task id .leaving

instance : Decidable s.Attended := inferInstanceAs (Decidable (∃ _ ∈ _, _))

/-- All calls have returned, and no task is queued or running. -/
def isQuiet : Bool :=
  s.calls.isEmpty && s.tasks.isEmpty && s.posted.isEmpty && s.timeoutTask.isNone && s.strand == .free

/-- The service is at rest, and the last request has its goal. -/
def LastRequestWins : Prop :=
  s.isQuiet = true → s.pending = [] ∧ s.ready = [] ∧ isTransient s.currentState = false ∧
    ∀ action ∈ s.lastRequest, Goal action s.currentState

end State

/-- Only what is covered by the last action in the queue is dropped, a call that relies on the task of the queue finds
one that has not decided to end or leaves it nothing, and the HAL answers every action by its event before the
timeout. -/
def Served (s : State) : Label → Prop
  | .call k => ∀ call ∈ s.calls[k]?,
      (call.stage = .checking → s.pending.head? = some call.action → ∀ b ∈ s.pending.getLast?, Covers b call.action) ∧
      (call.stage = .looking → s.isGeneralActionQueueTaskRunning = true → s.pending = [] ∨ s.Attended)
  | .timeout | .fail _ | .unexpected _ => False
  | _ => True

instance (s : State) : (label : Label) → Decidable (Served s label)
  | .call _ => inferInstanceAs (Decidable (∀ _ ∈ _, _))
  | .timeout | .fail _ | .unexpected _ => .isFalse id
  | .request _ | .run _ | .task | .begin | .assign | .report _ => .isTrue trivial

/-- What stands between a request and its goal. -/
structure Serves (s : State) : Prop where
  course : ∃ y, Phase s y ∧ Safe y s.coming ∧
    ∀ action ∈ s.popped, (∀ id other, s.strand ≠ .task id (.making other)) → Goal action (s.coming.foldl afterAction y)
  making : ∀ id action, s.strand = .task id (.making action) →
    isTransient s.currentState = false ∧ s.posted = [] ∧ s.ready = [] ∧ s.popped = some action
  picking : ∀ id, s.strand = .task id .picking → isTransient s.currentState = false ∧ s.posted = [] ∧ s.ready ≠ []
  held : ∀ id stage, s.strand = .task id stage → id ∈ s.tasks
  fresh : ∀ id ∈ s.tasks, id < s.nextId
  ready : s.ready ≠ [] → s.Attended
  pending : s.pending ≠ [] → s.Attended ∨ ∃ call ∈ s.calls, call.stage = .looking ∨ call.stage = .posting
  kept : ∀ action ∈ s.lastRequest, ∃ b, (s.popped.toList ++ s.pending).getLast? = some b ∧ Covers b action

namespace Serves

variable {s s' : State}

theorem lastRequestWins (h : Serves s) : s.LastRequestWins := by
  intro hquiet
  simp only [State.isQuiet, Bool.and_eq_true, List.isEmpty_iff, isNone_iff_eq_none, beq_iff_eq] at hquiet
  obtain ⟨⟨⟨⟨hcs, htks⟩, hpost⟩, htim⟩, hstr⟩ := hquiet
  have hnot : ¬ s.Attended := by
    rintro ⟨id, hid, -⟩
    rw [htks] at hid
    cases hid
  have hrdy : s.ready = [] := by_contra fun hne => hnot (h.ready hne)
  have hpend : s.pending = [] := by
    by_contra hne
    rcases h.pending hne with ha | ⟨call, hcall, -⟩
    · exact hnot ha
    · rw [hcs] at hcall
      cases hcall
  have hent : s.entering = none := by
    unfold State.entering
    rw [hstr]
  have hcom : s.coming = [] := by
    unfold State.coming
    rw [hpost, hrdy]
    rfl
  obtain ⟨y, hph, -, hgoal⟩ := h.course
  have hy : s.currentState = y := by
    have hno : ∀ {t}, s.Waits t → False := by
      rintro t (⟨he, -⟩ | ⟨-, -, ht⟩)
      · rw [hent] at he
        cases he
      · rw [htim] at ht
        cases ht
    cases hph with
    | rest _ _ h => exact h
    | asked _ _ h => exact (hno h).elim
    | answered _ h => exact (hno h).elim
    | settling _ _ he => rw [hent] at he; cases he
  rw [hy]
  refine ⟨hpend, hrdy, hph.stable, fun action hac => ?_⟩
  obtain ⟨b, hb, hcov⟩ := h.kept action hac
  refine hcov.goal hph.stable ?_
  rw [hpend, append_nil] at hb
  have hpop : s.popped = some b := by
    cases hp : s.popped with
    | none => rw [hp] at hb; cases hb
    | some c => rw [hp] at hb; exact hb
  have := hgoal b hpop (fun id other he => by rw [hstr] at he; cases he)
  rwa [hcom] at this

/-! #### Calls -/

/-- A step of a call, which leaves the strand and the HAL alone. -/
structure SameCourse (s s' : State) : Prop where
  currentState : s'.currentState = s.currentState
  posted : s'.posted = s.posted
  timeoutTask : s'.timeoutTask = s.timeoutTask
  strand : s'.strand = s.strand
  hal : s'.hal = s.hal
  ready : s'.ready = s.ready
  popped : s'.popped = s.popped

theorem SameCourse.course (hs : SameCourse s s') {y : GeneralState} (h : Phase s y) :
    Phase s' y ∧ s'.coming = s.coming := by
  refine ⟨h.congr hs.currentState ?_ hs.timeoutTask hs.posted hs.hal, ?_⟩
  · unfold State.entering
    rw [hs.strand]
  · unfold State.coming
    rw [hs.posted, hs.ready]

theorem of_call (h : Serves s) (hs : SameCourse s s') (htks : ∀ id ∈ s.tasks, id ∈ s'.tasks)
    (hfresh : ∀ id ∈ s'.tasks, id < s'.nextId)
    (hpend : s'.pending ≠ [] → s'.Attended ∨ ∃ call ∈ s'.calls, call.stage = .looking ∨ call.stage = .posting)
    (hkept : ∀ action ∈ s'.lastRequest,
      ∃ b, (s'.popped.toList ++ s'.pending).getLast? = some b ∧ Covers b action) : Serves s' where
  course := by
    obtain ⟨y, hph, hsafe, hgoal⟩ := h.course
    obtain ⟨hph', hcom⟩ := hs.course hph
    refine ⟨y, hph', hcom ▸ hsafe, ?_⟩
    rw [hcom, hs.popped, hs.strand]
    exact hgoal
  making := by
    rw [hs.strand, hs.currentState, hs.posted, hs.ready, hs.popped]
    exact h.making
  picking := by
    rw [hs.strand, hs.currentState, hs.posted, hs.ready]
    exact h.picking
  held := by
    rw [hs.strand]
    exact fun id stage he => htks id (h.held id stage he)
  fresh := hfresh
  ready := by
    rw [hs.ready]
    intro hne
    obtain ⟨id, hid, hleaving⟩ := h.ready hne
    exact ⟨id, htks id hid, hs.strand ▸ hleaving⟩
  pending := hpend
  kept := hkept

theorem setCall_mem {k : ℕ} {calls : List Call} {call : Call} (hcall : call ∈ calls) :
    call ∈ (s.setCall k calls).calls :=
  mem_append_left _ (mem_append_right _ hcall)

theorem setCall_other {k : ℕ} {calls : List Call} {call other : Call} (hk : s.calls[k]? = some call)
    (hoth : other ∈ s.calls) (hne : other ≠ call) : other ∈ (s.setCall k calls).calls := by
  obtain ⟨j, hj⟩ := List.getElem?_of_mem hoth
  have hjk : j ≠ k := by
    rintro rfl
    exact hne (some.inj (hj.symm.trans hk))
  unfold State.setCall
  rcases Nat.lt_or_gt_of_ne hjk with hlt | hgt
  · refine mem_append_left _ (mem_append_left _ ?_)
    refine mem_of_getElem? (i := j) ?_
    rw [List.getElem?_take_of_lt hlt]
    exact hj
  · refine mem_append_right _ ?_
    refine mem_of_getElem? (i := j - (k + 1)) ?_
    rw [List.getElem?_drop, Nat.add_sub_cancel' hgt]
    exact hj

theorem pending_setCall {k : ℕ} {calls : List Call} {call : Call} (h : Serves s) (hk : s.calls[k]? = some call)
    (hstg : call.stage ≠ .looking ∧ call.stage ≠ .posting) (hne : s.pending ≠ []) :
    s.Attended ∨ ∃ call ∈ (s.setCall k calls).calls, call.stage = .looking ∨ call.stage = .posting := by
  refine (h.pending hne).imp_right ?_
  rintro ⟨other, hoth, hpstg⟩
  refine ⟨other, setCall_other hk hoth ?_, hpstg⟩
  rintro rfl
  exact hpstg.elim hstg.1 hstg.2

theorem request (h : Serves s) (action : GeneralAction) :
    Serves { s with calls := s.calls ++ [⟨action, .checking⟩] } := by
  refine h.of_call ⟨rfl, rfl, rfl, rfl, rfl, rfl, rfl⟩ (fun _ hid => hid) h.fresh ?_ h.kept
  intro hne
  refine (h.pending hne).imp_right ?_
  rintro ⟨call, hcall, hpstg⟩
  exact ⟨call, mem_append_left _ hcall, hpstg⟩

theorem check {k : ℕ} {action : GeneralAction} (h : Serves s) (hk : s.calls[k]? = some ⟨action, .checking⟩)
    (hc : s.pending.head? = some action → ∀ b ∈ s.pending.getLast?, Covers b action) : Serves (s.check k action) := by
  have hpend : ∀ {calls}, s.pending ≠ [] →
      s.Attended ∨ ∃ call ∈ (s.setCall k calls).calls, call.stage = .looking ∨ call.stage = .posting :=
    h.pending_setCall hk ⟨nofun, nofun⟩
  unfold State.check
  split
  next hhead =>
    refine h.of_call ⟨rfl, rfl, rfl, rfl, rfl, rfl, rfl⟩ (fun _ hid => hid) h.fresh hpend ?_
    rintro other ⟨⟩
    have hne : s.pending ≠ [] := by
      intro hnil
      rw [hnil] at hhead
      cases hhead
    obtain ⟨b, hb⟩ : ∃ b, s.pending.getLast? = some b :=
      ⟨s.pending.getLast hne, List.getLast?_eq_some_getLast hne⟩
    refine ⟨b, ?_, hc hhead b hb⟩
    show (s.popped.toList ++ s.pending).getLast? = some b
    rw [List.getLast?_append, hb]
    rfl
  · exact h.of_call ⟨rfl, rfl, rfl, rfl, rfl, rfl, rfl⟩ (fun _ hid => hid) h.fresh hpend h.kept

theorem push {k : ℕ} {action : GeneralAction} (h : Serves s) : Serves (s.push k action) := by
  unfold State.push
  refine h.of_call ⟨rfl, rfl, rfl, rfl, rfl, rfl, rfl⟩ (fun _ hid => hid) h.fresh ?_ ?_
  · exact fun _ => .inr ⟨_, setCall_mem (mem_singleton_self _), .inl rfl⟩
  · rintro other ⟨⟩
    refine ⟨action, ?_, fun _ _ hgoal => hgoal⟩
    show (s.popped.toList ++ (s.pending ++ [action])).getLast? = some action
    rw [← append_assoc]
    exact List.getLast?_concat

theorem look {k : ℕ} {action : GeneralAction} (h : Serves s)
    (hc : s.isGeneralActionQueueTaskRunning = true → s.pending = [] ∨ s.Attended) : Serves (s.look k action) := by
  unfold State.look
  split
  next hrun =>
    refine h.of_call ⟨rfl, rfl, rfl, rfl, rfl, rfl, rfl⟩ (fun _ hid => hid) h.fresh ?_ h.kept
    intro hne
    exact .inl ((hc hrun).resolve_left hne)
  · refine h.of_call ⟨rfl, rfl, rfl, rfl, rfl, rfl, rfl⟩ (fun _ hid => hid) h.fresh ?_ h.kept
    exact fun _ => .inr ⟨_, setCall_mem (mem_singleton_self _), .inr rfl⟩

theorem post {k : ℕ} (h : Serves s) : Serves (s.post k) := by
  unfold State.post
  refine h.of_call ⟨rfl, rfl, rfl, rfl, rfl, rfl, rfl⟩ (fun _ hid => mem_append_left _ hid) ?_ ?_ h.kept
  · intro id hid
    rcases mem_append.mp hid with hid | hid
    · exact Nat.lt_succ_of_lt (h.fresh id hid)
    · rw [mem_singleton.mp hid]
      exact Nat.lt_succ_self _
  · intro _
    refine .inl ⟨s.nextId, mem_append_right _ (mem_singleton_self _), fun he => ?_⟩
    have : s.nextId < s.nextId := h.fresh _ (h.held s.nextId .leaving he)
    exact absurd this (Nat.lt_irrefl _)

theorem call {k : ℕ} (h : Serves s) (hc : Served s (.call k)) (hst : s.call k = some s') : Serves s' := by
  unfold State.call at hst
  split at hst
  · cases hst
  next action hk =>
    cases hst
    exact h.check hk ((hc _ hk).1 rfl)
  next action hk =>
    cases hst
    exact h.push
  next action hk =>
    cases hst
    exact h.look ((hc _ hk).2 rfl)
  next action hk =>
    cases hst
    exact h.post

/-! #### The task of the queue -/

theorem not_isActionRunning (h : ¬ s.isActionRunning = true) : isTransient s.currentState = false ∧ s.posted = [] := by
  obtain ⟨hor, -⟩ := Bool.or_eq_false_iff.mp (Bool.eq_false_of_not_eq_true h)
  obtain ⟨hcur, hpost⟩ := Bool.or_eq_false_iff.mp hor
  exact ⟨hcur, by simpa using hpost⟩

theorem run {id : ℕ} (h : Serves s) (hst : s.run id = some s') : Serves s' := by
  unfold State.run at hst
  obtain ⟨y, hph, hsafe, hgoal⟩ := h.course
  split at hst
  swap
  · cases hst
  next hfree =>
    obtain ⟨hstr, hid⟩ := hfree
    have hent : s.entering = none := by
      unfold State.entering
      rw [hstr]
    split at hst
    · cases hst
      exact h
    next hidle =>
    obtain ⟨hcur, hpost⟩ := not_isActionRunning hidle
    have hgoal' : ∀ action ∈ s.popped, Goal action (s.coming.foldl afterAction y) :=
      fun action hac => hgoal action hac fun other _ he => by rw [hstr] at he; cases he
    split at hst
    next hrdy =>
      cases hst
      refine ⟨⟨y, hph.congr rfl hent.symm rfl rfl rfl, hsafe, fun action hac _ => hgoal' action hac⟩,
        nofun, fun _ _ => ⟨hcur, hpost, hrdy⟩, ?_, h.fresh, fun _ => ⟨id, hid, nofun⟩, fun _ => .inl ⟨id, hid, nofun⟩,
        h.kept⟩
      rintro other stage he
      exact (Strand.task.inj he).1 ▸ hid
    next hrdy =>
      have hrdy : s.ready = [] := by_contra hrdy
      split at hst
      next hpend =>
        cases hst
        refine ⟨⟨y, hph.congr rfl hent.symm rfl rfl rfl, hsafe, fun action hac _ => hgoal' action hac⟩,
          nofun, nofun, ?_, h.fresh, fun hne => absurd hrdy hne, fun hne => absurd hpend hne, h.kept⟩
        rintro other stage he
        exact (Strand.task.inj he).1 ▸ hid
      next action pending hpend =>
        cases hst
        refine ⟨⟨y, hph.congr rfl hent.symm rfl rfl rfl, hsafe, fun _ _ hnot => absurd rfl (hnot id action)⟩,
          ?_, nofun, ?_, h.fresh, fun hne => absurd hrdy hne, fun _ => .inl ⟨id, hid, nofun⟩, ?_⟩
        · rintro other action' he
          obtain rfl := TaskStage.making.inj (Strand.task.inj he).2
          exact ⟨hcur, hpost, hrdy, rfl⟩
        · rintro other stage he
          exact (Strand.task.inj he).1 ▸ hid
        · -- what is popped takes the place of what was popped before
          intro last hlast
          obtain ⟨b, hb, hcov⟩ := h.kept last hlast
          refine ⟨b, ?_, hcov⟩
          rw [hpend, List.getLast?_append_of_ne_nil _ (cons_ne_nil _ _)] at hb
          exact hb

theorem makeReady {id : ℕ} {action : GeneralAction} (h : Serves s) (hstr : s.strand = .task id (.making action)) :
    Serves { s.makeGeneralActionReadyQueue action with strand := .task id .picking } := by
  obtain ⟨y, hph, -, -⟩ := h.course
  obtain ⟨hcur, hpost, hrdy, hpop⟩ := h.making id action hstr
  have hid : id ∈ s.tasks := h.held id _ hstr
  have hent : s.entering = none := by
    unfold State.entering
    rw [hstr]
  obtain ⟨-, -, hhal⟩ := hph.at_rest hcur hent
  have hcom : State.coming { s.makeGeneralActionReadyQueue action with strand := .task id .picking } =
      State.makeReady ⟨bitsOf y, []⟩ 3 action := by
    unfold State.coming State.makeGeneralActionReadyQueue
    dsimp only
    rw [hpost, hrdy, hhal]
    rfl
  refine ⟨⟨y, hph.congr rfl hent.symm rfl rfl rfl, ?_, ?_⟩, nofun, ?_, ?_, h.fresh, fun _ => ⟨id, hid, nofun⟩,
    fun _ => .inl ⟨id, hid, nofun⟩, h.kept⟩
  · rw [hcom]
    exact makeReady_safe action hph.stable
  · intro other hoth _
    obtain rfl := some.inj (hpop.symm.trans hoth)
    rw [hcom]
    exact makeReady_goal action hph.stable
  · refine fun _ _ => ⟨hcur, hpost, ?_⟩
    show s.ready ++ State.makeReady s.hal 3 action ≠ []
    exact append_ne_nil_of_right_ne_nil _ (makeReady_ne_nil s.hal action)
  · rintro other stage he
    exact (Strand.task.inj he).1 ▸ hid

theorem pick {id : ℕ} (h : Serves s) (hstr : s.strand = .task id .picking) : Serves (s.pick id) := by
  obtain ⟨y, hph, hsafe, hgoal⟩ := h.course
  obtain ⟨hcur, hpost, hne⟩ := h.picking id hstr
  have hid : id ∈ s.tasks := h.held id _ hstr
  have hent : s.entering = none := by
    unfold State.entering
    rw [hstr]
  obtain ⟨hy, htim, hhal⟩ := hph.at_rest hcur hent
  unfold State.pick
  split
  next hnil => exact absurd hnil hne
  next action ready hrdy =>
    have hcom : State.coming
        { s with ready := ready, posted := s.posted ++ [.general action], strand := .task id .deciding } = s.coming := by
      unfold State.coming
      dsimp only
      rw [hpost, hrdy]
      rfl
    refine ⟨⟨y, .rest (some action) hph.stable hy rfl htim ?_ hhal, hcom ▸ hsafe, ?_⟩, nofun, nofun, ?_, h.fresh,
      fun _ => ⟨id, hid, nofun⟩, fun _ => .inl ⟨id, hid, nofun⟩, h.kept⟩
    · show s.posted ++ [.general action] = _
      rw [hpost]
      rfl
    · rw [hcom]
      exact fun other hoth _ => hgoal other hoth fun _ _ he => by rw [hstr] at he; cases he
    · rintro other stage he
      exact (Strand.task.inj he).1 ▸ hid

theorem decideEnd {id : ℕ} (h : Serves s) (hstr : s.strand = .task id .deciding) : Serves (s.decideEnd id) := by
  obtain ⟨y, hph, hsafe, hgoal⟩ := h.course
  have hid : id ∈ s.tasks := h.held id _ hstr
  have hent : s.entering = none := by
    unfold State.entering
    rw [hstr]
  have hgoal' : ∀ action ∈ s.popped, Goal action (s.coming.foldl afterAction y) :=
    fun action hac => hgoal action hac fun other _ he => by rw [hstr] at he; cases he
  unfold State.decideEnd
  split
  next hemp =>
    rw [Bool.and_eq_true, List.isEmpty_iff, List.isEmpty_iff] at hemp
    refine ⟨⟨y, hph.congr rfl hent.symm rfl rfl rfl, hsafe, fun action hac _ => hgoal' action hac⟩,
      nofun, nofun, ?_, h.fresh, fun hne => absurd hemp.2 hne, fun hne => absurd hemp.1 hne, h.kept⟩
    rintro other stage he
    exact (Strand.task.inj he).1 ▸ hid
  · exact ⟨⟨y, hph.congr rfl hent.symm rfl rfl rfl, hsafe, fun action hac _ => hgoal' action hac⟩,
      nofun, nofun, nofun, h.fresh, fun _ => ⟨id, hid, nofun⟩, fun _ => .inl ⟨id, hid, nofun⟩, h.kept⟩

theorem leave {id : ℕ} (h : Serves s) (hstr : s.strand = .task id .leaving) :
    Serves { s with tasks := s.tasks.erase id, strand := .free } := by
  obtain ⟨y, hph, hsafe, hgoal⟩ := h.course
  have hent : s.entering = none := by
    unfold State.entering
    rw [hstr]
  -- a task that attends to the queue is another one
  have hattended : s.Attended → State.Attended { s with tasks := s.tasks.erase id, strand := .free } := by
    rintro ⟨other, hoth, hne⟩
    have : other ≠ id := by
      rintro rfl
      exact hne hstr
    exact ⟨other, (mem_erase_of_ne this).mpr hoth, nofun⟩
  refine ⟨⟨y, hph.congr rfl hent.symm rfl rfl rfl, hsafe, ?_⟩, nofun, nofun, nofun,
    fun other hoth => h.fresh other (mem_of_mem_erase hoth), fun hne => hattended (h.ready hne),
    fun hne => (h.pending hne).imp_left hattended, h.kept⟩
  exact fun action hac _ => hgoal action hac fun other _ he => by rw [hstr] at he; cases he

theorem task (h : Serves s) (hst : s.task = some s') : Serves s' := by
  unfold State.task at hst
  split at hst
  next id action hstr =>
    cases hst
    exact h.makeReady hstr
  next id hstr =>
    cases hst
    exact h.pick hstr
  next id hstr =>
    cases hst
    exact h.decideEnd hstr
  next id hstr =>
    cases hst
    exact h.leave hstr
  · cases hst

/-! #### The state machine and the HAL -/

/-- A step of the state machine or of the HAL, which leaves the queue alone. -/
structure SameQueue (s s' : State) : Prop where
  pending : s'.pending = s.pending
  ready : s'.ready = s.ready
  tasks : s'.tasks = s.tasks
  nextId : s'.nextId = s.nextId
  calls : s'.calls = s.calls
  lastRequest : s'.lastRequest = s.lastRequest
  popped : s'.popped = s.popped

theorem of_course (h : Serves s) (hs : SameQueue s s')
    (hcrs : ∃ y, Phase s' y ∧ Safe y s'.coming ∧ ∀ action ∈ s.popped, Goal action (s'.coming.foldl afterAction y))
    (hstr : ∀ id stage, s'.strand = .task id stage →
      s.strand = .task id stage ∧ (stage = .deciding ∨ stage = .leaving)) : Serves s' := by
  have hattended : s.Attended → s'.Attended := by
    rintro ⟨id, hid, hne⟩
    exact ⟨id, hs.tasks ▸ hid, fun he => hne (hstr id _ he).1⟩
  refine ⟨?_, ?_, ?_, ?_, ?_, ?_, ?_, ?_⟩
  · obtain ⟨y, hph, hsafe, hgoal⟩ := hcrs
    exact ⟨y, hph, hsafe, fun action hac _ => hgoal action (hs.popped ▸ hac)⟩
  · intro id action he
    rcases (hstr id _ he).2 with h' | h' <;> cases h'
  · intro id he
    rcases (hstr id _ he).2 with h' | h' <;> cases h'
  · rw [hs.tasks]
    exact fun id stage he => h.held id stage (hstr id stage he).1
  · rw [hs.tasks, hs.nextId]
    exact h.fresh
  · rw [hs.ready]
    exact fun hne => hattended (h.ready hne)
  · rw [hs.pending, hs.calls]
    exact fun hne => (h.pending hne).imp_left hattended
  · rw [hs.lastRequest, hs.popped, hs.pending]
    exact h.kept

theorem startTransition_same (s : State) (action : MachineAction) : SameQueue s (s.startTransition action) := by
  unfold State.startTransition
  split
  · exact ⟨rfl, rfl, rfl, rfl, rfl, rfl, rfl⟩
  · split
    · exact ⟨rfl, rfl, rfl, rfl, rfl, rfl, rfl⟩
    · exact ⟨rfl, rfl, rfl, rfl, rfl, rfl, rfl⟩

theorem startTransition_strand {action : MachineAction} (hs : s.strand = .free) (id : ℕ) (stage : TaskStage) :
    (s.startTransition action).strand ≠ .task id stage := by
  unfold State.startTransition
  split
  · rw [hs]
    exact nofun
  · split
    · rw [hs]
      exact nofun
    · exact nofun

theorem begin (h : Serves s) (hst : s.begin = some s') : Serves s' := by
  obtain ⟨y, hph, hsafe, hgoal⟩ := h.course
  have hmoves := hph.begin hsafe hst
  unfold State.begin at hst
  split at hst
  · cases hst
  next action posted hpost =>
    obtain ⟨hfree, rfl⟩ := of_guard hst
    obtain ⟨h1, h2, h3, h4, h5, h6, h7⟩ := startTransition_same { s with posted := posted } action
    have hgoal' : ∀ action ∈ s.popped, Goal action (s.coming.foldl afterAction y) :=
      fun action hac => hgoal action hac fun other _ he => by rw [hfree] at he; cases he
    refine h.of_course ⟨h1, h2, h3, h4, h5, h6, h7⟩ ?_ ?_
    · rcases hmoves with ⟨a, hcom, hph'⟩ | ⟨hph', hcom⟩
      · rw [hcom] at hsafe hgoal'
        exact ⟨afterAction y a, hph', hsafe.after hph.stable, hgoal'⟩
      · exact ⟨y, hph', hcom ▸ hsafe, hcom ▸ hgoal'⟩
    · exact fun id stage he => absurd he (startTransition_strand (s := { s with posted := posted }) hfree id stage)

theorem assign (h : Serves s) (hst : s.assign = some s') : Serves s' := by
  obtain ⟨y, hph, hsafe, hgoal⟩ := h.course
  obtain ⟨hph', hcom⟩ := hph.assign hst
  unfold State.assign at hst
  split at hst
  next next hstr =>
    cases hst
    refine h.of_course ⟨rfl, rfl, rfl, rfl, rfl, rfl, rfl⟩ ⟨y, hph', hcom ▸ hsafe, ?_⟩ nofun
    rw [hcom]
    exact fun action hac => hgoal action hac fun other _ he => by rw [hstr] at he; cases he
  · cases hst

theorem report {a : GeneralAction} (h : Serves s) (hst : s.report a = some s') : Serves s' := by
  obtain ⟨y, hph, hsafe, hgoal⟩ := h.course
  obtain ⟨hph', hcom⟩ := hph.report hst
  unfold State.report at hst
  obtain ⟨ha, rfl⟩ := of_guard hst
  -- what runs in the HAL was asked for by a transient state
  have hbusy : ∀ {id stage}, s.strand = .task id stage → isTransient s.currentState = true := by
    intro id stage hstr
    by_contra hstable
    have hent : s.entering = none := by
      unfold State.entering
      rw [hstr]
    obtain ⟨-, -, hhal⟩ := hph.at_rest (Bool.eq_false_of_not_eq_true hstable) hent
    rw [hhal] at ha
    cases ha
  have hstg : ∀ id stage, s.strand = .task id stage → stage = .deciding ∨ stage = .leaving := by
    intro id stage hstr
    have htrans := hbusy hstr
    cases stage with
    | making action => rw [(h.making id action hstr).1] at htrans; cases htrans
    | picking => rw [(h.picking id hstr).1] at htrans; cases htrans
    | deciding => exact .inl rfl
    | leaving => exact .inr rfl
  refine h.of_course ⟨rfl, rfl, rfl, rfl, rfl, rfl, rfl⟩ ⟨y, hph', hcom ▸ hsafe, ?_⟩
    fun id stage he => ⟨he, hstg id stage he⟩
  rw [hcom]
  refine fun action hac => hgoal action hac fun id other he => ?_
  rcases hstg id _ he with h' | h' <;> cases h'

end Serves

theorem serves_inductive : machine.Inductive Served Serves where
  init := by
    rintro s rfl
    refine ⟨⟨.idle, .rest none rfl rfl rfl rfl rfl rfl, nofun, nofun⟩, nofun, nofun, nofun, nofun, fun hne => absurd rfl hne,
      fun hne => absurd rfl hne, nofun⟩
  step := by
    intro s label s' h hc hst
    have hst : step s label = some s' := hst
    cases label with
    | request action =>
      cases hst
      exact h.request action
    | call k => exact h.call hc hst
    | run id => exact h.run hst
    | task => exact h.task hst
    | begin => exact h.begin hst
    | assign => exact h.assign hst
    | report action => exact h.report hst
    | timeout | fail _ | unexpected _ => exact hc.elim

/-- **The last request.** In every run in which the requests are served the service comes to rest, whenever it does, in a
stable state that meets the goal of the last request. -/
theorem lastRequest_wins {s : State} (h : machine.Reach Served s) : s.LastRequestWins :=
  (serves_inductive.reach h).lastRequestWins

/-! ### Runs -/

/-- A transition with the answer of the HAL, and the transition to the stable state. -/
def transitionRun (action : GeneralAction) : List Label :=
  [.begin, .assign, .report action, .begin, .assign]

/-- A request that comes to the queue, with or without a task of the queue to post. -/
def requestRun (action : GeneralAction) (posts : Bool) : List Label :=
  [.request action, .call 0, .call 0, .call 0] ++ if posts then [.call 0] else []

/-- `Connect` is requested of an idle service. -/
def connectRun : List Label :=
  requestRun .connect true ++ [.run 1, .task, .task, .task] ++ transitionRun .init ++
    [.run 1, .task, .task] ++ transitionRun .start ++ [.run 1, .task, .task, .task] ++ transitionRun .connect

/-- `Start`, `Stop` and `Start` are requested before the task of the queue runs. -/
def restartRun : List Label :=
  requestRun .start true ++ requestRun .stop false ++ [.request .start, .call 0] ++
    [.run 1, .task, .task, .task] ++ transitionRun .init ++ [.run 1, .task, .task] ++ transitionRun .start ++
    [.run 1, .task, .task, .task, .task] ++ transitionRun .stop

theorem lastRequest_wins_connectRun :
    ∃ s, machine.Reach Served s ∧ s.isQuiet = true ∧ s.currentState = .connected ∧ s.LastRequestWins := by
  obtain ⟨s, hs, hfacts⟩ := map_eq_some_iff.mp (by decide +kernel :
    (machine.execWhen Served {} connectRun).map (fun s => (s.isQuiet, s.currentState)) = some (true, .connected))
  have hreach : machine.Reach Served s := .execWhen (.init rfl) hs
  obtain ⟨hquiet, hcur⟩ := Prod.mk.inj hfacts
  exact ⟨s, hreach, hquiet, hcur, lastRequest_wins hreach⟩

theorem lastRequest_wins_restartRun : ¬ machine.Always State.LastRequestWins {} restartRun := by
  intro halw
  obtain ⟨s, hs, hfacts⟩ := map_eq_some_iff.mp (by decide +kernel :
    (machine.exec {} restartRun).map (fun s => (s.isQuiet, s.lastRequest, s.currentState)) =
      some (true, some .start, .inited))
  obtain ⟨hquiet, hrest⟩ := Prod.mk.inj hfacts
  obtain ⟨hlast, hcur⟩ := Prod.mk.inj hrest
  have hgoal : Goal .start s.currentState := (halw.exec hs hquiet).2.2.2 .start hlast
  rw [hcur] at hgoal
  revert hgoal
  decide

end Brookesia.Wifi.Actions
