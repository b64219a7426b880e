import Brookesia.Wifi.LastRequest

/-! # Wi-Fi: the state machine and the HAL

An event and an error come to the state machine as `Success` and `Failure`, whatever action they answer, so a late
answer may be taken by another state than the one that asked. Where the answers come in the order of the actions,
no stable state is left while an answer is out, an action that takes the HAL down does not end with an error, and the HAL
reports events on its own only at rest and one step down (`Orderly`), the stable state is the one that the bits of
the HAL imply, whenever all answers have come; the timeouts may expire as they like. -/

namespace Brookesia.Wifi.Actions

open Transition List Option

/-- The state is the one that the event-ready bits imply. -/
structure Implies (hal : Hal) (state : GeneralState) : Prop where
  idle : state = .idle ↔ hal.isGeneralEventReady .deinited = true
  connected : state = .connected ↔ hal.isGeneralEventReady .connected = true
  started : state = .started ↔ hal.isGeneralEventReady .started = true ∧ hal.isGeneralEventReady .connected = false
  inited : state = .inited ↔ hal.isGeneralEventReady .deinited = false ∧ hal.isGeneralEventReady .started = false ∧
    hal.isGeneralEventReady .connected = false

namespace State

/-- Nothing is outstanding, queued or running, and the state is stable. -/
def isAnswered (s : State) : Bool :=
  s.hal.running.isEmpty && s.posted.isEmpty && s.entering.isNone && !isTransient s.currentState

def Agrees (s : State) : Prop :=
  s.isAnswered = true → Implies s.hal s.currentState

end State

def GeneralAction.isUp : GeneralAction → Bool
  | .init | .start | .connect => true
  | _ => false

/-- The action of a transient state that takes the HAL up, or down. -/
def Asks (up : Bool) (t : GeneralState) (a : GeneralAction) : Prop :=
  getTransientStateTargetAction t = some a ∧ a.isUp = up

variable {a : GeneralAction} {t : GeneralState}

theorem Asks.transient {up : Bool} (h : Asks up t a) : isTransient t = true := by
  unfold isTransient
  rw [h.1]
  rfl

/-! ### What the HAL comes to -/

/-- When the HAL has given its answers its bits are those of `y`. -/
inductive Heading (y : GeneralState) : Hal → Prop
  | done : Heading y ⟨bitsOf y, []⟩
  | down {t : GeneralState} {a : GeneralAction} {bits : Bits} : Asks false t a → settled t = y →
      bits = bitsOf y ∨ bits = bitsOf (origin t) → Heading y ⟨bits, [a]⟩
  | late {t u : GeneralState} {a b : GeneralAction} : Asks false t a → settled t = y → Asks true u b →
      settled u = origin t → Heading y ⟨bitsOf y, [b, a]⟩

namespace Heading

variable {y : GeneralState} {hal : Hal}

theorem bits (h : Heading y hal) (hrun : hal.running = []) : hal = ⟨bitsOf y, []⟩ := by
  cases h with
  | done => rfl
  | down => cases hrun
  | late => cases hrun

variable {a : GeneralAction}

theorem set_event {t : GeneralState} (h : getTransientStateTargetAction t = some a) :
    (bitsOf (origin t)).set (getGeneralActionTargetEvent a) = bitsOf (settled t) ∧
      (bitsOf (settled t)).set (getGeneralActionTargetEvent a) = bitsOf (settled t) := by
  cases t <;> cases h <;> exact ⟨rfl, rfl⟩

theorem report (h : Heading y hal) (ha : hal.running.head? = some a) :
    Heading y ⟨hal.bits.set (getGeneralActionTargetEvent a), hal.running.erase a⟩ := by
  cases h with
  | done => cases ha
  | down hasks hsett hbits =>
    cases ha
    have hset := set_event hasks.1
    rw [hsett] at hset
    rw [erase_cons_head]
    rcases hbits with rfl | rfl
    · rw [hset.2]
      exact .done
    · rw [hset.1]
      exact .done
  | @late t u a' b hdown hsett hup hafter =>
    cases ha
    have horigin : origin u = y := by
      rw [← hsett]
      obtain ⟨h1, h2⟩ := hdown
      obtain ⟨h3, h4⟩ := hup
      cases t <;> cases h1 <;> cases h2 <;> cases u <;> cases h3 <;> cases h4 <;> first | rfl | cases hafter
    rw [erase_cons_head]
    refine .down hdown hsett (.inr ?_)
    rw [← horigin, (set_event hup.1).1, hafter]

/-- The first answer is an error of an action that takes the HAL up. -/
theorem fail (h : Heading y hal) (ha : hal.running.head? = some a) (hup : a.isUp = true) :
    Heading y ⟨hal.bits, hal.running.erase a⟩ := by
  cases h with
  | done => cases ha
  | down hasks =>
    cases ha
    rw [hasks.2] at hup
    cases hup
  | late hdown hsett =>
    cases ha
    rw [erase_cons_head]
    exact .down hdown hsett (.inl rfl)

theorem implies (h : Heading y hal) (hy : isTransient y = false) (hrun : hal.running = []) : Implies hal y := by
  rw [h.bits hrun]
  cases y <;> first | exact absurd hy (by decide) | exact ⟨by decide, by decide, by decide, by decide⟩

end Heading

theorem makeReady_stop (hal : Hal) (a : GeneralAction) (h : .stop ∈ State.makeReady hal 3 a) :
    .connect ∉ State.makeReady hal 3 a := by
  cases a <;> simp only [State.makeReady, State.preAction] at h ⊢ <;> grind

theorem Heading.safe {y : GeneralState} {hal : Hal} (h : Heading y hal) (hy : isTransient y = false) (a : GeneralAction) :
    Safe y (State.makeReady hal 3 a) := by
  have hne : ∀ {t b}, Asks false t b → settled t = y → y ≠ .connected := by
    rintro t b ⟨hasks, hdown⟩ rfl
    cases t <;> cases hasks <;> cases hdown <;> decide
  have hsafe : y ≠ .connected → Safe y (State.makeReady hal 3 a) :=
    fun hcon hstop => ⟨makeReady_stop hal a hstop, fun he => absurd he hcon⟩
  cases h with
  | done => exact makeReady_safe a hy
  | down hasks hsett => exact hsafe (hne hasks hsett)
  | late hasks hsett => exact hsafe (hne hasks hsett)

/-! ### Where the state machine is -/

def generals (posted : List MachineAction) : List GeneralAction :=
  posted.filterMap fun
    | .general action => some action
    | .extra _ => none

theorem generals_append_extra (posted : List MachineAction) (extra : ExtraAction) :
    generals (posted ++ [.extra extra]) = generals posted := by
  unfold generals
  rw [filterMap_append]
  exact append_nil _

theorem coming_eq (s : State) : s.coming = generals s.posted ++ s.ready :=
  rfl

/-- Where the machine is, and the stable state `y` that it comes to if the HAL does what it is asked. -/
inductive Course (s : State) (y : GeneralState) : Prop
  /-- In a stable state; answers that come late are taken by nobody. -/
  | stable (stable : isTransient y = false) (current : s.currentState = y) (entering : s.entering = none)
      (timer : s.timeoutTask = none) (queue : (generals s.posted).length ≤ 1) (hal : Heading y s.hal)
  | asked (t : GeneralState) (a : GeneralAction) (waits : s.Waits t) (asks : Asks true t a) (leads : settled t = y)
      (queue : s.posted = []) (hal : s.hal = ⟨bitsOf (origin t), [a]⟩)
  | succeeded (t : GeneralState) (a : GeneralAction) (waits : s.Waits t) (asks : Asks true t a) (leads : settled t = y)
      (queue : s.posted = [.extra .success]) (hal : s.hal = ⟨bitsOf y, []⟩)
  | failed (t : GeneralState) (a : GeneralAction) (waits : s.Waits t) (asks : Asks true t a) (leads : origin t = y)
      (queue : s.posted = [.extra .failure]) (hal : s.hal = ⟨bitsOf y, []⟩)
  /-- On the way down, which every answer and the timeout end in the same state. -/
  | down (t : GeneralState) (a : GeneralAction) (waits : s.Waits t) (asks : Asks false t a) (leads : settled t = y)
      (queue : generals s.posted = []) (hal : Heading y s.hal)
  | settling (transient : isTransient s.currentState = true) (stable : isTransient y = false)
      (entering : s.entering = some y) (timer : s.timeoutTask = none) (queue : generals s.posted = [])
      (hal : Heading y s.hal)

/-! #### What the table says of the transient states -/

theorem origin_of_up (h : Asks true t a) : isTransient (origin t) = false ∧ origin t ≠ .connected ∧ origin t ≠ t ∧
      transition t (.extra .failure) = some (origin t) := by
  obtain ⟨h1, h2⟩ := h
  cases t <;> cases h1 <;> cases h2 <;> decide

theorem transition_of_down (h : Asks false t a) (extra : ExtraAction) :
    transition t (.extra extra) = some (settled t) ∧ settled t ≠ t ∧ isTransient (settled t) = false := by
  obtain ⟨h1, h2⟩ := h
  cases t <;> cases h1 <;> cases h2 <;> cases extra <;> decide

theorem timeout_of_up (h : Asks true t a) :
    ∃ u b, transition t (.extra .timeout) = some u ∧ u ≠ t ∧ Asks false u b ∧ settled u = origin t ∧
      origin u = settled t ∧
      Hal.doGeneralAction ⟨bitsOf (origin t), [a]⟩ b = ⟨bitsOf (origin t), [a, b]⟩ ∧
      Hal.doGeneralAction ⟨bitsOf (settled t), []⟩ b = ⟨bitsOf (settled t), [b]⟩ ∧
      Hal.doGeneralAction ⟨bitsOf (origin t), []⟩ b = ⟨bitsOf (origin t), []⟩ := by
  obtain ⟨h1, h2⟩ := h
  unfold Asks
  cases t <;> cases h1 <;> cases h2
  · exact ⟨.deiniting, .deinit, by decide⟩
  · exact ⟨.stopping, .stop, by decide⟩
  · exact ⟨.disconnecting, .disconnect, by decide⟩

namespace Course

variable {s s' : State} {y : GeneralState}

theorem isStable (h : Course s y) : isTransient y = false := by
  cases h with
  | stable h => exact h
  | asked t _ _ _ h => exact h ▸ settled_stable t
  | succeeded t _ _ _ h => exact h ▸ settled_stable t
  | failed t _ _ hasks h => exact h ▸ (origin_of_up hasks).1
  | down t _ _ _ h => exact h ▸ settled_stable t
  | settling _ h => exact h

theorem congr (h : Course s y) (hcur : s'.currentState = s.currentState) (hent : s'.entering = s.entering)
    (htim : s'.timeoutTask = s.timeoutTask) (hpost : s'.posted = s.posted) (hhal : s'.hal = s.hal) :
    Course s' y := by
  have hwaits : ∀ {t}, s.Waits t → s'.Waits t := by
    unfold State.Waits
    rw [hcur, hent, htim]
    exact id
  cases h with
  | stable h1 h2 h3 h4 h5 h6 =>
    exact .stable h1 (hcur.trans h2) (hent.trans h3) (htim.trans h4) (hpost ▸ h5) (hhal ▸ h6)
  | asked t a h1 h2 h3 h4 h5 => exact .asked t a (hwaits h1) h2 h3 (hpost.trans h4) (hhal.trans h5)
  | succeeded t a h1 h2 h3 h4 h5 => exact .succeeded t a (hwaits h1) h2 h3 (hpost.trans h4) (hhal.trans h5)
  | failed t a h1 h2 h3 h4 h5 => exact .failed t a (hwaits h1) h2 h3 (hpost.trans h4) (hhal.trans h5)
  | down t a h1 h2 h3 h4 h5 => exact .down t a (hwaits h1) h2 h3 (hpost ▸ h4) (hhal ▸ h5)
  | settling h1 h2 h3 h4 h5 h6 =>
    exact .settling (hcur ▸ h1) h2 (hent.trans h3) (htim.trans h4) (hpost ▸ h5) (hhal ▸ h6)

theorem at_rest (h : Course s y) (hcur : isTransient s.currentState = false) (hent : s.entering = none) :
    s.currentState = y ∧ s.timeoutTask = none ∧ (generals s.posted).length ≤ 1 ∧ Heading y s.hal := by
  have hno : ∀ {t a up}, s.Waits t → Asks up t a → False := by
    rintro t a up (⟨he, -⟩ | ⟨-, rfl, -⟩) hasks
    · rw [hent] at he
      cases he
    · rw [hasks.transient] at hcur
      cases hcur
  cases h with
  | stable _ h1 _ h2 h3 h4 => exact ⟨h1, h2, h3, h4⟩
  | asked _ _ h1 h2 => exact (hno h1 h2).elim
  | succeeded _ _ h1 h2 => exact (hno h1 h2).elim
  | failed _ _ h1 h2 => exact (hno h1 h2).elim
  | down _ _ h1 h2 => exact (hno h1 h2).elim
  | settling h1 => rw [hcur] at h1; cases h1

theorem agrees (h : Course s y) : s.Agrees := by
  intro hans
  simp only [State.isAnswered, Bool.and_eq_true, List.isEmpty_iff, isNone_iff_eq_none, Bool.not_eq_true'] at hans
  obtain ⟨⟨⟨hrun, -⟩, hent⟩, hcur⟩ := hans
  obtain ⟨rfl, -, -, hhal⟩ := h.at_rest hcur hent
  exact hhal.implies hcur hrun

/-! #### Answers -/

variable {a : GeneralAction}

theorem report (h : Course s y) (ha : s.hal.running.head? = some a)
    (hst : s.report a = some s') : Course s' y ∧ s'.coming = s.coming := by
  unfold State.report at hst
  obtain ⟨-, rfl⟩ := of_guard hst
  have hque : generals (s.posted ++ [.extra .success]) = generals s.posted := generals_append_extra _ _
  refine ⟨?_, ?_⟩
  swap
  · rw [coming_eq, coming_eq]
    exact congrArg (· ++ s.ready) hque
  cases h with
  | stable h1 h2 h3 h4 h5 h6 => exact .stable h1 h2 h3 h4 (hque ▸ h5) (h6.report ha)
  | down t b h1 h2 h3 h4 h5 => exact .down t b h1 h2 h3 (hque.trans h4) (h5.report ha)
  | settling h1 h2 h3 h4 h5 h6 => exact .settling h1 h2 h3 h4 (hque.trans h5) (h6.report ha)
  | succeeded _ _ _ _ _ _ hal => rw [hal] at ha; cases ha
  | failed _ _ _ _ _ _ hal => rw [hal] at ha; cases ha
  | asked t _ waits asks leads queue hal =>
    rw [hal] at ha
    cases ha
    refine .succeeded t a waits asks leads ?_ ?_
    · show s.posted ++ [.extra .success] = [.extra .success]
      rw [queue]
      rfl
    · show Hal.mk (s.hal.bits.set (getGeneralActionTargetEvent a)) (s.hal.running.erase a) = _
      rw [hal, erase_cons_head, (Heading.set_event asks.1).1, leads]

theorem fail (h : Course s y) (ha : s.hal.running.head? = some a) (hup : a.isUp = true)
    (hsafe : Safe y s.coming) (hst : s.fail a = some s') : ∃ z, Course s' z ∧ Safe z s'.coming := by
  unfold State.fail at hst
  obtain ⟨-, rfl⟩ := of_guard hst
  have hque : generals (s.posted ++ [.extra .failure]) = generals s.posted := generals_append_extra _ _
  have hcom : (s.answer a .failure).coming = s.coming := by
    rw [coming_eq, coming_eq]
    exact congrArg (· ++ s.ready) hque
  rw [hcom]
  cases h with
  | stable h1 h2 h3 h4 h5 h6 => exact ⟨y, .stable h1 h2 h3 h4 (hque ▸ h5) (h6.fail ha hup), hsafe⟩
  | down t b h1 h2 h3 h4 h5 => exact ⟨y, .down t b h1 h2 h3 (hque.trans h4) (h5.fail ha hup), hsafe⟩
  | settling h1 h2 h3 h4 h5 h6 => exact ⟨y, .settling h1 h2 h3 h4 (hque.trans h5) (h6.fail ha hup), hsafe⟩
  | succeeded _ _ _ _ _ _ hal => rw [hal] at ha; cases ha
  | failed _ _ _ _ _ _ hal => rw [hal] at ha; cases ha
  | asked t _ waits asks leads queue hal =>
    rw [hal] at ha
    cases ha
    refine ⟨origin t, .failed t a waits asks rfl ?_ ?_, hsafe.of_ne (origin_of_up asks).2.1⟩
    · show s.posted ++ [.extra .failure] = [.extra .failure]
      rw [queue]
      rfl
    · show Hal.mk s.hal.bits (s.hal.running.erase a) = _
      rw [hal, erase_cons_head]

/-! #### Transitions -/

theorem settle {extra : ExtraAction} (hque : generals s.posted = []) (hcur : isTransient s.currentState = true)
    (ht : transition s.currentState (.extra extra) = some y) (hne : y ≠ s.currentState) (hy : isTransient y = false)
    (hhal : Heading y s.hal) : Course (s.startTransition (.extra extra)) y ∧
      (s.startTransition (.extra extra)).coming = s.coming := by
  have hnone : getTransientStateTargetAction y = none := by
    unfold isTransient at hy
    exact not_isSome_iff_eq_none.mp (by rw [hy]; exact Bool.false_ne_true)
  unfold State.startTransition
  rw [ht]
  dsimp only
  rw [if_neg hne]
  refine ⟨.settling hcur hy rfl rfl hque ?_, rfl⟩
  show Heading y (s.onEnter y)
  unfold State.onEnter
  rw [hnone]
  exact hhal

theorem current_of_waits {t : GeneralState} (h : s.Waits t) (hstr : s.strand = .free) :
    s.currentState = t ∧ s.timeoutTask = some t := by
  rcases h with ⟨he, -⟩ | ⟨-, hc⟩
  · unfold State.entering at he
    rw [hstr] at he
    cases he
  · exact hc

theorem begin_general (hy : isTransient y = false) (hcur : s.currentState = y)
    (hent : s.entering = none) (htim : s.timeoutTask = none) (hpost : s.posted = [])
    (hhal : s.hal = ⟨bitsOf y, []⟩) (hsafe : Safe y (a :: s.ready)) :
    Course (s.startTransition (.general a)) (afterAction y a) ∧ (s.startTransition (.general a)).coming = s.ready := by
  have hcom : s.coming = s.ready := by
    rw [coming_eq, hpost]
    rfl
  have hque : (generals s.posted).length ≤ 1 := by
    rw [hpost]
    exact Nat.zero_le 1
  have hstay : afterAction y a = y → Course s (afterAction y a) := by
    intro he
    rw [he]
    exact .stable hy hcur hent htim hque (hhal ▸ .done)
  unfold State.startTransition
  cases ht : transition s.currentState (.general a) with
  | none =>
    refine ⟨hstay ?_, hcom⟩
    unfold afterAction
    rw [← hcur, ht]
  | some next =>
    have hafter : afterAction y a = settled next := by
      unfold afterAction
      rw [← hcur, ht]
    dsimp only
    split
    next hself =>
      refine ⟨hstay ?_, hcom⟩
      rw [hafter, hself, hcur]
      exact settled_of_stable hy
    next hself =>
      obtain ⟨hasks, horigin, hdo⟩ := doGeneralAction_asks hy hsafe.legal next (by rw [← hcur]; exact ht)
        (fun he => hself (he.trans hcur.symm))
      have henter : s.onEnter next = ⟨bitsOf (origin next), [a]⟩ := by
        unfold State.onEnter
        rw [hasks, horigin]
        dsimp only
        rw [hhal, hdo]
      refine ⟨?_, hcom⟩
      rw [hafter]
      rcases Bool.eq_false_or_eq_true a.isUp with hup | hdown
      · exact .asked next a (.inl ⟨rfl, rfl⟩) ⟨hasks, hup⟩ rfl hpost henter
      · refine .down next a (.inl ⟨rfl, rfl⟩) ⟨hasks, hdown⟩ rfl ?_ ?_
        · show generals s.posted = []
          rw [hpost]
          rfl
        · show Heading _ (s.onEnter next)
          rw [henter]
          exact .down ⟨hasks, hdown⟩ rfl (.inr rfl)

theorem begin_extra {extra : ExtraAction} {posted : List MachineAction} (h : Course s y) (hsafe : Safe y s.coming)
    (hpost : s.posted = .extra extra :: posted) (hstr : s.strand = .free) :
    Course ({ s with posted := posted }.startTransition (.extra extra)) y ∧
      ({ s with posted := posted }.startTransition (.extra extra)).coming = s.coming := by
  have hgens : generals s.posted = generals posted := by
    rw [hpost]
    rfl
  have hcom : State.coming { s with posted := posted } = s.coming := by
    rw [coming_eq, coming_eq, hgens]
  have hent : s.entering = none := by
    unfold State.entering
    rw [hstr]
  rw [← hcom]
  cases h with
  | stable h1 h2 h3 h4 h5 h6 =>
    have hnone : transition s.currentState (.extra extra) = none := by
      rw [h2]
      cases y <;> first | exact absurd h1 (by decide) | rfl
    unfold State.startTransition
    dsimp only
    rw [hnone]
    exact ⟨.stable h1 h2 h3 h4 (hgens ▸ h5) h6, rfl⟩
  | asked _ _ _ _ _ queue => rw [hpost] at queue; cases queue
  | succeeded t a waits asks leads queue hal =>
    rw [hpost] at queue
    obtain ⟨he, rfl⟩ := cons.inj queue
    obtain rfl := MachineAction.extra.inj he
    have hcur := (current_of_waits waits hstr).1
    obtain ⟨hnext, hne, -⟩ := transition_success asks.transient
    rw [leads] at hnext hne
    subst hcur
    exact settle rfl asks.transient hnext hne (leads ▸ settled_stable _) (hal ▸ .done)
  | failed t a waits asks leads queue hal =>
    rw [hpost] at queue
    obtain ⟨he, rfl⟩ := cons.inj queue
    obtain rfl := MachineAction.extra.inj he
    have hcur := (current_of_waits waits hstr).1
    obtain ⟨hy, -, hne, hnext⟩ := origin_of_up asks
    rw [leads] at hy hnext hne
    subst hcur
    exact settle rfl asks.transient hnext hne hy (hal ▸ .done)
  | down t a waits asks leads queue hal =>
    have hcur := (current_of_waits waits hstr).1
    obtain ⟨hnext, hne, hy⟩ := transition_of_down asks extra
    rw [leads] at hnext hne hy
    subst hcur
    exact settle (hgens ▸ queue) asks.transient hnext hne hy hal
  | settling _ _ h => rw [hent] at h; cases h

theorem assign (h : Course s y) (hst : s.assign = some s') : Course s' y ∧ s'.coming = s.coming := by
  unfold State.assign at hst
  split at hst
  next next hstr =>
    cases hst
    have hent : s.entering = some next := by
      unfold State.entering
      rw [hstr]
    have hwaits : ∀ {t}, s.Waits t → next = t := by
      rintro t (⟨he, -⟩ | ⟨he, -⟩)
      · exact some.inj (hent.symm.trans he)
      · rw [hent] at he
        cases he
    refine ⟨?_, rfl⟩
    cases h with
    | stable _ _ he => rw [hent] at he; cases he
    | asked t a waits asks leads queue hal =>
      obtain rfl := hwaits waits
      exact .asked next a (.inr ⟨rfl, rfl, if_pos asks.transient⟩) asks leads queue hal
    | succeeded t a waits asks leads queue hal =>
      obtain rfl := hwaits waits
      exact .succeeded next a (.inr ⟨rfl, rfl, if_pos asks.transient⟩) asks leads queue hal
    | failed t a waits asks leads queue hal =>
      obtain rfl := hwaits waits
      exact .failed next a (.inr ⟨rfl, rfl, if_pos asks.transient⟩) asks leads queue hal
    | down t a waits asks leads queue hal =>
      obtain rfl := hwaits waits
      exact .down next a (.inr ⟨rfl, rfl, if_pos asks.transient⟩) asks leads queue hal
    | settling _ hy entering _ queue hal =>
      obtain rfl := some.inj (hent.symm.trans entering)
      refine .stable hy rfl rfl ?_ ?_ hal
      · show (if isTransient next = true then some next else none) = none
        rw [hy]
        rfl
      · show (generals s.posted).length ≤ 1
        rw [queue]
        exact Nat.zero_le 1
  · cases hst

theorem turn {t u : GeneralState} {b : GeneralAction} (hcur : s.currentState = t)
    (hnext : transition t (.extra .timeout) = some u) (hne : u ≠ t) (hdown : Asks false u b) (hsett : settled u = y)
    (hque : generals s.posted = []) (hhal : Heading y (s.hal.doGeneralAction b)) :
    Course ({ s with timeoutTask := none }.startTransition (.extra .timeout)) y ∧
      ({ s with timeoutTask := none }.startTransition (.extra .timeout)).coming = s.coming := by
  subst hcur
  unfold State.startTransition
  dsimp only
  rw [hnext]
  dsimp only
  rw [if_neg hne]
  refine ⟨.down u b (.inl ⟨rfl, rfl⟩) hdown hsett hque ?_, rfl⟩
  show Heading _ (State.onEnter _ u)
  unfold State.onEnter
  rw [hdown.1]
  exact hhal

theorem timeout (h : Course s y) (hsafe : Safe y s.coming) (hst : s.timeout = some s') :
    ∃ z, Course s' z ∧ Safe z s'.coming := by
  unfold State.timeout at hst
  obtain ⟨⟨hstr, htim⟩, rfl⟩ := of_guard hst
  -- what the timeout does to an action that takes the HAL up
  have hturn : ∀ {t a}, s.Waits t → Asks true t a → generals s.posted = [] →
      s.hal = ⟨bitsOf (origin t), [a]⟩ ∨ s.hal = ⟨bitsOf (settled t), []⟩ ∨ s.hal = ⟨bitsOf (origin t), []⟩ →
      ∃ z, Course ({ s with timeoutTask := none }.startTransition (.extra .timeout)) z ∧
        Safe z ({ s with timeoutTask := none }.startTransition (.extra .timeout)).coming := by
    intro t a hwaits hup hque hhal
    obtain ⟨u, b, hnext, hne, hdown, hsett, horigin, hasked, hsucceeded, hfld⟩ := timeout_of_up hup
    have hheading : Heading (origin t) (s.hal.doGeneralAction b) := by
      rcases hhal with hhal | hhal | hhal
      · rw [hhal, hasked]
        exact .late hdown hsett hup horigin.symm
      · rw [hhal, hsucceeded]
        exact .down hdown hsett (.inr (by rw [horigin]))
      · rw [hhal, hfld]
        exact .done
    obtain ⟨hcrs, hcom⟩ :=
      turn (current_of_waits hwaits hstr).1 hnext hne hdown hsett hque hheading
    exact ⟨origin t, hcrs, by rw [hcom]; exact hsafe.of_ne (origin_of_up hup).2.1⟩
  cases h with
  | stable _ _ _ ht => rw [ht] at htim; cases htim
  | settling _ _ _ ht => rw [ht] at htim; cases htim
  | asked t a waits asks leads queue hal => exact hturn waits asks (by rw [queue]; rfl) (.inl hal)
  | succeeded t a waits asks leads queue hal =>
    exact hturn waits asks (by rw [queue]; rfl) (.inr (.inl (leads ▸ hal)))
  | failed t a waits asks leads queue hal =>
    exact hturn waits asks (by rw [queue]; rfl) (.inr (.inr (leads ▸ hal)))
  | down t a waits asks leads queue hal =>
    have hcur := (current_of_waits waits hstr).1
    obtain ⟨hnext, hne, hy⟩ := transition_of_down asks .timeout
    rw [leads] at hnext hne hy
    subst hcur
    obtain ⟨hcrs, hcom⟩ :=
      settle (s := { s with timeoutTask := none }) queue asks.transient hnext hne hy hal
    exact ⟨y, hcrs, by rw [hcom]; exact hsafe⟩

end Course

/-! ### Orderly runs -/

def MachineAction.isGeneral : MachineAction → Bool
  | .general _ => true
  | .extra _ => false

/-- A general action is taken when all answers have come and have been taken, the answers come in the order of the actions,
only actions that take the HAL up end with an error, and events come unexpected at rest only, from the HAL in the state
above. -/
def Orderly (s : State) : Label → Prop
  | .begin => ∀ action ∈ s.posted.head?, action.isGeneral = true →
      s.hal.running = [] ∧ ∀ other ∈ s.posted.tail, other.isGeneral = true
  | .report action => s.hal.running.head? = some action
  | .fail action => s.hal.running.head? = some action ∧ action.isUp = true
  | .unexpected event => event ∈ [GeneralEvent.disconnected, .stopped, .deinited] ∧
      s.hal.running = [] ∧ isTransient s.currentState = false ∧ s.entering = none ∧
      s.hal.bits.set event = bitsOf (getGeneralEventTargetState event)
  | _ => True

instance (s : State) : (label : Label) → Decidable (Orderly s label)
  | .begin => inferInstanceAs (Decidable (∀ _ ∈ _, _))
  | .report _ => inferInstanceAs (Decidable (_ = _))
  | .fail _ => inferInstanceAs (Decidable (_ ∧ _))
  | .unexpected _ => inferInstanceAs (Decidable (_ ∧ _))
  | .request _ | .call _ | .run _ | .task | .assign | .timeout => .isTrue trivial

/-- The course, with the task of the queue at work only in a stable state. -/
structure Agreeing (s : State) : Prop where
  course : ∃ y, Course s y ∧ Safe y s.coming
  making : ∀ id action, s.strand = .task id (.making action) →
    isTransient s.currentState = false ∧ generals s.posted = [] ∧ s.ready = []
  picking : ∀ id, s.strand = .task id .picking → isTransient s.currentState = false ∧ generals s.posted = []

namespace Agreeing

variable {s s' : State}

/-- After a step on the strand that leaves no task of the queue at work. -/
theorem of_course (hcrs : ∃ y, Course s' y ∧ Safe y s'.coming)
    (hstr : ∀ id stage, s'.strand = .task id stage → stage = .deciding ∨ stage = .leaving) : Agreeing s' := by
  refine ⟨hcrs, fun id action he => ?_, fun id he => ?_⟩
  · rcases hstr id _ he with h | h <;> cases h
  · rcases hstr id _ he with h | h <;> cases h

/-! #### Calls -/

theorem call_same {k : ℕ} (hst : s.call k = some s') : Serves.SameCourse s s' := by
  unfold State.call at hst
  split at hst
  · cases hst
  next action _ =>
    cases hst
    unfold State.check
    split
    · exact ⟨rfl, rfl, rfl, rfl, rfl, rfl, rfl⟩
    · exact ⟨rfl, rfl, rfl, rfl, rfl, rfl, rfl⟩
  · cases hst
    exact ⟨rfl, rfl, rfl, rfl, rfl, rfl, rfl⟩
  next action _ =>
    cases hst
    unfold State.look
    split
    · exact ⟨rfl, rfl, rfl, rfl, rfl, rfl, rfl⟩
    · exact ⟨rfl, rfl, rfl, rfl, rfl, rfl, rfl⟩
  · cases hst
    exact ⟨rfl, rfl, rfl, rfl, rfl, rfl, rfl⟩

theorem same (h : Agreeing s) (hs : Serves.SameCourse s s') : Agreeing s' := by
  obtain ⟨y, hcrs, hsafe⟩ := h.course
  have hent : s'.entering = s.entering := by
    unfold State.entering
    rw [hs.strand]
  have hcom : s'.coming = s.coming := by
    unfold State.coming
    rw [hs.posted, hs.ready]
  refine ⟨⟨y, hcrs.congr hs.currentState hent hs.timeoutTask hs.posted hs.hal, hcom ▸ hsafe⟩, ?_, ?_⟩
  · rw [hs.strand, hs.currentState, hs.posted, hs.ready]
    exact h.making
  · rw [hs.strand, hs.currentState, hs.posted]
    exact h.picking

/-! #### The task of the queue -/

theorem run {id : ℕ} (h : Agreeing s) (hst : s.run id = some s') : Agreeing s' := by
  unfold State.run at hst
  obtain ⟨y, hcrs, hsafe⟩ := h.course
  split at hst
  swap
  · cases hst
  next hfree =>
    have hent : s.entering = none := by
      unfold State.entering
      rw [hfree.1]
    split at hst
    · cases hst
      exact h
    next hidle =>
    obtain ⟨hcur, hpost⟩ := Serves.not_isActionRunning hidle
    have hgens : generals s.posted = [] := by
      rw [hpost]
      rfl
    split at hst
    · cases hst
      exact ⟨⟨y, hcrs.congr rfl hent.symm rfl rfl rfl, hsafe⟩, nofun, fun _ _ => ⟨hcur, hgens⟩⟩
    next hrdy =>
      split at hst
      · cases hst
        exact ⟨⟨y, hcrs.congr rfl hent.symm rfl rfl rfl, hsafe⟩, nofun, nofun⟩
      · cases hst
        exact ⟨⟨y, hcrs.congr rfl hent.symm rfl rfl rfl, hsafe⟩, fun _ _ _ => ⟨hcur, hgens, by_contra hrdy⟩, nofun⟩

theorem task (h : Agreeing s) (hst : s.task = some s') : Agreeing s' := by
  obtain ⟨y, hcrs, hsafe⟩ := h.course
  unfold State.task at hst
  have hno : ∀ {id stage}, s.strand = .task id stage → s.entering = none := by
    intro id stage hstr
    unfold State.entering
    rw [hstr]
  split at hst
  next id action hstr =>
    cases hst
    obtain ⟨hcur, hgens, hrdy⟩ := h.making id action hstr
    obtain ⟨-, -, -, hhal⟩ := hcrs.at_rest hcur (hno hstr)
    refine ⟨⟨y, hcrs.congr rfl (hno hstr).symm rfl rfl rfl, ?_⟩, nofun, fun _ _ => ⟨hcur, hgens⟩⟩
    show Safe y (generals s.posted ++ (s.ready ++ State.makeReady s.hal 3 action))
    rw [hgens, hrdy]
    exact hhal.safe hcrs.isStable action
  next id hstr =>
    cases hst
    obtain ⟨hcur, hgens⟩ := h.picking id hstr
    obtain ⟨hy, htim, -, hhal⟩ := hcrs.at_rest hcur (hno hstr)
    unfold State.pick
    split
    · exact of_course ⟨y, hcrs.congr rfl (hno hstr).symm rfl rfl rfl, hsafe⟩
        fun other stage he => .inr (Strand.task.inj he).2.symm
    next action ready hrdy =>
      have hque : generals (s.posted ++ [.general action]) = [action] := by
        unfold generals at hgens ⊢
        rw [filterMap_append, hgens]
        rfl
      refine of_course ⟨y, .stable hcrs.isStable hy rfl htim ?_ hhal, ?_⟩
        fun other stage he => .inl (Strand.task.inj he).2.symm
      · show (generals (s.posted ++ [.general action])).length ≤ 1
        rw [hque]
        exact Nat.le_refl 1
      · rw [coming_eq, hgens, hrdy] at hsafe
        show Safe y (generals (s.posted ++ [.general action]) ++ ready)
        rw [hque]
        exact hsafe
  next id hstr =>
    cases hst
    unfold State.decideEnd
    split
    · exact of_course ⟨y, hcrs.congr rfl (hno hstr).symm rfl rfl rfl, hsafe⟩
        fun other stage he => .inr (Strand.task.inj he).2.symm
    · exact of_course ⟨y, hcrs.congr rfl (hno hstr).symm rfl rfl rfl, hsafe⟩ nofun
  next id hstr =>
    cases hst
    exact of_course ⟨y, hcrs.congr rfl (hno hstr).symm rfl rfl rfl, hsafe⟩ nofun
  · cases hst

/-! #### The state machine and the HAL -/

theorem begin (h : Agreeing s) (hc : Orderly s .begin) (hst : s.begin = some s') : Agreeing s' := by
  obtain ⟨y, hcrs, hsafe⟩ := h.course
  unfold State.begin at hst
  split at hst
  · cases hst
  next action posted hpost =>
    obtain ⟨hstr, rfl⟩ := of_guard hst
    refine of_course ?_ fun id stage he =>
      absurd he (Serves.startTransition_strand (s := { s with posted := posted }) hstr id stage)
    cases action with
    | extra extra =>
      obtain ⟨hcrs', hcom⟩ := hcrs.begin_extra hsafe hpost hstr
      exact ⟨y, hcrs', hcom ▸ hsafe⟩
    | general a =>
      obtain ⟨hrun, htail⟩ := hc _ (by rw [hpost]; rfl) rfl
      rw [hpost] at htail
      have hque : generals s.posted ≠ [] := by
        rw [hpost]
        exact cons_ne_nil _ _
      cases hcrs with
      | asked _ _ _ _ _ queue => rw [queue] at hpost; cases hpost
      | succeeded _ _ _ _ _ queue => rw [queue] at hpost; cases hpost
      | failed _ _ _ _ _ queue => rw [queue] at hpost; cases hpost
      | down _ _ _ _ _ queue => exact absurd queue hque
      | settling _ _ _ _ queue => exact absurd queue hque
      | stable hy hcur hent htim hone hhal =>
        have hemp : posted = [] := by
          rw [hpost] at hone
          cases posted with
          | nil => rfl
          | cons other posted =>
            have hgeneral : other.isGeneral = true := htail other (mem_cons_self ..)
            cases other with
            | extra => cases hgeneral
            | general b =>
              have : (generals posted).length + 1 + 1 ≤ 1 := hone
              omega
        subst hemp
        have hcom : s.coming = a :: s.ready := by
          rw [coming_eq, hpost]
          rfl
        rw [hcom] at hsafe
        obtain ⟨hcrs', hcom'⟩ := Course.begin_general (s := { s with posted := [] }) hy hcur hent htim rfl
          (hhal.bits hrun) hsafe
        exact ⟨_, hcrs', by rw [hcom']; exact hsafe.after hy⟩

theorem answer {a : GeneralAction} {extra : ExtraAction} {hal : Hal} (h : Agreeing s)
    (hcrs : ∃ y, Course { s.answer a extra with hal := hal } y ∧ Safe y (s.answer a extra).coming) :
    Agreeing { s.answer a extra with hal := hal } := by
  have hque : generals (s.posted ++ [.extra extra]) = generals s.posted := generals_append_extra _ _
  refine ⟨hcrs, fun id action he => ?_, fun id he => ?_⟩
  · obtain ⟨h1, h2, h3⟩ := h.making id action he
    exact ⟨h1, hque.trans h2, h3⟩
  · obtain ⟨h1, h2⟩ := h.picking id he
    exact ⟨h1, hque.trans h2⟩

theorem unexpected {event : GeneralEvent} (h : Agreeing s) (hc : Orderly s (.unexpected event)) :
    Agreeing (s.unexpected event) := by
  obtain ⟨hevent, hrun, hcur, hent, hbits⟩ := hc
  obtain ⟨y, hcrs, hsafe⟩ := h.course
  obtain ⟨-, -, hque, -⟩ := hcrs.at_rest hcur hent
  have htgt : isTransient (getGeneralEventTargetState event) = false ∧
      getGeneralEventTargetState event ≠ .connected := by
    cases event <;> first | exact absurd hevent (by decide) | exact ⟨rfl, by decide⟩
  have hhal : (s.unexpected event).hal = ⟨bitsOf (getGeneralEventTargetState event), []⟩ := by
    show Hal.mk (s.hal.bits.set event) s.hal.running = _
    rw [hbits, hrun]
  refine ⟨⟨_, .stable htgt.1 rfl hent rfl hque (hhal ▸ .done), hsafe.of_ne htgt.2⟩, ?_, ?_⟩
  · exact fun id action he => ⟨htgt.1, (h.making id action he).2⟩
  · exact fun id he => ⟨htgt.1, (h.picking id he).2⟩

end Agreeing

theorem agreeing_inductive : machine.Inductive Orderly Agreeing where
  init := by
    rintro s rfl
    refine ⟨⟨.idle, .stable rfl rfl rfl rfl (Nat.zero_le 1) .done, nofun⟩, nofun, nofun⟩
  step := by
    intro s label s' h hc hst
    have hst : step s label = some s' := hst
    obtain ⟨y, hcrs, hsafe⟩ := h.course
    cases label with
    | request action =>
      cases hst
      exact h.same ⟨rfl, rfl, rfl, rfl, rfl, rfl, rfl⟩
    | call k => exact h.same (Agreeing.call_same hst)
    | run id => exact h.run hst
    | task => exact h.task hst
    | begin => exact h.begin hc hst
    | assign =>
      obtain ⟨hcrs', hcom⟩ := hcrs.assign hst
      refine Agreeing.of_course ⟨y, hcrs', hcom ▸ hsafe⟩ ?_
      have hst : s.assign = some s' := hst
      unfold State.assign at hst
      split at hst
      · cases hst
        exact nofun
      · cases hst
    | timeout =>
      refine Agreeing.of_course (hcrs.timeout hsafe hst) ?_
      have hst : s.timeout = some s' := hst
      unfold State.timeout at hst
      obtain ⟨⟨hstr, -⟩, rfl⟩ := of_guard hst
      exact fun id stage he =>
        absurd he (Serves.startTransition_strand (s := { s with timeoutTask := none }) hstr id stage)
    | report action =>
      obtain ⟨hcrs', hcom⟩ := hcrs.report hc hst
      have hst : s.report action = some s' := hst
      unfold State.report at hst
      obtain ⟨-, rfl⟩ := of_guard hst
      exact h.answer ⟨y, hcrs', hcom ▸ hsafe⟩
    | fail action =>
      have hcrs' := hcrs.fail hc.1 hc.2 hsafe hst
      have hst : s.fail action = some s' := hst
      unfold State.fail at hst
      obtain ⟨-, rfl⟩ := of_guard hst
      exact h.answer hcrs'
    | unexpected event =>
      cases hst
      exact h.unexpected hc

/-- **The state machine and the HAL.** In every orderly run they agree whenever all answers have come. -/
theorem machine_agrees {s : State} (h : machine.Reach Orderly s) : s.Agrees := by
  obtain ⟨y, hcrs, -⟩ := (agreeing_inductive.reach h).course
  exact hcrs.agrees

/-! ### Runs -/

/-- `Start` is requested, and times out. -/
def timeoutRun : List Label :=
  requestRun .start true ++ [.run 1, .task, .task, .task] ++ transitionRun .init ++
    [.run 1, .task, .task, .task, .begin, .assign, .timeout, .assign]

def orderlyRun : List Label :=
  timeoutRun ++ [.report .start, .begin, .assign, .report .stop, .begin]

def lateRun : List Label :=
  timeoutRun ++ [.report .stop, .begin, .assign, .report .start, .begin]

theorem machine_agrees_orderlyRun :
    ∃ s, machine.Reach Orderly s ∧ s.isAnswered = true ∧ s.currentState = .inited ∧ s.Agrees := by
  obtain ⟨s, hs, hfacts⟩ := map_eq_some_iff.mp (by decide +kernel :
    (machine.execWhen Orderly {} orderlyRun).map (fun s => (s.isAnswered, s.currentState)) = some (true, .inited))
  have hreach : machine.Reach Orderly s := .execWhen (.init rfl) hs
  obtain ⟨hans, hcur⟩ := Prod.mk.inj hfacts
  exact ⟨s, hreach, hans, hcur, machine_agrees hreach⟩

theorem machine_agrees_lateRun : ¬ machine.Always State.Agrees {} lateRun := by
  intro halw
  obtain ⟨s, hs, hfacts⟩ := map_eq_some_iff.mp (by decide +kernel : (machine.exec {} lateRun).map
      (fun s => (s.isAnswered, s.currentState, s.hal.isGeneralEventReady .started)) =
      some (true, .inited, true))
  obtain ⟨hans, hrest⟩ := Prod.mk.inj hfacts
  obtain ⟨hcur, hstd⟩ := Prod.mk.inj hrest
  have hnot : s.hal.isGeneralEventReady .started = false := ((halw.exec hs hans).inited.mp hcur).2.1
  rw [hstd] at hnot
  cases hnot

end Brookesia.Wifi.Actions
