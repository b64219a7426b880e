import Brookesia.Signal.Model

/-! # Delivery of signals

What an emission calls, for every interleaving of the threads, and what a disconnect promises: it ends
the calls that were not on their way. It does not wait for a slot that another thread runs, and an
emission that has found the slot connected before still calls it (`gapRun`). -/

namespace Brookesia.Signal

open Transition List Option
open Function (update update_of_ne update_apply)

variable {s s' : State} {t : Thread} {e : Emission} {label : Label}

/-- The numbers of the emissions that are in `slot`, or will be without another test. -/
def Inside (s : State) (slot : Slot) : Set Nat :=
  {id | ∃ t e, .emission e ∈ s.activities t ∧ e.id = id ∧ (Activity.emission e).inside slot = true}

/-- `s'` comes after `s` in a run. -/
def Leads : State → State → Prop :=
  Relation.ReflTransGen fun s s' => ∃ label, step s label = some s'

/-- The steps by which the connection of `slot` is ended. -/
def Disconnects (s : State) (slot : Slot) : Label → Prop
  | .disconnect _ c => c = slot
  | .assign _ object _ => s.scopedConnections object = some slot
  | .moveAssign _ object source => object ≠ source ∧ s.scopedConnections object = some slot
  | .destroy _ object => s.scopedConnections object = some slot
  | .advance t => ∃ index rest, s.activities t = .clearing index :: rest ∧ s.slots.length ≤ index ∧ slot ∈ s.slots
  | .connect _ | .release _ _ | .disconnectAllSlots _ | .emit _ => False

structure Delivers (s : State) : Prop where
  /-- An emission has called slots in the order of their connection, and none twice. -/
  once : ∀ began called, .emitted began called ∈ s.history → called.Pairwise (· < ·)
  /-- It has called each slot that was connected before it began and still is. -/
  complete : ∀ began called, .emitted began called ∈ s.history → ∀ slot < began, s.connected slot = true → slot ∈ called
  kept : ∀ slot, s.connected slot = true → slot ∈ s.slots

/-- The slots an emission has called or will come to, in their order. -/
def Emission.course (e : Emission) : List Slot :=
  match e.phase with
  | .starting slot => e.called ++ slot :: e.rest
  | _ => e.called ++ e.rest

/-- An emission keeps the order, and loses no slot that was connected before it and still is. -/
structure Emission.Sound (nextSlot : Slot) (connected : Slot → Bool) (e : Emission) : Prop where
  bounded : e.began ≤ nextSlot
  sorted : e.course.Pairwise (· < ·)
  covers : ∀ slot < e.began, connected slot = true → slot ∈ e.course
  ended : ∀ index, e.phase = .pruning index → e.rest = []

/-- What `disconnect_all_slots` has come past is disconnected. -/
def Activity.Sound (s : State) : Activity → Prop
  | .emission e => e.Sound s.nextSlot s.connected
  | .clearing index => ∀ i < index, ∀ slot, s.slots[i]? = some slot → s.connected slot = false

/-- What is written of an emission that has returned. -/
structure Event.Sound (nextSlot : Slot) (connected : Slot → Bool) (began : Slot) (called : List Slot) : Prop where
  bounded : began ≤ nextSlot
  once : called.Pairwise (· < ·)
  complete : ∀ slot < began, connected slot = true → slot ∈ called

structure Inv (s : State) : Prop where
  sorted : s.slots.Pairwise (· < ·)
  below : ∀ slot ∈ s.slots, slot < s.nextSlot
  kept : ∀ slot, s.connected slot = true → slot ∈ s.slots
  sound : ∀ t, ∀ a ∈ s.activities t, a.Sound s
  nested : ∀ t, ∀ a ∈ (s.activities t).tail, a.isRunning = true
  holds : ∀ t, ∀ a ∈ s.activities t, a.locks = true → s.mutex = some t
  returned : ∀ began called, .emitted began called ∈ s.history → Event.Sound s.nextSlot s.connected began called
  scopes : ∀ object slot, s.scopedConnections object = some slot → slot < s.nextSlot

theorem Inv.delivers (h : Inv s) : Delivers s where
  once := fun began called hmem => (h.returned began called hmem).once
  complete := fun began called hmem => (h.returned began called hmem).complete
  kept := h.kept

/-! ### The lock -/

variable {a : Activity} {rest : List Activity} {slot : Slot}

theorem not_locks_of_isRunning (h : a.isRunning = true) : a.locks = false := by
  cases a with
  | clearing index => cases h
  | emission e => cases hph : e.phase <;> simp_all [Activity.isRunning, Activity.locks]

theorem Inv.not_locks (h : Inv s) (hfree : s.mutex = none) (ha : a ∈ s.activities t) : a.locks = false := by
  by_contra hlocks
  have hmutex := h.holds t a ha (Bool.eq_true_of_not_eq_false hlocks)
  rw [hfree] at hmutex
  cases hmutex

theorem Inv.eq_of_locks (h : Inv s) {b : Activity} (hact : s.activities t = a :: rest)
    (ha : a.locks = true) {u : Thread} (hb : b ∈ s.activities u) (hlocks : b.locks = true) : u = t ∧ b = a := by
  have hu : u = t := by
    have hmutex := h.holds u b hb hlocks
    rw [h.holds t a (hact ▸ mem_cons_self) ha] at hmutex
    exact (some.inj hmutex).symm
  subst hu
  refine ⟨rfl, ?_⟩
  rw [hact] at hb
  obtain rfl | hb := mem_cons.mp hb
  · rfl
  · have hnot := not_locks_of_isRunning (h.nested u b (by rw [hact]; exact hb))
    rw [hlocks] at hnot
    cases hnot

/-! ### Flags -/

section

variable {next next' : Slot} {connected connected' : Slot → Bool}

theorem Emission.Sound.mono (h : e.Sound next connected) (hnext : next ≤ next')
    (hcon : ∀ slot < next, connected' slot = true → connected slot = true) : e.Sound next' connected' where
  bounded := le_trans h.bounded hnext
  sorted := h.sorted
  covers := fun slot hslot hconn => h.covers slot hslot (hcon slot (lt_of_lt_of_le hslot h.bounded) hconn)
  ended := h.ended

theorem Emission.Sound.of_course (h : e.Sound next connected) {e' : Emission} (hbegan : e'.began = e.began)
    (hcrs : e'.course = e.course) (hended : ∀ index, e'.phase = .pruning index → e'.rest = []) :
    e'.Sound next connected where
  bounded := hbegan ▸ h.bounded
  sorted := hcrs ▸ h.sorted
  covers := fun slot hslot hconn => hcrs ▸ h.covers slot (hbegan ▸ hslot) hconn
  ended := hended

theorem Event.Sound.mono {began : Slot} {called : List Slot} (h : Event.Sound next connected began called)
    (hnext : next ≤ next') (hcon : ∀ slot < next, connected' slot = true → connected slot = true) :
    Event.Sound next' connected' began called where
  bounded := le_trans h.bounded hnext
  once := h.once
  complete := fun slot hslot hconn => h.complete slot hslot (hcon slot (lt_of_lt_of_le hslot h.bounded) hconn)

end

theorem Inv.silence (h : Inv s) {connected : Slot → Bool} (scopedConnections : Nat → Option Slot)
    (hfewer : ∀ slot, connected slot = true → s.connected slot = true)
    (hscopes : ∀ object slot, scopedConnections object = some slot → slot < s.nextSlot) :
    Inv { s with connected := connected, scopedConnections := scopedConnections } := by
  refine ⟨h.sorted, h.below, fun slot hconn => h.kept slot (hfewer slot hconn), fun t a ha => ?_, h.nested, h.holds, ?_,
    hscopes⟩
  · have hsound := h.sound t a ha
    cases a with
    | emission e => exact Emission.Sound.mono hsound le_rfl fun slot _ => hfewer slot
    | clearing index =>
      intro i hi slot hslot
      have hoff : s.connected slot = false := hsound i hi slot hslot
      by_contra hon
      have hstill := hfewer slot (Bool.eq_true_of_not_eq_false hon)
      rw [hoff] at hstill
      cases hstill
  · exact fun began called hmem => (h.returned began called hmem).mono le_rfl fun slot _ => hfewer slot

theorem update_false {connected : Slot → Bool} {c : Slot} (h : update connected c false slot = true) :
    connected slot = true := by
  rw [update_apply] at h
  split at h
  · cases h
  · exact h

theorem Inv.disconnect (h : Inv s) (slot : Slot) : Inv (disconnect s slot) :=
  h.silence s.scopedConnections (fun _ => update_false) h.scopes

theorem Inv.setScoped (h : Inv s) (object : Nat) {slot : Option Slot} (hslot : ∀ c, slot = some c → c < s.nextSlot) :
    Inv (setScoped s object slot) := by
  refine h.silence _ (fun _ => id) fun other c hc => ?_
  rw [update_apply] at hc
  split at hc
  · exact hslot c hc
  · exact h.scopes other c hc

theorem disconnectScoped_nextSlot (s : State) (object : Nat) : (disconnectScoped s object).nextSlot = s.nextSlot := by
  unfold disconnectScoped
  split <;> rfl

theorem Inv.disconnectScoped (h : Inv s) (object : Nat) : Inv (disconnectScoped s object) := by
  unfold Signal.disconnectScoped
  split
  · exact h
  · exact h.disconnect _

theorem Inv.connect (h : Inv s) (hfree : s.mutex = none) : Inv (connect s) := by
  have hcon : ∀ slot < s.nextSlot, (Signal.connect s).connected slot = true → s.connected slot = true := by
    intro slot hslot hconn
    exact (update_of_ne (Nat.ne_of_lt hslot) true s.connected) ▸ hconn
  refine ⟨?_, ?_, ?_, fun t a ha => ?_, h.nested, h.holds, ?_, ?_⟩
  · refine pairwise_append.mpr ⟨h.sorted, pairwise_singleton _ _, fun x hx y hy => ?_⟩
    rw [mem_singleton.mp hy]
    exact h.below x hx
  · intro slot hslot
    obtain hslot | hslot := mem_append.mp hslot
    · exact Nat.lt_succ_of_lt (h.below slot hslot)
    · rw [mem_singleton.mp hslot]
      exact Nat.lt_succ_self _
  · intro slot hconn
    by_cases hslot : slot = s.nextSlot
    · exact mem_append_right _ (mem_singleton.mpr hslot)
    · have hold : s.connected slot = true := (update_of_ne hslot true s.connected) ▸ hconn
      exact mem_append_left _ (h.kept slot hold)
  · have hlocks := h.not_locks hfree ha
    cases a with
    | emission e => exact Emission.Sound.mono (h.sound t _ ha) (Nat.le_succ _) hcon
    | clearing index => cases hlocks
  · exact fun began called hmem => (h.returned began called hmem).mono (Nat.le_succ _) hcon
  · exact fun object slot hslot => Nat.lt_succ_of_lt (h.scopes object slot hslot)

/-! ### Activities -/

theorem Inv.begin (h : Inv s) (hth : free s t = true) (hfree : s.mutex = none) (activity : Activity)
    {mutex : Option Thread} (next : Nat) (hsound : activity.Sound s) (hlock : activity.locks = true → mutex = some t) :
    Inv { s with
      mutex := mutex
      activities := update s.activities t (activity :: s.activities t)
      nextEmission := next } := by
  refine ⟨h.sorted, h.below, h.kept, fun u a ha => ?_, fun u a ha => ?_, fun u a ha hlocks => ?_, h.returned, h.scopes⟩
  · dsimp only at ha
    rw [update_apply] at ha
    split at ha
    · obtain rfl | ha := mem_cons.mp ha
      · cases a <;> exact hsound
      · have := h.sound t a ha
        cases a <;> exact this
    · have := h.sound u a ha
      cases a <;> exact this
  · dsimp only at ha
    rw [update_apply] at ha
    split at ha
    · rw [tail_cons] at ha
      unfold free at hth
      cases hact : s.activities t with
      | nil => simp [hact] at ha
      | cons b rest =>
        rw [hact] at ha hth
        obtain rfl | ha := mem_cons.mp ha
        · exact hth
        · exact h.nested t a (by rw [hact]; exact ha)
    · exact h.nested u a ha
  · dsimp only at ha
    rw [update_apply] at ha
    split at ha
    · next heq =>
      obtain rfl | ha := mem_cons.mp ha
      · exact heq ▸ hlock hlocks
      · rw [h.not_locks hfree ha] at hlocks
        cases hlocks
    · rw [h.not_locks hfree ha] at hlocks
      cases hlocks

theorem Inv.emit (h : Inv s) (hth : free s t = true) (hfree : s.mutex = none) : Inv (emit s t) := by
  refine h.begin hth hfree (.emission _) _ ⟨le_rfl, h.sorted, fun slot _ => h.kept slot, fun index hph => ?_⟩ fun hlocks => ?_
  · cases hph
  · cases hlocks

theorem Inv.disconnectAllSlots (h : Inv s) (hth : free s t = true) (hfree : s.mutex = none) :
    Inv (disconnectAllSlots s t) :=
  h.begin hth hfree (.clearing 0) _ (fun i hi => absurd hi (Nat.not_lt_zero i)) fun _ => rfl

/-- The innermost activity of a thread is replaced or ends; it may take the lock or give it back. -/
theorem Inv.replaceTop (h : Inv s) {a : Activity} {rest : List Activity} (hact : s.activities t = a :: rest)
    (activities : List Activity) (mutex : Option Thread) (hone : activities.length ≤ 1) (hsound : ∀ b ∈ activities, b.Sound s)
    (hlock : ∀ b ∈ activities, b.locks = true → mutex = some t)
    (hoths : ∀ u, ∀ b ∈ s.activities u, b.locks = true → (u = t ∧ b = a) ∨ mutex = some u) :
    Inv (replaceTop { s with mutex := mutex } t activities) := by
  have htail : (s.activities t).tail = rest := by rw [hact]; rfl
  have hrest : ∀ b ∈ rest, b ∈ s.activities t := fun b hb => hact ▸ mem_cons_of_mem a hb
  refine ⟨h.sorted, h.below, h.kept, fun u b hb => ?_, fun u b hb => ?_, fun u b hb hlocks => ?_, h.returned, h.scopes⟩
  · have hb : b.Sound s := by
      simp only [Signal.replaceTop, update_apply, htail] at hb
      split at hb
      · obtain hb | hb := mem_append.mp hb
        · exact hsound b hb
        · exact h.sound t b (hrest b hb)
      · exact h.sound u b hb
    cases b <;> exact hb
  · simp only [Signal.replaceTop, update_apply, htail] at hb
    split at hb
    · refine h.nested t b ?_
      rw [htail]
      cases activities with
      | nil => exact mem_of_mem_tail hb
      | cons c others =>
        have hnil : others = [] := length_eq_zero_iff.mp (by simp only [length_cons] at hone; omega)
        rw [hnil] at hb
        exact hb
    · exact h.nested u b hb
  · simp only [Signal.replaceTop, update_apply, htail] at hb
    change mutex = some u
    split at hb
    · next heq =>
      obtain hb | hb := mem_append.mp hb
      · exact heq ▸ hlock b hb hlocks
      · have hnot := not_locks_of_isRunning (h.nested t b (by rw [htail]; exact hb))
        rw [hlocks] at hnot
        cases hnot
    · next hne =>
      obtain ⟨heq, -⟩ | hmutex := hoths u b hb hlocks
      · exact absurd heq hne
      · exact hmutex

theorem Inv.advance (h : Inv s) (hact : s.activities t = a :: rest) (b : Activity)
    (hsound : b.Sound s) (hlocks : b.locks = true → a.locks = true) : Inv (Signal.replaceTop s t [b]) := by
  refine h.replaceTop hact [b] s.mutex le_rfl ?_ ?_ fun u c hc hclocks => .inr (h.holds u c hc hclocks)
  · rintro c hc
    rw [mem_singleton.mp hc]
    exact hsound
  · rintro c hc hclocks
    rw [mem_singleton.mp hc] at hclocks
    exact h.holds t a (hact ▸ mem_cons_self) (hlocks hclocks)

theorem Inv.returnEmission (h : Inv s) {rest : List Activity} (hact : s.activities t = .emission e :: rest)
    (mutex : Option Thread) (hph : ∀ slot, e.phase ≠ .starting slot) (hrest : e.rest = [])
    (hoths : ∀ u, ∀ b ∈ s.activities u, b.locks = true → (u = t ∧ b = .emission e) ∨ mutex = some u) :
    Inv (returnEmission { s with mutex := mutex } t e) := by
  have hsound : e.Sound s.nextSlot s.connected := h.sound t (.emission e) (hact ▸ mem_cons_self)
  have hcrs : e.course = e.called := by
    unfold Emission.course
    cases hp : e.phase with
    | starting slot => exact absurd hp (hph slot)
    | testing => simp [hrest]
    | running slot => simp [hrest]
    | pruning index => simp [hrest]
  have hlog : Inv { s with history := .emitted e.began e.called :: s.history } := by
    refine ⟨h.sorted, h.below, h.kept, fun u b hb => ?_, h.nested, h.holds, fun began called hmem => ?_, h.scopes⟩
    · have := h.sound u b hb
      cases b <;> exact this
    · obtain heq | hmem := mem_cons.mp hmem
      · obtain ⟨rfl, rfl⟩ := Event.emitted.inj heq
        exact ⟨hsound.bounded, hcrs ▸ hsound.sorted, hcrs ▸ hsound.covers⟩
      · exact h.returned began called hmem
  exact hlog.replaceTop hact [] mutex (Nat.zero_le _) (fun b hb => absurd hb not_mem_nil)
    (fun b hb => absurd hb not_mem_nil) hoths

theorem Inv.erase (h : Inv s) {index : Nat} (hact : s.activities t = .emission e :: rest)
    (hph : e.phase = .pruning index) (hslot : s.slots[index]? = some slot) (hoff : s.connected slot ≠ true) :
    Inv { s with slots := s.slots.eraseIdx index } := by
  have hlocks : (Activity.emission e).locks = true := by simp [Activity.locks, hph]
  have hsub : (s.slots.eraseIdx index).Sublist s.slots := eraseIdx_sublist _ _
  refine ⟨h.sorted.sublist hsub, fun c hc => h.below c (hsub.subset hc), fun c hc => ?_, fun u b hb => ?_, h.nested, h.holds,
    h.returned, h.scopes⟩
  · obtain ⟨i, hi⟩ := mem_iff_getElem?.mp (h.kept c hc)
    refine mem_eraseIdx_iff_getElem?.mpr ⟨i, ?_, hi⟩
    rintro rfl
    rw [hslot] at hi
    exact hoff (some.inj hi ▸ hc)
  · cases b with
    | emission e' => exact h.sound u _ hb
    | clearing i => exact absurd (h.eq_of_locks hact hlocks hb rfl).2 Activity.noConfusion

theorem Inv.advanceEmission (h : Inv s) (hact : s.activities t = .emission e :: rest)
    (hst : advanceEmission s t e = some s') : Inv s' := by
  have hsound : e.Sound s.nextSlot s.connected := h.sound t (.emission e) (hact ▸ mem_cons_self)
  have hkeeps : ∀ u, ∀ b ∈ s.activities u, b.locks = true → (u = t ∧ b = .emission e) ∨ s.mutex = some u :=
    fun u b hb hlocks => .inr (h.holds u b hb hlocks)
  unfold Signal.advanceEmission at hst
  cases hph : e.phase with
  | testing =>
    have hcrs : e.course = e.called ++ e.rest := by simp [Emission.course, hph]
    rw [hph] at hst
    cases hrest : e.rest with
    | cons slot left =>
      rw [hrest] at hst hcrs
      dsimp only at hst
      split at hst
      · cases hst
        refine h.advance hact _ (hsound.of_course rfl ?_ fun index hp => Phase.noConfusion hp) fun hlocks => ?_
        · simp [Emission.course, hph, hrest]
        · cases hlocks
      · next hoff =>
        cases hst
        have hsub : (e.called ++ left).Sublist e.course :=
          hcrs ▸ (Sublist.refl e.called).append (sublist_cons_self slot left)
        refine h.advance hact _ ⟨hsound.bounded, ?_, fun c hc hconn => ?_, fun index hp => ?_⟩ fun hlocks => ?_
        · simpa [Emission.course, hph] using hsound.sorted.sublist hsub
        · have hmem := hsound.covers c hc hconn
          rw [hcrs, mem_append, mem_cons] at hmem
          have hne : c ≠ slot := by
            rintro rfl
            exact hoff hconn
          simpa [Emission.course, hph, hne] using hmem
        · simp at hp
        · simp [Activity.locks] at hlocks
    | nil =>
      rw [hrest] at hst
      dsimp only at hst
      split at hst
      · obtain ⟨hfree, rfl⟩ := of_guard hst
        refine h.replaceTop hact [_] (some t) le_rfl (fun b hb => ?_) (fun _ _ _ => rfl) fun u b hb hlocks => ?_
        · rw [mem_singleton.mp hb]
          refine hsound.of_course rfl ?_ fun _ _ => rfl
          simp [Emission.course, hph, hrest]
        · rw [h.not_locks hfree hb] at hlocks
          cases hlocks
      · cases hst
        exact h.returnEmission hact s.mutex (fun slot => by simp [hph]) hrest hkeeps
  | starting slot =>
    rw [hph] at hst
    cases hst
    refine h.advance hact _ (hsound.of_course rfl ?_ fun index hp => Phase.noConfusion hp) fun hlocks => ?_
    · simp [Emission.course, hph]
    · cases hlocks
  | running slot =>
    rw [hph] at hst
    cases hst
    refine h.advance hact _ (hsound.of_course rfl ?_ fun index hp => Phase.noConfusion hp) fun hlocks => ?_
    · simp [Emission.course, hph]
    · cases hlocks
  | pruning index =>
    have hrest := hsound.ended index hph
    have hlocks : (Activity.emission e).locks = true := by simp [Activity.locks, hph]
    rw [hph] at hst
    dsimp only at hst
    split at hst
    · next slot hslot =>
      split at hst
      · cases hst
        refine h.advance hact _ (hsound.of_course rfl ?_ fun _ _ => hrest) fun _ => hlocks
        simp [Emission.course, hph]
      · next hoff =>
        cases hst
        exact h.erase hact hph hslot hoff
    · cases hst
      exact h.returnEmission hact none (fun slot => by simp [hph]) hrest fun u b hb hb' => .inl (h.eq_of_locks hact hlocks hb hb')

theorem Inv.advanceClearing (h : Inv s) {index : Nat} {rest : List Activity} (hact : s.activities t = .clearing index :: rest) :
    Inv (advanceClearing s t index) := by
  have hsound : ∀ i < index, ∀ slot, s.slots[i]? = some slot → s.connected slot = false :=
    h.sound t (.clearing index) (hact ▸ mem_cons_self)
  unfold Signal.advanceClearing
  split
  · next slot hslot =>
    refine (h.disconnect slot).advance hact (.clearing (index + 1)) (fun i hi c hc => ?_) fun _ => rfl
    change update s.connected slot false c = false
    rw [update_apply]
    split
    · rfl
    · next hne =>
      refine hsound i (Nat.lt_of_le_of_ne (Nat.le_of_lt_succ hi) ?_) c hc
      rintro rfl
      exact hne (some.inj (hc.symm.trans hslot))
  · next hend =>
    have hoff : ∀ slot, s.connected slot ≠ true := fun slot hconn => by
      obtain ⟨i, hi⟩ := mem_iff_getElem?.mp (h.kept slot hconn)
      have hlt : i < s.slots.length := (List.getElem?_eq_some_iff.mp hi).1
      have hle : s.slots.length ≤ index := List.getElem?_eq_none_iff.mp hend
      rw [hsound i (lt_of_lt_of_le hlt hle) slot hi] at hconn
      cases hconn
    have hemp : Inv { s with slots := [] } := by
      refine ⟨.nil, fun c hc => absurd hc not_mem_nil, fun c hc => absurd hc (hoff c), fun u b hb => ?_, h.nested, h.holds,
        h.returned, h.scopes⟩
      cases b with
      | emission e => exact h.sound u _ hb
      | clearing i => exact fun j _ c hc => absurd hc (by simp)
    exact hemp.replaceTop hact [] none (Nat.zero_le _) (fun b hb => absurd hb not_mem_nil)
      (fun b hb => absurd hb not_mem_nil) fun u b hb hb' => .inl (h.eq_of_locks hact rfl hb hb')

theorem inv_init : Inv init where
  sorted := .nil
  below := fun _ hslot => absurd hslot not_mem_nil
  kept := fun _ hconn => absurd hconn Bool.false_ne_true
  sound := fun _ _ ha => absurd ha not_mem_nil
  nested := fun _ _ ha => absurd ha not_mem_nil
  holds := fun _ _ ha => absurd ha not_mem_nil
  returned := fun _ _ hmem => absurd hmem not_mem_nil
  scopes := fun _ slot hslot => absurd hslot (some_ne_none slot).symm

theorem inv_inductive : machine.Inductive (fun _ _ => True) Inv where
  init := by
    rintro _ rfl
    exact inv_init
  step := by
    intro s label s' h _ hst
    have hst : step s label = some s' := hst
    unfold step at hst
    cases label with
    | connect t =>
      obtain ⟨⟨-, hfree⟩, rfl⟩ := of_guard hst
      exact h.connect hfree
    | disconnect t slot =>
      obtain ⟨-, rfl⟩ := of_guard hst
      exact h.disconnect slot
    | assign t object slot =>
      obtain ⟨⟨-, hslot⟩, rfl⟩ := of_guard hst
      refine (h.disconnectScoped object).setScoped object fun c hc => ?_
      rw [disconnectScoped_nextSlot]
      exact some.inj hc ▸ hslot
    | moveAssign t object source =>
      obtain ⟨-, rfl⟩ := of_guard hst
      unfold moveAssign
      split
      · exact h
      · refine ((h.disconnectScoped object).setScoped object fun c hc => ?_).setScoped source fun c hc => ?_
        · rw [disconnectScoped_nextSlot]
          exact h.scopes source c hc
        · cases hc
    | destroy t object =>
      obtain ⟨-, rfl⟩ := of_guard hst
      exact (h.disconnectScoped object).setScoped object fun c hc => absurd hc (some_ne_none c).symm
    | release t object =>
      obtain ⟨-, rfl⟩ := of_guard hst
      exact h.setScoped object fun c hc => absurd hc (some_ne_none c).symm
    | disconnectAllSlots t =>
      obtain ⟨⟨hth, hfree⟩, rfl⟩ := of_guard hst
      exact h.disconnectAllSlots hth hfree
    | emit t =>
      obtain ⟨⟨hth, hfree⟩, rfl⟩ := of_guard hst
      exact h.emit hth hfree
    | advance t =>
      dsimp only at hst
      split at hst
      · cases hst
      · next e rest hact => exact h.advanceEmission hact hst
      · next index rest hact =>
        cases hst
        exact h.advanceClearing hact

/-! ### Disconnected slots -/

/-- The activities of `s'` in `slot` are those of `s`. -/
def Quiet (s s' : State) (slot : Slot) : Prop :=
  ∀ t e, .emission e ∈ s'.activities t → (Activity.emission e).inside slot = true →
    ∃ u e', .emission e' ∈ s.activities u ∧ e'.id = e.id ∧ (Activity.emission e').inside slot = true

theorem Quiet.inside_subset (h : Quiet s s' slot) : Inside s' slot ⊆ Inside s slot := by
  rintro id ⟨t, e, he, rfl, hins⟩
  obtain ⟨u, e', he', hid, hins'⟩ := h t e he hins
  exact ⟨u, e', he', hid, hins'⟩

theorem Quiet.of_activities (h : s'.activities = s.activities) : Quiet s s' slot :=
  fun t e he hins => ⟨t, e, h ▸ he, rfl, hins⟩

theorem Quiet.replaceTop {slot : Slot} (activities : List Activity) (hacts : s'.activities = s.activities)
    (h : ∀ e, .emission e ∈ activities → (Activity.emission e).inside slot = true →
      ∃ e', .emission e' ∈ s.activities t ∧ e'.id = e.id ∧ (Activity.emission e').inside slot = true) :
    Quiet s (replaceTop s' t activities) slot := by
  intro u e he hins
  simp only [Signal.replaceTop, update_apply, hacts] at he
  split at he
  · obtain he | he := mem_append.mp he
    · exact ⟨t, h e he hins⟩
    · exact ⟨t, e, mem_of_mem_tail he, rfl, hins⟩
  · exact ⟨u, e, he, rfl, hins⟩

theorem Quiet.replaceTop_of_not_inside (hacts : s'.activities = s.activities)
    (h : a.inside slot = false) : Quiet s (Signal.replaceTop s' t [a]) slot := by
  refine .replaceTop [a] hacts fun e he hins => ?_
  rw [mem_singleton.mp he, h] at hins
  cases hins

theorem quiet_advanceEmission (hoff : s.connected slot = false) (he : .emission e ∈ s.activities t)
    (hst : advanceEmission s t e = some s') : Quiet s s' slot := by
  have hreturn : ∀ s'' : State, s''.activities = s.activities → Quiet s (returnEmission s'' t e) slot := fun s'' hacts =>
    .replaceTop [] hacts fun _ hmem => absurd hmem not_mem_nil
  unfold advanceEmission at hst
  cases hph : e.phase with
  | testing =>
    rw [hph] at hst
    cases hrest : e.rest with
    | cons c left =>
      rw [hrest] at hst
      dsimp only at hst
      split at hst
      · next hconn =>
        cases hst
        refine .replaceTop_of_not_inside rfl ?_
        have hne : c ≠ slot := by
          rintro rfl
          rw [hoff] at hconn
          cases hconn
        simp [Activity.inside, hne]
      · cases hst
        exact .replaceTop_of_not_inside rfl (by simp [Activity.inside])
    | nil =>
      rw [hrest] at hst
      dsimp only at hst
      split at hst
      · obtain ⟨-, rfl⟩ := of_guard hst
        exact .replaceTop_of_not_inside rfl (by simp [Activity.inside])
      · cases hst
        exact hreturn s rfl
  | starting c =>
    rw [hph] at hst
    cases hst
    refine .replaceTop [_] rfl fun e' he' hins => ⟨e, he, ?_, ?_⟩
    · rw [Activity.emission.inj (mem_singleton.mp he')]
    · rw [Activity.emission.inj (mem_singleton.mp he')] at hins
      simpa [Activity.inside, hph] using hins
  | running c =>
    rw [hph] at hst
    cases hst
    exact .replaceTop_of_not_inside rfl (by simp [Activity.inside])
  | pruning index =>
    rw [hph] at hst
    dsimp only at hst
    split at hst
    · split at hst
      · cases hst
        exact .replaceTop_of_not_inside rfl (by simp [Activity.inside])
      · cases hst
        exact .of_activities rfl
    · cases hst
      exact hreturn { s with mutex := none } rfl

theorem quiet_advanceClearing (s : State) (t : Thread) (index : Nat) (slot : Slot) :
    Quiet s (advanceClearing s t index) slot := by
  unfold advanceClearing
  split
  · exact .replaceTop_of_not_inside rfl rfl
  · exact .replaceTop [] rfl fun _ hmem => absurd hmem not_mem_nil

/-- `slot` has been connected, and is not any more. -/
def Off (s : State) (slot : Slot) : Prop := slot < s.nextSlot ∧ s.connected slot = false

theorem Off.disconnect {slot : Slot} (h : Off s slot) (c : Slot) : Off (disconnect s c) slot :=
  ⟨h.1, Bool.eq_false_iff.mpr fun hconn => Bool.eq_false_iff.mp h.2 (update_false hconn)⟩

theorem Off.disconnectScoped {slot : Slot} (h : Off s slot) (object : Nat) : Off (disconnectScoped s object) slot := by
  unfold Signal.disconnectScoped
  split
  · exact h
  · exact h.disconnect _

theorem disconnectScoped_activities (s : State) (object : Nat) : (disconnectScoped s object).activities = s.activities := by
  unfold disconnectScoped
  split <;> rfl

theorem off_disconnect (hslot : slot < s.nextSlot) : Off (disconnect s slot) slot :=
  ⟨hslot, by simp [disconnect]⟩

theorem off_disconnectScoped {object : Nat} (hslot : slot < s.nextSlot)
    (hobj : s.scopedConnections object = some slot) : Off (disconnectScoped s object) slot := by
  unfold disconnectScoped
  rw [hobj]
  exact off_disconnect hslot

theorem off_advanceEmission (h : Off s slot) (hst : advanceEmission s t e = some s') : Off s' slot := by
  have hsame : s'.nextSlot = s.nextSlot ∧ s'.connected = s.connected := by
    unfold advanceEmission at hst
    split at hst
    · split at hst
      · split at hst <;> cases hst <;> exact ⟨rfl, rfl⟩
      · split at hst
        · obtain ⟨-, rfl⟩ := of_guard hst
          exact ⟨rfl, rfl⟩
        · cases hst
          exact ⟨rfl, rfl⟩
    · cases hst
      exact ⟨rfl, rfl⟩
    · cases hst
      exact ⟨rfl, rfl⟩
    · split at hst
      · split at hst <;> cases hst <;> exact ⟨rfl, rfl⟩
      · cases hst
        exact ⟨rfl, rfl⟩
  exact ⟨hsame.1 ▸ h.1, hsame.2 ▸ h.2⟩

theorem off_advanceClearing (h : Off s slot) (t : Thread) (index : Nat) : Off (advanceClearing s t index) slot := by
  unfold advanceClearing
  split
  · exact h.disconnect _
  · exact h

theorem off_step (h : Off s slot) (hst : step s label = some s') : Off s' slot ∧ Quiet s s' slot := by
  unfold step at hst
  cases label with
  | connect t =>
    obtain ⟨-, rfl⟩ := of_guard hst
    exact ⟨⟨Nat.lt_succ_of_lt h.1, (update_of_ne (Nat.ne_of_lt h.1) _ _).trans h.2⟩, .of_activities rfl⟩
  | disconnect t c =>
    obtain ⟨-, rfl⟩ := of_guard hst
    exact ⟨h.disconnect c, .of_activities rfl⟩
  | assign t object c =>
    obtain ⟨-, rfl⟩ := of_guard hst
    exact ⟨h.disconnectScoped object, .of_activities (disconnectScoped_activities s object)⟩
  | moveAssign t object source =>
    obtain ⟨-, rfl⟩ := of_guard hst
    unfold moveAssign
    split
    · exact ⟨h, .of_activities rfl⟩
    · exact ⟨h.disconnectScoped object, .of_activities (disconnectScoped_activities s object)⟩
  | destroy t object =>
    obtain ⟨-, rfl⟩ := of_guard hst
    exact ⟨h.disconnectScoped object, .of_activities (disconnectScoped_activities s object)⟩
  | release t object =>
    obtain ⟨-, rfl⟩ := of_guard hst
    exact ⟨h, .of_activities rfl⟩
  | disconnectAllSlots t =>
    obtain ⟨-, rfl⟩ := of_guard hst
    refine ⟨h, fun u e he hins => ?_⟩
    simp only [disconnectAllSlots, update_apply] at he
    split at he
    · obtain heq | he := mem_cons.mp he
      · cases heq
      · exact ⟨t, e, he, rfl, hins⟩
    · exact ⟨u, e, he, rfl, hins⟩
  | emit t =>
    obtain ⟨-, rfl⟩ := of_guard hst
    refine ⟨h, fun u e he hins => ?_⟩
    simp only [emit, update_apply] at he
    split at he
    · obtain heq | he := mem_cons.mp he
      · rw [Activity.emission.inj heq] at hins
        cases hins
      · exact ⟨t, e, he, rfl, hins⟩
    · exact ⟨u, e, he, rfl, hins⟩
  | advance t =>
    dsimp only at hst
    split at hst
    · cases hst
    · next e rest hact =>
      exact ⟨off_advanceEmission h hst, quiet_advanceEmission h.2 (hact ▸ mem_cons_self) hst⟩
    · next index rest hact =>
      cases hst
      exact ⟨off_advanceClearing h t index, quiet_advanceClearing s t index slot⟩

theorem off_leads (h : Off s slot) (hleads : Leads s s') : Inside s' slot ⊆ Inside s slot := by
  have hboth : Off s' slot ∧ Inside s' slot ⊆ Inside s slot := by
    induction hleads with
    | refl => exact ⟨h, subset_rfl⟩
    | tail _ hstep ih =>
      obtain ⟨label, hst⟩ := hstep
      obtain ⟨hoff, hquiet⟩ := off_step ih.1 hst
      exact ⟨hoff, hquiet.inside_subset.trans ih.2⟩
  exact hboth.2

theorem Inv.off_of_disconnects (h : Inv s) (hends : Disconnects s slot label) (hst : step s label = some s') :
    Off s' slot ∧ Inside s' slot ⊆ Inside s slot := by
  have hacts : ∀ s'' : State, s''.activities = s.activities → Inside s'' slot ⊆ Inside s slot :=
    fun _ hsame => (Quiet.of_activities hsame).inside_subset
  unfold step at hst
  cases label with
  | disconnect t c =>
    obtain ⟨⟨-, hslot⟩, rfl⟩ := of_guard hst
    obtain rfl : c = slot := hends
    exact ⟨off_disconnect hslot, hacts _ rfl⟩
  | assign t object c =>
    obtain ⟨-, rfl⟩ := of_guard hst
    exact ⟨off_disconnectScoped (h.scopes object slot hends) hends, hacts _ (disconnectScoped_activities s object)⟩
  | moveAssign t object source =>
    obtain ⟨-, rfl⟩ := of_guard hst
    obtain ⟨hne, hobj⟩ := hends
    unfold moveAssign
    rw [if_neg hne]
    exact ⟨off_disconnectScoped (h.scopes object slot hobj) hobj, hacts _ (disconnectScoped_activities s object)⟩
  | destroy t object =>
    obtain ⟨-, rfl⟩ := of_guard hst
    exact ⟨off_disconnectScoped (h.scopes object slot hends) hends, hacts _ (disconnectScoped_activities s object)⟩
  | advance t =>
    obtain ⟨index, rest, hact, hend, hslot⟩ := hends
    dsimp only at hst
    rw [hact] at hst
    cases hst
    obtain ⟨i, hi⟩ := mem_iff_getElem?.mp hslot
    have hlt : i < s.slots.length := (List.getElem?_eq_some_iff.mp hi).1
    have hoff : s.connected slot = false :=
      h.sound t (.clearing index) (hact ▸ mem_cons_self) i (lt_of_lt_of_le hlt hend) slot hi
    exact ⟨off_advanceClearing ⟨h.below slot hslot, hoff⟩ t index, (quiet_advanceClearing s t index slot).inside_subset⟩
  | connect t => cases hends
  | release t object => cases hends
  | disconnectAllSlots t => cases hends
  | emit t => cases hends

/-- **Signals deliver once and in order**, and when the step that disconnects a slot is done, only the
emissions that had found the slot connected before it are in the slot or come to it. -/
theorem signal_delivers (s : State) (h : machine.Reachable s) : Delivers s ∧
    ∀ slot label s₁ s', Disconnects s slot label → step s label = some s₁ → Leads s₁ s' →
      Inside s' slot ⊆ Inside s slot := by
  have hinv : Inv s := inv_inductive.reach h
  refine ⟨hinv.delivers, fun slot label s₁ s' hends hst hleads => ?_⟩
  obtain ⟨hoff, hins⟩ := hinv.off_of_disconnects hends hst
  exact (off_leads hoff hleads).trans hins

/-- A slot that disconnects the next one and emits again; then another thread disconnects them all. -/
def reentrantRun : List Label :=
  [.connect 0, .connect 0, .connect 1, .emit 0, .advance 0, .advance 0, .disconnect 0 1, .emit 0] ++
    List.replicate 21 (.advance 0) ++ .disconnectAllSlots 1 :: List.replicate 3 (.advance 1)

theorem signal_delivers_reentrantRun : ∃ s, machine.Reachable s ∧ s.history.length = 2 ∧ Delivers s := by
  obtain ⟨s, hs, hfacts⟩ := map_eq_some_iff.mp (by decide +kernel :
    (machine.exec init reentrantRun).map (fun s => s.history.length) = some 2)
  have hreach : machine.Reachable s := .exec (.init rfl) hs
  exact ⟨s, hreach, hfacts, (signal_delivers s hreach).1⟩

/-- Thread 0 has found the slot connected and has not begun it. -/
def gapRun : List Label := [.connect 0, .emit 0, .advance 0]

/-- Thread 1, which is in no slot, disconnects the slot, and then thread 0 runs it. -/
theorem gapRun_runs : ¬ ∀ s slot t s₁ s', machine.Reachable s →
    (∀ a ∈ s.activities t, a.inside slot = false) → step s (.disconnect t slot) = some s₁ → Leads s₁ s' →
      ∀ u e, .emission e ∈ s'.activities u → e.phase ≠ .running slot := by
  intro hall
  obtain ⟨s, hs, hfacts⟩ := map_eq_some_iff.mp (by decide +kernel :
    (machine.exec init gapRun).map (fun s => (s.activities 1, (step s (.disconnect 1 0)).bind fun s₁ =>
      (step s₁ (.advance 0)).map fun s' => s'.activities 0)) =
      some ([], some [.emission { id := 0, began := 1, rest := [], called := [0], phase := .running 0 }]))
  obtain ⟨hth, hruns⟩ := Prod.mk.inj hfacts
  obtain ⟨s₁, hdisconnect, hruns⟩ := bind_eq_some_iff.mp hruns
  obtain ⟨s', hadv, hruns⟩ := map_eq_some_iff.mp hruns
  have hreach : machine.Reachable s := .exec (.init rfl) hs
  have hnot : ∀ a ∈ s.activities 1, a.inside 0 = false := fun a ha => by
    rw [hth] at ha
    exact absurd ha not_mem_nil
  exact hall s 0 1 s₁ s' hreach hnot hdisconnect (.single ⟨_, hadv⟩) 0 _ (hruns ▸ mem_cons_self) rfl

end Brookesia.Signal
