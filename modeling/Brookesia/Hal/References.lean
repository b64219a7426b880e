import Brookesia.Hal.Model
import Brookesia.Transition.Counting

/-! # References of a device

The reference count of a device is the number of its handles and of what the loops in progress have
acquired from it (`Refs`), with a lemma for each function that takes or drops a reference. -/

namespace Brookesia.Hal

open Transition List
open Function (update update_of_ne update_self update_apply)

variable {c : Config} {s : State} {d : Device} {loop : Loop} {instanceName : String} {env : Env}

def Frame.acquired : Frame → List AcquiredInterface
  | .acquiring loop | .onInit _ _ loop => loop.acquired
  | .casting acquired => acquired
  | .moving _ _ | .onDeinit _ => []

/-- A handle of `device`. -/
def isHandleOf (device : Device) (held : Option AcquiredInterface) : Bool :=
  held.any (·.device == device)

def handleCount (handles : Nat → Option AcquiredInterface) (nextHandle : Nat) (device : Device) : Nat :=
  (List.range nextHandle).countP fun handle => isHandleOf device (handles handle)

def inProgress (calls : List Frame) : List AcquiredInterface := calls.flatMap Frame.acquired

/-- The interface is what its device publishes under the name. -/
def Published (interfaces : Device → String → Option Nat) (held : AcquiredInterface) : Prop :=
  interfaces held.device held.instanceName = some held.interface

/-- Where the references are, besides those of a loop that is not on the stack at the moment (`loose`)
and one reference for each of `taken`. -/
structure Refs (s : State) (loose : List AcquiredInterface) (taken : List Device) : Prop where
  refs : ∀ d, s.referenceCount d = handleCount s.handles s.nextHandle d +
    (inProgress s.calls ++ loose).countP (·.device == d) + taken.count d
  alive : ∀ d, 0 < s.referenceCount d → s.isInitialized d = true
  handles : ∀ handle held, s.handles handle = some held → Published s.interfaces held
  pending : ∀ held ∈ inProgress s.calls ++ loose, Published s.interfaces held
  bound : ∀ handle, s.nextHandle ≤ handle → s.handles handle = none
  /-- A device in `on_deinit` has no references, and is in it once. -/
  deinits : ∀ d, .onDeinit d ∈ s.calls → s.referenceCount d = 0 ∧ s.isInitialized d = true
  once : s.calls.Pairwise fun f g => ∀ d, f = .onDeinit d → g ≠ .onDeinit d

/-! ### Counting -/

section

variable {handles : Nat → Option AcquiredInterface} {nextHandle handle : Nat} {held : AcquiredInterface}

variable (handles) in
theorem handleCount_update (hhdl : handle < nextHandle) (x : Option AcquiredInterface) (d : Device) :
    handleCount (update handles handle x) nextHandle d + (isHandleOf d (handles handle)).toNat =
      handleCount handles nextHandle d + (isHandleOf d x).toNat :=
  countP_update (isHandleOf d) handles x nodup_range (mem_range.mpr hhdl)

theorem handleCount_succ (d : Device) :
    handleCount handles (nextHandle + 1) d = handleCount handles nextHandle d + (isHandleOf d (handles nextHandle)).toNat := by
  unfold handleCount
  rw [range_succ, countP_append, countP_singleton]
  cases isHandleOf d (handles nextHandle) <;> rfl

theorem handleCount_pos (hhdl : handle < nextHandle) (hheld : handles handle = some held) :
    0 < handleCount handles nextHandle held.device :=
  countP_pos_iff.mpr ⟨handle, mem_range.mpr hhdl, by simp [isHandleOf, hheld]⟩

theorem isHandleOf_toNat (d : Device) : (isHandleOf d (some held)).toNat = List.count d [held.device] := by
  by_cases h : held.device = d <;> simp [isHandleOf, h]

theorem isHandleOf_none (d : Device) : (isHandleOf d none).toNat = 0 := rfl

end

section

variable {loose : List AcquiredInterface} {taken : List Device}

theorem Refs.handle_pos (h : Refs s loose taken) {handle : Nat} {held : AcquiredInterface} (hheld : s.handles handle = some held) :
    0 < s.referenceCount held.device := by
  have hlt : handle < s.nextHandle := by
    by_contra hge
    rw [h.bound handle (Nat.le_of_not_lt hge)] at hheld
    cases hheld
  have hpos := handleCount_pos hlt hheld
  have hrefs := h.refs held.device
  omega

theorem Refs.pending_pos (h : Refs s loose taken) {held : AcquiredInterface} (hheld : held ∈ inProgress s.calls ++ loose) :
    0 < s.referenceCount held.device := by
  have hpos : 0 < (inProgress s.calls ++ loose).countP (·.device == held.device) :=
    countP_pos_iff.mpr ⟨held, hheld, by simp⟩
  have hrefs := h.refs held.device
  omega

theorem Refs.published (h : Refs s loose taken) {interfaces : Device → String → Option Nat}
    (hsame : ∀ d, 0 < s.referenceCount d → interfaces d = s.interfaces d) :
    (∀ handle held, s.handles handle = some held → Published interfaces held) ∧
      ∀ held ∈ inProgress s.calls ++ loose, Published interfaces held := by
  refine ⟨fun handle held hheld => ?_, fun held hheld => ?_⟩
  · unfold Published
    rw [hsame held.device (h.handle_pos hheld)]
    exact h.handles handle held hheld
  · unfold Published
    rw [hsame held.device (h.pending_pos hheld)]
    exact h.pending held hheld

end

theorem inProgress_cons (f : Frame) (calls : List Frame) : inProgress (f :: calls) = f.acquired ++ inProgress calls :=
  flatMap_cons

theorem Refs.push {loose : List AcquiredInterface} (h : Refs s loose []) {f : Frame} (hf : ∀ d, f ≠ .onDeinit d)
    (hacquired : f.acquired = loose) : Refs { s with calls := f :: s.calls } [] [] := by
  refine ⟨fun d => ?_, h.alive, h.handles, fun held hheld => ?_, h.bound, fun d hd => ?_, ?_⟩
  · rw [h.refs d, inProgress_cons, hacquired]
    simp only [countP_append, countP_nil]
    omega
  · rw [append_nil, inProgress_cons, hacquired, mem_append] at hheld
    exact h.pending held (mem_append.mpr hheld.symm)
  · obtain heq | hd := mem_cons.mp hd
    · exact absurd heq.symm (hf d)
    · exact h.deinits d hd
  · exact pairwise_cons.mpr ⟨fun g _ d heq => absurd heq (hf d), h.once⟩

theorem Refs.goOn (h : Refs s loop.acquired []) : Refs (goOn s loop) [] [] :=
  h.push (fun _ => Frame.noConfusion) rfl

theorem Refs.release (h : Refs s [] [d]) : Refs (releaseInterface c s d) [] [] := by
  have hd := h.refs d
  rw [count_singleton_self] at hd
  have hpos : s.referenceCount d ≠ 0 := by omega
  have hrefs : ∀ d', update s.referenceCount d (s.referenceCount d - 1) d' = handleCount s.handles s.nextHandle d' +
      (inProgress s.calls ++ []).countP (fun held : AcquiredInterface => held.device == d') + List.count d' [] := by
    intro d'
    have hd' := h.refs d'
    by_cases heq : d' = d
    · subst heq
      rw [update_self]
      simp only [count_nil] at hd ⊢
      omega
    · rw [update_of_ne heq, hd', count_singleton, beq_false_of_ne (Ne.symm heq)]
      rfl
  have hle : ∀ d', update s.referenceCount d (s.referenceCount d - 1) d' ≤ s.referenceCount d' := by
    intro d'
    by_cases heq : d' = d
    · rw [heq, update_self]
      omega
    · rw [update_of_ne heq]
  have hbase : Refs { s with referenceCount := update s.referenceCount d (s.referenceCount d - 1) } [] [] :=
    ⟨hrefs, fun d' hd' => h.alive d' (lt_of_lt_of_le hd' (hle d')), h.handles, h.pending, h.bound,
      fun d' hd' => ⟨Nat.eq_zero_of_le_zero ((h.deinits d' hd').1 ▸ hle d'), (h.deinits d' hd').2⟩, h.once⟩
  unfold releaseInterface
  rw [if_neg hpos]
  dsimp only
  split
  · next hzero =>
    have hnot : .onDeinit d ∉ s.calls := fun hmem => hpos (h.deinits d hmem).1
    refine ⟨hbase.refs, hbase.alive, hbase.handles, hbase.pending, hbase.bound, fun d' hd' => ?_, ?_⟩
    · obtain heq | hd' := mem_cons.mp hd'
      · obtain rfl := Frame.onDeinit.inj heq
        exact ⟨hzero.1, hzero.2.2⟩
      · exact hbase.deinits d' hd'
    · refine pairwise_cons.mpr ⟨fun g hg d' heq hg' => ?_, h.once⟩
      obtain rfl := Frame.onDeinit.inj heq
      exact hnot (hg' ▸ hg)
  · exact hbase

theorem Refs.take {loose : List AcquiredInterface} (h : Refs s loose []) {isInitialized : Device → Bool} {count : Nat}
    (hcnt : count = s.referenceCount d + 1) (hinit : isInitialized d = true)
    (hoth : ∀ d' ≠ d, isInitialized d' = s.isInitialized d') (hnot : .onDeinit d ∉ s.calls) :
    Refs { s with
      isInitialized := isInitialized
      referenceCount := update s.referenceCount d count } loose [d] := by
  refine ⟨fun d' => ?_, fun d' hd' => ?_, h.handles, h.pending, h.bound, fun d' hd' => ?_, h.once⟩
  · have hd' := h.refs d'
    by_cases heq : d' = d
    · subst heq
      dsimp only
      rw [update_self, hcnt, count_singleton_self]
      simp only [count_nil] at hd'
      omega
    · dsimp only
      rw [update_of_ne heq, hd', count_singleton, beq_false_of_ne (Ne.symm heq)]
      rfl
  · dsimp only at hd' ⊢
    by_cases heq : d' = d
    · rw [heq]
      exact hinit
    · rw [update_of_ne heq] at hd'
      rw [hoth d' heq]
      exact h.alive d' hd'
  · have hne : d' ≠ d := by
      rintro rfl
      exact hnot hd'
    dsimp only
    rw [update_of_ne hne, hoth d' hne]
    exact h.deinits d' hd'

theorem Refs.raiseCount {loose : List AcquiredInterface} {taken : List Device} (h : Refs s loose taken) :
    Refs (raiseCount s) loose taken :=
  { h with }

theorem Refs.lowerCount {loose : List AcquiredInterface} {taken : List Device} (h : Refs s loose taken) :
    Refs (lowerCount c s) loose taken := by
  unfold Hal.lowerCount
  split
  · exact h
  · exact { h with }

theorem Refs.afterAcquire (h : Refs s loop.acquired [d]) : Refs (afterAcquire c s d instanceName loop) [] [] := by
  unfold Hal.afterAcquire
  split
  · next interface hinterface =>
    have hnew : Refs s (loop.acquired ++ [⟨d, instanceName, interface⟩]) [] := by
      refine ⟨fun d' => ?_, h.alive, h.handles, fun held hheld => ?_, h.bound, h.deinits, h.once⟩
      · rw [h.refs d', countP_append, countP_append, countP_append, countP_singleton, count_singleton]
        simp only [count_nil, Nat.add_assoc, Nat.add_zero]
      · rw [← append_assoc] at hheld
        obtain hheld | hheld := mem_append.mp hheld
        · exact h.pending held hheld
        · rw [mem_singleton.mp hheld]
          exact hinterface
    dsimp only
    split
    · exact hnew.push (fun _ => Frame.noConfusion) rfl
    · exact hnew.push (fun _ => Frame.noConfusion) rfl
  · refine Refs.release (d := d) ⟨fun d' => ?_, h.alive, h.handles, fun held hheld => ?_, h.bound, fun d' hd' => ?_, ?_⟩
    · rw [Hal.goOn, h.refs d', inProgress_cons]
      simp only [countP_append, countP_nil, Frame.acquired]
      omega
    · rw [append_nil, Hal.goOn, inProgress_cons, mem_append] at hheld
      exact h.pending held (mem_append.mpr hheld.symm)
    · obtain heq | hd' := mem_cons.mp hd'
      · cases heq
      · exact h.deinits d' hd'
    · exact pairwise_cons.mpr ⟨fun g _ d' heq => Frame.noConfusion heq, h.once⟩

theorem Refs.pop (h : Refs s [] []) {f : Frame} {rest : List Frame} (hcs : s.calls = f :: rest) :
    Refs { s with calls := rest } f.acquired [] := by
  have hmem : ∀ d, .onDeinit d ∈ rest → .onDeinit d ∈ s.calls := fun d hd => hcs ▸ mem_cons_of_mem f hd
  refine ⟨fun d => ?_, h.alive, h.handles, fun held hheld => ?_, h.bound, fun d hd => h.deinits d (hmem d hd), ?_⟩
  · rw [h.refs d, hcs, inProgress_cons]
    simp only [countP_append, countP_nil]
    omega
  · refine h.pending held ?_
    rw [hcs, inProgress_cons, append_nil, mem_append]
    exact (mem_append.mp hheld).symm
  · exact (pairwise_cons.mp (hcs ▸ h.once)).2

/-! ### Acquisition -/

theorem Refs.eq_zero {loose : List AcquiredInterface} {taken : List Device} (h : Refs s loose taken)
    (hoff : s.isInitialized d = false) : s.referenceCount d = 0 ∧ .onDeinit d ∉ s.calls := by
  refine ⟨Nat.eq_zero_of_not_pos fun hpos => ?_, fun hmem => ?_⟩
  · have hon := h.alive d hpos
    rw [hoff] at hon
    cases hon
  · have hon := (h.deinits d hmem).2
    rw [hoff] at hon
    cases hon

theorem Refs.beginInit (h : Refs s loop.acquired []) (hoff : s.isInitialized d = false) : Refs { s with
      interfaces := update s.interfaces d fun _ => none
      calls := .onInit d instanceName loop :: s.calls } [] [] := by
  have hsame : ∀ d', 0 < s.referenceCount d' → update s.interfaces d (fun _ => none) d' = s.interfaces d' := by
    intro d' hpos
    refine update_of_ne ?_ _ _
    rintro rfl
    rw [(h.eq_zero hoff).1] at hpos
    exact absurd hpos (Nat.lt_irrefl _)
  have hpubd := h.published hsame
  have hclr : Refs { s with interfaces := update s.interfaces d fun _ => none } loop.acquired [] :=
    { h with handles := hpubd.1, pending := hpubd.2 }
  exact hclr.push (fun _ => Frame.noConfusion) rfl

theorem Refs.acquire (h : Refs s loop.acquired []) (hnot : .onDeinit d ∉ s.calls) :
    Refs (acquire c s d instanceName loop env) [] [] := by
  unfold Hal.acquire
  split
  · next hpos =>
    have hinit := h.alive d hpos
    dsimp only
    rw [if_pos hinit]
    exact (h.take rfl hinit (fun _ _ => rfl) hnot).afterAcquire
  · next hzero =>
    have hzero : s.referenceCount d = 0 := Nat.eq_zero_of_not_pos hzero
    split
    · next hinit => exact (h.take (by rw [hzero]) hinit (fun _ _ => rfl) hnot).afterAcquire
    · next hoff =>
      split
      · exact h.beginInit (Bool.eq_false_iff.mpr hoff)
      · exact h.goOn

theorem Refs.acquireDevice (h : Refs s loop.acquired []) (hnot : env.probe = true → .onDeinit d ∉ s.calls) :
    Refs (acquireDevice c s d instanceName loop env) [] [] := by
  have hlog : Refs { s with history := .preInit :: s.history } loop.acquired [] := { h with }
  unfold Hal.acquireDevice
  split
  · next hprobe =>
    have hnot := hnot hprobe
    split
    · dsimp only
      split
      · exact hlog.acquire hnot
      · exact hlog.goOn
    · exact h.acquire hnot
  · exact h.goOn

theorem Refs.finishInit (h : Refs s loop.acquired []) {ok : Bool} (hoff : ok = true → s.isInitialized d = false) :
    Refs (finishInit c s d instanceName loop ok) [] [] := by
  unfold Hal.finishInit
  split
  · next hok =>
    obtain ⟨hzero, hnot⟩ := h.eq_zero (hoff hok)
    have hlog : Refs { s with history := .initialized d :: s.history } loop.acquired [] := { h with }
    have htaken := hlog.take (d := d) (by rw [hzero]) (update_self d true s.isInitialized)
      (fun d' hne => update_of_ne hne true s.isInitialized) hnot
    exact htaken.raiseCount.afterAcquire
  · exact h.goOn

/-! ### Release -/

theorem Refs.finishDeinit (h : Refs s [] []) (hzero : s.referenceCount d = 0) (hnot : .onDeinit d ∉ s.calls) :
    Refs (finishDeinit c s d) [] [] := by
  have hne : ∀ d', 0 < s.referenceCount d' → d' ≠ d := by
    rintro d' hpos rfl
    rw [hzero] at hpos
    exact absurd hpos (Nat.lt_irrefl _)
  have hsame : ∀ d', 0 < s.referenceCount d' → update s.interfaces d (fun _ => none) d' = s.interfaces d' :=
    fun d' hpos => update_of_ne (hne d' hpos) _ _
  have hpubd := h.published hsame
  refine Refs.lowerCount (s := { s with
    interfaces := update s.interfaces d fun _ => none
    isInitialized := update s.isInitialized d false
    history := .deinitialized d :: s.history })
    ⟨h.refs, fun d' hpos => ?_, hpubd.1, hpubd.2, h.bound, fun d' hd' => ?_, h.once⟩
  · exact (update_of_ne (hne d' hpos) false s.isInitialized).trans (h.alive d' hpos)
  · have hd'ne : d' ≠ d := by
      rintro rfl
      exact hnot hd'
    exact ⟨(h.deinits d' hd').1, (update_of_ne hd'ne false s.isInitialized).trans (h.deinits d' hd').2⟩

theorem Refs.reset (h : Refs s [] []) {handle : Nat} (hhdl : handle < s.nextHandle) : Refs (reset c s handle) [] [] := by
  unfold Hal.reset
  split
  · exact h
  · next held hheld =>
    refine Refs.release ⟨fun d' => ?_, h.alive, fun other x hx => ?_, h.pending, fun other hoth => ?_, h.deinits, h.once⟩
    · have hcnt := handleCount_update s.handles hhdl none d'
      rw [hheld, isHandleOf_toNat, isHandleOf_none] at hcnt
      have hd' := h.refs d'
      simp only [count_nil] at hd'
      dsimp only
      omega
    · dsimp only at hx
      rw [update_apply] at hx
      split at hx
      · cases hx
      · exact h.handles other x hx
    · dsimp only
      rw [update_apply]
      split
      · rfl
      · exact h.bound other hoth

/-! ### Handles -/

theorem Refs.newHandle {held : AcquiredInterface} (h : Refs s [] [held.device]) (hpubd : Published s.interfaces held) :
    Refs { s with handles := update s.handles s.nextHandle (some held), nextHandle := s.nextHandle + 1 } [] [] := by
  refine ⟨fun d' => ?_, h.alive, fun other x hx => ?_, h.pending, fun other hoth => ?_, h.deinits, h.once⟩
  · have hsame : handleCount (update s.handles s.nextHandle (some held)) s.nextHandle d' =
        handleCount s.handles s.nextHandle d' :=
      countP_update_of_notMem (isHandleOf d') s.handles (some held) (fun hmem => absurd (mem_range.mp hmem) (Nat.lt_irrefl _))
    dsimp only
    rw [handleCount_succ, update_self, isHandleOf_toNat, hsame, h.refs d']
    simp only [count_nil]
    omega
  · dsimp only at hx
    rw [update_apply] at hx
    split at hx
    · exact Option.some.inj hx ▸ hpubd
    · exact h.handles other x hx
  · dsimp only at hoth ⊢
    rw [update_of_ne (by omega)]
    exact h.bound other (by omega)

theorem Refs.uncast (h : Refs s [] []) {held : AcquiredInterface} {acquired : List AcquiredInterface} {rest : List Frame}
    (hcs : s.calls = .casting (held :: acquired) :: rest) :
    Refs { s with calls := .casting acquired :: rest } [] [held.device] ∧ Published s.interfaces held := by
  have hmem : ∀ x, x = held ∨ x ∈ acquired ∨ x ∈ inProgress rest → x ∈ inProgress s.calls ++ [] := by
    intro x hx
    rw [hcs, inProgress_cons, append_nil, mem_append, Frame.acquired, mem_cons, or_assoc]
    exact hx
  refine ⟨⟨fun d' => ?_, h.alive, h.handles, fun x hx => ?_, h.bound, fun d' hd' => ?_, ?_⟩, h.pending held (hmem held (.inl rfl))⟩
  · rw [h.refs d', hcs, inProgress_cons, inProgress_cons]
    simp only [Frame.acquired, countP_append, countP_cons, countP_nil, count_cons, count_nil]
    omega
  · refine h.pending x (hmem x (.inr ?_))
    rw [append_nil, inProgress_cons, mem_append, Frame.acquired] at hx
    exact hx
  · refine h.deinits d' ?_
    rw [hcs]
    obtain heq | hd' := mem_cons.mp hd'
    · cases heq
    · exact mem_cons_of_mem _ hd'
  · exact pairwise_cons.mpr ⟨fun g _ d' heq => Frame.noConfusion heq, (pairwise_cons.mp (hcs ▸ h.once)).2⟩

theorem Refs.moveFrom (h : Refs s [] []) {handle source : Nat} (hne : handle ≠ source) (hhdl : handle < s.nextHandle)
    (hsrc : source < s.nextHandle) (hemp : s.handles handle = none) : Refs (moveFrom s handle source) [] [] := by
  have hent : ∀ other x, (Hal.moveFrom s handle source).handles other = some x → ∃ other', s.handles other' = some x := by
    intro other x hx
    simp only [Hal.moveFrom, update_apply] at hx
    split at hx
    · cases hx
    · split at hx
      · exact ⟨source, hx⟩
      · exact ⟨other, hx⟩
  refine ⟨fun d' => ?_, h.alive, fun other x hx => ?_, h.pending, fun other hoth => ?_, h.deinits, h.once⟩
  · have hfst := handleCount_update s.handles hhdl (s.handles source) d'
    have hsec := handleCount_update (update s.handles handle (s.handles source)) hsrc none d'
    rw [hemp, isHandleOf_none] at hfst
    rw [update_of_ne (Ne.symm hne), isHandleOf_none] at hsec
    have hd' := h.refs d'
    simp only [Hal.moveFrom]
    omega
  · obtain ⟨other', hoth'⟩ := hent other x hx
    exact h.handles other' x hoth'
  · simp only [Hal.moveFrom]
    have hoth : s.nextHandle ≤ other := hoth
    rw [update_of_ne (by omega), update_of_ne (by omega)]
    exact h.bound other hoth

theorem Refs.declare (h : Refs s [] []) : Refs { s with nextHandle := s.nextHandle + 1 } [] [] := by
  refine { h with refs := fun d' => ?_, bound := fun other hoth => ?_ }
  · dsimp only
    rw [handleCount_succ, h.bound s.nextHandle le_rfl, isHandleOf_none, h.refs d']
    omega
  · dsimp only at hoth ⊢
    exact h.bound other (by omega)

theorem Refs.publishInterface (h : Refs s [] []) (name : String) (interface : Nat)
    (hnew : s.isInitialized d = false ∨ s.interfaces d name = none) :
    Refs (publishInterface s d name interface) [] [] := by
  have hkeeps : ∀ held, Published s.interfaces held → 0 < s.referenceCount held.device →
      Published (Hal.publishInterface s d name interface).interfaces held := by
    intro held hpubd hpos
    unfold Published at hpubd ⊢
    simp only [Hal.publishInterface, update_apply]
    by_cases hd : held.device = d
    · rw [if_pos hd, update_apply]
      have hname : held.instanceName ≠ name := by
        rintro rfl
        obtain hoff | hnone := hnew
        · rw [hd, (h.eq_zero hoff).1] at hpos
          exact absurd hpos (Nat.lt_irrefl _)
        · rw [hd, hnone] at hpubd
          cases hpubd
      rw [if_neg hname, ← hd]
      exact hpubd
    · rw [if_neg hd]
      exact hpubd
  refine { h with handles := fun handle held hheld => ?_, pending := fun held hheld => ?_ }
  · exact hkeeps held (h.handles handle held hheld) (h.handle_pos hheld)
  · exact hkeeps held (h.pending held hheld) (h.pending_pos hheld)

end Brookesia.Hal
