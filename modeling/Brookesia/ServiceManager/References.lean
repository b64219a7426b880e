import Brookesia.ServiceManager.Steps

/-! # Reference counts

`ref_count` of an entry counts its unreleased bindings and the bind in progress, as long as what is
done in the name of a registration finds that registration: a binding knows its service by the name
only, and the name may have been registered again.

* `OwnEntries`: the steps that find the registration they are made for.
* `Inv`, `inv_inductive`: in the runs of such steps the counts are right, state by state.
* `neverUnder_iff`: the counts are right, and no service is stopped under a binding, in exactly these
  runs. -/

namespace Brookesia.ServiceManager.References

open Transition Service Model List Option
open Steps

/-! ### Counts -/

def unreleased (s : State) (registration : ℕ) : ℕ :=
  (references s).countP (·.registration = registration)

/-- The binds of a registration that are in the middle of its start. -/
def inProgress (s : State) (registration : ℕ) : ℕ :=
  (transitions s).countP fun t => t.1.registration = registration && t.2.isStart

/-- No service is stopped under a binding, and the counts are right. -/
structure NeverUnder (s : State) : Prop where
  counted : ∀ name info, s.services name = some info →
    info.refCount = unreleased s info.registration + inProgress s info.registration
  idle : ∀ name info, s.services name = some info →
    info.state = .stopping ∨ info.state = .stopped → unreleased s info.registration = 0

theorem unreleased_perm {s s' : State} {gone come : List Reference}
    (h : (gone ++ references s').Perm (come ++ references s)) (r : ℕ) :
    gone.countP (·.registration = r) + unreleased s' r = come.countP (·.registration = r) + unreleased s r := by
  simpa only [unreleased, countP_append] using h.countP_eq _

theorem inProgress_perm {s s' : State} {ended begun : List Transition}
    (h : (ended ++ transitions s').Perm (begun ++ transitions s)) (r : ℕ) :
    ended.countP (fun t => t.1.registration = r && t.2.isStart) + inProgress s' r =
      begun.countP (fun t => t.1.registration = r && t.2.isStart) + inProgress s r := by
  simpa only [inProgress, countP_append] using h.countP_eq _

/-! ### The condition -/

/-- What the frame looks up by a name is the registration it is made for, or nothing to count. -/
def KeepsEntry (s : State) : Frame → Prop
  | .release .calling reference _ | .release .unbinding reference _ =>
    s.isInitialized = false → ∀ info ∈ s.services reference.name, info.registration ≠ reference.registration
  | .release .locking reference _ => ∀ info ∈ s.services reference.name,
      info.registration = reference.registration ∨ info.refCount = 0
  | .bind name (.started registration _ _ _) => ∀ info ∈ s.services name,
      info.registration = registration
  | _ => True

def OwnEntries (s : State) (a : Action) : Prop := ∀ frame ∈ topFrame s a, KeepsEntry s frame

/-! ### The invariant -/

def EntryOk (s : State) (info : RuntimeServiceInfo) : Prop :=
  match info.state with
  | .stopped | .stopping =>
    info.refCount = 0 ∧ unreleased s info.registration = 0 ∧ inProgress s info.registration = 0
  | .starting =>
    info.refCount = 1 ∧ unreleased s info.registration = 0 ∧ inProgress s info.registration = 1
  | .running => info.refCount = unreleased s info.registration ∧
    0 < unreleased s info.registration ∧ inProgress s info.registration = 0

/-- A reference or transition is made for an earlier registration, and for one of its own name. -/
structure Known (s : State) (reference : Reference) : Prop where
  lt : reference.registration < s.nextRegistration
  name : ∀ name info, s.services name = some info → info.registration = reference.registration → name = reference.name

structure Inv (s : State) : Prop where
  entry : ∀ name info, s.services name = some info → EntryOk s info
  unique : ∀ name info name' info', s.services name = some info →
    s.services name' = some info' → info.registration = info'.registration → name = name'
  fresh : ∀ name info, s.services name = some info → info.registration < s.nextRegistration
  references : ∀ reference ∈ references s, Known s reference
  transitions : ∀ t ∈ transitions s, Known s t.1

theorem EntryOk.count {s : State} {info : RuntimeServiceInfo} (h : EntryOk s info) :
    info.refCount = unreleased s info.registration + inProgress s info.registration := by
  unfold EntryOk at h
  split at h <;> omega

theorem EntryOk.congr {s s' : State} {info : RuntimeServiceInfo} (h : EntryOk s info)
    (hu : unreleased s' info.registration = unreleased s info.registration)
    (hp : inProgress s' info.registration = inProgress s info.registration) : EntryOk s' info := by
  unfold EntryOk at h ⊢
  rwa [hu, hp]

theorem Inv.neverUnder {s : State} (hi : Inv s) : NeverUnder s where
  counted name info hinfo := (hi.entry name info hinfo).count
  idle name info hinfo hstate := by
    have h := hi.entry name info hinfo
    unfold EntryOk at h
    rcases hstate with hstate | hstate <;> rw [hstate] at h <;> exact h.2.1

/-! ### Steps -/

section Step
variable {s s' : State} (hi : Inv s)
include hi

theorem Inv.of (hnext : s'.nextRegistration = s.nextRegistration)
    (hent : ∀ name info', s'.services name = some info' → EntryOk s' info' ∧
      ∃ info, s.services name = some info ∧ info'.registration = info.registration)
    (hreferences : ∀ reference ∈ Steps.references s', Known s reference)
    (htransitions : ∀ t ∈ Steps.transitions s', Known s t.1) : Inv s' := by
  have hknown : ∀ {reference}, Known s reference → Known s' reference := by
    refine fun h => ⟨hnext ▸ h.lt, fun name info' hinfo' heq => ?_⟩
    obtain ⟨-, info, hinfo, hreg⟩ := hent name info' hinfo'
    exact h.name name info hinfo (hreg.symm.trans heq)
  refine ⟨fun name info hinfo => (hent name info hinfo).1, ?_, ?_,
    fun reference h => hknown (hreferences reference h), fun t h => hknown (htransitions t h)⟩
  · intro name info name' info' h1 h2 heq
    obtain ⟨-, i1, hi1, hr1⟩ := hent name info h1
    obtain ⟨-, i2, hi2, hr2⟩ := hent name' info' h2
    exact hi.unique name i1 name' i2 hi1 hi2 (hr1.symm.trans (heq.trans hr2))
  · intro name info h1
    obtain ⟨-, i1, hi1, hr1⟩ := hent name info h1
    rw [hr1, hnext]
    exact hi.fresh name i1 hi1

theorem Inv.known {name : ServiceName} {info : RuntimeServiceInfo}
    (hinfo : s.services name = some info) (service : ServiceId) :
    Known s ⟨name, service, info.registration⟩ :=
  ⟨hi.fresh name info hinfo, fun name' info' hinfo' heq =>
    hi.unique name' info' name info hinfo' hinfo heq⟩

variable {gone come : List Reference} {ended begun : List Transition}
  (hr : (gone ++ Steps.references s').Perm (come ++ Steps.references s))
  (ht : (ended ++ Steps.transitions s').Perm (begun ++ Steps.transitions s))

include hr in
theorem Inv.references_perm (hcome : ∀ reference ∈ come, Known s reference) :
    ∀ reference ∈ Steps.references s', Known s reference := by
  intro reference h
  rcases mem_append.mp (hr.mem_iff.mp (mem_append_right gone h)) with h | h
  · exact hcome reference h
  · exact hi.references reference h

include ht in
theorem Inv.transitions_perm (hbegun : ∀ t ∈ begun, Known s t.1) : ∀ t ∈ Steps.transitions s', Known s t.1 := by
  intro t h
  rcases mem_append.mp (ht.mem_iff.mp (mem_append_right ended h)) with h | h
  · exact hbegun t h
  · exact hi.transitions t h

include hr ht

theorem Inv.same (hservs : s'.services = s.services) (hnext : s'.nextRegistration = s.nextRegistration)
    (hcome : ∀ reference ∈ come, Known s reference) (hbegun : ∀ t ∈ begun, Known s t.1)
    (hcnt : ∀ name info, s.services name = some info → gone.countP (·.registration = info.registration) =
        come.countP (·.registration = info.registration) ∧
      ended.countP (fun t => t.1.registration = info.registration && t.2.isStart) =
        begun.countP (fun t => t.1.registration = info.registration && t.2.isStart)) : Inv s' := by
  refine hi.of hnext (fun name info hinfo => ?_) (hi.references_perm hr hcome) (hi.transitions_perm ht hbegun)
  rw [hservs] at hinfo
  obtain ⟨h1, h2⟩ := hcnt name info hinfo
  have hu := unreleased_perm hr info.registration
  have hp := inProgress_perm ht info.registration
  exact ⟨(hi.entry name info hinfo).congr (by omega) (by omega), info, hinfo, rfl⟩

theorem Inv.setInfo {name : ServiceName} {info info' : RuntimeServiceInfo} (hinfo : s.services name = some info)
    (hservs : s'.services = Function.update s.services name (some info'))
    (hreg : info'.registration = info.registration)
    (hnext : s'.nextRegistration = s.nextRegistration)
    (hrefs : ∀ reference ∈ gone ++ come, reference.registration = info.registration)
    (htrans : ∀ t ∈ ended ++ begun, t.2.isStart = true → t.1.registration = info.registration)
    (hcome : ∀ reference ∈ come, Known s reference) (hbegun : ∀ t ∈ begun, Known s t.1)
    (hent : EntryOk s' info') : Inv s' := by
  refine hi.of hnext (fun name₁ info₁ hinfo₁ => ?_) (hi.references_perm hr hcome) (hi.transitions_perm ht hbegun)
  rw [hservs] at hinfo₁
  by_cases hne : name₁ = name
  · subst hne
    rw [Function.update_self] at hinfo₁
    cases hinfo₁
    exact ⟨hent, info, hinfo, hreg⟩
  · rw [Function.update_of_ne hne] at hinfo₁
    have hoth : info₁.registration ≠ info.registration := fun heq =>
      hne (hi.unique _ _ _ _ hinfo₁ hinfo heq)
    have hzero : ∀ l : List Reference, (∀ reference ∈ l, reference.registration =
        info.registration) → l.countP (·.registration = info₁.registration) = 0 := by
      refine fun l hl => countP_eq_zero.mpr fun reference h => ?_
      simpa [hl reference h] using hoth.symm
    have hzero' : ∀ l : List Transition, (∀ t ∈ l, t.2.isStart = true → t.1.registration = info.registration) →
          l.countP (fun t => t.1.registration = info₁.registration && t.2.isStart) = 0 := by
      refine fun l hl => countP_eq_zero.mpr fun t h hc => ?_
      simp only [Bool.and_eq_true, decide_eq_true_eq] at hc
      exact hoth (hc.1.symm.trans (hl t h hc.2))
    have hu := unreleased_perm hr info₁.registration
    have hp := inProgress_perm ht info₁.registration
    rw [hzero gone fun _ h => hrefs _ (mem_append_left _ h), hzero come fun _ h => hrefs _ (mem_append_right _ h)] at hu
    rw [hzero' ended fun _ h => htrans _ (mem_append_left _ h),
      hzero' begun fun _ h => htrans _ (mem_append_right _ h)] at hp
    exact ⟨(hi.entry name₁ info₁ hinfo₁).congr (by omega) (by omega), info₁, hinfo₁, rfl⟩

omit hr ht in
theorem Inv.register {name : ServiceName} {info : RuntimeServiceInfo}
    (hr : (Steps.references s').Perm (Steps.references s))
    (ht : (Steps.transitions s').Perm (Steps.transitions s)) (hnone : s.services name = none)
    (hservs : s'.services = Function.update s.services name (some info))
    (hnext : s'.nextRegistration = s.nextRegistration + 1)
    (hreg : info.registration = s.nextRegistration) (hcnt : info.refCount = 0)
    (hstate : info.state = .stopped) : Inv s' := by
  have hu := fun r => @unreleased_perm s s' [] [] hr r
  have hp := fun r => @inProgress_perm s s' [] [] ht r
  simp at hu hp
  have hold : ∀ name₁ info₁, s'.services name₁ = some info₁ →
      name₁ = name ∧ info₁ = info ∨ s.services name₁ = some info₁ := by
    intro name₁ info₁ h
    rw [hservs] at h
    by_cases hne : name₁ = name
    · subst hne; simp at h; exact .inl ⟨rfl, h.symm⟩
    · exact .inr (by simpa [hne] using h)
  have hknown : ∀ {reference}, Known s reference → Known s' reference := by
    refine fun h => ⟨by have := h.lt; omega, fun name₁ info₁ h₁ heq => ?_⟩
    rcases hold name₁ info₁ h₁ with ⟨rfl, rfl⟩ | h₁
    · have := h.lt; omega
    · exact h.name name₁ info₁ h₁ heq
  refine ⟨fun name₁ info₁ h₁ => ?_, fun name₁ info₁ name₂ info₂ h₁ h₂ heq => ?_,
    fun name₁ info₁ h₁ => ?_, fun reference h => hknown (hi.references _ (hr.mem_iff.mp h)),
    fun t h => hknown (hi.transitions _ (ht.mem_iff.mp h))⟩
  · rcases hold name₁ info₁ h₁ with ⟨rfl, rfl⟩ | h₁
    · have hzero : unreleased s info₁.registration = 0 :=
        countP_eq_zero.mpr fun reference h => by
          have := (hi.references _ h).lt
          simp only [decide_eq_true_eq]
          omega
      have hzero' : inProgress s info₁.registration = 0 :=
        countP_eq_zero.mpr fun t h => by
          have := (hi.transitions _ h).lt
          simp only [Bool.and_eq_true, decide_eq_true_eq]
          omega
      simp only [EntryOk, hstate]
      exact ⟨hcnt, (hu _).trans hzero, (hp _).trans hzero'⟩
    · exact (hi.entry name₁ info₁ h₁).congr (hu _) (hp _)
  · rcases hold name₁ info₁ h₁ with ⟨rfl, rfl⟩ | h₁ <;>
      rcases hold name₂ info₂ h₂ with ⟨rfl, rfl⟩ | h₂
    · rfl
    · have := hi.fresh _ _ h₂; omega
    · have := hi.fresh _ _ h₁; omega
    · exact hi.unique _ _ _ _ h₁ h₂ heq
  · rcases hold name₁ info₁ h₁ with ⟨rfl, rfl⟩ | h₁
    · omega
    · have := hi.fresh _ _ h₁; omega

theorem Inv.change {cat : Catalog} {top : Option Frame} {s₁ : State}
    (hkeeps : ∀ frame ∈ top, KeepsEntry s frame) (hc : Change cat s top s₁ gone come ended begun)
    (hagree : Agrees s₁ s') : Inv s' := by
  have hu := fun info : RuntimeServiceInfo => unreleased_perm hr info.registration
  have hp := fun info : RuntimeServiceInfo => inProgress_perm ht info.registration
  -- a reference that is given back, or a start that ends, on an entry that is not its own
  have hmiss : ∀ {reference : Reference}, Known s reference → (∀ info, s.services reference.name = some info →
        info.registration ≠ reference.registration) →
      ∀ name info, s.services name = some info → info.registration ≠ reference.registration := by
    intro reference hknown hoth name info hinfo heq
    have hname := hknown.name name info hinfo heq
    subst hname
    exact hoth info hinfo heq
  cases hc with
  | quiet hq =>
    exact hi.same hr ht (hagree.services.trans hq.services)
      (hagree.nextRegistration.trans hq.nextRegistration) (by simp) (by simp) (by simp)
  | @mark name info hinfo hstate =>
    have he := hi.entry name info hinfo
    simp only [EntryOk, hstate] at he
    have hu := hu info
    have hp := hp info
    simp [Progress.isStart] at hu hp
    refine hi.setInfo hr ht hinfo hagree.services rfl hagree.nextRegistration (by simp) (by simp)
      (by simp) (by simpa using hi.known hinfo info.service) ?_
    exact ⟨by simp only; omega, by simp only; omega, by simp only; omega⟩
  | @share name info hinfo hstate =>
    have he := hi.entry name info hinfo
    simp only [EntryOk, hstate] at he
    have hu := hu info
    have hp := hp info
    simp at hu hp
    refine hi.setInfo hr ht hinfo hagree.services rfl hagree.nextRegistration (by simp) (by simp)
      (by simpa using hi.known hinfo info.service) (by simp) ?_
    simp only [EntryOk, hstate]
    exact ⟨by omega, by omega, by omega⟩
  | @proceed reference p p' _ hproc =>
    have hstart : p'.isStart = p.isStart ∧ s₁.services = s.services ∧ s₁.nextRegistration = s.nextRegistration := by
      cases hproc <;> exact ⟨rfl, rfl, rfl⟩
    have hmem : (reference, p) ∈ Steps.transitions s := by
      have := ht.mem_iff.mp (mem_append_left _ (mem_singleton_self (reference, p)))
      simpa [hproc.ne] using this
    exact hi.same hr ht (hagree.services.trans hstart.2.1) (hagree.nextRegistration.trans hstart.2.2) (by simp)
      (by simpa using hi.transitions _ hmem) fun name info _ => ⟨rfl, by simp [hstart.1]⟩
  | @finish reference bound info htop hinfo =>
    have hreg : info.registration = reference.registration := hkeeps _ htop info hinfo
    have he := hi.entry _ info hinfo
    have hu := hu info
    have hp := hp info
    simp [Progress.isStart, hreg] at hu hp
    refine hi.setInfo hr ht hinfo hagree.services rfl hagree.nextRegistration (by simp)
      (by simp [hreg]) (by simpa using hi.known hinfo info.service) (by simp) ?_
    unfold EntryOk at he
    simp only [hreg] at he
    simp only [EntryOk, hreg]
    split at he <;> refine ⟨?_, ?_, ?_⟩ <;> omega
  | @fail reference bound info htop hinfo =>
    have hreg : info.registration = reference.registration := hkeeps _ htop info hinfo
    have he := hi.entry _ info hinfo
    have hu := hu info
    have hp := hp info
    simp [Progress.isStart, hreg] at hu hp
    refine hi.setInfo hr ht hinfo hagree.services rfl hagree.nextRegistration (by simp)
      (by simp [hreg]) (by simp) (by simp) ?_
    unfold EntryOk at he
    simp only [hreg] at he
    simp only [EntryOk, hreg, decrement]
    split at he
    · omega
    · omega
    · obtain ⟨h1, h2, h3⟩ := he
      refine ⟨by simp [h1], by omega, by omega⟩
    · omega
  | lost reference ok hinfo =>
    have hmem : (reference, Progress.started ok) ∈ Steps.transitions s := ht.mem_iff.mp (by simp)
    have hoth := hmiss (hi.transitions _ hmem) fun info h => by rw [hinfo] at h; cases h
    exact hi.same hr ht hagree.services hagree.nextRegistration (by simp) (by simp)
      fun name info h => ⟨rfl, by simp [(hoth name info h).symm]⟩
  | @skip stage reference rest htop hstg hinit =>
    have hmem : reference ∈ Steps.references s := hr.mem_iff.mp (by simp)
    have hoth := hmiss (hi.references _ hmem) fun info h => by
      have hk := hkeeps _ htop
      rcases hstg with rfl | rfl <;> exact hk hinit info h
    exact hi.same hr ht hagree.services hagree.nextRegistration (by simp) (by simp)
      fun name info h => ⟨by simp [(hoth name info h).symm], rfl⟩
  | @miss reference rest htop hzero =>
    have hmem : reference ∈ Steps.references s := hr.mem_iff.mp (by simp)
    have hoth := hmiss (hi.references _ hmem) fun info h heq => by
      have hc := (hi.entry _ info h).count
      have hpos : 0 < unreleased s info.registration :=
        countP_pos_iff.mpr ⟨reference, hmem, by simp [heq]⟩
      rw [hzero info h] at hc
      omega
    exact hi.same hr ht hagree.services hagree.nextRegistration (by simp) (by simp)
      fun name info h => ⟨by simp [(hoth name info h).symm], rfl⟩
  | @unbind reference rest info htop hinfo hcnt =>
    have hreg : info.registration = reference.registration :=
      (hkeeps _ htop info hinfo).resolve_right (by omega)
    have he := hi.entry _ info hinfo
    have hu := hu info
    have hp := hp info
    simp [hreg] at hu hp
    refine hi.setInfo hr ht hinfo hagree.services rfl hagree.nextRegistration (by simp [hreg])
      (by simp) (by simp) (by simp) ?_
    unfold EntryOk at he ⊢
    simp only [hreg] at he ⊢
    split at he <;> refine ⟨?_, ?_, ?_⟩ <;> omega
  | @last reference rest info htop hinfo hcnt hrun =>
    have hreg : info.registration = reference.registration :=
      (hkeeps _ htop info hinfo).resolve_right (by omega)
    have he := hi.entry _ info hinfo
    have hu := hu info
    have hp := hp info
    simp [hreg, Progress.isStart] at hu hp
    refine hi.setInfo hr ht hinfo hagree.services rfl hagree.nextRegistration (by simp [hreg])
      (by simp [hreg]) (by simp) (by simpa [hreg] using hi.known hinfo info.service) ?_
    unfold EntryOk at he
    simp only [hreg] at he
    simp only [EntryOk, hreg]
    split at he <;> exact ⟨by trivial, by omega, by omega⟩
  | @lastIdle reference rest info htop hinfo hcnt hrun =>
    have hreg : info.registration = reference.registration :=
      (hkeeps _ htop info hinfo).resolve_right (by omega)
    have he := hi.entry _ info hinfo
    have hu := hu info
    have hp := hp info
    simp [hreg] at hu hp
    refine hi.setInfo hr ht hinfo hagree.services rfl hagree.nextRegistration (by simp [hreg])
      (by simp) (by simp) (by simp) ?_
    unfold EntryOk at he
    simp only [hreg] at he
    simp only [EntryOk, hreg]
    split at he <;> exact ⟨by trivial, by omega, by omega⟩
  | @stopped reference info hinfo hstate =>
    have he := hi.entry _ info hinfo
    have hu := hu info
    have hp := hp info
    simp [Progress.isStart] at hu hp
    refine hi.setInfo hr ht hinfo hagree.services rfl hagree.nextRegistration (by simp)
      (by simp [Progress.isStart]) (by simp) (by simp) ?_
    simp only [EntryOk, hstate] at he
    simp only [EntryOk]
    exact ⟨he.1, by omega, by omega⟩
  | overtaken reference h =>
    exact hi.same hr ht hagree.services hagree.nextRegistration (by simp) (by simp)
      fun name info _ => ⟨rfl, by simp [Progress.isStart]⟩
  | register hnone =>
    exact hi.register (by simpa using hr) (by simpa using ht) hnone hagree.services hagree.nextRegistration rfl rfl rfl
  | @erase name htop =>
    refine hi.of hagree.nextRegistration (fun name₁ info hinfo => ?_)
      (hi.references_perm hr (by simp)) (hi.transitions_perm ht (by simp))
    have hinfo₁ : s.services name₁ = some info := by
      rw [hagree.services] at hinfo
      by_cases hne : name₁ = name
      · subst hne; simp at hinfo
      · simpa [hne] using hinfo
    have hu := hu info
    have hp := hp info
    simp at hu hp
    exact ⟨(hi.entry name₁ info hinfo₁).congr hu hp, info, hinfo₁, rfl⟩
  | unset htop =>
    exact hi.same hr ht hagree.services hagree.nextRegistration (by simp) (by simp) (by simp)
  | prepare htop h =>
    exact hi.same hr ht hagree.services hagree.nextRegistration (by simp) (by simp) (by simp)
  | foreign htop h hservs hnext =>
    exact hi.same hr ht (hagree.services.trans hservs) (hagree.nextRegistration.trans hnext)
      (by simp) (by simp) (by simp)

theorem Inv.miscounted {name : ServiceName} {info info' : RuntimeServiceInfo}
    (hinfo : s.services name = some info) (hinfo' : s'.services name = some info')
    (hreg : info'.registration = info.registration)
    (hne : info'.refCount + gone.countP (·.registration = info.registration) +
        ended.countP (fun t => t.1.registration = info.registration && t.2.isStart) ≠
      info.refCount + come.countP (·.registration = info.registration) +
        begun.countP (fun t => t.1.registration = info.registration && t.2.isStart)) :
    ¬ NeverUnder s' := by
  intro h
  have hc := (hi.entry name info hinfo).count
  have hc' := h.counted name info' hinfo'
  have hu := unreleased_perm hr info.registration
  have hp := inProgress_perm ht info.registration
  rw [hreg] at hc'
  omega

end Step

section Miscounted
variable {cat : Catalog} {s s₁ : State} (hi : Inv s) {t : ThreadId} {ok : Bool} {frame : Frame}
  {frames frames' : List Frame} (hstack : s.threads[t]? = some (frame :: frames))
include hi hstack

theorem Inv.skipped {reference : Reference} {rest : ServiceBinding}
    (hheld : held frame = reference :: rest) (hund : underway frame = [])
    {info : RuntimeServiceInfo} (hinfo : s.services reference.name = some info)
    (hreg : info.registration = reference.registration) :
    ¬ NeverUnder { s with threads := s.threads.set t (releaseOf rest frames) } := by
  obtain ⟨hr, ht⟩ := @stack_perm s s t _ (releaseOf rest frames) hstack rfl [reference] [] [] []
    (perm_append_left (by simp [releaseOf_held, hheld])) (by simp [releaseOf_underway, hund])
  exact hi.miscounted hr ht hinfo hinfo rfl (by simp [hreg])

theorem Inv.unbound {reference : Reference} {rest : ServiceBinding}
    (hfr : frame = .release .locking reference rest) {info : RuntimeServiceInfo}
    (hinfo : s.services reference.name = some info)
    (hreg : info.registration ≠ reference.registration) (hcnt : info.refCount ≠ 0)
    (h : frameStep cat s ok frames frame = some (s₁, frames')) :
    ¬ NeverUnder { s₁ with threads := s₁.threads.set t frames' } := by
  subst hfr
  simp only [frameStep, releaseStep, hinfo, if_neg hcnt] at h
  split at h
  · next hone =>
    split at h
    · cases h
      obtain ⟨hr, ht⟩ := @stack_perm s (s.setInfo _ _) t _
        (.release (.marked info.service) reference rest :: frames) hstack rfl [reference] [] []
        [(⟨reference.name, info.service, reference.registration⟩, .stopMarked)]
        (perm_append_left (by simp [held])) (by simp [underway])
      exact hi.miscounted hr ht hinfo (Function.update_self ..) rfl (by simp [Progress.isStart, hone, hreg.symm])
    · cases h
      obtain ⟨hr, ht⟩ := @stack_perm s (s.setInfo _ _) t _ (releaseOf rest frames) hstack rfl
        [reference] [] [] [] (perm_append_left (by simp [releaseOf_held, held]))
        (by simp [releaseOf_underway, underway])
      exact hi.miscounted hr ht hinfo (Function.update_self ..) rfl (by simp [hone, hreg.symm])
  · cases h
    obtain ⟨hr, ht⟩ := @stack_perm s (s.setInfo _ _) t _ (releaseOf rest frames) hstack rfl
      [reference] [] [] [] (perm_append_left (by simp [releaseOf_held, held]))
      (by simp [releaseOf_underway, underway])
    exact hi.miscounted hr ht hinfo (Function.update_self ..) rfl (by simp [hreg.symm]; omega)

theorem Inv.misstarted {name : ServiceName} {registration : ℕ} {service : ServiceId} {result : Bool}
    {bound : ServiceBinding} (hfr : frame = .bind name (.started registration service result bound))
    {info : RuntimeServiceInfo} (hinfo : s.services name = some info)
    (hreg : info.registration ≠ registration)
    (h : frameStep cat s ok frames frame = some (s₁, frames')) :
    ¬ NeverUnder { s₁ with threads := s₁.threads.set t frames' } := by
  subst hfr
  cases result with
  | true =>
    simp only [frameStep, bindStep, hinfo] at h
    obtain ⟨frames'', hb, he⟩ := map_eq_some_iff.mp h
    cases he
    obtain ⟨h1, h2⟩ := returnBinding_eq hb
    obtain ⟨hr, ht⟩ := @stack_perm s (s.setInfo _ _) t _ frames' hstack rfl [] [⟨name, info.service, info.registration⟩]
      [(⟨name, service, registration⟩, .started true)] []
      (perm_append_left (by simp [h1, held])) (by simp [h2, underway])
    exact hi.miscounted hr ht hinfo (Function.update_self ..) rfl (by simp [Progress.isStart, hreg.symm])
  | false =>
    simp only [frameStep, bindStep, hinfo] at h
    cases h
    obtain ⟨hr, ht⟩ := @stack_perm s (s.setInfo _ _) t _ (.bind name (.failing bound) :: frames) hstack
      rfl [] [] [(⟨name, service, registration⟩, .started false)] []
      (perm_append_left (by simp [held])) (by simp [underway])
    refine hi.miscounted hr ht hinfo (Function.update_self ..) rfl ?_
    simp only [decrement]
    split <;> simp [Progress.isStart, hreg.symm] <;> omega

end Miscounted

theorem Inv.not_neverUnder {cat : Catalog} {s s' : State} {a : Action} (hi : Inv s)
    (hkeeps : ¬ OwnEntries s a) (h : step cat s a = some s') : ¬ NeverUnder s' := by
  unfold OwnEntries at hkeeps
  push Not at hkeeps
  obtain ⟨frame, htop, hkeeps⟩ := hkeeps
  cases a with
  | call t c => cases htop
  | advance t ok =>
    obtain ⟨stack, hstack, hhead⟩ := bind_eq_some_iff.mp htop
    obtain ⟨frames, rfl⟩ := List.head?_eq_some_iff.mp hhead
    simp only [step, hstack] at h
    obtain ⟨⟨s₁, frames'⟩, hf, he⟩ := map_eq_some_iff.mp h
    cases he
    cases frame with
    | release stage reference rest =>
      cases stage with
      | calling =>
        simp only [KeepsEntry] at hkeeps
        push Not at hkeeps
        obtain ⟨hinit, info, hinfo, hreg⟩ := hkeeps
        simp only [frameStep, releaseStep, hinit] at hf
        cases hf
        exact hi.skipped hstack rfl rfl hinfo hreg
      | unbinding =>
        simp only [KeepsEntry] at hkeeps
        push Not at hkeeps
        obtain ⟨hinit, info, hinfo, hreg⟩ := hkeeps
        simp only [frameStep, releaseStep, hinit] at hf
        cases hf
        exact hi.skipped hstack rfl rfl hinfo hreg
      | locking =>
        simp only [KeepsEntry] at hkeeps
        push Not at hkeeps
        obtain ⟨info, hinfo, hreg, hcnt⟩ := hkeeps
        exact hi.unbound hstack rfl hinfo hreg hcnt hf
      | _ => exact absurd trivial hkeeps
    | bind name stage =>
      cases stage with
      | started registration service result bound =>
        simp only [KeepsEntry] at hkeeps
        push Not at hkeeps
        obtain ⟨info, hinfo, hreg⟩ := hkeeps
        exact hi.misstarted hstack rfl hinfo hreg hf
      | _ => exact absurd trivial hkeeps
    | _ => exact absurd trivial hkeeps

/-! ### Runs -/

theorem inv_inductive (cat : Catalog) : (serviceManager cat).Inductive OwnEntries Inv where
  init := by
    rintro s ⟨m, n, rfl⟩
    refine ⟨?_, ?_, ?_, ?_, ?_⟩ <;> simp [State.initial, Steps.references, Steps.transitions]
  step s a s' hi hkeeps h := by
    obtain ⟨s₁, gone, come, ended, begun, hc, hagree, hr, ht⟩ := step_change h
    exact hi.change hr ht hkeeps hc hagree

/-- **No service is stopped under a binding, and the counts are right, in exactly the runs whose steps
find the registration they are made for.** -/
theorem neverUnder_iff (cat : Catalog) (bindings threads : ℕ) (as : List Action) :
    (serviceManager cat).Always NeverUnder (State.initial bindings threads) as ↔
      (serviceManager cat).Keeps OwnEntries (State.initial bindings threads) as :=
  (inv_inductive cat).exact (fun _ hi => hi.neverUnder) (fun _ _ _ hi hkeeps h => hi.not_neverUnder hkeeps h) as _
    ((inv_inductive cat).init _ ⟨bindings, threads, rfl⟩)

/-! ### A service that is registered again -/

def callRun (c : Call) (steps : ℕ) : List Action :=
  .call 0 c :: List.replicate steps (.advance 0 true)

/-- The service is removed under a binding, added and bound again; then the old binding is released. -/
def readdedRun : List Action :=
  callRun (.init [] []) 4 ++ callRun (.add 0) 5 ++ callRun (.bind 0 "x") 9 ++ callRun (.remove "x") 7 ++
    callRun (.add 0) 5 ++ callRun (.bind 1 "x") 9 ++ callRun (.release 0) 8

theorem readdedRun_stops_under : ¬ ∀ (cat : Catalog) (s : State), (serviceManager cat).Reachable s → NeverUnder s := by
  intro h
  have hrun : ∃ s, (serviceManager fun _ => { name := "x" }).exec (State.initial 2 1) readdedRun = some s ∧
      s.services "x" = some { service := 0, registration := 1 } ∧ unreleased s 1 = 1 := by decide
  obtain ⟨s, hs, hinfo, hunder⟩ := hrun
  have hzero := (h _ s (.exec (.init ⟨2, 1, rfl⟩) hs)).idle "x" _ hinfo (.inr rfl)
  rw [hunder] at hzero
  cases hzero

end Brookesia.ServiceManager.References
