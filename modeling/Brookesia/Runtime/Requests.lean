import Brookesia.Runtime.Resources

/-! # Finish requests and the calls in progress

What a history says about finish requests (`unanswered`), and how the requests, the operations in
progress and the history fit together (`Fits`), with one lemma for each thing a step does to them. -/

namespace Brookesia.Runtime

open List

/-- `event` ends what `app` has asked before: the backend has stopped it, or it failed to start. -/
def Event.answers (app : AppId) : Event → Bool
  | .stopped id => id == app
  | .returned .startApp id false => id == app
  | _ => false

/-- A finish request that `app` has made in `history` (the last event first) and that nothing has
answered; with `onlyInCall` one that was made during a start or a call of `app`. -/
def unanswered (onlyInCall : Bool) (app : AppId) : List Event → Bool
  | [] => false
  | .finishApp id called :: history => (id == app && (called || !onlyInCall)) || unanswered onlyInCall app history
  | event :: history => !event.answers app && unanswered onlyInCall app history

variable {f : Frame} {rest calls : List Frame} {requests : Finset AppId} {history : List Event} {app id : AppId}
  {onlyInCall ok : Bool} {operation : Operation}

@[simp] theorem unanswered_stopped : unanswered onlyInCall app (.stopped id :: history) =
    (!(id == app) && unanswered onlyInCall app history) := rfl

@[simp] theorem unanswered_requestStop :
    unanswered onlyInCall app (.requestStop id :: history) = unanswered onlyInCall app history := rfl

theorem unanswered_of_returned (h : unanswered onlyInCall app (.returned operation id ok :: history) = true) :
    unanswered onlyInCall app history = true :=
  (Bool.and_eq_true_iff.mp h).2

theorem unanswered_returned (h : unanswered onlyInCall app history = true)
    (hop : operation = .startApp → ok = false → id ≠ app) :
    unanswered onlyInCall app (.returned operation id ok :: history) = true := by
  have hansw : (Event.returned operation id ok).answers app = false := by
    cases operation <;> cases ok <;> simp_all [Event.answers]
  change (!(Event.returned operation id ok).answers app && unanswered onlyInCall app history) = true
  rw [hansw, h]
  rfl

theorem inCall_cons : inCall (f :: calls) app = (f.isCall && f.app == app || inCall calls app) := rfl

theorem inCall_of_mem {g : Frame} (hg : g ∈ calls) (hcall : g.isCall = true) : inCall calls g.app = true :=
  any_eq_true.mpr ⟨g, hg, by simp [hcall]⟩

/-- How the operations in progress, the requests and the history fit together. -/
structure Fits (calls : List Frame) (requests : Finset AppId) (history : List Event) : Prop where
  requested : ∀ app ∈ requests, unanswered false app history = true
  answered : ∀ app, unanswered true app history = true →
    inCall calls app = true ∧ (app ∈ requests ∨ ∃ f ∈ calls, f.stopping = true ∧ f.app = app)
  stops : ∀ f ∈ calls, f.stopping = true → f.isCall = true
  outermost : calls.Pairwise fun f g => f.stopping = true → g.isCall = true → g.app ≠ f.app
  own : ∀ app before, (.requestStop app :: before) <:+ history → unanswered false app before = true

theorem own_cons {event : Event} (h : ∀ app before, (.requestStop app :: before) <:+ history → unanswered false app before = true)
    (hevent : ∀ app, event = .requestStop app → unanswered false app history = true) :
    ∀ app before, (.requestStop app :: before) <:+ (event :: history) → unanswered false app before = true := by
  intro app before hsuf
  obtain heq | hsuf := suffix_cons_iff.mp hsuf
  · obtain ⟨rfl, rfl⟩ := cons.inj heq
    exact hevent app rfl
  · exact h app before hsuf

theorem Fits.push (h : Fits calls requests history) (hf : f.stopping = false) : Fits (f :: calls) requests history := by
  refine ⟨h.requested, fun app happ => ?_, ?_, ?_, h.own⟩
  · obtain ⟨hcall, hasked⟩ := h.answered app happ
    refine ⟨by rw [inCall_cons, hcall, Bool.or_true], hasked.imp_right ?_⟩
    rintro ⟨g, hg, hstops⟩
    exact ⟨g, mem_cons_of_mem f hg, hstops⟩
  · intro g hg hstops
    obtain rfl | hg := mem_cons.mp hg
    · rw [hf] at hstops
      cases hstops
    · exact h.stops g hg hstops
  · refine pairwise_cons.mpr ⟨fun g _ hstops => ?_, h.outermost⟩
    rw [hf] at hstops
    cases hstops

theorem Fits.drop (h : Fits [] requests history) {fewer : Finset AppId} (hfewer : fewer ⊆ requests) :
    Fits [] fewer history :=
  { h with
    requested := fun app happ => h.requested app (hfewer happ)
    answered := fun app happ => absurd (h.answered app happ).1 Bool.false_ne_true }

theorem Fits.refuse (h : Fits calls requests history) (hid : operation = .startApp → id ∉ requests) :
    Fits calls requests (.returned operation id false :: history) := by
  refine ⟨fun app happ => ?_, fun app happ => h.answered app (unanswered_of_returned happ), h.stops, h.outermost, ?_⟩
  · refine unanswered_returned (h.requested app happ) fun hop _ heq => ?_
    exact hid hop (heq ▸ happ)
  · exact own_cons h.own fun app heq => Event.noConfusion heq

theorem Fits.finish (h : Fits calls requests history) (id : AppId) :
    Fits calls (insert id requests) (.finishApp id (inCall calls id) :: history) := by
  refine ⟨fun app happ => ?_, fun app happ => ?_, h.stops, h.outermost, own_cons h.own fun app heq => Event.noConfusion heq⟩
  · obtain rfl | happ := Finset.mem_insert.mp happ
    · simp [unanswered]
    · change (_ || unanswered false app history) = true
      rw [h.requested app happ, Bool.or_true]
  · obtain hhere | hbef := Bool.or_eq_true_iff.mp happ
    · obtain ⟨heq, hcall⟩ := Bool.and_eq_true_iff.mp hhere
      obtain rfl := beq_iff_eq.mp heq
      exact ⟨by simpa using hcall, .inl (Finset.mem_insert_self _ _)⟩
    · obtain ⟨hcall, hasked⟩ := h.answered app hbef
      exact ⟨hcall, hasked.imp_left (Finset.mem_insert_of_mem)⟩

theorem Fits.stop (h : Fits (f :: rest) requests history) (hcall : f.isCall = true) (hasked : f.app ∈ requests)
    (hrest : inCall rest f.app = false) :
    Fits ({ f with stopping := true } :: rest) (requests.erase f.app) (.requestStop f.app :: history) := by
  have hpairwise := pairwise_cons.mp h.outermost
  refine ⟨fun app happ => h.requested app (Finset.mem_of_mem_erase happ), fun app happ => ?_, ?_, ?_, ?_⟩
  · obtain ⟨hin, hwhere⟩ := h.answered app happ
    refine ⟨hin, ?_⟩
    by_cases heq : f.app = app
    · exact .inr ⟨{ f with stopping := true }, mem_cons_self, rfl, heq⟩
    · obtain hmem | ⟨g, hg, hstops⟩ := hwhere
      · exact .inl (Finset.mem_erase.mpr ⟨Ne.symm heq, hmem⟩)
      · obtain rfl | hg := mem_cons.mp hg
        · exact absurd hstops.2 heq
        · exact .inr ⟨g, mem_cons_of_mem _ hg, hstops⟩
  · intro g hg hstops
    obtain rfl | hg := mem_cons.mp hg
    · exact hcall
    · exact h.stops g (mem_cons_of_mem f hg) hstops
  · refine pairwise_cons.mpr ⟨fun g hg _ hgcall heq => ?_, hpairwise.2⟩
    have hin := inCall_of_mem hg hgcall
    rw [heq, hrest] at hin
    cases hin
  · refine own_cons h.own fun app heq => ?_
    obtain rfl := Event.requestStop.inj heq
    exact h.requested _ hasked

theorem Fits.below (h : Fits (f :: rest) requests history) : (∀ g ∈ rest, g.stopping = true → g.isCall = true) ∧
      rest.Pairwise fun f g => f.stopping = true → g.isCall = true → g.app ≠ f.app :=
  ⟨fun g hg => h.stops g (mem_cons_of_mem f hg), (pairwise_cons.mp h.outermost).2⟩

theorem Fits.leave (h : Fits (f :: rest) requests history) (hstpg : f.stopping = false)
    (hstart : f.operation = .startApp → ok = true)
    (hleft : f.isCall = true → unanswered true f.app history = true → inCall rest f.app = true) :
    Fits rest requests (.returned f.operation f.app ok :: history) := by
  refine ⟨fun app happ => ?_, fun app happ => ?_, h.below.1, h.below.2, own_cons h.own fun app heq => Event.noConfusion heq⟩
  · refine unanswered_returned (h.requested app happ) fun hop hfail => ?_
    rw [hstart hop] at hfail
    cases hfail
  · have hbef := unanswered_of_returned happ
    obtain ⟨hin, hwhere⟩ := h.answered app hbef
    constructor
    · rw [inCall_cons] at hin
      obtain hhere | hin := Bool.or_eq_true_iff.mp hin
      · obtain ⟨hcall, heq⟩ := Bool.and_eq_true_iff.mp hhere
        obtain rfl := beq_iff_eq.mp heq
        exact hleft hcall hbef
      · exact hin
    · refine hwhere.imp_right ?_
      rintro ⟨g, hg, hstops, heq⟩
      obtain rfl | hg := mem_cons.mp hg
      · rw [hstpg] at hstops
        cases hstops
      · exact ⟨g, hg, hstops, heq⟩

theorem Fits.not_unanswered (h : Fits (f :: rest) requests history) (hstpg : f.stopping = false)
    (hnot : f.app ∉ requests) (hun : unanswered true f.app history = true) : inCall rest f.app = true := by
  obtain ⟨-, hmem | ⟨g, hg, hstops, heq⟩⟩ := h.answered f.app hun
  · exact absurd hmem hnot
  · obtain rfl | hg := mem_cons.mp hg
    · rw [hstpg] at hstops
      cases hstops
    · exact heq ▸ inCall_of_mem hg (h.below.1 g hg hstops)

theorem Fits.answer (h : Fits (f :: rest) requests history) {after : List Event}
    (hoth : ∀ onlyInCall, ∀ app ≠ f.app, unanswered onlyInCall app after = unanswered onlyInCall app history)
    (hself : unanswered true f.app after = false)
    (hown : ∀ app before, (.requestStop app :: before) <:+ after → unanswered false app before = true) :
    Fits rest (requests.erase f.app) after := by
  refine ⟨fun app happ => ?_, fun app happ => ?_, h.below.1, h.below.2, hown⟩
  · obtain ⟨hne, happ⟩ := Finset.mem_erase.mp happ
    rw [hoth false app hne]
    exact h.requested app happ
  · have hne : app ≠ f.app := by
      rintro rfl
      rw [hself] at happ
      cases happ
    rw [hoth true app hne] at happ
    obtain ⟨hin, hwhere⟩ := h.answered app happ
    constructor
    · rw [inCall_cons, beq_false_of_ne (Ne.symm hne), Bool.and_false, Bool.false_or] at hin
      exact hin
    · obtain hmem | ⟨g, hg, hstops, heq⟩ := hwhere
      · exact .inl (Finset.mem_erase.mpr ⟨hne, hmem⟩)
      · obtain rfl | hg := mem_cons.mp hg
        · exact absurd heq.symm hne
        · exact .inr ⟨g, hg, hstops, heq⟩

end Brookesia.Runtime
