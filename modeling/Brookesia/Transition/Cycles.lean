import Mathlib

/-! # Chains that end

Where a relation has finitely many elements to go on from, a chain from `a` goes on for ever exactly if it can lead to a cycle. -/

namespace Brookesia.Transition

open Relation

variable {α : Type*} {R : α → α → Prop} {a b : α}

/-- Some chain from `a` comes to an element that it comes back to. -/
def LeadsToCycle (R : α → α → Prop) (a : α) : Prop := ∃ b, ReflTransGen R a b ∧ TransGen R b b

theorem LeadsToCycle.next (h : LeadsToCycle R a) : ∃ b, R a b ∧ LeadsToCycle R b := by
  obtain ⟨c, hchain, hcycle⟩ := h
  rcases ReflTransGen.cases_head hchain with rfl | ⟨b, hab, hbc⟩
  · obtain ⟨b, hab, hba⟩ := TransGen.head'_iff.mp hcycle
    exact ⟨b, hab, a, hba, hcycle⟩
  · exact ⟨b, hab, c, hbc, hcycle⟩

theorem acc_of_not_leadsToCycle (hfinite : {a | ∃ b, R a b}.Finite) (h : ¬ LeadsToCycle R a) :
    Acc (fun b a => R a b) a := by
  have : Finite {b | ReflTransGen R a b ∧ ∃ c, R b c} := (hfinite.subset fun b hb => hb.2).to_subtype
  let S (x y : {b | ReflTransGen R a b ∧ ∃ c, R b c}) : Prop := TransGen R y.1 x.1
  have : IsTrans _ S := ⟨fun x y z hxy hyz => hyz.trans hxy⟩
  have : Std.Irrefl S := ⟨fun x hx => h ⟨x.1, x.2.1, hx⟩⟩
  have hwf : WellFounded S := Finite.wellFounded_of_trans_of_irrefl S
  have hacc : ∀ x : {b | ReflTransGen R a b ∧ ∃ c, R b c}, Acc (fun b a => R a b) x.1 := by
    intro x
    induction x using hwf.induction with
    | h x ih =>
      refine Acc.intro _ fun b hb => ?_
      by_cases hnext : ∃ c, R b c
      · exact ih ⟨b, x.2.1.tail hb, hnext⟩ (.single hb)
      · exact Acc.intro _ fun c hc => absurd ⟨c, hc⟩ hnext
  by_cases hnext : ∃ c, R a c
  · exact hacc ⟨a, .refl, hnext⟩
  · exact Acc.intro _ fun c hc => absurd ⟨c, hc⟩ hnext

end Brookesia.Transition
