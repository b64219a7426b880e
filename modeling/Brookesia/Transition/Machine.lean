import Mathlib

/-! # Labelled machines

A machine has initial states and, for every label, a partial step. All concurrency of a component is
put in the labels: a label names the thread or the object that moves and what it is told by the
outside, so a run is one interleaving.

* `Reach C s`: some run ends in `s` and takes each of its steps under the condition `C` (a relation of
  the state before the step and the label). `Reachable` is `Reach` without a condition.
* `Inductive C I` and `Inductive.reach`: an invariant of the runs under `C`.
* `Always P s as`, `Keeps C s as`: the run from `s` by the labels `as` has `P` in all its states, or
  meets `C` at all its steps; `Inductive.exact`: if keeping to `C` keeps a property and leaving `C`
  breaks it at once, the runs with the property are exactly the runs under `C`.
* `exec`, `execWhen`: runs that are computed. -/

namespace Brookesia.Transition

open Option

theorem of_guard {σ : Type*} {p : Prop} [Decidable p] {x y : σ} (h : (if p then some x else none) = some y) :
    p ∧ x = y := by
  obtain ⟨hp, hxy⟩ := ite_none_right_eq_some.mp h
  exact ⟨hp, some.inj hxy⟩

/-- States `σ`, labels `α`: where a run starts, and what a label does where it is enabled. -/
structure Machine (σ α : Type*) where
  init : σ → Prop
  step : σ → α → Option σ

namespace Machine

variable {σ α : Type*} (M : Machine σ α)

/-- The states that runs end in whose steps all meet `C`. -/
inductive Reach (C : σ → α → Prop) : σ → Prop
  | init {s : σ} : M.init s → Reach C s
  | step {s s' : σ} {a : α} : Reach C s → C s a → M.step s a = some s' → Reach C s'

abbrev Reachable (s : σ) : Prop := M.Reach (fun _ _ => True) s

/-- An invariant of the runs under `C`. -/
structure Inductive (C : σ → α → Prop) (I : σ → Prop) : Prop where
  init : ∀ s, M.init s → I s
  step : ∀ s a s', I s → C s a → M.step s a = some s' → I s'

variable {M} {C D : σ → α → Prop} {I P : σ → Prop}

variable {as : List α} {s s' : σ}

theorem Inductive.reach (h : M.Inductive C I) (hs : M.Reach C s) : I s := by
  induction hs with
  | init hi => exact h.init _ hi
  | step _ hc hst ih => exact h.step _ _ _ ih hc hst

theorem Inductive.and (h : M.Inductive C I) (hinit : ∀ s, M.init s → P s)
    (hstep : ∀ s a s', I s → P s → C s a → M.step s a = some s' → P s') :
    M.Inductive C fun s => I s ∧ P s :=
  ⟨fun s hs => ⟨h.init s hs, hinit s hs⟩,
    fun s a s' hs hc hst => ⟨h.step s a s' hs.1 hc hst, hstep s a s' hs.1 hs.2 hc hst⟩⟩

theorem Inductive.mono (h : M.Inductive D I) (hCD : ∀ s a, C s a → D s a) : M.Inductive C I :=
  ⟨h.init, fun s a s' hs hc hst => h.step s a s' hs (hCD s a hc) hst⟩

theorem Reach.mono (hCD : ∀ s a, C s a → D s a) (hs : M.Reach C s) : M.Reach D s := by
  induction hs with
  | init hi => exact .init hi
  | step _ hc hst ih => exact .step ih (hCD _ _ hc) hst

theorem Reach.reachable (hs : M.Reach C s) : M.Reachable s :=
  hs.mono fun _ _ _ => trivial

/-! ### Runs by their labels -/

variable (M) in
/-- `P` holds in every state that the labels `as` lead through from `s`. -/
def Always (P : σ → Prop) (s : σ) : List α → Prop
  | [] => P s
  | a :: as => P s ∧ ∀ s', M.step s a = some s' → Always P s' as

variable (M) in
/-- Every step that the labels `as` make from `s` meets `C`. -/
def Keeps (C : σ → α → Prop) (s : σ) : List α → Prop
  | [] => True
  | a :: as => ∀ s', M.step s a = some s' → C s a ∧ Keeps C s' as

theorem Always.head (h : M.Always P s as) : P s := by
  cases as with
  | nil => exact h
  | cons => exact h.1

/-- **Exact conditions.** If `I` is kept by the steps under `C` and contains `P`, and a step outside
`C` from a state with `I` ends outside `P`, then a run has `P` throughout if and only if all its
steps meet `C`. -/
theorem Inductive.exact (h : M.Inductive C I) (hP : ∀ s, I s → P s)
    (hbad : ∀ s a s', I s → ¬ C s a → M.step s a = some s' → ¬ P s') :
    ∀ (as : List α) (s : σ), I s → (M.Always P s as ↔ M.Keeps C s as)
  | [], s, hI => ⟨fun _ => trivial, fun _ => hP s hI⟩
  | a :: as, s, hI => by
    constructor
    · rintro ⟨-, hrest⟩ s' hst
      have hc : C s a := by
        by_contra hc
        exact hbad s a s' hI hc hst (hrest s' hst).head
      exact ⟨hc, (h.exact hP hbad as s' (h.step s a s' hI hc hst)).mp (hrest s' hst)⟩
    · intro hk
      refine ⟨hP s hI, fun s' hst => ?_⟩
      obtain ⟨hc, hk'⟩ := hk s' hst
      exact (h.exact hP hbad as s' (h.step s a s' hI hc hst)).mpr hk'

/-! ### Runs computed -/

variable (M)

/-- The state after a list of labels, if each of them is enabled in its turn. -/
def exec (s : σ) : List α → Option σ
  | [] => some s
  | a :: as => (M.step s a).bind fun s' => exec s' as

/-- `exec`, stopped by the first label that does not meet `C`. -/
def execWhen (C : σ → α → Prop) [∀ s a, Decidable (C s a)] (s : σ) : List α → Option σ
  | [] => some s
  | a :: as => if C s a then (M.step s a).bind fun s' => execWhen C s' as else none

variable {M}

theorem Reach.exec (hs : M.Reachable s) (h : M.exec s as = some s') : M.Reachable s' := by
  induction as generalizing s with
  | nil => simp only [Machine.exec, some.injEq] at h; exact h ▸ hs
  | cons a as ih =>
    obtain ⟨s₁, h1, h2⟩ := bind_eq_some_iff.mp h
    exact ih (.step hs trivial h1) h2

theorem Reach.execWhen [∀ s a, Decidable (C s a)] (hs : M.Reach C s)
    (h : M.execWhen C s as = some s') : M.Reach C s' := by
  induction as generalizing s with
  | nil => simp only [Machine.execWhen, some.injEq] at h; exact h ▸ hs
  | cons a as ih =>
    unfold Machine.execWhen at h
    split at h
    · next hc =>
      obtain ⟨s₁, h1, h2⟩ := bind_eq_some_iff.mp h
      exact ih (.step hs hc h1) h2
    · cases h

theorem Keeps.of_execWhen [∀ s a, Decidable (C s a)] (h : (M.execWhen C s as).isSome = true) : M.Keeps C s as := by
  induction as generalizing s with
  | nil => exact trivial
  | cons a as ih =>
    unfold Machine.execWhen at h
    intro s' hst
    split at h
    · next hc =>
      rw [hst] at h
      exact ⟨hc, ih h⟩
    · cases h

theorem Always.exec (h : M.Always P s as) (hs : M.exec s as = some s') : P s' := by
  induction as generalizing s with
  | nil =>
    cases hs
    exact h
  | cons a as ih =>
    obtain ⟨s₁, h1, h2⟩ := bind_eq_some_iff.mp hs
    exact ih (h.2 s₁ h1) h2

end Machine

end Brookesia.Transition
