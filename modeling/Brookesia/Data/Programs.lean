import Mathlib

/-! # Programs that may fail

A program over a state ends with a value or with an error, and leaves a state either way. -/

namespace Brookesia.Data.Programs

variable {σ ε α β : Type}

def Program (σ ε α : Type) : Type := σ → Except ε α × σ

def Program.bind (x : Program σ ε α) (f : α → Program σ ε β) : Program σ ε β := fun s =>
  match x s with
  | (.ok a, r) => f a r
  | (.error e, r) => (.error e, r)

instance : Monad (Program σ ε) where
  pure a := fun s => (.ok a, s)
  bind := Program.bind

def read (f : σ → α) : Program σ ε α := fun s => (.ok (f s), s)

def change (f : σ → σ) : Program σ ε Unit := fun s => (.ok (), f s)

def result (x : Except ε α) : Program σ ε α := fun s => (x, s)

def require (c : Bool) (e : ε) : Program σ ε Unit := fun s => (if c then .ok () else .error e, s)

/-- What is done where a program fails. The error is that of the program. -/
def onError (x : Program σ ε α) (cleanup : Program σ ε Unit) : Program σ ε α := fun s =>
  match x s with
  | (.ok a, r) => (.ok a, r)
  | (.error e, r) => (.error e, (cleanup r).2)

def context (f : ε → ε) (x : Program σ ε α) : Program σ ε α := fun s =>
  ((x s).1.mapError f, (x s).2)

/-! ### What a program ends with -/

variable {x : Program σ ε α} {f : α → Program σ ε β} {s t : σ}

theorem pure_apply (a : α) : (pure a : Program σ ε α) s = (.ok a, s) := rfl

variable {Q : Prop} {a : α} {b : β} {c : Bool} {e : ε} {g : ε → ε} {y : Except ε α}

theorem bind_eq_ok : (x >>= f) s = (.ok b, t) ↔ ∃ a r, x s = (.ok a, r) ∧ f a r = (.ok b, t) := by
  show Program.bind x f s = _ ↔ _
  unfold Program.bind
  obtain ⟨result, r⟩ := x s
  cases result with
  | error e => simp
  | ok a => simp

theorem bind_eq_error : (x >>= f) s = (.error e, t) ↔
      x s = (.error e, t) ∨ ∃ a r, x s = (.ok a, r) ∧ f a r = (.error e, t) := by
  show Program.bind x f s = _ ↔ _
  unfold Program.bind
  obtain ⟨result, r⟩ := x s
  cases result with
  | error e' => simp
  | ok a => simp

theorem onError_eq_ok {cleanup : Program σ ε Unit} : onError x cleanup s = (.ok a, t) ↔ x s = (.ok a, t) := by
  unfold onError
  obtain ⟨result, r⟩ := x s
  cases result with
  | error e => simp
  | ok a => simp

theorem onError_eq_error {cleanup : Program σ ε Unit} :
    onError x cleanup s = (.error e, t) ↔ ∃ r, x s = (.error e, r) ∧ (cleanup r).2 = t := by
  unfold onError
  obtain ⟨result, r⟩ := x s
  cases result with
  | error e' => simp [and_comm]
  | ok a => simp

theorem context_eq_ok : context g x s = (.ok a, t) ↔ x s = (.ok a, t) := by
  unfold context
  obtain ⟨result, r⟩ := x s
  cases result with
  | error e => simp [Except.mapError]
  | ok a => simp [Except.mapError]

theorem context_eq_error : context g x s = (.error e, t) ↔ ∃ e', x s = (.error e', t) ∧ g e' = e := by
  unfold context
  obtain ⟨result, r⟩ := x s
  cases result with
  | error e' => simp [Except.mapError, and_comm]
  | ok a => simp [Except.mapError]

theorem require_eq_ok : (require c e : Program σ ε Unit) s = (.ok (), t) ↔ c = true ∧ s = t := by
  unfold require
  cases c <;> simp

theorem result_eq_ok : (result y : Program σ ε α) s = (.ok a, t) ↔ y = .ok a ∧ s = t := by
  unfold result
  rw [Prod.mk.injEq]

/-! ### Running a program -/

theorem ok_or_error (x : Program σ ε α) (s : σ) : (∃ a t, x s = (.ok a, t)) ∨ ∃ e t, x s = (.error e, t) := by
  obtain ⟨result, r⟩ := x s
  cases result with
  | error e => exact .inr ⟨e, r, rfl⟩
  | ok a => exact .inl ⟨a, r, rfl⟩

theorem bind_of_ok (h : x s = (.ok a, t)) : (x >>= f) s = f a t := by
  show Program.bind x f s = f a t
  unfold Program.bind
  rw [h]

theorem bind_read {g : σ → α} : (read g >>= f) s = f (g s) s := rfl

theorem bind_change {g : σ → σ} {f : Unit → Program σ ε β} : (change g >>= f) s = f () (g s) := rfl

theorem bind_result_eq_ok : (result y >>= f) s = (.ok b, t) ↔ ∃ a, y = .ok a ∧ f a s = (.ok b, t) := by
  rw [bind_eq_ok]
  constructor
  · intro ⟨a, _, hrun, hf⟩
    obtain ⟨hy, rfl⟩ := result_eq_ok.mp hrun
    exact ⟨a, hy, hf⟩
  · intro ⟨a, hy, hf⟩
    exact ⟨a, s, result_eq_ok.mpr ⟨hy, rfl⟩, hf⟩

theorem bind_require_eq_ok {f : Unit → Program σ ε β} :
    (require c e >>= f) s = (.ok b, t) ↔ c = true ∧ f () s = (.ok b, t) := by
  rw [bind_eq_ok]
  constructor
  · intro ⟨_, _, hrun, hf⟩
    obtain ⟨hc, rfl⟩ := require_eq_ok.mp hrun
    exact ⟨hc, hf⟩
  · intro ⟨hc, hf⟩
    exact ⟨(), s, require_eq_ok.mpr ⟨hc, rfl⟩, hf⟩

theorem bind_require_of {f : Unit → Program σ ε β} (h : c = true) : (require c e >>= f) s = f () s :=
  bind_of_ok (require_eq_ok.mpr ⟨h, rfl⟩)

theorem bind_of_error (h : x s = (.error e, t)) : (x >>= f) s = (.error e, t) := by
  show Program.bind x f s = _
  unfold Program.bind
  rw [h]

/-! ### What a program keeps -/

/-- A condition that the program keeps, whether it fails or not. -/
def Keeps (P : σ → Prop) (x : Program σ ε α) : Prop := ∀ s, P s → P (x s).2

variable {P : σ → Prop}

theorem Keeps.pure (a : α) : Keeps P (pure a : Program σ ε α) := fun _ h => h

theorem Keeps.read (f : σ → α) : Keeps P (read f : Program σ ε α) := fun _ h => h

theorem Keeps.result (y : Except ε α) : Keeps P (result y : Program σ ε α) := fun _ h => h

theorem Keeps.require (c : Bool) (e : ε) : Keeps P (require c e : Program σ ε Unit) := fun _ h => h

theorem Keeps.change {f : σ → σ} (h : ∀ s, P s → P (f s)) : Keeps P (change f : Program σ ε Unit) := h

theorem Keeps.bind (hx : Keeps P x) (hf : ∀ a, Keeps P (f a)) : Keeps P (x >>= f) := by
  intro s hs
  have hr := hx s hs
  show P (Program.bind x f s).2
  unfold Program.bind
  generalize x s = ended at hr ⊢
  obtain ⟨result, r⟩ := ended
  cases result with
  | error e => exact hr
  | ok a => exact hf a r hr

theorem Keeps.onError {cleanup : Program σ ε Unit} (hx : Keeps P x) (hc : Keeps P cleanup) :
    Keeps P (onError x cleanup) := by
  intro s hs
  have hr := hx s hs
  unfold Programs.onError
  generalize x s = ended at hr ⊢
  obtain ⟨result, r⟩ := ended
  cases result with
  | error e => exact hc r hr
  | ok a => exact hr

theorem context_result : context g (result y : Program σ ε α) = result (y.mapError g) := rfl

theorem Keeps.context {g : ε → ε} (hx : Keeps P x) : Keeps P (context g x) := fun s hs => hx s hs

/-! ### Pre- and postconditions -/

/-- From `P` the program ends with a value and `Q`, or with an error and `E`. -/
def Triple (P : σ → Prop) (x : Program σ ε α) (Q : α → σ → Prop) (E : σ → Prop) : Prop :=
  ∀ s, P s → (∀ a t, x s = (.ok a, t) → Q a t) ∧ ∀ e t, x s = (.error e, t) → E t

namespace Triple

variable {P' E E' : σ → Prop} {Q Q' : α → σ → Prop} {R : β → σ → Prop}

theorem mono (h : Triple P x Q E) (hp : ∀ s, P' s → P s) (hq : ∀ a s, Q a s → Q' a s)
    (he : ∀ s, E s → E' s) : Triple P' x Q' E' := fun s hs =>
  ⟨fun a t hrun => hq a t ((h s (hp s hs)).1 a t hrun), fun e t hrun => he t ((h s (hp s hs)).2 e t hrun)⟩

theorem pure (a : α) (h : ∀ s, P s → Q a s) : Triple P (Pure.pure a : Program σ ε α) Q E := by
  intro s hs
  refine ⟨fun b t hrun => ?_, fun e t hrun => ?_⟩ <;> cases hrun
  exact h s hs

theorem change {f : σ → σ} {Q : Unit → σ → Prop} (h : ∀ s, P s → Q () (f s)) :
    Triple P (Programs.change f : Program σ ε Unit) Q E := by
  intro s hs
  refine ⟨fun b t hrun => ?_, fun e t hrun => ?_⟩ <;> cases hrun
  exact h s hs

theorem require {c : Bool} {e : ε} {Q : Unit → σ → Prop} (hq : ∀ s, P s → c = true → Q () s)
    (he : ∀ s, P s → c = false → E s) : Triple P (Programs.require c e : Program σ ε Unit) Q E := by
  intro s hs
  unfold Programs.require
  cases c with
  | true =>
    refine ⟨fun b t hrun => ?_, fun e t hrun => ?_⟩ <;> cases hrun
    exact hq s hs rfl
  | false =>
    refine ⟨fun b t hrun => ?_, fun e t hrun => ?_⟩ <;> cases hrun
    exact he s hs rfl

theorem result {y : Except ε α} (hq : ∀ s a, P s → y = .ok a → Q a s)
    (he : ∀ s e, P s → y = .error e → E s) : Triple P (Programs.result y : Program σ ε α) Q E := by
  intro s hs
  refine ⟨fun a t hrun => ?_, fun e t hrun => ?_⟩
  · obtain ⟨hy, rfl⟩ := result_eq_ok.mp hrun
    exact hq s a hs hy
  · obtain ⟨hy, rfl⟩ := Prod.mk.inj hrun
    exact he s e hs hy

theorem bind (hx : Triple P x Q E) (hf : ∀ a, Triple (Q a) (f a) R E) : Triple P (x >>= f) R E := by
  intro s hs
  constructor
  · intro b t hrun
    obtain ⟨a, r, hx', hf'⟩ := bind_eq_ok.mp hrun
    exact (hf a r ((hx s hs).1 a r hx')).1 b t hf'
  · intro e t hrun
    rcases bind_eq_error.mp hrun with hx' | ⟨a, r, hx', hf'⟩
    · exact (hx s hs).2 e t hx'
    · exact (hf a r ((hx s hs).1 a r hx')).2 e t hf'

theorem onError {cleanup : Program σ ε Unit} {F : σ → Prop} (hx : Triple P x Q F)
    (hc : ∀ s, F s → E (cleanup s).2) : Triple P (Programs.onError x cleanup) Q E := by
  intro s hs
  constructor
  · intro a t hrun
    exact (hx s hs).1 a t (onError_eq_ok.mp hrun)
  · intro e t hrun
    obtain ⟨r, hx', rfl⟩ := onError_eq_error.mp hrun
    exact hc r ((hx s hs).2 e r hx')

theorem and (h : Triple P x Q E) (h' : Triple P' x Q' E') :
    Triple (fun s => P s ∧ P' s) x (fun a s => Q a s ∧ Q' a s) (fun s => E s ∧ E' s) := fun s hs =>
  ⟨fun a t hrun => ⟨(h s hs.1).1 a t hrun, (h' s hs.2).1 a t hrun⟩,
    fun e t hrun => ⟨(h s hs.1).2 e t hrun, (h' s hs.2).2 e t hrun⟩⟩

end Triple

/-! ### Failing with a condition kept -/

/-- The program fails, and `P` holds then. -/
def Fails (P : σ → Prop) (x : Program σ ε α) (s : σ) : Prop := ∃ e t, x s = (.error e, t) ∧ P t

theorem Fails.context {g : ε → ε} (h : Fails P x s) : Fails P (context g x) s := by
  obtain ⟨e, t, hrun, ht⟩ := h
  exact ⟨g e, t, context_eq_error.mpr ⟨e, hrun, rfl⟩, ht⟩

theorem Fails.onError {cleanup : Program σ ε Unit} (h : Fails P x s) (hc : Keeps P cleanup) :
    Fails P (onError x cleanup) s := by
  obtain ⟨e, t, hrun, ht⟩ := h
  exact ⟨e, (cleanup t).2, onError_eq_error.mpr ⟨t, hrun, rfl⟩, hc t ht⟩

theorem Fails.bind (h : Fails P x s) (f : α → Program σ ε β) : Fails P (x >>= f) s := by
  obtain ⟨e, t, hrun, ht⟩ := h
  exact ⟨e, t, bind_of_error hrun, ht⟩

theorem Fails.after (hx : x s = (.ok a, t)) (h : Fails P (f a) t) : Fails P (x >>= f) s := by
  obtain ⟨e, u, hrun, hu⟩ := h
  exact ⟨e, u, (bind_of_ok hx).trans hrun, hu⟩

theorem Keeps.bind_fails_or (hx : Keeps P x) (hs : P s)
    (h : ∀ a t, x s = (.ok a, t) → P t → Fails P (f a) t ∨ Q) : Fails P (x >>= f) s ∨ Q := by
  have ht := hx s hs
  rcases ok_or_error x s with ⟨a, t, hrun⟩ | ⟨e, t, hrun⟩
  · rw [hrun] at ht
    rcases h a t hrun ht with ⟨e, u, hf, hu⟩ | hq
    · exact .inl ⟨e, u, (bind_of_ok hrun).trans hf, hu⟩
    · exact .inr hq
  · rw [hrun] at ht
    exact .inl ⟨e, t, bind_of_error hrun, ht⟩

theorem Fails.result_or (hs : P s)
    (h : ∀ a, y = .ok a → Fails P (f a) s ∨ Q) : Fails P (Programs.result y >>= f) s ∨ Q := by
  refine (Keeps.result y).bind_fails_or hs fun a t hrun _ => ?_
  obtain ⟨hy, rfl⟩ := result_eq_ok.mp hrun
  exact h a hy

theorem Fails.require_or {f : Unit → Program σ ε β} (hs : P s)
    (h : c = true → Fails P (f ()) s ∨ Q) : Fails P (Programs.require c e >>= f) s ∨ Q := by
  refine (Keeps.require c e).bind_fails_or hs fun _ t hrun _ => ?_
  obtain ⟨hc, rfl⟩ := require_eq_ok.mp hrun
  exact h hc

theorem Fails.read_or {g : σ → α} (h : Fails P (f (g s)) s ∨ Q) : Fails P (Programs.read g >>= f) s ∨ Q := h

end Brookesia.Data.Programs
