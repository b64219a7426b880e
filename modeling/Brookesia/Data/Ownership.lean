import Mathlib

/-! # Owned registrations

Keys that are registered somewhere, with a map from the keys to those who have registered them. An owner keeps a list of its own; `Holds`
says that the map is exactly what the lists say. -/

namespace Brookesia.Data

open Function (update update_of_ne update_self)

structure Registry (K A : Type) where
  owners : K → Option A
  registered : K → Bool

namespace Registry

variable {K A : Type}

/-- `lists a key`: the list of `a` has the key. -/
structure Holds (r : Registry K A) (lists : A → K → Prop) : Prop where
  owner : ∀ key a, r.owners key = some a ↔ lists a key
  registered : ∀ key a, lists a key → r.registered key = true

variable {r : Registry K A} {lists lists' : A → K → Prop} {key : K} {owner a b : A} {keys : List K}

theorem Holds.unique (h : r.Holds lists) (ha : lists a key) (hb : lists b key) : a = b :=
  Option.some.inj (((h.owner key a).mpr ha).symm.trans ((h.owner key b).mpr hb))

theorem Holds.congr (h : r.Holds lists) (heq : ∀ a key, lists a key ↔ lists' a key) : r.Holds lists' :=
  ⟨fun key a => (h.owner key a).trans (heq a key), fun key a hlists => h.registered key a ((heq a key).mpr hlists)⟩

variable [DecidableEq K]

def register (key : K) (owner : A) (r : Registry K A) : Registry K A where
  owners := Function.update r.owners key (some owner)
  registered := Function.update r.registered key true

variable [DecidableEq A]

def unregister (key : K) (owner : A) (r : Registry K A) : Registry K A :=
  if r.owners key = some owner then
    { owners := Function.update r.owners key none
      registered := Function.update r.registered key false }
  else r

def unregisterAll (keys : List K) (owner : A) (r : Registry K A) : Registry K A :=
  keys.foldr (fun key r => r.unregister key owner) r

omit [DecidableEq A] in
theorem Holds.register (h : r.Holds lists) (hfree : ∀ a, lists a key → a = owner) :
    (r.register key owner).Holds fun a k => lists a k ∨ a = owner ∧ k = key := by
  constructor
  · intro k a
    show update r.owners key (some owner) k = some a ↔ _
    by_cases hk : k = key
    · subst hk
      rw [update_self, Option.some.injEq]
      constructor
      · exact fun heq => .inr ⟨heq.symm, rfl⟩
      · rintro (hlists | ⟨heq, -⟩)
        · exact (hfree a hlists).symm
        · exact heq.symm
    · rw [update_of_ne hk, h.owner]
      exact ⟨.inl, fun hor => hor.resolve_right fun hnew => hk hnew.2⟩
  · rintro k a hor
    show update r.registered key true k = true
    by_cases hk : k = key
    · rw [hk, update_self]
    · rw [update_of_ne hk]
      exact h.registered k a (hor.resolve_right fun hnew => hk hnew.2)

theorem Holds.unregister (h : r.Holds lists) (key : K) (owner : A) :
    (r.unregister key owner).Holds fun a k => lists a k ∧ ¬(a = owner ∧ k = key) := by
  unfold Registry.unregister
  split
  · next howner =>
    have hlists : lists owner key := (h.owner key owner).mp howner
    constructor
    · intro k a
      show update r.owners key none k = some a ↔ _
      by_cases hk : k = key
      · subst hk
        rw [update_self]
        refine iff_of_false (Option.some_ne_none a).symm fun hand => hand.2 ⟨?_, rfl⟩
        exact h.unique hand.1 hlists
      · rw [update_of_ne hk, h.owner]
        exact ⟨fun hlists => ⟨hlists, fun heq => hk heq.2⟩, And.left⟩
    · rintro k a ⟨hlists', hne⟩
      show update r.registered key false k = true
      by_cases hk : k = key
      · subst hk
        exact absurd ⟨h.unique hlists' hlists, rfl⟩ hne
      · rw [update_of_ne hk]
        exact h.registered k a hlists'
  · next howner =>
    refine h.congr fun a k => ⟨fun hlists => ⟨hlists, ?_⟩, And.left⟩
    rintro ⟨rfl, rfl⟩
    exact howner ((h.owner _ _).mpr hlists)

theorem Holds.unregisterAll (h : r.Holds lists) (keys : List K) (owner : A) :
    (r.unregisterAll keys owner).Holds fun a k => lists a k ∧ ¬(a = owner ∧ k ∈ keys) := by
  induction keys with
  | nil => exact h.congr fun a k => ⟨fun hlists => ⟨hlists, fun hmem => List.not_mem_nil hmem.2⟩, And.left⟩
  | cons key keys ih =>
    refine (ih.unregister key owner).congr fun a k => ?_
    rw [List.mem_cons]
    constructor
    · rintro ⟨⟨hlists, hrest⟩, hkey⟩
      refine ⟨hlists, ?_⟩
      rintro ⟨ha, rfl | hmem⟩
      · exact hkey ⟨ha, rfl⟩
      · exact hrest ⟨ha, hmem⟩
    · rintro ⟨hlists, hne⟩
      exact ⟨⟨hlists, fun hmem => hne ⟨hmem.1, .inr hmem.2⟩⟩, fun hkey => hne ⟨hkey.1, .inl hkey.2⟩⟩

theorem unregisterAll_apply (keys : List K) (owner : A) (r : Registry K A) (key : K) :
    (r.unregisterAll keys owner).owners key = (if key ∈ keys ∧ r.owners key = some owner then none else r.owners key) ∧
      (r.unregisterAll keys owner).registered key =
        if key ∈ keys ∧ r.owners key = some owner then false else r.registered key := by
  induction keys with
  | nil => exact ⟨(if_neg fun h => List.not_mem_nil h.1).symm, (if_neg fun h => List.not_mem_nil h.1).symm⟩
  | cons first keys ih =>
    show (Registry.unregister first owner (r.unregisterAll keys owner)).owners key = _ ∧
      (Registry.unregister first owner (r.unregisterAll keys owner)).registered key = _
    unfold Registry.unregister
    by_cases hkey : key = first
    · subst hkey
      simp only [List.mem_cons, true_or, true_and]
      by_cases howner : r.owners key = some owner
      · split
        · simp only [update_self, and_self]
        · next hgone =>
          have hmem : key ∈ keys := by
            by_contra hnot
            exact hgone (ih.1.trans (by rw [if_neg fun h => hnot h.1, howner]))
          simp only [ih.1, ih.2, hmem, howner, and_self, if_true]
      · have hsame : (r.unregisterAll keys owner).owners key = r.owners key := ih.1.trans (if_neg fun h => howner h.2)
        rw [if_neg (by rw [hsame]; exact howner), if_neg howner, if_neg howner]
        exact ⟨hsame, ih.2.trans (if_neg fun h => howner h.2)⟩
    · have hmem : key ∈ first :: keys ↔ key ∈ keys := by rw [List.mem_cons, or_iff_right hkey]
      simp only [hmem]
      split
      · simp only [update_of_ne hkey]
        exact ih
      · exact ih

/-! ### Registering one after the other -/

/-- The keys are registered until one cannot be: what has failed, and the keys that are registered. -/
def registerEach {E : Type} (outcome : K → Option E) (owner : A) : List K → Registry K A → Option (K × E) × List K × Registry K A
  | [], r => (none, [], r)
  | key :: keys, r =>
    match outcome key with
    | some e => (some (key, e), [], r)
    | none =>
      let rest := registerEach outcome owner keys (r.register key owner)
      (rest.1, key :: rest.2.1, rest.2.2)

variable {E : Type} {outcome : K → Option E}

omit [DecidableEq A] in
theorem Holds.registerEach (h : r.Holds lists) (hfree : ∀ key ∈ keys, ∀ a, lists a key → a = owner) :
    (registerEach outcome owner keys r).2.2.Holds fun a k =>
      lists a k ∨ a = owner ∧ k ∈ (registerEach outcome owner keys r).2.1 := by
  induction keys generalizing r lists with
  | nil => exact h.congr fun a k => ⟨.inl, fun hor => hor.resolve_right fun hmem => List.not_mem_nil hmem.2⟩
  | cons key keys ih =>
    obtain ⟨hkey, hrest⟩ := List.forall_mem_cons.mp hfree
    unfold Registry.registerEach
    cases outcome key with
    | some e => exact h.congr fun a k => ⟨.inl, fun hor => hor.resolve_right fun hmem => List.not_mem_nil hmem.2⟩
    | none =>
      dsimp only
      refine (ih (h.register hkey) ?_).congr fun a k => ?_
      · rintro k hk a (hlists | ⟨ha, -⟩)
        · exact hrest k hk a hlists
        · exact ha
      · rw [List.mem_cons, or_assoc, and_or_left]

omit [DecidableEq A] in
theorem mem_registerEach (h : key ∈ (registerEach outcome owner keys r).2.1) : key ∈ keys := by
  induction keys generalizing r with
  | nil => exact h
  | cons first keys ih =>
    unfold Registry.registerEach at h
    split at h
    · exact absurd h List.not_mem_nil
    · rcases List.mem_cons.mp h with rfl | h
      · exact List.mem_cons_self
      · exact List.mem_cons_of_mem _ (ih h)

omit [DecidableEq A] in
theorem registerEach_none (h : ∀ key, outcome key = none) (keys : List K) (r : Registry K A) :
    (registerEach outcome owner keys r).1 = none := by
  induction keys generalizing r with
  | nil => rfl
  | cons key keys ih =>
    unfold Registry.registerEach
    rw [h key]
    exact ih _

omit [DecidableEq A] in
theorem exists_of_registerEach {failure : K × E} (h : (registerEach outcome owner keys r).1 = some failure) :
    ∃ key ∈ keys, outcome key ≠ none := by
  induction keys generalizing r with
  | nil => cases h
  | cons first keys ih =>
    unfold Registry.registerEach at h
    split at h
    · next e he => exact ⟨first, List.mem_cons_self, by rw [he]; exact Option.some_ne_none e⟩
    · obtain ⟨key, hkey, hne⟩ := ih h
      exact ⟨key, List.mem_cons_of_mem _ hkey, hne⟩

end Registry

end Brookesia.Data
