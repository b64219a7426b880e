import Mathlib

/-! # Updates that are delivered later

Calls decide about updates in one order, under a mutex, and deliver them in another, without it: each call keeps its own
updates in a list and delivers them one by one, and the lists are in the order of the decisions. Where an update is
delivered before others that it is independent of only, what all of them come to in the end stays the same. -/

namespace Brookesia.Transition

open List

variable {μ υ : Type*} {deliver : μ → υ → μ} {outboxes outboxes' : List (List υ)} {k : ℕ} {u v : υ}

/-- The first update of the `k`-th list, and the lists without it. -/
def takeHead (outboxes : List (List υ)) (k : ℕ) : Option (υ × List (List υ)) :=
  match outboxes[k]? with
  | some (u :: rest) => some (u, outboxes.set k rest)
  | _ => none

/-- The updates that were decided on before the `k`-th list. -/
def earlier (outboxes : List (List υ)) (k : ℕ) : List υ :=
  (outboxes.take k).flatten

theorem takeHead_flatten (h : takeHead outboxes k = some (u, outboxes')) :
    ∃ after, outboxes.flatten = earlier outboxes k ++ u :: after ∧ outboxes'.flatten = earlier outboxes k ++ after := by
  unfold takeHead at h
  split at h
  next _ rest hk =>
    cases h
    obtain ⟨hlt, hget⟩ := List.getElem?_eq_some_iff.mp hk
    refine ⟨rest ++ (outboxes.drop (k + 1)).flatten, ?_, ?_⟩
    · have hsplit : outboxes = outboxes.take k ++ (u :: rest) :: outboxes.drop (k + 1) := by
        rw [← hget, getElem_cons_drop hlt, take_append_drop]
      unfold earlier
      conv_lhs => rw [hsplit]
      rw [flatten_append, flatten_cons]
      rfl
    · unfold earlier
      rw [set_eq_take_append_cons_drop, if_pos hlt, flatten_append, flatten_cons]
  · cases h

def Independent (deliver : μ → υ → μ) (u v : υ) : Prop :=
  ∀ m, deliver (deliver m u) v = deliver (deliver m v) u

theorem foldl_early {before : List υ} (h : ∀ v ∈ before, Independent deliver u v) (m : μ) :
    before.foldl deliver (deliver m u) = deliver (before.foldl deliver m) u := by
  induction before generalizing m with
  | nil => rfl
  | cons v before ih =>
    rw [foldl_cons, foldl_cons, h v mem_cons_self m]
    exact ih (fun w hw => h w (mem_cons_of_mem _ hw)) _

theorem deliver_early (hk : takeHead outboxes k = some (u, outboxes'))
    (h : ∀ v ∈ earlier outboxes k, Independent deliver u v) (m : μ) :
    outboxes'.flatten.foldl deliver (deliver m u) = outboxes.flatten.foldl deliver m := by
  obtain ⟨after, hbef, hafter⟩ := takeHead_flatten hk
  rw [hbef, hafter, foldl_append, foldl_append, foldl_cons, foldl_early h]

theorem deliver_append (outbox : List υ) (m : μ) :
    (outboxes ++ [outbox]).flatten.foldl deliver m = outbox.foldl deliver (outboxes.flatten.foldl deliver m) := by
  rw [flatten_append, foldl_append, flatten_singleton]

end Brookesia.Transition
