import Mathlib

/-! # Kahn's algorithm

The names `names` are put in an order in which each comes after its dependencies. `deps n` may have a dependency more than once, and
names that are not in `names`. The graph has, for each name, the number of its dependencies (`inDegree`) and the names that depend on
it (`adjList`), with repetitions; a name whose number has come down to zero is ready, and waits in `queue`, last in first out.

* `Inv names deps pending w`: what the loops keep, where `pending` are the names whose numbers the inner loop has yet to count down.
* `drain_spec`: the outer loop ends after at most one turn for each name.
* `topologicalSort_eq_nil_iff`, `topologicalSort_perm`, `topologicalSort_ordered`: it fails for the cyclic graphs, and otherwise sorts. -/

namespace Brookesia.Data.Kahn

open List

variable {α : Type} [DecidableEq α]

structure Graph (α : Type) where
  inDegree : α → ℤ
  adjList : α → List α

def addDependency (names : List α) (name : α) (g : Graph α) (dep : α) : Graph α :=
  if dep ∈ names then
    { inDegree := Function.update g.inDegree name (g.inDegree name + 1)
      adjList := Function.update g.adjList dep (g.adjList dep ++ [name]) }
  else g

def buildGraph (names : List α) (deps : α → List α) : Graph α :=
  names.foldl (fun g name => (deps name).foldl (addDependency names name) g) ⟨fun _ => 0, fun _ => []⟩

/-- Between two turns; the last of the queue is the first of the list. -/
structure Work (α : Type) where
  inDegree : α → ℤ
  queue : List α
  result : List α

def countDown (w : Work α) (neighbor : α) : Work α where
  inDegree := Function.update w.inDegree neighbor (w.inDegree neighbor - 1)
  queue := if w.inDegree neighbor - 1 = 0 then neighbor :: w.queue else w.queue
  result := w.result

def turn (adjList : α → List α) (w : Work α) : Option (Work α) :=
  match w.queue with
  | [] => none
  | current :: queue => some ((adjList current).foldl countDown { w with queue := queue, result := w.result ++ [current] })

def drain (adjList : α → List α) : ℕ → Work α → Option (Work α)
  | 0, _ => none
  | turns + 1, w =>
    match turn adjList w with
    | none => some w
    | some w' => drain adjList turns w'

def start (names : List α) (g : Graph α) : Work α where
  inDegree := g.inDegree
  queue := (names.filter fun name => g.inDegree name = 0).reverse
  result := []

def topologicalSort (names : List α) (deps : α → List α) : List α :=
  let g := buildGraph names deps
  match drain g.adjList (names.length + 1) (start names g) with
  | none => []
  | some w => if w.result.length = names.length then w.result else []

variable {names : List α} {deps : α → List α}

/-! ### The graph -/

theorem foldl_addDependency (name : α) (l : List α) (g : Graph α) :
    (∀ d, (l.foldl (addDependency names name) g).adjList d =
        g.adjList d ++ List.replicate (if d ∈ names then l.count d else 0) name) ∧
      ∀ n, (l.foldl (addDependency names name) g).inDegree n =
        g.inDegree n + if n = name then (l.countP (· ∈ names) : ℤ) else 0 := by
  induction l generalizing g with
  | nil => simp
  | cons dep l ih =>
    obtain ⟨hadj, hdeg⟩ := ih (addDependency names name g dep)
    rw [foldl_cons]
    constructor
    · intro d
      rw [hadj d]
      unfold addDependency
      by_cases hdep : dep ∈ names
      · rw [if_pos hdep]
        by_cases hd : d = dep
        · subst hd
          simp [hdep, replicate_succ]
        · simp [Function.update_of_ne hd, count_cons_of_ne (Ne.symm hd)]
      · rw [if_neg hdep]
        by_cases hd : d ∈ names
        · have hne : dep ≠ d := fun h => hdep (h ▸ hd)
          simp [count_cons_of_ne hne]
        · simp [hd]
    · intro n
      rw [hdeg n]
      unfold addDependency
      by_cases hdep : dep ∈ names
      · by_cases hn : n = name
        · subst hn
          simp [hdep]
          omega
        · simp [hdep, hn]
      · simp [hdep]

theorem buildGraph_adjList (d : α) : (buildGraph names deps).adjList d =
      names.flatMap fun n => List.replicate (if d ∈ names then (deps n).count d else 0) n := by
  have hfold : ∀ (ns : List α) (g : Graph α),
      (ns.foldl (fun g name => (deps name).foldl (addDependency names name) g) g).adjList d =
        g.adjList d ++ ns.flatMap fun n => List.replicate (if d ∈ names then (deps n).count d else 0) n := by
    intro ns
    induction ns with
    | nil => simp
    | cons n ns ih =>
      intro g
      rw [foldl_cons, ih, (foldl_addDependency n (deps n) g).1 d, flatMap_cons, append_assoc]
  rw [buildGraph, hfold, nil_append]

variable {d n : α} {w : Work α}

theorem buildGraph_inDegree (hnd : names.Nodup) (hn : n ∈ names) :
    (buildGraph names deps).inDegree n = (deps n).countP (· ∈ names) := by
  have hfold : ∀ (ns : List α) (g : Graph α), ns.Nodup →
      (ns.foldl (fun g name => (deps name).foldl (addDependency names name) g) g).inDegree n =
        g.inDegree n + if n ∈ ns then ((deps n).countP (· ∈ names) : ℤ) else 0 := by
    intro ns
    induction ns with
    | nil => simp
    | cons m ns ih =>
      intro g hns
      obtain ⟨hm, hns⟩ := nodup_cons.mp hns
      rw [foldl_cons, ih _ hns, (foldl_addDependency m (deps m) g).2 n]
      by_cases hnm : n = m
      · subst hnm
        simp [hm]
      · simp [hnm]
  rw [buildGraph, hfold names _ hnd, if_pos hn, zero_add]

theorem mem_adjList (h : n ∈ (buildGraph names deps).adjList d) : n ∈ names := by
  rw [buildGraph_adjList] at h
  obtain ⟨m, hm, hn⟩ := mem_flatMap.mp h
  rw [eq_of_mem_replicate hn]
  exact hm

theorem count_adjList (hnd : names.Nodup) (hd : d ∈ names) (hn : n ∈ names) :
    ((buildGraph names deps).adjList d).count n = (deps n).count d := by
  have hcnt : ∀ ns : List α, ns.Nodup →
      (ns.flatMap fun m => List.replicate ((deps m).count d) m).count n = if n ∈ ns then (deps n).count d else 0 := by
    intro ns
    induction ns with
    | nil => simp
    | cons m ns ih =>
      intro hns
      obtain ⟨hm, hns⟩ := nodup_cons.mp hns
      rw [flatMap_cons, count_append, ih hns, count_replicate]
      by_cases hnm : n = m
      · subst hnm
        simp [hm]
      · have hmn : m ≠ n := Ne.symm hnm
        simp [hnm, hmn]
  rw [buildGraph_adjList]
  simp only [if_pos hd]
  rw [hcnt names hnd, if_pos hn]

/-! ### The loops -/

/-- The dependencies of `n` that are not done. -/
def remaining (names : List α) (deps : α → List α) (done : List α) (n : α) : ℕ :=
  (deps n).countP fun d => d ∈ names ∧ d ∉ done

structure Inv (names : List α) (deps : α → List α) (pending : List α) (w : Work α) : Prop where
  nodup : (w.result ++ w.queue).Nodup
  sub : ∀ n ∈ w.result ++ w.queue, n ∈ names
  degree : ∀ n ∈ names, w.inDegree n = remaining names deps w.result n + pending.count n
  ready : ∀ n ∈ names, n ∈ w.result ++ w.queue ↔ remaining names deps w.result n + pending.count n = 0
  ordered : ∀ done n rest, w.result = done ++ n :: rest → ∀ d ∈ deps n, d ∈ names → d ∈ done

theorem remaining_nil (n : α) : remaining names deps [] n = (deps n).countP (· ∈ names) :=
  countP_congr fun _ _ => by simp

theorem remaining_eq_zero {done : List α} (h : remaining names deps done n = 0) (hd : d ∈ deps n)
    (hnms : d ∈ names) : d ∈ done := by
  by_contra hdone
  exact countP_eq_zero.mp h d hd (decide_eq_true ⟨hnms, hdone⟩)

theorem remaining_concat {done : List α} {current : α} (hnew : current ∉ done) (hcur : current ∈ names) (n : α) :
    remaining names deps done n = remaining names deps (done ++ [current]) n + (deps n).count current := by
  unfold remaining
  induction deps n with
  | nil => rfl
  | cons d l ih =>
    rw [countP_cons, countP_cons, count_cons, ih]
    by_cases hd : d = current
    · subst hd
      simp [hnew, hcur]
      omega
    · simp [hd]
      omega

theorem inv_start (hnd : names.Nodup) : Inv names deps [] (start names (buildGraph names deps)) where
  nodup := by
    rw [start, nil_append, nodup_reverse]
    exact hnd.filter _
  sub := fun n hn => (mem_filter.mp (mem_reverse.mp hn)).1
  degree := by
    intro n hn
    show (buildGraph names deps).inDegree n = (remaining names deps [] n : ℤ) + ([] : List α).count n
    rw [buildGraph_inDegree hnd hn, remaining_nil]
    simp
  ready := by
    intro n hn
    rw [start, nil_append, mem_reverse, mem_filter, remaining_nil, decide_eq_true_iff, buildGraph_inDegree hnd hn]
    simp [hn]
  ordered := fun done n rest h => absurd h.symm (append_ne_nil_of_right_ne_nil _ (cons_ne_nil _ _))

theorem Inv.countDown {pending : List α} {w : Work α} {neighbor : α} (h : Inv names deps (neighbor :: pending) w)
    (hnbr : neighbor ∈ names) : Inv names deps pending (countDown w neighbor) := by
  have hdeg := h.degree neighbor hnbr
  rw [count_cons_self] at hdeg
  have hnew : neighbor ∉ w.result ++ w.queue := by
    intro hmem
    have hzero := (h.ready neighbor hnbr).mp hmem
    rw [count_cons_self] at hzero
    omega
  have hoth : ∀ n, n ≠ neighbor → (neighbor :: pending).count n = pending.count n :=
    fun n hn => count_cons_of_ne (Ne.symm hn)
  constructor
  · show (w.result ++ if w.inDegree neighbor - 1 = 0 then neighbor :: w.queue else w.queue).Nodup
    split
    · exact nodup_middle.mpr (nodup_cons.mpr ⟨hnew, h.nodup⟩)
    · exact h.nodup
  · intro n hn
    have hn : n ∈ w.result ++ if w.inDegree neighbor - 1 = 0 then neighbor :: w.queue else w.queue := hn
    split at hn
    · rcases mem_cons.mp (perm_middle.mem_iff.mp hn) with rfl | hold
      · exact hnbr
      · exact h.sub n hold
    · exact h.sub n hn
  · intro n hn
    show Function.update w.inDegree neighbor (w.inDegree neighbor - 1) n = _
    by_cases heq : n = neighbor
    · subst heq
      rw [Function.update_self, hdeg]
      show _ = (remaining names deps w.result n : ℤ) + _
      push_cast
      omega
    · rw [Function.update_of_ne heq, h.degree n hn, hoth n heq]
      rfl
  · intro n hn
    show (n ∈ w.result ++ if w.inDegree neighbor - 1 = 0 then neighbor :: w.queue else w.queue) ↔
      remaining names deps w.result n + pending.count n = 0
    by_cases heq : n = neighbor
    · subst heq
      split
      · next hzero =>
        refine ⟨fun _ => ?_, fun _ => mem_append_right _ mem_cons_self⟩
        push_cast at hdeg
        omega
      · next hzero =>
        refine ⟨fun hmem => absurd hmem hnew, fun hsum => absurd ?_ hzero⟩
        push_cast at hdeg
        omega
    · have hrdy := h.ready n hn
      rw [hoth n heq] at hrdy
      rw [← hrdy]
      split
      · rw [perm_middle.mem_iff, mem_cons]
        exact ⟨fun hmem => hmem.resolve_left heq, .inr⟩
      · rfl
  · exact h.ordered

theorem Inv.foldl_countDown {pending : List α} (h : Inv names deps pending w) (hsub : ∀ n ∈ pending, n ∈ names) :
    Inv names deps [] (pending.foldl Kahn.countDown w) := by
  induction pending generalizing w with
  | nil => exact h
  | cons neighbor pending ih =>
    exact ih (h.countDown (hsub neighbor mem_cons_self)) fun n hn => hsub n (mem_cons_of_mem _ hn)

theorem Inv.take (hnd : names.Nodup) {current : α} {queue : List α} (h : Inv names deps [] w)
    (hque : w.queue = current :: queue) :
    Inv names deps ((buildGraph names deps).adjList current) { w with queue := queue, result := w.result ++ [current] } := by
  have hmem : current ∈ w.result ++ w.queue := mem_append_right _ (hque ▸ mem_cons_self)
  have hcur : current ∈ names := h.sub current hmem
  have hsame : w.result ++ [current] ++ queue = w.result ++ w.queue := by rw [hque, append_assoc]; rfl
  have hnd' := h.nodup
  rw [hque] at hnd'
  have hnew : current ∉ w.result :=
    fun hdone => (nodup_cons.mp (nodup_middle.mp hnd')).1 (mem_append_left _ hdone)
  have hsum : ∀ n ∈ names, remaining names deps (w.result ++ [current]) n + ((buildGraph names deps).adjList current).count n =
      remaining names deps w.result n := fun n hn => by
    rw [count_adjList hnd hcur hn, ← remaining_concat hnew hcur n]
  constructor
  · exact hsame ▸ h.nodup
  · exact fun n hn => h.sub n (hsame ▸ hn)
  · intro n hn
    have hdeg := h.degree n hn
    rw [count_nil] at hdeg
    rw [← Nat.cast_add, hsum n hn]
    simpa using hdeg
  · intro n hn
    have hrdy := h.ready n hn
    rw [count_nil, Nat.add_zero] at hrdy
    rw [hsum n hn]
    exact hsame ▸ hrdy
  · intro done n rest heq d hd hdnames
    rcases eq_nil_or_concat rest with rfl | ⟨rest, last, rfl⟩
    · obtain ⟨rfl, hn⟩ := append_inj' heq rfl
      obtain rfl : current = n := head_eq_of_cons_eq hn
      have hzero := (h.ready current hcur).mp hmem
      exact remaining_eq_zero hzero hd hdnames
    · have heq : w.result ++ [current] = done ++ n :: rest.concat last := heq
      have heq : w.result ++ [current] = (done ++ n :: rest) ++ [last] := by
        rw [heq, concat_eq_append, append_assoc]
        rfl
      exact h.ordered done n rest (append_inj' heq rfl).1 d hd hdnames

theorem Inv.turn (hnd : names.Nodup) {w' : Work α} (h : Inv names deps [] w)
    (hturn : turn (buildGraph names deps).adjList w = some w') :
    Inv names deps [] w' ∧ w'.result.length = w.result.length + 1 := by
  unfold Kahn.turn at hturn
  split at hturn
  · cases hturn
  · next current queue hque =>
    cases hturn
    refine ⟨(h.take hnd hque).foldl_countDown fun n hn => mem_adjList hn, ?_⟩
    have hres : ∀ (l : List α) (w : Work α), (l.foldl Kahn.countDown w).result = w.result := by
      intro l
      induction l with
      | nil => intro w; rfl
      | cons n l ih => intro w; rw [foldl_cons, ih]; rfl
    rw [hres]
    exact length_append

theorem Inv.length_le (h : Inv names deps [] w) : w.result.length ≤ names.length :=
  (subperm_of_subset (nodup_append.mp h.nodup).1 fun n hn => h.sub n (mem_append_left _ hn)).length_le

/-- As many turns as there are names are enough, and one more to see that the queue is empty. -/
theorem drain_spec (hnd : names.Nodup) (turns : ℕ) (w : Work α) (h : Inv names deps [] w)
    (hturns : names.length < turns + w.result.length) :
    ∃ w', drain (buildGraph names deps).adjList turns w = some w' ∧ Inv names deps [] w' ∧ w'.queue = [] := by
  induction turns generalizing w with
  | zero =>
    have := h.length_le
    omega
  | succ turns ih =>
    unfold drain
    split
    · next hturn =>
      refine ⟨w, rfl, h, ?_⟩
      unfold Kahn.turn at hturn
      split at hturn
      · assumption
      · cases hturn
    · next w' hturn =>
      obtain ⟨hinv, hlen⟩ := h.turn hnd hturn
      exact ih w' hinv (by omega)

/-! ### The result -/

/-- `n` depends on `d`, among the names. -/
def DependsOn (names : List α) (deps : α → List α) (n d : α) : Prop := n ∈ names ∧ d ∈ names ∧ d ∈ deps n

def Cyclic (names : List α) (deps : α → List α) : Prop := ∃ n, Relation.TransGen (DependsOn names deps) n n

/-- An order in which each name comes after its dependencies. -/
structure Sorted (names : List α) (deps : α → List α) (result : List α) : Prop where
  perm : result.Perm names
  ordered : ∀ done n rest, result = done ++ n :: rest → ∀ d ∈ deps n, d ∈ names → d ∈ done

theorem Sorted.before {result : List α} (hnd : names.Nodup) (h : Sorted names deps result)
    (hdep : DependsOn names deps n d) : result.idxOf d < result.idxOf n := by
  obtain ⟨hn, hd, hmem⟩ := hdep
  obtain ⟨done, rest, hres⟩ := append_of_mem (h.perm.mem_iff.mpr hn)
  have hdone : d ∈ done := h.ordered done n rest hres d hmem hd
  have hnew : n ∉ done := by
    intro hdone
    have hnd' := h.perm.nodup_iff.mpr hnd
    rw [hres] at hnd'
    exact (nodup_cons.mp (nodup_middle.mp hnd')).1 (mem_append_left _ hdone)
  rw [hres, idxOf_append_of_mem hdone, idxOf_append_of_notMem hnew, idxOf_cons_self]
  exact Nat.lt_add_right _ (idxOf_lt_length_of_mem hdone)

theorem Sorted.not_cyclic {result : List α} (hnd : names.Nodup) (h : Sorted names deps result) : ¬ Cyclic names deps := by
  rintro ⟨n, hcycle⟩
  have hlt : ∀ m, Relation.TransGen (DependsOn names deps) n m → result.idxOf m < result.idxOf n := by
    intro m hm
    induction hm with
    | single hdep => exact h.before hnd hdep
    | tail _ hdep ih => exact (h.before hnd hdep).trans ih
  exact absurd (hlt n hcycle) (lt_irrefl _)

/-- Where no name of a set is without a dependency in the set, there is a cycle. -/
theorem cyclic_of_stuck (stuck : α → Prop) (hn : stuck n) (hnms : ∀ n, stuck n → n ∈ names)
    (hstuck : ∀ n, stuck n → ∃ d, stuck d ∧ DependsOn names deps n d) : Cyclic names deps := by
  by_contra hcyclic
  let below : {x // x ∈ names} → {x // x ∈ names} → Prop := fun d n => Relation.TransGen (DependsOn names deps) n.1 d.1
  have htrans : IsTrans _ below := ⟨fun a b d hab hbd => hbd.trans hab⟩
  have hirrefl : Std.Irrefl below := ⟨fun a ha => hcyclic ⟨a.1, ha⟩⟩
  have hwf : WellFounded below := Finite.wellFounded_of_trans_of_irrefl below
  obtain ⟨m, hm, hmin⟩ := hwf.has_min {x | stuck x.1} ⟨⟨n, hnms n hn⟩, hn⟩
  obtain ⟨d, hd, hdep⟩ := hstuck m.1 hm
  exact hmin ⟨d, hnms d hd⟩ hd (.single hdep)

theorem Inv.sorted_or_cyclic (hnms : names.Nodup) (h : Inv names deps [] w) (hque : w.queue = []) :
    (w.result.length = names.length → Sorted names deps w.result) ∧ (w.result.length ≠ names.length → Cyclic names deps) := by
  have hnd := h.nodup
  have hsub := h.sub
  have hrdy := h.ready
  rw [hque, append_nil] at hnd hsub hrdy
  have hsubperm : w.result.Subperm names := subperm_of_subset hnd hsub
  refine ⟨fun hlen => ⟨hsubperm.perm_of_length_le hlen.ge, h.ordered⟩, fun hlen => ?_⟩
  have hleft : ∃ n ∈ names, n ∉ w.result := by
    by_contra hall
    have hall : ∀ n ∈ names, n ∈ w.result := fun n hn => by_contra fun hnew => hall ⟨n, hn, hnew⟩
    exact hlen (Nat.le_antisymm hsubperm.length_le (subperm_of_subset hnms hall).length_le)
  obtain ⟨n, hn, hnew⟩ := hleft
  refine cyclic_of_stuck (fun n => n ∈ names ∧ n ∉ w.result) ⟨hn, hnew⟩ (fun n h => h.1) ?_
  rintro m ⟨hm, hmnew⟩
  have hpos : remaining names deps w.result m ≠ 0 := fun hzero => hmnew ((hrdy m hm).mpr hzero)
  obtain ⟨d, hd, hdep⟩ := countP_pos_iff.mp (Nat.pos_of_ne_zero hpos)
  obtain ⟨hdnames, hdnew⟩ := of_decide_eq_true hdep
  exact ⟨d, ⟨hdnames, hdnew⟩, hm, hdnames, hd⟩

theorem topologicalSort_spec (hnd : names.Nodup) (deps : α → List α) :
    Sorted names deps (topologicalSort names deps) ∨ topologicalSort names deps = [] ∧ Cyclic names deps := by
  obtain ⟨w, hdrain, hinv, hque⟩ := drain_spec hnd (names.length + 1)
    (start names (buildGraph names deps)) (inv_start hnd) (Nat.lt_add_right _ (Nat.lt_succ_self _))
  obtain ⟨hsort, hcyclic⟩ := hinv.sorted_or_cyclic hnd hque
  unfold topologicalSort
  dsimp only
  rw [hdrain]
  dsimp only
  split
  · next hlen => exact .inl (hsort hlen)
  · next hlen => exact .inr ⟨rfl, hcyclic hlen⟩

theorem topologicalSort_eq_nil_iff (hnd : names.Nodup) :
    topologicalSort names deps = [] ↔ names = [] ∨ Cyclic names deps := by
  rcases topologicalSort_spec hnd deps with hsort | ⟨hnil, hcyclic⟩
  · constructor
    · intro hnil
      rw [hnil] at hsort
      exact .inl hsort.perm.nil_eq.symm
    · rintro (rfl | hcyclic)
      · exact hsort.perm.eq_nil
      · exact absurd hcyclic (hsort.not_cyclic hnd)
  · exact ⟨fun _ => .inr hcyclic, fun _ => hnil⟩

theorem topologicalSort_sorted (hnd : names.Nodup) (hne : topologicalSort names deps ≠ []) :
    Sorted names deps (topologicalSort names deps) :=
  (topologicalSort_spec hnd deps).resolve_right fun h => hne h.1

example : topologicalSort [1, 2, 3] (fun n => if n = 1 then [2, 2, 9] else if n = 2 then [3] else []) = [3, 2, 1] := by decide

example : topologicalSort [1, 2, 3] (fun n => if n = 1 then [2] else if n = 2 then [1] else []) = [] := by decide

end Brookesia.Data.Kahn
