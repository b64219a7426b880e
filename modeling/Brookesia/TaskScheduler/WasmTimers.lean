import Brookesia.TaskScheduler.Wasm

/-! # Timers and tasks agree

What a call does to a handle does not depend on the other handles, so the invariant is one of each handle with its own
timers (`HandleOk`); the counters are sums over the handles. The only step that breaks it is the end of
a callback whose own handle has been suspended meanwhile (`LeavesNoneSuspended`). -/

namespace Brookesia.TaskScheduler.Wasm

open Transition List Option

namespace State

def timersOf (s : State) (id : TaskId) : List ℕ :=
  (s.pending.filter (·.id == id)).map Timer.generation

def onStack (s : State) : List TaskId :=
  s.stack.map Frame.id

end State

def isSuspended (handle : Handle) : Bool :=
  handle.state == .suspended

/-- Between callbacks: one current timer for each handle that runs by timers; no suspended task is lost, nor a periodic
one that went well; and the counters are right. -/
def State.Agrees (s : State) : Prop :=
  s.stack = [] → (∀ id ∈ s.tasks, (s.heap id).type ≠ .immediate → (s.heap id).state = .running →
      (s.timersOf id).count (s.heap id).generation = 1) ∧
    s.lost = [] ∧
    (∀ id, (s.heap id).type = .periodic → id ∈ s.tasks ∨ id ∈ s.ended ∨ (s.heap id).state = .canceled) ∧
    s.totalTasks = s.completedTasks + s.failedTasks + s.canceledTasks + s.tasks.length ∧
    s.suspendedTasks = s.tasks.countP fun id => isSuspended (s.heap id)

/-- A callback does not end with its own handle suspended. -/
def LeavesNoneSuspended (s : State) : Label → Prop
  | .done => ∀ frame ∈ s.stack.head?, (s.heap frame.id).state ≠ .suspended
  | _ => True

variable {s s' s'' : State} {id other : TaskId} {label : Label} {handle : Handle}

/-! ### One handle -/

/-- A handle, whether it is in `tasks_`, whether it is running, whether it has ended, and its timers. -/
structure HandleOk (handle : Handle) (live running ended : Prop) (timers : List ℕ) : Prop where
  isLive : live ↔ handle.state = .running ∨ handle.state = .suspended
  immediate : handle.type = .immediate → handle.state ≠ .suspended
  old : ∀ generation ∈ timers, generation ≤ handle.generation
  suspended : handle.state = .suspended → handle.generation ∉ timers
  oneTimer : handle.state = .running → handle.type ≠ .immediate →
    timers.count handle.generation = 1 ∨ running ∧ handle.generation ∉ timers
  unfinished : running → handle.state ≠ .finished
  periodic : handle.type = .periodic → live ∨ ended ∨ handle.state = .canceled

def State.Ok (s : State) (id : TaskId) : Prop :=
  HandleOk (s.heap id) (id ∈ s.tasks) (id ∈ s.onStack) (id ∈ s.ended) (s.timersOf id)

/-- Nothing changes but what belongs to `id`. -/
structure Only (id : TaskId) (s s' : State) : Prop where
  heap : ∀ other ≠ id, s'.heap other = s.heap other
  tasks : ∀ other ≠ id, (other ∈ s'.tasks ↔ other ∈ s.tasks)
  timers : ∀ other ≠ id, s'.timersOf other = s.timersOf other
  stack : ∀ other ≠ id, (other ∈ s'.onStack ↔ other ∈ s.onStack)
  ended : ∀ other ≠ id, (other ∈ s'.ended ↔ other ∈ s.ended)

theorem Only.trans (h : Only id s s') (h' : Only id s' s'') : Only id s s'' where
  heap other hne := (h'.heap other hne).trans (h.heap other hne)
  tasks other hne := (h'.tasks other hne).trans (h.tasks other hne)
  timers other hne := (h'.timers other hne).trans (h.timers other hne)
  stack other hne := (h'.stack other hne).trans (h.stack other hne)
  ended other hne := (h'.ended other hne).trans (h.ended other hne)

theorem Only.ok (h : Only id s s') (hok : ∀ other, s.Ok other) (hid : s'.Ok id) (other : TaskId) : s'.Ok other := by
  by_cases hne : other = id
  · rw [hne]
    exact hid
  · unfold State.Ok
    rw [h.heap other hne, h.timers other hne]
    have hold := hok other
    unfold State.Ok at hold
    obtain ⟨h1, h2, h3, h4, h5, h6, h7⟩ := hold
    have htks := h.tasks other hne
    have hstack := h.stack other hne
    have hended := h.ended other hne
    exact ⟨htks.trans h1, h2, h3, h4, fun hr ht => (h5 hr ht).imp_right (And.imp_left hstack.mpr),
      fun hs => h6 (hstack.mp hs), fun hp => (h7 hp).imp htks.mpr (Or.imp_left hended.mpr)⟩

theorem schedule_pending (s : State) (id : TaskId) :
    (s.schedule id).pending = s.pending ++ [{ id := id, generation := (s.heap id).generation + 1 }] :=
  rfl

theorem schedule_only (s : State) (id : TaskId) : Only id s (s.schedule id) where
  heap _ hne := Function.update_of_ne hne _ _
  tasks _ _ := .rfl
  timers other hne := by
    have hoth : (id == other) = false := beq_eq_false_iff_ne.mpr (Ne.symm hne)
    unfold State.timersOf
    rw [schedule_pending, filter_append, filter_singleton, hoth]
    exact congrArg _ (append_nil _)
  stack _ _ := .rfl
  ended _ _ := .rfl

theorem createHandle_only (s : State) (type : TaskType) (group : Group) :
    Only s.nextId s (s.createHandle type group) where
  heap _ hne := Function.update_of_ne hne _ _
  tasks other hne := by
    show other ∈ s.tasks ++ [s.nextId] ↔ _
    rw [mem_append, mem_singleton]
    exact or_iff_left hne
  timers _ _ := rfl
  stack _ _ := .rfl
  ended _ _ := .rfl

/-! What belongs to `id` itself -/

@[simp] theorem schedule_heap (s : State) (id : TaskId) :
    (s.schedule id).heap id = { s.heap id with generation := (s.heap id).generation + 1 } :=
  Function.update_self ..

@[simp] theorem setHandle_heap (s : State) (id : TaskId) (handle : Handle) : (s.setHandle id handle).heap id = handle :=
  Function.update_self ..

@[simp] theorem createHandle_heap (s : State) (type : TaskType) (group : Group) :
    (s.createHandle type group).heap s.nextId = { type := type, group := group } :=
  Function.update_self ..

theorem schedule_timersOf (s : State) (id : TaskId) :
    (s.schedule id).timersOf id = s.timersOf id ++ [(s.heap id).generation + 1] := by
  unfold State.timersOf
  rw [schedule_pending, filter_append, filter_singleton, beq_self_eq_true, map_append]
  rfl

/-! ### The invariant -/

namespace State

def suspendedCount (s : State) : ℕ :=
  s.tasks.countP fun id => isSuspended (s.heap id)

/-- Each frame is of another handle; only the lowest may be of a timer; and a periodic task has ended where it threw or
returned `false`. -/
structure StackOk (s : State) : Prop where
  nodup : s.onStack.Nodup
  created : ∀ id ∈ s.onStack, id < s.nextId
  above : ∀ id ∈ s.onStack.dropLast, (s.heap id).type = .immediate
  outcome : ∀ frame ∈ s.stack, ∀ outcome, frame.phase = .post outcome → (s.heap frame.id).type = .periodic →
    outcome = .returned true ∨ frame.id ∈ s.ended

end State

structure Inv (s : State) : Prop where
  ok : ∀ id, s.Ok id
  nodup : s.tasks.Nodup
  created : ∀ id ∈ s.tasks, id < s.nextId
  untimed : ∀ id, s.nextId ≤ id → s.timersOf id = []
  stack : s.StackOk
  total : s.totalTasks = s.completedTasks + s.failedTasks + s.canceledTasks + s.tasks.length
  suspended : s.suspendedTasks = s.suspendedCount
  lost : s.lost = []

theorem Inv.agrees (h : Inv s) : s.Agrees := by
  intro hstack
  refine ⟨?_, h.lost, fun id => (h.ok id).periodic, h.total, h.suspended⟩
  intro id hid htype hrun
  rcases (h.ok id).oneTimer hrun htype with hone | ⟨hid, -⟩
  · exact hone
  · unfold State.onStack at hid
    rw [hstack] at hid
    cases hid

theorem Inv.touch (h : Inv s) (honly : Only id s s') (hnext : s'.nextId = s.nextId) (hid : id < s.nextId)
    (hok : s'.Ok id) (hnd : s'.tasks.Nodup) (hstack : s'.StackOk)
    (htotal : s'.totalTasks = s'.completedTasks + s'.failedTasks + s'.canceledTasks + s'.tasks.length)
    (hsusp : s'.suspendedTasks = s'.suspendedCount) (hlost : s'.lost = []) : Inv s' where
  ok := honly.ok h.ok hok
  nodup := hnd
  created other hoth := by
    rw [hnext]
    by_cases hne : other = id
    · rw [hne]
      exact hid
    · exact h.created other ((honly.tasks other hne).mp hoth)
  untimed other hoth := by
    rw [hnext] at hoth
    have hne : other ≠ id := by
      rintro rfl
      exact absurd hoth (Nat.not_le.mpr hid)
    rw [honly.timers other hne]
    exact h.untimed other hoth
  stack := hstack
  total := htotal
  suspended := hsusp
  lost := hlost

theorem State.StackOk.same (h : s.StackOk) (hstack : s'.stack = s.stack) (hnext : s.nextId ≤ s'.nextId)
    (htype : ∀ id < s.nextId, (s'.heap id).type = (s.heap id).type) (hended : s'.ended = s.ended) : s'.StackOk := by
  have hon : s'.onStack = s.onStack := by
    unfold State.onStack
    rw [hstack]
  refine ⟨?_, ?_, ?_, ?_⟩
  · rw [hon]
    exact h.nodup
  · rw [hon]
    intro id hid
    exact lt_of_lt_of_le (h.created id hid) hnext
  · rw [hon]
    intro id hid
    rw [htype id (h.created _ (dropLast_subset _ hid))]
    exact h.above id hid
  · rw [hstack, hended]
    intro frame hfr
    rw [htype frame.id (h.created _ (List.mem_map_of_mem hfr))]
    exact h.outcome frame hfr

theorem type_update (hheap : s'.heap = Function.update s.heap id handle) (htype : handle.type = (s.heap id).type)
    (other : TaskId) : (s'.heap other).type = (s.heap other).type := by
  rw [hheap]
  by_cases hne : other = id
  · rw [hne, Function.update_self]
    exact htype
  · rw [Function.update_of_ne hne]

theorem suspendedCount_update (h : Inv s) (hid : id ∈ s.tasks) (hheap : s'.heap = Function.update s.heap id handle)
    (htks : s'.tasks = s.tasks) :
    s'.suspendedCount + (isSuspended (s.heap id)).toNat = s.suspendedCount + (isSuspended handle).toNat := by
  unfold State.suspendedCount
  rw [hheap, htks]
  exact countP_update isSuspended s.heap handle h.nodup hid

theorem suspendedCount_erase (h : Inv s) (hid : id ∈ s.tasks) (hheap : s'.heap = Function.update s.heap id handle)
    (htks : s'.tasks = s.tasks.erase id) :
    s'.suspendedCount + (isSuspended (s.heap id)).toNat = s.suspendedCount := by
  unfold State.suspendedCount
  rw [hheap, htks]
  exact countP_erase_update isSuspended s.heap handle h.nodup hid

/-! ### The calls, on one handle -/

section handles

variable {live running ended : Prop} {timers : List ℕ}

theorem count_new {generation : ℕ} (h : ∀ g ∈ timers, g ≤ generation) :
    (timers ++ [generation + 1]).count (generation + 1) = 1 := by
  have hnone : generation + 1 ∉ timers := by
    intro hmem
    have := h _ hmem
    omega
  rw [count_append, count_eq_zero_of_not_mem hnone]
  simp

theorem old_new {generation : ℕ} (h : ∀ g ∈ timers, g ≤ generation) :
    ∀ g ∈ timers ++ [generation + 1], g ≤ generation + 1 := by
  intro g hg
  rcases mem_append.mp hg with hg | hg
  · exact (h g hg).trans (Nat.le_succ _)
  · rw [mem_singleton.mp hg]

theorem HandleOk.suspend (h : HandleOk handle live running ended timers) (hlive : live)
    (htype : handle.type ≠ .immediate) :
    HandleOk { handle with generation := handle.generation + 1, state := .suspended } live running ended timers where
  isLive := ⟨fun _ => .inr rfl, fun _ => hlive⟩
  immediate himm := absurd himm htype
  old g hg := (h.old g hg).trans (Nat.le_succ _)
  suspended _ hmem := absurd (h.old _ hmem) (Nat.not_succ_le_self _)
  oneTimer hr := by cases hr
  unfinished _ hf := by cases hf
  periodic _ := .inl hlive

theorem HandleOk.schedule (hgenerations : ∀ g ∈ timers, g ≤ handle.generation) (hlive : live) (n : ℕ) :
    HandleOk { handle with state := .running, generation := handle.generation + n + 1 } live running ended
      (timers ++ [handle.generation + n + 1]) := by
  have hold : ∀ g ∈ timers, g ≤ handle.generation + n := fun g hg => (hgenerations g hg).trans (Nat.le_add_right _ _)
  exact ⟨⟨fun _ => .inl rfl, fun _ => hlive⟩, (fun _ hs => by cases hs), old_new hold, (fun hs => by cases hs),
    fun _ _ => .inl (count_new hold), (fun _ hf => by cases hf), fun _ => .inl hlive⟩

theorem HandleOk.cancel (h : HandleOk handle live running ended timers) :
    HandleOk { handle with generation := handle.generation + 1, state := .canceled } False running ended timers where
  isLive := ⟨False.elim, fun hs => by rcases hs with hs | hs <;> cases hs⟩
  immediate _ hs := by cases hs
  old g hg := (h.old g hg).trans (Nat.le_succ _)
  suspended hs := by cases hs
  oneTimer hr := by cases hr
  unfinished _ hf := by cases hf
  periodic _ := .inr (.inr rfl)

theorem HandleOk.finish (h : HandleOk handle live running ended timers) (hended : handle.type = .periodic → ended)
    {frame : Prop} (hoff : ¬ frame) : HandleOk { handle with state := .finished } False frame ended timers where
  isLive := ⟨False.elim, fun hs => by rcases hs with hs | hs <;> cases hs⟩
  immediate _ hs := by cases hs
  old := h.old
  suspended hs := by cases hs
  oneTimer hr := by cases hr
  unfinished hf := absurd hf hoff
  periodic hp := .inr (.inl (hended hp))

end handles

/-! ### The calls -/

theorem Inv.update (h : Inv s) (handle : Handle) (hid : id ∈ s.tasks)
    (hheap : s'.heap = Function.update s.heap id handle) (htype : handle.type = (s.heap id).type)
    (htks : s'.tasks = s.tasks) (hnext : s'.nextId = s.nextId) (hstack : s'.stack = s.stack)
    (hended : s'.ended = s.ended) (htims : ∀ other ≠ id, s'.timersOf other = s.timersOf other)
    (hok : HandleOk handle (id ∈ s.tasks) (id ∈ s.onStack) (id ∈ s.ended) (s'.timersOf id))
    (htotal : s'.totalTasks = s'.completedTasks + s'.failedTasks + s'.canceledTasks + s'.tasks.length)
    (hsusp : s'.suspendedTasks + (isSuspended (s.heap id)).toNat = s.suspendedTasks + (isSuspended handle).toNat)
    (hlost : s'.lost = s.lost) : Inv s' := by
  have hon : s'.onStack = s.onStack := by
    unfold State.onStack
    rw [hstack]
  have hself : s'.heap id = handle := by
    rw [hheap, Function.update_self]
  have honly : Only id s s' := by
    refine ⟨?_, fun _ _ => by rw [htks], htims, fun _ _ => by rw [hon], fun _ _ => by rw [hended]⟩
    intro other hne
    rw [hheap, Function.update_of_ne hne]
  refine h.touch honly hnext (h.created id hid) ?_ ?_ ?_ htotal ?_ (hlost.trans h.lost)
  · unfold State.Ok
    rw [hself, htks, hon, hended]
    exact hok
  · rw [htks]
    exact h.nodup
  · exact h.stack.same hstack hnext.ge (fun other _ => type_update hheap htype other) hended
  · have hcnt := suspendedCount_update h hid hheap htks
    have hold := h.suspended
    omega

theorem Inv.suspendInternal (h : Inv s) (id : TaskId) : Inv (s.suspendInternal id) := by
  unfold State.suspendInternal
  split
  next hc =>
    obtain ⟨hid, htype, hrun⟩ := hc
    refine h.update { s.heap id with generation := (s.heap id).generation + 1, state := .suspended } hid rfl rfl rfl rfl rfl
      rfl (fun _ _ => rfl) ((h.ok id).suspend hid htype) h.total ?_ rfl
    have hnot : isSuspended (s.heap id) = false := by
      unfold isSuspended
      rw [hrun]
      rfl
    rw [hnot]
    exact add_zero _
  · exact h

theorem schedule_of_update {handle : Handle} (hheap : s'.heap = Function.update s.heap id handle) :
    (s'.schedule id).heap = Function.update s.heap id { handle with generation := handle.generation + 1 } := by
  show Function.update s'.heap id { s'.heap id with generation := (s'.heap id).generation + 1 } = _
  rw [hheap, Function.update_self, Function.update_idem]

theorem Inv.resumeInternal (h : Inv s) (id : TaskId) : Inv (s.resumeInternal id) := by
  unfold State.resumeInternal
  split
  next hc =>
    obtain ⟨hid, hsusp⟩ := hc
    have htype : (s.heap id).type ≠ .immediate := fun himm => (h.ok id).immediate himm hsusp
    have hwas : isSuspended (s.heap id) = true := by
      unfold isSuspended
      rw [hsusp]
      rfl
    have hpos : 0 < s.suspendedTasks := by
      rw [h.suspended]
      exact_mod_cast countP_pos_iff.mpr ⟨id, hid, hwas⟩
    dsimp only
    rw [if_neg htype]
    refine h.update _ hid (schedule_of_update rfl) rfl rfl rfl rfl rfl ?_ ?_ h.total ?_ rfl
    · exact fun other hne => (schedule_only _ id).timers other hne
    · rw [schedule_timersOf]
      show HandleOk { s.heap id with state := .running, generation := (s.heap id).generation + 1 } _ _ _
        (s.timersOf id ++ [((s.setHandle id { s.heap id with state := .running }).heap id).generation + 1])
      rw [setHandle_heap]
      exact HandleOk.schedule (h.ok id).old hid 0
    · show (if 0 < s.suspendedTasks then s.suspendedTasks - 1 else s.suspendedTasks) + _ = _ + 0
      rw [if_pos hpos, hwas]
      show s.suspendedTasks - 1 + 1 = s.suspendedTasks + 0
      omega
  · exact h

theorem Inv.restartTimer (h : Inv s) (id : TaskId) : Inv (s.restartTimer id) := by
  unfold State.restartTimer
  split
  next hc =>
    obtain ⟨hid, hrun⟩ := hc
    dsimp only
    split
    next himm =>
      refine h.update { s.heap id with generation := (s.heap id).generation + 1 } hid rfl rfl rfl rfl rfl rfl
        (fun _ _ => rfl) ?_ h.total rfl rfl
      obtain ⟨h1, h2, h3, h4, h5, h6, h7⟩ := h.ok id
      exact ⟨h1, h2, fun g hg => (h3 g hg).trans (Nat.le_succ _),
        fun _ hmem => absurd (h3 _ hmem) (Nat.not_succ_le_self _), fun _ htype => absurd himm htype, h6, h7⟩
    next htype =>
      refine h.update _ hid (schedule_of_update rfl) rfl rfl rfl rfl rfl ?_ ?_ h.total rfl rfl
      · exact fun other hne => (schedule_only _ id).timers other hne
      · rw [schedule_timersOf, setHandle_heap]
        have hsched : HandleOk { s.heap id with state := .running, generation := (s.heap id).generation + 1 + 1 } _
            (id ∈ s.onStack) (id ∈ s.ended) _ := HandleOk.schedule (h.ok id).old hid 1
        rw [← hrun] at hsched
        exact hsched
  · exact h

theorem Inv.remove (h : Inv s) (handle : Handle) (hid : id ∈ s.tasks)
    (hheap : s'.heap = Function.update s.heap id handle) (htype : handle.type = (s.heap id).type)
    (htks : s'.tasks = s.tasks.erase id) (hnext : s'.nextId = s.nextId) (hpend : s'.pending = s.pending)
    (hended : s'.ended = s.ended) (hon : ∀ other ≠ id, (other ∈ s'.onStack ↔ other ∈ s.onStack))
    (hstack : (∀ other, (s'.heap other).type = (s.heap other).type) → s'.StackOk)
    (hok : HandleOk handle False (id ∈ s'.onStack) (id ∈ s.ended) (s.timersOf id))
    (htotal : s'.totalTasks = s.totalTasks)
    (hcnt : s'.completedTasks + s'.failedTasks + s'.canceledTasks =
      s.completedTasks + s.failedTasks + s.canceledTasks + 1)
    (hsusp : s'.suspendedTasks + (isSuspended (s.heap id)).toNat = s.suspendedTasks)
    (hlost : s'.lost = s.lost) : Inv s' := by
  have hself : s'.heap id = handle := by
    rw [hheap, Function.update_self]
  have htims : ∀ other, s'.timersOf other = s.timersOf other := by
    intro other
    unfold State.timersOf
    rw [hpend]
  have hnot : id ∉ s'.tasks := by
    rw [htks]
    exact Nodup.not_mem_erase h.nodup
  have honly : Only id s s' := by
    refine ⟨?_, ?_, fun other _ => htims other, hon, fun _ _ => by rw [hended]⟩
    · intro other hne
      rw [hheap, Function.update_of_ne hne]
    · intro other hne
      rw [htks]
      exact mem_erase_of_ne hne
  refine h.touch honly hnext (h.created id hid) ?_ ?_ (hstack (type_update hheap htype)) ?_ ?_ (hlost.trans h.lost)
  · unfold State.Ok
    rw [hself, htims, hended, iff_false_intro hnot |> propext]
    exact hok
  · rw [htks]
    exact h.nodup.erase id
  · have hlen : (s.tasks.erase id).length + 1 = s.tasks.length := by
      rw [length_erase_of_mem hid]
      exact Nat.sub_add_cancel (length_pos_of_mem hid)
    have hold := h.total
    rw [htks, htotal]
    omega
  · have hcount := suspendedCount_erase h hid hheap htks
    have hold := h.suspended
    omega

theorem isSuspended_eq (handle : Handle) : (isSuspended handle).toNat = if handle.state = .suspended then 1 else 0 := by
  unfold isSuspended
  cases handle.state <;> rfl

theorem Inv.cancelInternal (h : Inv s) (id : TaskId) : Inv (s.cancelInternal id) := by
  unfold State.cancelInternal
  split
  next hid =>
    dsimp only
    split
    next hsusp =>
      refine h.remove { s.heap id with generation := (s.heap id).generation + 1, state := .canceled } hid rfl rfl rfl rfl rfl
        rfl (fun _ _ => .rfl) (fun htype => h.stack.same rfl le_rfl (fun other _ => htype other) rfl) (h.ok id).cancel rfl rfl
        ?_ rfl
      rw [isSuspended_eq, if_pos hsusp]
      show s.suspendedTasks - 1 + 1 = s.suspendedTasks
      omega
    next hrun =>
      refine h.remove { s.heap id with generation := (s.heap id).generation + 1, state := .canceled } hid rfl rfl rfl rfl rfl
        rfl (fun _ _ => .rfl) (fun htype => h.stack.same rfl le_rfl (fun other _ => htype other) rfl) (h.ok id).cancel rfl rfl
        ?_ rfl
      rw [isSuspended_eq, if_neg hrun]
      exact add_zero _
  · exact h

theorem Inv.cancelGroup (h : Inv s) (group : Group) : Inv (s.cancelGroup group) := by
  have hfold : ∀ (ids : List TaskId) (s : State), Inv s → Inv (ids.foldl State.cancelInternal s) := by
    intro ids
    induction ids with
    | nil => exact fun _ h => h
    | cons id ids ih => exact fun s h => ih _ (h.cancelInternal id)
  exact hfold _ s h

theorem Inv.create (h : Inv s) (handle : Handle) (hstate : handle.state = .running)
    (hheap : s'.heap = Function.update s.heap s.nextId handle) (htks : s'.tasks = s.tasks ++ [s.nextId])
    (hnext : s'.nextId = s.nextId + 1) (hended : s'.ended = s.ended)
    (htims : ∀ other ≠ s.nextId, s'.timersOf other = s.timersOf other)
    (hon : ∀ other ≠ s.nextId, (other ∈ s'.onStack ↔ other ∈ s.onStack))
    (hok : HandleOk handle True (s.nextId ∈ s'.onStack) (s.nextId ∈ s.ended) (s'.timersOf s.nextId))
    (hstack : s'.StackOk) (htotal : s'.totalTasks = s.totalTasks + 1)
    (hcnt : s'.completedTasks + s'.failedTasks + s'.canceledTasks = s.completedTasks + s.failedTasks + s.canceledTasks)
    (hsusp : s'.suspendedTasks = s.suspendedTasks) (hlost : s'.lost = s.lost) : Inv s' := by
  have hnew : s.nextId ∉ s.tasks := fun hmem => absurd (h.created _ hmem) (Nat.lt_irrefl _)
  have hself : s'.heap s.nextId = handle := by
    rw [hheap, Function.update_self]
  have hmem : s.nextId ∈ s'.tasks := by
    rw [htks]
    exact mem_append_right _ (mem_singleton_self _)
  have honly : Only s.nextId s s' := by
    refine ⟨?_, ?_, htims, hon, fun _ _ => by rw [hended]⟩
    · intro other hne
      rw [hheap, Function.update_of_ne hne]
    · intro other hne
      rw [htks, mem_append, mem_singleton]
      exact or_iff_left hne
  refine ⟨honly.ok h.ok ?_, ?_, ?_, ?_, hstack, ?_, ?_, hlost.trans h.lost⟩
  · unfold State.Ok
    rw [hself, hended, iff_true_intro hmem |> propext]
    exact hok
  · rw [htks]
    exact nodup_append.mpr ⟨h.nodup, nodup_singleton _, fun other hoth other' hoth' =>
      fun heq => hnew (by rw [← mem_singleton.mp hoth', ← heq]; exact hoth)⟩
  · rw [htks, hnext]
    intro other hoth
    rcases mem_append.mp hoth with hoth | hoth
    · exact (h.created other hoth).trans (Nat.lt_succ_self _)
    · rw [mem_singleton.mp hoth]
      exact Nat.lt_succ_self _
  · rw [hnext]
    intro other hoth
    rw [htims other (Nat.ne_of_gt hoth)]
    exact h.untimed other (Nat.le_of_succ_le hoth)
  · rw [htks, htotal, length_append, length_singleton, hcnt, h.total]
    exact Nat.add_assoc ..
  · have hcount := countP_update_of_notMem isSuspended s.heap handle hnew
    have hnot : isSuspended handle = false := by
      unfold isSuspended
      rw [hstate]
      rfl
    rw [hsusp, h.suspended]
    unfold State.suspendedCount
    rw [htks, hheap, countP_append, hcount, countP_singleton, Function.update_self, hnot]
    rfl

theorem dropLast_cons {top : TaskId} {ids : List TaskId} (h : id ∈ (top :: ids).dropLast) :
    id = top ∨ id ∈ ids.dropLast := by
  cases ids with
  | nil => cases h
  | cons next ids => exact mem_cons.mp h

theorem Inv.postInternal (h : Inv s) (group : Group) : Inv (s.postInternal group) := by
  have hoff : s.nextId ∉ s.onStack := fun hmem => absurd (h.stack.created _ hmem) (Nat.lt_irrefl _)
  refine h.create { type := .immediate, group := group } rfl rfl rfl rfl rfl (fun _ _ => rfl) ?_ ?_ ?_ rfl rfl rfl rfl
  · intro other hne
    show other ∈ s.nextId :: s.onStack ↔ _
    rw [mem_cons]
    exact or_iff_right hne
  · have htims : (s.postInternal group).timersOf s.nextId = [] := h.untimed _ le_rfl
    rw [htims]
    refine ⟨⟨fun _ => .inl rfl, fun _ => trivial⟩, (fun _ hs => by cases hs), ?_, (fun hs => by cases hs),
      fun _ htype => absurd rfl htype, (fun _ hf => by cases hf), (fun hp => by cases hp)⟩
    intro g hg
    cases hg
  · have htype : ∀ id ∈ s.onStack, ((s.postInternal group).heap id).type = (s.heap id).type := by
      intro id hid
      have hne : id ≠ s.nextId := Nat.ne_of_lt (h.stack.created id hid)
      show (Function.update s.heap s.nextId _ id).type = _
      rw [Function.update_of_ne hne]
    refine ⟨?_, ?_, ?_, ?_⟩
    · show (s.nextId :: s.onStack).Nodup
      exact nodup_cons.mpr ⟨hoff, h.stack.nodup⟩
    · show ∀ id ∈ s.nextId :: s.onStack, id < s.nextId + 1
      intro id hid
      rcases mem_cons.mp hid with rfl | hid
      · exact Nat.lt_succ_self _
      · exact (h.stack.created id hid).trans (Nat.lt_succ_self _)
    · show ∀ id ∈ (s.nextId :: s.onStack).dropLast, ((s.postInternal group).heap id).type = .immediate
      intro id hid
      rcases dropLast_cons hid with rfl | hid
      · exact congrArg Handle.type (createHandle_heap s .immediate group)
      · rw [htype id (dropLast_subset _ hid)]
        exact h.stack.above id hid
    · intro frame hfr outcome hph
      rcases mem_cons.mp hfr with rfl | hfr
      · cases hph
      · rw [htype frame.id (List.mem_map_of_mem hfr)]
        exact h.stack.outcome frame hfr outcome hph

theorem Inv.postTimed (h : Inv s) (type : TaskType) (group : Group) :
    Inv ((s.createHandle type group).schedule s.nextId) := by
  have hoff : s.nextId ∉ s.onStack := fun hmem => absurd (h.stack.created _ hmem) (Nat.lt_irrefl _)
  have hheap := @schedule_of_update s (s.createHandle type group) s.nextId { type := type, group := group } rfl
  refine h.create _ rfl hheap rfl rfl rfl ?_ (fun _ _ => .rfl) ?_ ?_ rfl rfl rfl rfl
  · intro other hne
    exact ((createHandle_only s type group).trans (schedule_only _ _)).timers other hne
  · rw [schedule_timersOf, createHandle_heap, show (s.createHandle type group).timersOf s.nextId = [] from h.untimed _ le_rfl]
    refine ⟨⟨fun _ => .inl rfl, fun _ => trivial⟩, (fun _ hs => by cases hs), ?_, (fun hs => by cases hs), ?_,
      (fun _ hf => by cases hf), fun _ => .inl trivial⟩
    · intro g hg
      rw [mem_singleton.mp hg]
    · exact fun _ _ => .inl (by simp)
  · refine h.stack.same rfl (Nat.le_succ _) ?_ rfl
    intro other hoth
    rw [hheap, Function.update_of_ne (Nat.ne_of_lt hoth)]

/-! ### The callbacks -/

theorem onlyFrame_stackOk (hid : id < s.nextId) (hstack : s'.stack = [{ id := id, phase := .pre }])
    (hnext : s'.nextId = s.nextId) : s'.StackOk := by
  have hon : s'.onStack = [id] := by
    unfold State.onStack
    rw [hstack]
    rfl
  refine ⟨?_, ?_, ?_, ?_⟩
  · rw [hon]
    exact nodup_singleton _
  · rw [hon, hnext]
    intro other hmem
    rw [mem_singleton.mp hmem]
    exact hid
  · rw [hon]
    intro other hmem
    cases hmem
  · rw [hstack]
    intro frame hmem outcome hph
    rw [mem_singleton.mp hmem] at hph
    cases hph

/-- The counters and what they count stay. -/
structure SameCounts (s s' : State) : Prop where
  tasks : s'.tasks = s.tasks
  nextId : s'.nextId = s.nextId
  ended : s'.ended = s.ended
  totalTasks : s'.totalTasks = s.totalTasks
  completedTasks : s'.completedTasks = s.completedTasks
  failedTasks : s'.failedTasks = s.failedTasks
  canceledTasks : s'.canceledTasks = s.canceledTasks
  suspendedTasks : s'.suspendedTasks = s.suspendedTasks
  lost : s'.lost = s.lost

theorem SameCounts.nodup (hs : SameCounts s s') (h : Inv s) : s'.tasks.Nodup := by
  rw [hs.tasks]
  exact h.nodup

theorem SameCounts.total (hs : SameCounts s s') (h : Inv s) :
    s'.totalTasks = s'.completedTasks + s'.failedTasks + s'.canceledTasks + s'.tasks.length := by
  rw [hs.totalTasks, hs.completedTasks, hs.failedTasks, hs.canceledTasks, hs.tasks]
  exact h.total

theorem suspendedCount_same (hheap : s'.heap = Function.update s.heap id handle)
    (hstate : handle.state = (s.heap id).state) (htks : s'.tasks = s.tasks) :
    s'.suspendedCount = s.suspendedCount := by
  unfold State.suspendedCount
  rw [htks, hheap]
  refine countP_congr fun other _ => ?_
  by_cases hne : other = id
  · rw [hne, Function.update_self]
    unfold isSuspended
    rw [hstate]
  · rw [Function.update_of_ne hne]

theorem SameCounts.suspended (hs : SameCounts s s') (h : Inv s) (hheap : s'.heap = Function.update s.heap id handle)
    (hstate : handle.state = (s.heap id).state) : s'.suspendedTasks = s'.suspendedCount := by
  rw [hs.suspendedTasks, h.suspended, suspendedCount_same hheap hstate hs.tasks]

section fire

variable {k : ℕ} {timer : Timer} (hk : s.pending[k]? = some timer)
include hk

theorem timersOf_fire_other (hne : other ≠ timer.id) :
    { s with pending := s.pending.eraseIdx k }.timersOf other = s.timersOf other := by
  obtain ⟨before, after, hpend, herase, -⟩ := split_at hk
  have hoth : (timer.id == other) = false := beq_eq_false_iff_ne.mpr (Ne.symm hne)
  unfold State.timersOf
  rw [herase, hpend, filter_append, filter_append, filter_cons_of_neg (by rw [hoth]; decide)]

theorem timersOf_fire (generation : ℕ) : (s.timersOf timer.id).count generation =
      ({ s with pending := s.pending.eraseIdx k }.timersOf timer.id).count generation +
        if timer.generation = generation then 1 else 0 := by
  obtain ⟨before, after, hpend, herase, -⟩ := split_at hk
  unfold State.timersOf
  rw [herase, hpend, filter_append, filter_append, filter_cons_of_pos (by exact beq_self_eq_true timer.id),
    map_append, map_append, map_cons, count_append, count_append, count_cons]
  simp only [beq_iff_eq]
  omega

theorem mem_timersOf_fire {generation : ℕ}
    (h : generation ∈ { s with pending := s.pending.eraseIdx k }.timersOf timer.id) :
    generation ∈ s.timersOf timer.id := by
  have hcnt := timersOf_fire hk generation
  have hpos := count_pos_iff.mpr h
  exact count_pos_iff.mp (by omega)

theorem fire_only : Only timer.id s { s with pending := s.pending.eraseIdx k } where
  heap _ _ := rfl
  tasks _ _ := .rfl
  timers _ hne := timersOf_fire_other hk hne
  stack _ _ := .rfl
  ended _ _ := .rfl

/-- A timer that is not the current one, or comes while its task is not running, does nothing. -/
theorem Inv.fireStale (h : Inv s) (hstack : s.stack = [])
    (hstale : (s.heap timer.id).generation ≠ timer.generation ∨ (s.heap timer.id).state ≠ .running) :
    Inv { s with pending := s.pending.eraseIdx k } := by
  have hold := h.ok timer.id
  have hoff : timer.id ∉ s.onStack := by
    unfold State.onStack
    rw [hstack]
    exact not_mem_nil
  have hok : { s with pending := s.pending.eraseIdx k }.Ok timer.id := by
    refine ⟨hold.isLive, hold.immediate, fun g hg => hold.old g (mem_timersOf_fire hk hg),
      fun hs hmem => hold.suspended hs (mem_timersOf_fire hk hmem), ?_, hold.unfinished, hold.periodic⟩
    intro hrun htype
    rcases hold.oneTimer hrun htype with hone | ⟨hon, -⟩
    · left
      have hcnt := timersOf_fire hk (s.heap timer.id).generation
      rcases hstale with hgen | hstate
      · rw [if_neg hgen.symm] at hcnt
        exact hcnt.symm.trans hone
      · exact absurd hrun hstate
    · exact absurd hon hoff
  refine ⟨(fire_only hk).ok h.ok hok, h.nodup, h.created, ?_, h.stack.same rfl le_rfl (fun _ _ => rfl) rfl, h.total,
    h.suspended, h.lost⟩
  intro id hid
  have hnone : s.timersOf id = [] := h.untimed id hid
  by_cases hne : id = timer.id
  · rw [hne] at hnone ⊢
    refine eq_nil_iff_forall_not_mem.mpr fun g hg => ?_
    have hmem := mem_timersOf_fire hk hg
    rw [hnone] at hmem
    cases hmem
  · rw [timersOf_fire_other hk hne]
    exact hnone

theorem Inv.fired (h : Inv s) (hstack : s.stack = []) (hgen : (s.heap timer.id).generation = timer.generation)
    (hrun : (s.heap timer.id).state = .running) (htype : (s.heap timer.id).type ≠ .immediate) :
    (s.heap timer.id).generation ∉ { s with pending := s.pending.eraseIdx k }.timersOf timer.id := by
  intro hmem
  have hcnt := timersOf_fire hk (s.heap timer.id).generation
  rw [if_pos hgen.symm] at hcnt
  have hpos := count_pos_iff.mpr hmem
  rcases (h.ok timer.id).oneTimer hrun htype with hone | ⟨hon, -⟩
  · omega
  · unfold State.onStack at hon
    rw [hstack] at hon
    cases hon

theorem Inv.fireCurrent (h : Inv s) (hstack : s.stack = []) (hgen : (s.heap timer.id).generation = timer.generation)
    (hrun : (s.heap timer.id).state = .running) (handle : Handle) (htype : handle.type = (s.heap timer.id).type)
    (hstate : handle.state = (s.heap timer.id).state) (hsame : handle.generation = (s.heap timer.id).generation)
    (hheap : s'.heap = Function.update s.heap timer.id handle) (hpend : s'.pending = s.pending.eraseIdx k)
    (hstack' : s'.stack = [{ id := timer.id, phase := .pre }]) (hcnts : SameCounts s s') : Inv s' := by
  have hold := h.ok timer.id
  have hlive : timer.id ∈ s.tasks := hold.isLive.mpr (.inl hrun)
  have hid := h.created timer.id hlive
  have htims : ∀ other, s'.timersOf other = { s with pending := s.pending.eraseIdx k }.timersOf other := by
    intro other
    unfold State.timersOf
    rw [hpend]
  have hon : s'.onStack = [timer.id] := by
    unfold State.onStack
    rw [hstack']
    rfl
  have honly : Only timer.id s s' := by
    refine ⟨?_, fun _ _ => by rw [hcnts.tasks], ?_, ?_, fun _ _ => by rw [hcnts.ended]⟩
    · intro other hne
      rw [hheap, Function.update_of_ne hne]
    · intro other hne
      rw [htims, timersOf_fire_other hk hne]
    · intro other hne
      rw [hon]
      unfold State.onStack
      rw [hstack, mem_singleton]
      exact ⟨fun heq => absurd heq hne, fun hmem => by cases hmem⟩
  refine h.touch honly hcnts.nextId hid ?_ (hcnts.nodup h) (onlyFrame_stackOk hid hstack' hcnts.nextId)
    (hcnts.total h) ?_ (hcnts.lost.trans h.lost)
  · unfold State.Ok
    rw [hheap, Function.update_self, hcnts.tasks, hcnts.ended, hon, htims]
    have hgenerations : ∀ g ∈ { s with pending := s.pending.eraseIdx k }.timersOf timer.id, g ≤ handle.generation := by
      rw [hsame]
      exact fun g hg => hold.old g (mem_timersOf_fire hk hg)
    refine ⟨?_, ?_, hgenerations, ?_, ?_, ?_, ?_⟩
    · rw [hstate]
      exact hold.isLive
    · rw [htype, hstate]
      exact hold.immediate
    · rw [hstate, hrun]
      exact fun hs => by cases hs
    · intro _ himm
      rw [htype] at himm
      rw [hsame]
      exact .inr ⟨mem_singleton_self _, h.fired hk hstack hgen hrun himm⟩
    · rw [hstate, hrun]
      exact fun _ hf => by cases hf
    · exact fun _ => .inl hlive
  · exact hcnts.suspended h hheap hstate

end fire

theorem Inv.fire {k : ℕ} (h : Inv s) (hst : s.fire k = some s') : Inv s' := by
  unfold State.fire at hst
  split at hst
  next timer hstack hk =>
    dsimp only at hst
    split at hst
    next hstale =>
      cases hst
      exact h.fireStale hk hstack hstale
    next hcur =>
      simp only [not_or, not_not] at hcur
      obtain ⟨hgen, hrun⟩ := hcur
      have hlive : timer.id ∈ s.tasks := (h.ok timer.id).isLive.mpr (.inl hrun)
      split at hst
      · split at hst
        · cases hst
          have hheap := @schedule_of_update s { s with pending := s.pending.eraseIdx k } timer.id (s.heap timer.id)
            (Function.update_eq_self timer.id s.heap).symm
          refine h.touch ((fire_only hk).trans (schedule_only _ _)) rfl (h.created _ hlive) ?_ h.nodup
            (h.stack.same rfl le_rfl (fun other _ => type_update hheap rfl other) rfl) h.total ?_ h.lost
          · unfold State.Ok
            rw [schedule_heap, schedule_timersOf]
            have hsched : HandleOk { s.heap timer.id with state := .running, generation := (s.heap timer.id).generation + 0 + 1 }
                (timer.id ∈ s.tasks) (timer.id ∈ s.onStack) (timer.id ∈ s.ended) _ :=
              HandleOk.schedule (fun g hg => (h.ok timer.id).old g (mem_timersOf_fire hk hg)) hlive 0
            rw [← hrun] at hsched
            exact hsched
          · have hcnts : SameCounts s ({ s with pending := s.pending.eraseIdx k }.schedule timer.id) :=
              ⟨rfl, rfl, rfl, rfl, rfl, rfl, rfl, rfl, rfl⟩
            exact hcnts.suspended h hheap rfl
        · cases hst
          exact h.fireCurrent hk hstack hgen hrun { s.heap timer.id with isExecuting := true } rfl rfl rfl rfl rfl rfl
            ⟨rfl, rfl, rfl, rfl, rfl, rfl, rfl, rfl, rfl⟩
      · cases hst
        exact h.fireCurrent hk hstack hgen hrun (s.heap timer.id) rfl rfl rfl
          (Function.update_eq_self timer.id s.heap).symm rfl rfl ⟨rfl, rfl, rfl, rfl, rfl, rfl, rfl, rfl, rfl⟩
  · cases hst

theorem State.StackOk.goOn (h : s.StackOk) (hon : s'.onStack = s.onStack) (hnext : s'.nextId = s.nextId)
    (htype : ∀ other, (s'.heap other).type = (s.heap other).type)
    (houtc : ∀ frame ∈ s'.stack, ∀ outcome, frame.phase = .post outcome → (s.heap frame.id).type = .periodic →
      outcome = .returned true ∨ frame.id ∈ s'.ended) : s'.StackOk := by
  refine ⟨?_, ?_, ?_, ?_⟩
  · rw [hon]
    exact h.nodup
  · rw [hon, hnext]
    exact h.created
  · rw [hon]
    intro id hid
    rw [htype id]
    exact h.above id hid
  · intro frame hfr
    rw [htype frame.id]
    exact houtc frame hfr

theorem Inv.enter (h : Inv s) (hst : s.enter = some s') : Inv s' := by
  unfold State.enter at hst
  split at hst
  next id stack hstack =>
    cases hst
    have hon : { s with stack := { id := id, phase := .task } :: stack }.onStack = s.onStack := by
      unfold State.onStack
      rw [hstack]
      rfl
    have hfrs : { s with stack := { id := id, phase := .task } :: stack }.StackOk := by
      refine h.stack.goOn hon rfl (fun _ => rfl) fun frame hfr outcome hph => ?_
      rcases mem_cons.mp hfr with rfl | hfr
      · cases hph
      · refine h.stack.outcome frame ?_ outcome hph
        rw [hstack]
        exact mem_cons_of_mem _ hfr
    refine ⟨fun other => ?_, h.nodup, h.created, h.untimed, hfrs, h.total, h.suspended, h.lost⟩
    unfold State.Ok
    rw [hon]
    exact h.ok other
  · cases hst

theorem State.StackOk.leave (h : s.StackOk) {stack : List Frame} {outcome : Outcome}
    (hstack : s.stack = { id := id, phase := .task } :: stack)
    (hstack' : s'.stack = { id := id, phase := .post outcome } :: stack) (hnext : s'.nextId = s.nextId)
    (htype : ∀ other, (s'.heap other).type = (s.heap other).type) (hended : ∀ other ∈ s.ended, other ∈ s'.ended)
    (houtc : (s.heap id).type = .periodic → outcome = .returned true ∨ id ∈ s'.ended) : s'.StackOk := by
  have hon : s'.onStack = s.onStack := by
    unfold State.onStack
    rw [hstack, hstack']
    rfl
  refine h.goOn hon hnext htype fun frame hfr outcome' hph hper => ?_
  rw [hstack'] at hfr
  rcases mem_cons.mp hfr with rfl | hfr
  · obtain rfl : outcome = outcome' := Phase.post.inj hph
    exact houtc hper
  · have hmem : frame ∈ s.stack := by
      rw [hstack]
      exact mem_cons_of_mem _ hfr
    exact (h.outcome frame hmem outcome' hph hper).imp_right (hended frame.id)

theorem Inv.leave {outcome : Outcome} (h : Inv s) (hst : s.leave outcome = some s') : Inv s' := by
  unfold State.leave at hst
  split at hst
  next id stack hstack =>
    have hon : (({ id := id, phase := .post outcome } : Frame) :: stack).map Frame.id = s.onStack := by
      unfold State.onStack
      rw [hstack]
      rfl
    have hid : id ∈ s.onStack := by
      rw [← hon]
      exact mem_cons_self
    dsimp only at hst
    split at hst
    next hper =>
      cases hst
      have hgrows : ∀ other ∈ s.ended, other ∈ (if outcome = .returned true then s.ended else s.ended ++ [id]) := by
        intro other hoth
        split
        · exact hoth
        · exact mem_append_left _ hoth
      refine @Inv.touch s _ id h ⟨?_, fun _ _ => .rfl, fun _ _ => rfl, ?_, ?_⟩ rfl (h.stack.created id hid) ?_ h.nodup ?_ h.total
        ?_ h.lost
      · exact fun other hne => Function.update_of_ne hne _ _
      · intro other _
        show other ∈ (({ id := id, phase := .post outcome } : Frame) :: stack).map Frame.id ↔ _
        rw [hon]
      · intro other hne
        show other ∈ (if outcome = .returned true then s.ended else s.ended ++ [id]) ↔ _
        split
        · exact .rfl
        · rw [mem_append, mem_singleton]
          exact or_iff_left hne
      · obtain ⟨h1, h2, h3, h4, h5, h6, h7⟩ := h.ok id
        have hfr : id ∈ (({ id := id, phase := .post outcome } : Frame) :: stack).map Frame.id := mem_cons_self
        have hheap : Function.update s.heap id { s.heap id with isExecuting := false } id =
            { s.heap id with isExecuting := false } := Function.update_self ..
        show HandleOk (Function.update s.heap id { s.heap id with isExecuting := false } id) _ _ _ _
        rw [hheap]
        exact ⟨h1, h2, h3, h4, fun hr ht => (h5 hr ht).imp_right (And.imp_left fun _ => hfr), fun _ => h6 hid,
          fun hp => (h7 hp).imp_right (Or.imp_left (hgrows id))⟩
      · refine h.stack.leave hstack rfl rfl (type_update rfl rfl) hgrows fun _ => ?_
        show _ ∨ id ∈ (if outcome = .returned true then s.ended else s.ended ++ [id])
        split
        next hret => exact .inl hret
        · exact .inr (mem_append_right _ (mem_singleton_self _))
      · refine h.suspended.trans (congrArg Nat.cast ?_)
        symm
        exact suspendedCount_same rfl rfl rfl
    next honce =>
      cases hst
      have hfrs : { s with stack := { id := id, phase := .post outcome } :: stack }.StackOk :=
        h.stack.leave hstack rfl rfl (fun _ => rfl) (fun _ hmem => hmem) fun hper => absurd hper honce
      refine ⟨fun other => ?_, h.nodup, h.created, h.untimed, hfrs, h.total, h.suspended, h.lost⟩
      show HandleOk (s.heap other) (other ∈ s.tasks)
        (other ∈ (({ id := id, phase := .post outcome } : Frame) :: stack).map Frame.id) (other ∈ s.ended) (s.timersOf other)
      rw [hon]
      exact h.ok other
  · cases hst

theorem markFinished_running (hrun : (s.heap id).state = .running) (success : Bool) : s.markFinished id success =
      { s.setHandle id { s.heap id with state := .finished } with
        completedTasks := s.completedTasks + success.toNat
        failedTasks := s.failedTasks + (!success).toNat }.removeTaskInternal id (s.heap id).group := by
  simp only [State.markFinished, hrun, reduceCtorEq, if_false]
  cases success <;> rfl

section done

variable {frame : Frame} {stack : List Frame} (hstack : s.stack = frame :: stack)
include hstack

theorem onStack_done : s.onStack = frame.id :: stack.map Frame.id := by
  unfold State.onStack
  rw [hstack]
  rfl

theorem State.StackOk.done (h : s.StackOk) (hstack' : s'.stack = stack) (hnext : s'.nextId = s.nextId)
    (htype : ∀ other, (s'.heap other).type = (s.heap other).type) (hended : s'.ended = s.ended) : s'.StackOk := by
  have hon := onStack_done hstack
  have hon' : s'.onStack = stack.map Frame.id := congrArg (List.map Frame.id) hstack'
  obtain ⟨hnd, hcreated, habove, houtc⟩ := h
  rw [hon] at hnd hcreated habove
  refine ⟨?_, ?_, ?_, ?_⟩
  · rw [hon']
    exact (nodup_cons.mp hnd).2
  · rw [hon', hnext]
    exact fun id hid => hcreated id (mem_cons_of_mem _ hid)
  · rw [hon']
    intro id hid
    rw [htype id]
    refine habove id ?_
    rw [dropLast_cons_of_ne_nil (ne_nil_of_mem (dropLast_subset _ hid))]
    exact mem_cons_of_mem _ hid
  · rw [hstack', hended]
    intro frame hfr
    rw [htype frame.id]
    refine houtc frame ?_
    rw [hstack]
    exact mem_cons_of_mem _ hfr

theorem done_off (h : s.StackOk) : frame.id ∉ stack.map Frame.id := by
  have hnd := h.nodup
  rw [onStack_done hstack] at hnd
  exact (nodup_cons.mp hnd).1

theorem onStack_done_other (hne : other ≠ frame.id) : other ∈ stack.map Frame.id ↔ other ∈ s.onStack := by
  rw [onStack_done hstack, mem_cons]
  exact (or_iff_right hne).symm

theorem done_only : Only frame.id s { s with stack := stack } where
  heap _ _ := rfl
  tasks _ _ := .rfl
  timers _ _ := rfl
  stack _ hne := onStack_done_other hstack hne
  ended _ _ := .rfl

theorem Inv.doneAgain (h : Inv s) (hrun : (s.heap frame.id).state = .running) :
    Inv ({ s with stack := stack }.schedule frame.id) := by
  have hlive : frame.id ∈ s.tasks := (h.ok frame.id).isLive.mpr (.inl hrun)
  have hheap := @schedule_of_update s { s with stack := stack } frame.id (s.heap frame.id)
    (Function.update_eq_self frame.id s.heap).symm
  have hcnts : SameCounts s ({ s with stack := stack }.schedule frame.id) :=
    ⟨rfl, rfl, rfl, rfl, rfl, rfl, rfl, rfl, rfl⟩
  refine h.touch ((done_only hstack).trans (schedule_only _ _)) rfl (h.created _ hlive) ?_ h.nodup
    (h.stack.done hstack rfl rfl (type_update hheap rfl) rfl) h.total (hcnts.suspended h hheap rfl) h.lost
  unfold State.Ok
  rw [schedule_heap, schedule_timersOf]
  have hsched : HandleOk { s.heap frame.id with state := .running, generation := (s.heap frame.id).generation + 0 + 1 }
      (frame.id ∈ s.tasks) (frame.id ∈ stack.map Frame.id) (frame.id ∈ s.ended) _ :=
    HandleOk.schedule (h.ok frame.id).old hlive 0
  rw [← hrun] at hsched
  exact hsched

theorem Inv.doneCanceled (h : Inv s) (hcanceled : (s.heap frame.id).state = .canceled) :
    Inv { s with stack := stack } := by
  have hid : frame.id < s.nextId := by
    refine h.stack.created _ ?_
    rw [onStack_done hstack]
    exact mem_cons_self
  refine h.touch (done_only hstack) rfl hid ?_ h.nodup (h.stack.done hstack rfl rfl (fun _ => rfl) rfl) h.total h.suspended
    h.lost
  obtain ⟨h1, h2, h3, h4, h5, h6, h7⟩ := h.ok frame.id
  refine ⟨h1, h2, h3, h4, ?_, ?_, h7⟩
  · intro hrun
    exact absurd (hrun.symm.trans hcanceled) (by decide)
  · intro _ hfin
    exact absurd (hfin.symm.trans hcanceled) (by decide)

theorem Inv.doneFinished (h : Inv s) (hrun : (s.heap frame.id).state = .running)
    (hended : (s.heap frame.id).type = .periodic → frame.id ∈ s.ended) (success : Bool) :
    Inv ({ s with stack := stack }.markFinished frame.id success) := by
  have hlive : frame.id ∈ s.tasks := (h.ok frame.id).isLive.mpr (.inl hrun)
  have hok : HandleOk { s.heap frame.id with state := .finished } False (frame.id ∈ stack.map Frame.id)
      (frame.id ∈ s.ended) (s.timersOf frame.id) := (h.ok frame.id).finish hended (done_off hstack h.stack)
  have hcnt : (isSuspended (s.heap frame.id)).toNat = 0 := by
    rw [isSuspended_eq, hrun]
    rfl
  have hfin := @markFinished_running { s with stack := stack } frame.id hrun success
  rw [hfin]
  refine h.remove _ hlive rfl rfl rfl rfl rfl rfl (fun _ hne => onStack_done_other hstack hne)
    (fun htype => h.stack.done hstack rfl rfl htype rfl) hok rfl ?_ ?_ rfl
  · show s.completedTasks + success.toNat + (s.failedTasks + (!success).toNat) + s.canceledTasks = _
    cases success
    · simp only [Bool.toNat_false, Bool.not_false, Bool.toNat_true]
      omega
    · simp only [Bool.toNat_false, Bool.not_true, Bool.toNat_true]
      omega
  · rw [hcnt]
    exact add_zero _

end done

theorem Inv.done (h : Inv s) (hc : LeavesNoneSuspended s .done) (hst : s.done = some s') : Inv s' := by
  unfold State.done at hst
  split at hst
  next id outcome stack hstack =>
    have hid : id ∈ s.onStack := by
      rw [onStack_done hstack]
      exact mem_cons_self
    have hnot : (s.heap id).state ≠ .suspended := by
      refine hc { id := id, phase := .post outcome } ?_
      rw [hstack]
      rfl
    dsimp only at hst
    split at hst
    next hagain =>
      cases hst
      exact h.doneAgain hstack hagain.2.2
    next hends =>
      cases hst
      cases hstate : (s.heap id).state with
      | running =>
        refine h.doneFinished hstack hstate ?_ _
        intro hper
        rcases h.stack.outcome { id := id, phase := .post outcome } (by rw [hstack]; exact mem_cons_self) outcome rfl
          hper with hret | hended
        · exact absurd ⟨hper, hret, hstate⟩ hends
        · exact hended
      | suspended => exact absurd hstate hnot
      | canceled =>
        have hcanceled := h.doneCanceled hstack hstate
        unfold State.markFinished
        rw [if_pos (by exact hstate)]
        exact hcanceled
      | finished => exact absurd hstate ((h.ok id).unfinished hid)
  · cases hst

/-! ### Runs -/

theorem Inv.fresh : Inv fresh where
  ok _ := ⟨⟨(fun h => by cases h), (fun h => by rcases h with h | h <;> cases h)⟩, (fun _ h => by cases h),
    (fun _ h => by cases h), (fun h => by cases h), (fun h => by cases h), (fun h => by cases h), (fun h => by cases h)⟩
  nodup := nodup_nil
  created _ h := by cases h
  untimed _ _ := rfl
  stack := ⟨nodup_nil, (fun _ h => by cases h), (fun _ h => by cases h), (fun _ h => by cases h)⟩
  total := rfl
  suspended := rfl
  lost := rfl

theorem inv_inductive : machine.Inductive LeavesNoneSuspended Inv where
  init s hs := by
    obtain rfl : s = Wasm.fresh := hs
    exact .fresh
  step s label s' h hc hst := by
    have hst : step s label = some s' := hst
    cases label with
    | post group => exact some.inj hst ▸ h.postInternal group
    | postDelayed group => exact some.inj hst ▸ h.postTimed .delayed group
    | postPeriodic group => exact some.inj hst ▸ h.postTimed .periodic group
    | cancel id => exact some.inj hst ▸ h.cancelInternal id
    | cancelGroup group => exact some.inj hst ▸ h.cancelGroup group
    | suspend id => exact some.inj hst ▸ h.suspendInternal id
    | resume id => exact some.inj hst ▸ h.resumeInternal id
    | restartTimer id => exact some.inj hst ▸ h.restartTimer id
    | fire k => exact h.fire hst
    | enter => exact h.enter hst
    | leave outcome => exact h.leave hst
    | done => exact h.done hc hst

theorem Inv.suspended_alone (h : Inv s) {frame : Frame} {stack : List Frame} (hstack : s.stack = frame :: stack)
    (hsusp : (s.heap frame.id).state = .suspended) : stack = [] := by
  cases stack with
  | nil => rfl
  | cons next stack =>
    refine absurd hsusp ((h.ok frame.id).immediate (h.stack.above frame.id ?_))
    rw [onStack_done hstack]
    exact mem_cons_self

theorem markFinished_suspended {success : Bool} (hsusp : (s.heap id).state = .suspended) :
    (s.markFinished id success).stack = s.stack ∧ (s.markFinished id success).lost = s.lost ++ [id] := by
  simp only [State.markFinished, hsusp, reduceCtorEq, if_false, if_true]
  cases success <;> exact ⟨rfl, rfl⟩

theorem done_loses (h : Inv s) (hc : ¬ LeavesNoneSuspended s .done) (hst : s.done = some s') : ¬ s'.Agrees := by
  unfold LeavesNoneSuspended at hc
  unfold State.done at hst
  split at hst
  next id outcome stack hstack =>
    rw [hstack] at hc
    have hsusp : (s.heap id).state = .suspended := by
      by_contra hnot
      refine hc fun frame hfr => ?_
      cases hfr
      exact hnot
    obtain rfl := h.suspended_alone hstack hsusp
    dsimp only at hst
    rw [if_neg (by rw [hsusp]; rintro ⟨-, -, hrun⟩; cases hrun)] at hst
    cases hst
    have hfin := @markFinished_suspended { s with stack := [] } id (outcome != .threw) hsusp
    intro hagr
    have hlost := (hagr hfin.1).2.1
    rw [hfin.2] at hlost
    exact absurd hlost (append_ne_nil_of_right_ne_nil _ (cons_ne_nil _ _))
  · cases hst

/-- **Timers and tasks agree in a run if and only if no callback of a timer ends while its own handle is suspended.** -/
theorem timers_agree (labels : List Label) :
    machine.Always State.Agrees fresh labels ↔ machine.Keeps LeavesNoneSuspended fresh labels := by
  refine inv_inductive.exact (fun _ h => h.agrees) ?_ labels fresh .fresh
  intro s label s' h hc hst
  have hst : step s label = some s' := hst
  cases label with
  | done => exact done_loses h hc hst
  | _ => exact absurd trivial hc

/-- A periodic task that always returns `true` suspends itself once. -/
def suspendingRun : List Label :=
  [.postPeriodic "", .fire 0, .enter, .suspend 1, .leave (.returned true), .done]

theorem timers_agree_suspendingRun : ¬ machine.Always State.Agrees fresh suspendingRun := by
  intro halw
  obtain ⟨s, hs, hfacts⟩ := map_eq_some_iff.mp (by decide +kernel :
    (machine.exec fresh suspendingRun).map (fun s => (s.stack, s.lost)) = some ([], [1]))
  obtain ⟨hstack, hlost⟩ := Prod.mk.inj hfacts
  have hagr := halw.exec hs hstack
  exact absurd (hagr.2.1.symm.trans hlost) (by decide)

end Brookesia.TaskScheduler.Wasm
