import Brookesia.SystemCore.GuiBindings

/-! # The order of binding updates

A batch writes the bindings directly, while the updates of earlier calls may still be in the buffer.
`NothingOvertaken` are the runs where none of them is for a binding that the batch sets, where no two
bindings share an update key, and where posts succeed.

* `value`: what will be shown for a binding when the buffer has been flushed.
* `bindings_in_order`: under `NothingOvertaken` the last call for a binding is what is shown in the end,
  and what is in the buffer has its flush. -/

namespace Brookesia.SystemCore.BindingOrder

open Filesystem.Path (Bytes)
open Transition GuiBindings List Option

def Flushing (s : State) : Prop := ∃ task point commands, s.running = some (task, .flushing point commands)

/-- A flush is about to be posted, or posted, or running. -/
def FlushComes (s : State) : Prop := s.app = .posting ∨ .flush ∈ s.guiQueue ∨ Flushing s

/-- All posted tasks have run. -/
structure Settled (s : State) : Prop where
  app : s.app ≠ .posting
  guiQueue : s.guiQueue = []
  guiInputQueue : s.guiInputQueue = []
  running : s.running = none

/-- Once all tasks have run, each binding shows the value of the last call for it; and no update is left
in the buffer without a flush. -/
structure InOrder (s : State) : Prop where
  shown : Settled s → s.shown = s.called
  flushComes : s.updates ≠ [] → FlushComes s

/-- Updates of different bindings have different update keys. -/
def Distinguished (updates : List Update) : Prop :=
  ∀ u ∈ updates, ∀ v ∈ updates, u.updateKey = v.updateKey → u.target = v.target

instance (updates : List Update) : Decidable (Distinguished updates) := by
  unfold Distinguished
  infer_instance

/-- The updates of the next command of the task that runs. -/
def nextBindings (s : State) : List Update :=
  match s.running with
  | some (_, .executing (.setBindings updates :: _)) => updates
  | _ => []

/-- New updates do not share their update key with an update of another binding, posts succeed, and a
batch sets no binding that has an update in the buffer. -/
def NothingOvertaken (s : State) : Action → Prop
  | .enqueue updates => Distinguished (s.updates ++ updates)
  | .post posted => posted = true
  | .proceed => ∀ u ∈ nextBindings s, ∀ old ∈ s.updates, old.target ≠ u.target
  | _ => True

instance (s : State) (a : Action) : Decidable (NothingOvertaken s a) := by
  cases a <;> unfold NothingOvertaken <;> infer_instance

/-! ### Lists of updates -/

def lastValue (updates : List Update) (target : Bytes × Bytes) : Option Bytes :=
  assign (fun _ => none) updates target

variable {us vs : List Update} {u v : Update} {target : Bytes × Bytes}

theorem assign_append (m : Bytes × Bytes → Option Bytes) (us vs : List Update) :
    assign m (us ++ vs) = assign (assign m us) vs := foldl_append

theorem assign_singleton (m : Bytes × Bytes → Option Bytes) (u : Update) :
    assign m [u] target = if target = u.target then some u.value else m target :=
  Function.update_apply ..

theorem assign_eq (m : Bytes × Bytes → Option Bytes) (us : List Update) :
    assign m us target = (lastValue us target).or (m target) := by
  induction us using List.reverseRecOn with
  | nil => rfl
  | append_singleton us u ih =>
    unfold lastValue
    rw [assign_append, assign_append, assign_singleton, assign_singleton]
    split_ifs
    · rfl
    · exact ih

theorem lastValue_append (us vs : List Update) :
    lastValue (us ++ vs) target = (lastValue vs target).or (lastValue us target) := by
  unfold lastValue
  rw [assign_append, assign_eq]
  rfl

theorem lastValue_eq_none : lastValue us target = none ↔ ∀ u ∈ us, u.target ≠ target := by
  induction us using List.reverseRecOn with
  | nil => simp [lastValue, assign]
  | append_singleton us u ih =>
    unfold lastValue at ih ⊢
    rw [assign_append, assign_singleton]
    simp only [mem_append, mem_singleton]
    split_ifs with h
    · simpa using Or.inr h.symm
    · rw [ih]
      constructor
      · rintro hus v (hv | rfl)
        · exact hus v hv
        · exact Ne.symm h
      · exact fun hall v hv => hall v (.inl hv)

/-- Where all updates of a binding have one value, that is the last one. -/
theorem lastValue_of_forall (hmem : u ∈ us) (hall : ∀ v ∈ us, v.target = u.target → v.value = u.value) :
    lastValue us u.target = some u.value := by
  induction us using List.reverseRecOn with
  | nil => simp at hmem
  | append_singleton us v ih =>
    unfold lastValue at ih ⊢
    rw [assign_append, assign_singleton]
    split_ifs with h
    · rw [hall v (by simp) h.symm]
    · refine ih ?_ fun w hw => hall w (mem_append_left _ hw)
      rcases mem_append.mp hmem with hmem | hmem
      · exact hmem
      · rw [mem_singleton] at hmem
        exact absurd (congrArg Update.target hmem) h

theorem put_eq_of_mem (h : ∃ old ∈ us, old.updateKey = u.updateKey) :
    put us u = us.map fun old => if old.updateKey = u.updateKey then u else old := by
  unfold put
  rw [if_pos]
  simpa using h

theorem put_eq_of_not (h : ∀ old ∈ us, old.updateKey ≠ u.updateKey) : put us u = us ++ [u] := by
  unfold put
  rw [if_neg]
  simpa using h

theorem mem_put (h : v ∈ put us u) : v ∈ us ∨ v = u := by
  unfold put at h
  split_ifs at h
  · obtain ⟨old, hold, heq⟩ := List.mem_map.mp h
    split_ifs at heq
    · exact .inr heq.symm
    · exact .inl (heq ▸ hold)
  · simpa using h

/-- The update takes the place of an earlier one for the same binding, and of nothing else. -/
theorem lastValue_put (h : Distinguished (us ++ [u])) :
    lastValue (put us u) target = if target = u.target then some u.value else lastValue us target := by
  have hsame : ∀ old ∈ us, old.updateKey = u.updateKey → old.target = u.target :=
    fun old hold hkey => h old (by simp [hold]) u (by simp) hkey
  by_cases hin : ∃ old ∈ us, old.updateKey = u.updateKey
  · rw [put_eq_of_mem hin]
    split_ifs with htgt
    · subst htgt
      obtain ⟨old, hold, hkey⟩ := hin
      refine lastValue_of_forall (List.mem_map.mpr ⟨old, hold, if_pos hkey⟩) fun v hv hvt => ?_
      obtain ⟨w, hw, rfl⟩ := List.mem_map.mp hv
      split_ifs at hvt ⊢ with hwk
      · rfl
      · refine absurd ?_ hwk
        unfold Update.target at hvt
        unfold Update.updateKey
        rw [(Prod.mk.inj hvt).1, (Prod.mk.inj hvt).2]
    · clear hin h
      induction us using List.reverseRecOn with
      | nil => rfl
      | append_singleton us v ih =>
        have hrest := ih fun old hold => hsame old (mem_append_left _ hold)
        rw [map_append, lastValue_append, lastValue_append, hrest]
        congr 1
        unfold lastValue
        rw [map_singleton, assign_singleton, assign_singleton]
        by_cases hvk : v.updateKey = u.updateKey
        · rw [if_pos hvk, if_neg htgt, if_neg]
          rw [hsame v (by simp) hvk]
          exact htgt
        · rw [if_neg hvk]
  · push Not at hin
    rw [put_eq_of_not hin, lastValue_append]
    unfold lastValue
    rw [assign_singleton]
    split_ifs <;> rfl

theorem lastValue_foldl_put (h : Distinguished (us ++ vs)) :
    lastValue (vs.foldl put us) target = (lastValue vs target).or (lastValue us target) := by
  induction vs generalizing us with
  | nil => rfl
  | cons v vs ih =>
    have hput : Distinguished (put us v ++ vs) := by
      have hmem : ∀ w, w ∈ put us v ++ vs → w ∈ us ++ v :: vs := by
        intro w hw
        rcases mem_append.mp hw with hw | hw
        · rcases mem_put hw with hw | rfl
          · simp [hw]
          · simp
        · simp [hw]
      exact fun w hw w' hw' => h w (hmem w hw) w' (hmem w' hw')
    have hfst : Distinguished (us ++ [v]) := by
      have hmem : ∀ w, w ∈ us ++ [v] → w ∈ us ++ v :: vs := by
        intro w hw
        simp only [mem_append, mem_singleton] at hw
        rcases hw with hw | rfl <;> simp [*]
      exact fun w hw w' hw' => h w (hmem w hw) w' (hmem w' hw')
    have hcons : lastValue (v :: vs) target = (lastValue vs target).or (lastValue [v] target) :=
      lastValue_append [v] vs
    rw [foldl_cons, ih hput, lastValue_put hfst, hcons]
    unfold lastValue
    rw [assign_singleton, Option.or_assoc]
    congr 1
    split_ifs <;> rfl

/-! ### The invariant -/

/-- The updates that a flush has moved out of the buffer and not applied. -/
def movedUpdates (s : State) : List Update :=
  match s.running with
  | some (_, .flushing (.moved updates) _) => updates
  | _ => []

/-- What a binding will show when everything in the buffer is applied. -/
def value (s : State) (target : Bytes × Bytes) : Option Bytes :=
  (lastValue s.updates target).or ((lastValue (movedUpdates s) target).or (s.shown target))

def isBatch : GuiTask → Bool
  | .batch _ => true
  | _ => false

def batchCount (s : State) : ℕ :=
  s.guiQueue.countP isBatch + s.guiInputQueue.countP isBatch + (s.running.toList.map (·.1)).countP isBatch

structure Inv (s : State) : Prop where
  value : ∀ target, value s target = s.called target
  pending : ∀ buffer, s.pending = some buffer → buffer.flushPosted = true ∧ FlushComes s
  batches : batchCount s = if s.app = .waiting then 1 else 0

variable {s s' : State} {task : GuiTask} {commands : List Command}

theorem updates_of_none (h : s.pending = none) : s.updates = [] := by simp [State.updates, h]

theorem updates_of_some {buffer : PendingBindingBuffer} (h : s.pending = some buffer) :
    s.updates = buffer.updates := by simp [State.updates, h]

theorem value_of_updates (h : s.updates = []) (hm : movedUpdates s = []) (target : Bytes × Bytes) :
    value s target = s.shown target := by
  unfold value
  rw [h, hm]
  rfl

theorem not_flushing (h : ∀ t p cs, s.running ≠ some (t, .flushing p cs)) : ¬ Flushing s := by
  rintro ⟨t, p, cs, hr⟩
  exact h t p cs hr

theorem FlushComes.mono (h : FlushComes s) (happ : s.app = .posting → FlushComes s')
    (hque : .flush ∈ s.guiQueue → FlushComes s') (hflush : Flushing s → FlushComes s') :
    FlushComes s' := by
  rcases h with h | h | h
  · exact happ h
  · exact hque h
  · exact hflush h

theorem Inv.inOrder (h : Inv s) : InOrder s where
  shown hs := by
    have hpend : s.pending = none := by
      rcases hp : s.pending with _ | buffer
      · rfl
      · rcases (h.pending buffer hp).2 with hc | hc | ⟨t, p, cs, hc⟩
        · exact absurd hc hs.app
        · rw [hs.guiQueue] at hc
          simp at hc
        · rw [hs.running] at hc
          cases hc
    have hmoved : movedUpdates s = [] := by
      unfold movedUpdates
      rw [hs.running]
    funext target
    rw [← h.value target, value_of_updates (updates_of_none hpend) hmoved]
  flushComes hne := by
    rcases hp : s.pending with _ | buffer
    · exact absurd (updates_of_none hp) hne
    · exact (h.pending buffer hp).2

/-! ### The app -/

variable {point : TaskPoint} {updates : List Update}

theorem Inv.enqueue (h : Inv s) (happ : s.app = .idle)
    (hok : Distinguished (s.updates ++ updates)) : Inv (s.enqueue updates) where
  value target := by
    show (lastValue (updates.foldl put s.updates) target).or
      ((lastValue (movedUpdates s) target).or (s.shown target)) = assign s.called updates target
    rw [lastValue_foldl_put hok, Option.or_assoc, assign_eq, ← h.value target]
    rfl
  pending buffer hb := by
    obtain rfl : _ = buffer := some.inj hb
    refine ⟨rfl, ?_⟩
    rcases hp : s.pending with _ | old
    · refine .inl ?_
      simp [State.enqueue, State.flushPosted, hp]
    · obtain ⟨hpost, hcomes⟩ := h.pending old hp
      have hflag : s.flushPosted = true := by simp [State.flushPosted, hp, hpost]
      refine hcomes.mono (fun ha => ?_) (fun hq => .inr (.inl hq)) fun hf => .inr (.inr hf)
      rw [happ] at ha
      cases ha
  batches := by
    have hb := h.batches
    rw [happ, if_neg (by simp)] at hb
    have hwait : (s.enqueue updates).app ≠ .waiting := by
      show (if s.flushPosted then AppPoint.idle else .posting) ≠ .waiting
      split_ifs <;> simp
    rw [if_neg hwait]
    exact hb

theorem Inv.post (h : Inv s) (happ : s.app = .posting) : Inv (s.post true) where
  value := h.value
  pending buffer hb :=
    ⟨(h.pending buffer hb).1, .inr (.inl (mem_append_right _ (mem_singleton_self _)))⟩
  batches := by
    have hb := h.batches
    rw [happ, if_neg (by simp)] at hb
    show (s.guiQueue ++ [GuiTask.flush]).countP isBatch + _ + _ = _
    rw [countP_append]
    exact hb

theorem Inv.executeBatch (h : Inv s) (happ : s.app = .idle) (commands : List Command) :
    Inv (s.executeBatch commands) where
  value := h.value
  pending buffer hb := by
    obtain ⟨hpost, hcomes⟩ := h.pending buffer hb
    refine ⟨hpost, hcomes.mono (fun ha => ?_) (fun hq => .inr (.inl hq)) fun hf => .inr (.inr hf)⟩
    rw [happ] at ha
    cases ha
  batches := by
    have hb := h.batches
    rw [happ, if_neg (by simp)] at hb
    unfold batchCount at hb
    show s.guiQueue.countP isBatch + (s.guiInputQueue ++ [GuiTask.batch commands]).countP isBatch + _ = 1
    rw [countP_append]
    change _ + (_ + 1) + (s.running.toList.map (·.1)).countP isBatch = 1
    omega

/-! ### The GUI groups -/

theorem Inv.operation (h : Inv s) (group : Group) (flushes : Bool) :
    Inv (s.setQueue (s.queue group ++ [.operation flushes]) group) := by
  cases group with
  | gui =>
    refine ⟨h.value, fun buffer hb => ?_, ?_⟩
    · obtain ⟨hpost, hcomes⟩ := h.pending buffer hb
      exact ⟨hpost, hcomes.mono .inl (fun hq => .inr (.inl (mem_append_left _ hq))) fun hf => .inr (.inr hf)⟩
    · show (s.guiQueue ++ [GuiTask.operation flushes]).countP isBatch + _ + _ = _
      rw [countP_append]
      exact h.batches
  | guiInput =>
    refine ⟨h.value, fun buffer hb => ?_, ?_⟩
    · obtain ⟨hpost, hcomes⟩ := h.pending buffer hb
      exact ⟨hpost, hcomes.mono .inl (fun hq => .inr (.inl hq)) fun hf => .inr (.inr hf)⟩
    · show _ + (s.guiInputQueue ++ [GuiTask.operation flushes]).countP isBatch + _ = _
      rw [countP_append]
      exact h.batches

theorem movedUpdates_startPoint (task : GuiTask) (s : State) :
    movedUpdates { s with running := some (task, State.startPoint task) } = [] := by
  cases task with
  | flush => rfl
  | batch => rfl
  | operation flushes => cases flushes <;> rfl

theorem movedUpdates_of_none (h : s.running = none) : movedUpdates s = [] := by
  unfold movedUpdates
  rw [h]

theorem Inv.value_of_begin (h : Inv s) (hr : s.running = none) (task : GuiTask) (target : Bytes × Bytes) :
    (lastValue s.updates target).or ((lastValue (movedUpdates
      { s with running := some (task, State.startPoint task) }) target).or (s.shown target)) = s.called target := by
  rw [movedUpdates_startPoint, ← h.value target]
  unfold BindingOrder.value
  rw [movedUpdates_of_none hr]

theorem Inv.beginTask (h : Inv s) (hr : s.running = none) {group : Group} {tasks : List GuiTask}
    (hq : s.queue group = task :: tasks) :
    Inv { s.setQueue tasks group with running := some (task, State.startPoint task) } := by
  have hnot : ¬ Flushing s := not_flushing fun t p cs => by rw [hr]; simp
  have hb := h.batches
  unfold batchCount at hb
  rw [hr] at hb
  change _ + _ + 0 = _ at hb
  cases group with
  | gui =>
    change s.guiQueue = task :: tasks at hq
    refine ⟨fun target => h.value_of_begin hr task target, fun buffer hp => ?_, ?_⟩
    · obtain ⟨hpost, hcomes⟩ := h.pending buffer hp
      refine ⟨hpost, hcomes.mono .inl (fun hmem => ?_) fun hf => absurd hf hnot⟩
      rw [hq] at hmem
      rcases mem_cons.mp hmem with rfl | hmem
      · exact .inr (.inr ⟨_, _, _, rfl⟩)
      · exact .inr (.inl hmem)
    · show tasks.countP isBatch + s.guiInputQueue.countP isBatch + [task].countP isBatch = _
      rw [hq, countP_cons] at hb
      rw [countP_singleton]
      exact (by omega : _ = _ + _ + 0).trans hb
  | guiInput =>
    change s.guiInputQueue = task :: tasks at hq
    refine ⟨fun target => h.value_of_begin hr task target, fun buffer hp => ?_, ?_⟩
    · obtain ⟨hpost, hcomes⟩ := h.pending buffer hp
      exact ⟨hpost, hcomes.mono .inl (fun hmem => .inr (.inl hmem)) fun hf => absurd hf hnot⟩
    · show s.guiQueue.countP isBatch + tasks.countP isBatch + [task].countP isBatch = _
      rw [hq, countP_cons] at hb
      rw [countP_singleton]
      exact (by omega : _ = _ + _ + 0).trans hb

theorem Inv.batches_running (h : Inv s) {point' : TaskPoint} (hr : s.running = some (task, point))
    (hr' : s'.running = some (task, point')) (hgui : s'.guiQueue = s.guiQueue)
    (hinput : s'.guiInputQueue = s.guiInputQueue) (happ : s'.app = s.app) :
    batchCount s' = if s'.app = .waiting then 1 else 0 := by
  have hb := h.batches
  unfold batchCount at hb ⊢
  rw [hr] at hb
  rw [hr', hgui, hinput, happ]
  exact hb

theorem Inv.moveUpdates (h : Inv s) (hr : s.running = some (task, .flushing .start commands)) :
    Inv (s.moveUpdates task commands) := by
  have hval := h.value
  unfold BindingOrder.value movedUpdates at hval
  rw [hr] at hval
  unfold State.moveUpdates
  split
  · next hp =>
    refine ⟨hval, fun buffer hb => ?_, h.batches_running hr rfl rfl rfl rfl⟩
    rw [hp] at hb
    cases hb
  · next buffer hp =>
    refine ⟨fun target => ?_, fun buffer' hb => ?_, h.batches_running hr rfl rfl rfl rfl⟩
    · rw [← hval target, updates_of_some hp]
      rfl
    · obtain rfl : _ = buffer' := some.inj hb
      exact ⟨(h.pending buffer hp).1, .inr (.inr ⟨_, _, _, rfl⟩)⟩

theorem Inv.applyUpdates (h : Inv s) (hr : s.running = some (task, .flushing (.moved updates) commands)) : Inv { s with
      shown := assign s.shown updates
      running := some (task, .flushing .applied commands) } := by
  have hval := h.value
  unfold BindingOrder.value movedUpdates at hval
  rw [hr] at hval
  refine ⟨fun target => ?_, fun buffer hb => ?_, h.batches_running hr rfl rfl rfl rfl⟩
  · rw [← hval target]
    show (lastValue s.updates target).or (assign s.shown updates target) = _
    rw [assign_eq]
  · exact ⟨(h.pending buffer hb).1, .inr (.inr ⟨_, _, _, rfl⟩)⟩

theorem Inv.checkUpdates (h : Inv s) (hr : s.running = some (task, .flushing .applied commands)) :
    Inv (s.checkUpdates task commands) := by
  have hval := h.value
  unfold BindingOrder.value movedUpdates at hval
  rw [hr] at hval
  unfold State.checkUpdates
  split
  · next hp =>
    refine ⟨hval, fun buffer hb => ?_, h.batches_running hr rfl rfl rfl rfl⟩
    rw [hp] at hb
    cases hb
  · next buffer hp =>
    split_ifs with hemp
    · refine ⟨fun target => ?_, fun buffer' hb => ?_, h.batches_running hr rfl rfl rfl rfl⟩
      · rw [← hval target, updates_of_some hp, hemp]
        rfl
      · cases hb
    · exact ⟨hval, fun buffer' hb => ⟨(h.pending buffer' hb).1, .inr (.inr ⟨_, _, _, rfl⟩)⟩,
        h.batches_running hr rfl rfl rfl rfl⟩

theorem FlushComes.of_executing (h : FlushComes s) (hr : s.running = some (task, .executing commands))
    (happ : s.app = .posting → FlushComes s') (hque : .flush ∈ s.guiQueue → FlushComes s') :
    FlushComes s' := by
  refine h.mono happ hque fun hf => ?_
  refine absurd hf (not_flushing fun t p cs hf => ?_)
  rw [hr] at hf
  cases hf

theorem Inv.goOn (h : Inv s) (hr : s.running = some (task, .executing commands))
    (hpoint : ∀ updates cs, point ≠ .flushing (.moved updates) cs) :
    Inv { s with running := some (task, point) } := by
  have hmoved : movedUpdates { s with running := some (task, point) } = [] := by
    unfold movedUpdates
    split
    · next updates cs heq =>
      obtain ⟨_, rfl⟩ := Prod.mk.inj (some.inj heq)
      exact absurd rfl (hpoint updates _)
    · rfl
  have hval := h.value
  unfold BindingOrder.value at hval
  refine ⟨fun target => ?_, fun buffer hb => ?_, h.batches_running hr rfl rfl rfl rfl⟩
  · have hold : movedUpdates s = [] := by
      unfold movedUpdates
      rw [hr]
    rw [← hval target, hold]
    unfold BindingOrder.value
    rw [hmoved]
    rfl
  · obtain ⟨hpost, hcomes⟩ := h.pending buffer hb
    exact ⟨hpost, hcomes.of_executing hr .inl fun hq => .inr (.inl hq)⟩

theorem Inv.setBindings (h : Inv s) (hr : s.running = some (task, .executing (.setBindings updates :: commands)))
    (hok : ∀ u ∈ updates, ∀ old ∈ s.updates, old.target ≠ u.target) :
    Inv (s.setBindings task updates commands) := by
  have hval := h.value
  unfold BindingOrder.value movedUpdates at hval
  rw [hr] at hval
  refine ⟨fun target => ?_, fun buffer hb => ?_, h.batches_running hr rfl rfl rfl rfl⟩
  · show (lastValue s.updates target).or (assign s.shown updates target) = assign s.called updates target
    rw [assign_eq, assign_eq s.called, ← hval target]
    rcases hlast : lastValue updates target with _ | v
    · rfl
    · have hnone : lastValue s.updates target = none := by
        rw [lastValue_eq_none]
        have hsome : lastValue updates target ≠ none := by rw [hlast]; simp
        rw [Ne, lastValue_eq_none] at hsome
        push Not at hsome
        obtain ⟨u, hu, rfl⟩ := hsome
        exact hok u hu
      rw [hnone]
      rfl
  · obtain ⟨hpost, hcomes⟩ := h.pending buffer hb
    exact ⟨hpost, hcomes.of_executing hr .inl fun hq => .inr (.inl hq)⟩

theorem Inv.endTask (h : Inv s) (hr : s.running = some (task, .executing [])) : Inv (s.endTask task) := by
  have hval := h.value
  unfold BindingOrder.value movedUpdates at hval
  rw [hr] at hval
  have hb := h.batches
  unfold batchCount at hb
  rw [hr] at hb
  change _ + _ + [task].countP isBatch = _ at hb
  rw [countP_singleton] at hb
  have hcomes : ∀ buffer, s.pending = some buffer → s.app = .posting ∨ .flush ∈ s.guiQueue := by
    intro buffer hp
    rcases (h.pending buffer hp).2 with hc | hc | ⟨t, p, cs, hc⟩
    · exact .inl hc
    · exact .inr hc
    · rw [hr] at hc
      cases hc
  have hoth : isBatch task = false → s.endTask task = { s with running := none } → Inv (s.endTask task) := by
    intro hnot heq
    rw [heq]
    refine ⟨hval, fun buffer hp => ⟨(h.pending buffer hp).1, ?_⟩, ?_⟩
    · rcases hcomes buffer hp with hc | hc
      · exact .inl hc
      · exact .inr (.inl hc)
    · rw [if_neg (by simp [hnot])] at hb
      exact hb
  cases task with
  | flush => exact hoth rfl rfl
  | operation => exact hoth rfl rfl
  | batch cs =>
    rw [if_pos (by rfl)] at hb
    have hwait : s.app = .waiting := by
      by_contra hne
      rw [if_neg hne] at hb
      omega
    refine ⟨hval, fun buffer hp => ⟨(h.pending buffer hp).1, ?_⟩, ?_⟩
    · rcases hcomes buffer hp with hc | hc
      · rw [hwait] at hc
        cases hc
      · exact .inr (.inl hc)
    · rw [if_pos hwait] at hb
      show s.guiQueue.countP isBatch + s.guiInputQueue.countP isBatch + 0 = 0
      omega

theorem Inv.proceed (h : Inv s) (hr : s.running = some (task, point))
    (hok : ∀ u ∈ nextBindings s, ∀ old ∈ s.updates, old.target ≠ u.target) :
    Inv (s.proceed task point) := by
  cases point with
  | flushing point commands =>
    cases point with
    | start => exact h.moveUpdates hr
    | moved updates => exact h.applyUpdates hr
    | applied => exact h.checkUpdates hr
  | executing commands =>
    cases commands with
    | nil => exact h.endTask hr
    | cons command commands =>
      cases command with
      | setBindings updates =>
        unfold nextBindings at hok
        rw [hr] at hok
        exact h.setBindings hr hok
      | scroll success => exact h.goOn hr (by simp)
      | other success => exact h.goOn hr (by simp)

/-! ### Runs -/

theorem bindings_inductive : guiBindings.Inductive NothingOvertaken Inv where
  init s hs := by
    subst hs
    exact ⟨fun _ => rfl, by simp, rfl⟩
  step s a s' h hok hst := by
    cases a with
    | enqueue updates =>
      obtain ⟨⟨happ, _⟩, rfl⟩ := of_guard hst
      exact h.enqueue happ hok
    | post posted =>
      obtain ⟨happ, rfl⟩ := of_guard hst
      cases hok
      exact h.post happ
    | executeBatch commands =>
      obtain ⟨happ, rfl⟩ := of_guard hst
      exact h.executeBatch happ commands
    | operation group flushes => exact some.inj hst ▸ h.operation group flushes
    | beginTask group =>
      simp only [guiBindings, step] at hst
      split at hst
      · next task tasks hq hr =>
        cases some.inj hst
        exact h.beginTask hr hq
      · cases hst
    | proceed =>
      simp only [guiBindings, step] at hst
      split at hst
      · next task point hr =>
        cases some.inj hst
        exact h.proceed hr hok
      · cases hst

/-- **Binding updates keep their order.** While no batch overtakes an update of the same binding, update
keys are distinct and posts succeed, each binding shows the value of the last call for it once all tasks
have run, and no update is left in the buffer without a flush. -/
theorem bindings_in_order (h : guiBindings.Reach NothingOvertaken s) : InOrder s :=
  (bindings_inductive.reach h).inOrder

/-! ### Two runs -/

def statusUpdate (value : UInt8) : Update := ⟨[47, 115], [107], [value]⟩

/-- The batch comes after the flush of the earlier update. -/
def flushedRun : List Action :=
  [.enqueue [statusUpdate 1], .post true, .beginTask .gui, .proceed, .proceed, .proceed, .proceed,
    .executeBatch [.setBindings [statusUpdate 2]], .beginTask .guiInput, .proceed, .proceed]

def overtakingRun : List Action :=
  [.enqueue [statusUpdate 1], .post true, .executeBatch [.setBindings [statusUpdate 2]],
    .beginTask .guiInput, .proceed, .proceed, .beginTask .gui, .proceed, .proceed, .proceed, .proceed]

theorem bindings_in_order_flushedRun :
    ∃ s, guiBindings.execWhen NothingOvertaken {} flushedRun = some s ∧ InOrder s := by
  obtain ⟨s, hs⟩ := isSome_iff_exists.mp
    (by decide : (guiBindings.execWhen NothingOvertaken {} flushedRun).isSome = true)
  exact ⟨s, hs, bindings_in_order (.execWhen (.init rfl) hs)⟩

/-- The older value is shown in the end. -/
theorem overtakingRun_shows_old : ∃ s, guiBindings.Reachable s ∧ ¬ InOrder s := by
  obtain ⟨s, hs⟩ := isSome_iff_exists.mp (by decide : (guiBindings.exec {} overtakingRun).isSome = true)
  have hfacts : (guiBindings.exec {} overtakingRun).map (fun s =>
      (s.app, s.guiQueue, s.guiInputQueue, s.running, s.shown ([47, 115], [107]), s.called ([47, 115], [107]))) =
      some (.idle, [], [], none, some [1], some [2]) := rfl
  rw [hs] at hfacts
  obtain ⟨happ, hgui, hinput, hrun, hshown, hcald⟩ : s.app = .idle ∧ s.guiQueue = [] ∧
      s.guiInputQueue = [] ∧ s.running = none ∧ s.shown ([47, 115], [107]) = some [1] ∧
      s.called ([47, 115], [107]) = some [2] := by simpa using hfacts
  refine ⟨s, .exec (.init rfl) hs, fun h => ?_⟩
  have heq := congrFun (h.shown ⟨by rw [happ]; simp, hgui, hinput, hrun⟩) ([47, 115], [107])
  rw [hshown, hcald] at heq
  exact absurd heq (by decide)

end Brookesia.SystemCore.BindingOrder
