import Brookesia.Transition.Machine

/-! # Worker wait slots

A worker that waits for another task of its scheduler takes a wait slot first, and
`try_acquire_worker_wait_slot` hands out at most `get_worker_count() - 1` of them, so that one worker
stays to drain the queue. The model has the worker threads of the current cycle, each at its next
access to shared data, and lets any of them move next. A successful exchange and the update of the
thread's own count are one step, since nobody else can read that count. A weak exchange may fail
without a reason.

`get_worker_count` is `threads_.size()`, and `join_all` leaves the joined threads in `threads_`.
`one_worker_left`: the slots leave a worker if `start` is only called on an empty `threads_`. -/

namespace Brookesia.TaskScheduler.WaitSlots

open Transition List Option

/-- What a worker does next. -/
inductive Pc
  | running
  /-- `try_acquire_worker_wait_slot`: `get_worker_count()`. -/
  | counting
  /-- Load `worker_wait_slot_count_`. -/
  | loading (workerCount : ℕ)
  | acquiring (workerCount waitSlotCount : ℕ)
  /-- `release_worker_wait_slot`: test the thread's own count, load `worker_wait_slot_count_`. -/
  | testing
  | releasing (waitSlotCount : ℕ)
  deriving DecidableEq

/-- A worker thread with its thread-local data. -/
structure Worker where
  pc : Pc := .running
  /-- `tls_worker_wait_slot_scheduler` is this scheduler. -/
  slotScheduler : Bool := false
  /-- `tls_worker_wait_slot_count`. -/
  slotCount : ℕ := 0
  deriving DecidableEq

structure State where
  isRunning : Bool := false
  /-- `threads_.size()`. -/
  threads : ℕ := 0
  /-- `worker_wait_slot_count_`. -/
  waitSlotCount : ℕ := 0
  workers : List Worker := []
  deriving DecidableEq

inductive Action
  /-- `start` with so many worker configurations. -/
  | start (workerConfigs : ℕ)
  /-- `stop`, once the threads are joined. -/
  | stop
  | tryAcquire (i : ℕ)
  | release (i : ℕ)
  /-- Worker `i` makes its next access; `fails` if an exchange fails though the values agree. -/
  | next (i : ℕ) (fails : Bool)
  deriving DecidableEq

/-- The next access of a worker, and `worker_wait_slot_count_` after it. -/
def Worker.next (w : Worker) (threads waitSlotCount : ℕ) (fails : Bool) : Option (Worker × ℕ) :=
  match w.pc with
  | .running => none
  | .counting =>
    if threads ≤ 1 then some ({ w with pc := .running }, waitSlotCount)
    else some ({ w with pc := .loading threads }, waitSlotCount)
  | .loading n => some ({ w with pc := .acquiring n waitSlotCount }, waitSlotCount)
  | .acquiring n c =>
    if c < n - 1 then
      if waitSlotCount = c ∧ fails = false then
        some ({ pc := .running, slotScheduler := true, slotCount := w.slotCount + 1 }, c + 1)
      else some ({ w with pc := .acquiring n waitSlotCount }, waitSlotCount)
    else some ({ w with pc := .running }, waitSlotCount)
  | .testing =>
    if w.slotScheduler = false ∨ w.slotCount = 0 then
      some ({ w with pc := .running }, waitSlotCount)
    else some ({ w with pc := .releasing waitSlotCount }, waitSlotCount)
  | .releasing c =>
    if 0 < c then
      if waitSlotCount = c ∧ fails = false then
        some ({ pc := .running, slotScheduler := w.slotCount - 1 ≠ 0, slotCount := w.slotCount - 1 }, c - 1)
      else some ({ w with pc := .releasing waitSlotCount }, waitSlotCount)
    else some ({ w with pc := .running }, waitSlotCount)

def State.calls (s : State) (i : ℕ) (pc : Pc) : Option State :=
  match s.workers[i]? with
  | none => none
  | some w =>
    if w.pc = .running then some { s with workers := s.workers.set i { w with pc := pc } } else none

def step (s : State) : Action → Option State
  | .start workerConfigs =>
    if s.isRunning then some s
    else some
      { isRunning := true
        threads := s.threads + workerConfigs
        waitSlotCount := 0
        workers := List.replicate workerConfigs {} }
  | .stop =>
    if s.isRunning then
      if ∀ w ∈ s.workers, w.pc = .running then
        some { isRunning := false, threads := s.threads, waitSlotCount := 0, workers := [] }
      else none
    else some s
  | .tryAcquire i => s.calls i .counting
  | .release i => s.calls i .testing
  | .next i fails =>
    match s.workers[i]? with
    | none => none
    | some w => (w.next s.threads s.waitSlotCount fails).map fun r =>
      { s with waitSlotCount := r.2, workers := s.workers.set i r.1 }

def slots : Machine State Action where
  init s := s = {}
  step := step

def State.holders (s : State) : ℕ := s.workers.countP (0 < ·.slotCount)

def State.held (s : State) : ℕ := (s.workers.map (·.slotCount)).sum

/-- `start` is called on an empty `threads_`, with a worker. -/
def StartsFresh (s : State) : Action → Prop
  | .start workerConfigs => s.isRunning = false → s.threads = 0 ∧ 0 < workerConfigs
  | _ => True

instance (s : State) (a : Action) : Decidable (StartsFresh s a) := by
  cases a <;> unfold StartsFresh <;> infer_instance

/-! ### Sums over the workers -/

theorem sum_set {w : Worker} (w' : Worker) : ∀ {ws : List Worker} {i : ℕ}, ws[i]? = some w →
    ((ws.set i w').map (·.slotCount)).sum + w.slotCount = (ws.map (·.slotCount)).sum + w'.slotCount
  | [], i, h => by simp at h
  | x :: ws, 0, h => by
    simp only [List.getElem?_cons_zero, some.injEq] at h
    subst h
    simp only [set_cons_zero, map_cons, sum_cons]
    omega
  | x :: ws, i + 1, h => by
    have ih := sum_set w' (show ws[i]? = some w by simpa using h)
    simp only [set_cons_succ, map_cons, sum_cons]
    omega

theorem countP_le_sum (ws : List Worker) : ws.countP (0 < ·.slotCount) ≤ (ws.map (·.slotCount)).sum := by
  induction ws with
  | nil => exact Nat.le_refl 0
  | cons w ws ih =>
    simp only [countP_cons, map_cons, sum_cons, decide_eq_true_eq]
    split <;> omega

/-! ### The invariant -/

/-- A worker whose loop compares with the size of `threads_`. -/
def WorkerOk (threads : ℕ) (w : Worker) : Prop :=
  match w.pc with
  | .loading n | .acquiring n _ => n = threads
  | .releasing _ => 0 < w.slotCount
  | _ => True

/-- In every run: the slots are those of the workers, and fewer than the threads ever created. -/
structure SlotsOk (s : State) : Prop where
  held : s.waitSlotCount = s.held
  bound : s.waitSlotCount ≤ s.threads - 1
  workers : ∀ w ∈ s.workers, WorkerOk s.threads w
  stopped : s.isRunning = false → s.workers = []

theorem next_ok {w w' : Worker} {threads c c' : ℕ} {fails : Bool} (hw : WorkerOk threads w)
    (hbound : c ≤ threads - 1) (h : w.next threads c fails = some (w', c')) :
    WorkerOk threads w' ∧ c' + w.slotCount = c + w'.slotCount ∧ c' ≤ threads - 1 := by
  unfold Worker.next at h
  unfold WorkerOk at hw
  split at h
  · cases h
  · split_ifs at h <;> cases h
    · exact ⟨trivial, rfl, hbound⟩
    · exact ⟨rfl, rfl, hbound⟩
  · next n hpc =>
    rw [hpc] at hw
    cases h
    exact ⟨hw, rfl, hbound⟩
  · next n c₀ hpc =>
    rw [hpc] at hw
    simp only at hw
    split_ifs at h with h1 h2
    · cases h
      refine ⟨trivial, ?_, ?_⟩
      · simp only; omega
      · omega
    · cases h
      exact ⟨hw, rfl, hbound⟩
    · cases h
      exact ⟨trivial, rfl, hbound⟩
  · split_ifs at h with h1 <;> cases h
    · exact ⟨trivial, rfl, hbound⟩
    · exact ⟨Nat.pos_of_ne_zero fun h0 => h1 (.inr h0), rfl, hbound⟩
  · next c₀ hpc =>
    rw [hpc] at hw
    simp only at hw
    split_ifs at h with h1 h2
    · cases h
      refine ⟨trivial, ?_, ?_⟩
      · simp only; omega
      · omega
    · cases h
      exact ⟨hw, rfl, hbound⟩
    · cases h
      exact ⟨trivial, rfl, hbound⟩

theorem SlotsOk.calls {s s' : State} (hs : SlotsOk s) {i : ℕ} {pc : Pc}
    (hpc : pc = .counting ∨ pc = .testing) (h : s.calls i pc = some s') : SlotsOk s' := by
  unfold State.calls at h
  split at h
  · cases h
  · next w hi =>
    split_ifs at h with hrun
    cases h
    have hsum := sum_set { w with pc := pc } hi
    simp only [Nat.add_right_cancel_iff] at hsum
    refine ⟨?_, hs.bound, fun w' hw' => ?_, fun hstop => ?_⟩
    · rw [State.held, hsum]; exact hs.held
    · rcases mem_or_eq_of_mem_set hw' with h | rfl
      · exact hs.workers w' h
      · rcases hpc with rfl | rfl <;> trivial
    · rw [hs.stopped hstop] at hi
      cases hi

theorem SlotsOk.step {s s' : State} {a : Action} (hs : SlotsOk s) (h : step s a = some s') : SlotsOk s' := by
  cases a with
  | start n =>
    simp only [WaitSlots.step] at h
    split_ifs at h with hrun <;> cases h
    · exact hs
    · refine ⟨?_, Nat.zero_le _, fun w hw => ?_, fun h => by cases h⟩
      · simp [State.held]
      · rw [eq_of_mem_replicate hw]; trivial
  | stop =>
    simp only [WaitSlots.step] at h
    split_ifs at h <;> cases h
    · exact ⟨rfl, Nat.zero_le _, by simp, fun _ => rfl⟩
    · exact hs
  | tryAcquire i => exact hs.calls (.inl rfl) h
  | release i => exact hs.calls (.inr rfl) h
  | next i fails =>
    simp only [WaitSlots.step] at h
    split at h
    · cases h
    · next w hi =>
      obtain ⟨⟨w', c'⟩, hnext, rfl⟩ := map_eq_some_iff.mp h
      obtain ⟨hok, hcnt, hbound⟩ :=
        next_ok (hs.workers w (mem_of_getElem? hi)) hs.bound hnext
      have hsum := sum_set w' hi
      have hheld := hs.held
      refine ⟨?_, hbound, fun v hv => ?_, fun hstop => ?_⟩
      · unfold State.held at hheld ⊢
        simp only
        omega
      · rcases mem_or_eq_of_mem_set hv with h | rfl
        · exact hs.workers v h
        · exact hok
      · rw [hs.stopped hstop] at hi
        cases hi

theorem slotsOk_inductive : slots.Inductive (fun _ _ => True) SlotsOk where
  init := by rintro s rfl; exact ⟨rfl, Nat.le_refl _, by simp, fun _ => rfl⟩
  step _ _ _ hs _ h := hs.step h

/-- The workers of a running cycle are the threads of `threads_`. -/
def Fresh (s : State) : Prop :=
  s.isRunning = true → s.threads = s.workers.length ∧ 0 < s.workers.length

theorem Fresh.step {s s' : State} {a : Action} (hf : Fresh s) (hc : StartsFresh s a)
    (h : step s a = some s') : Fresh s' := by
  have calls : ∀ {i pc}, s.calls i pc = some s' → Fresh s' := by
    intro i pc h
    unfold State.calls at h
    split at h
    · cases h
    · split_ifs at h
      cases h
      intro hrun
      rw [length_set]
      exact hf hrun
  cases a with
  | start n =>
    simp only [WaitSlots.step] at h
    split_ifs at h with hrun <;> cases h
    · exact hf
    · obtain ⟨h0, hpos⟩ := hc (by simpa using hrun)
      exact fun _ => by simpa [h0] using hpos
  | stop =>
    simp only [WaitSlots.step] at h
    split_ifs at h <;> cases h
    · intro h; cases h
    · exact hf
  | tryAcquire i => exact calls h
  | release i => exact calls h
  | next i fails =>
    simp only [WaitSlots.step] at h
    split at h
    · cases h
    · obtain ⟨r, -, rfl⟩ := map_eq_some_iff.mp h
      intro hrun
      rw [length_set]
      exact hf hrun

theorem fresh_inductive : slots.Inductive StartsFresh fun s => SlotsOk s ∧ Fresh s := by
  refine (slotsOk_inductive.mono fun _ _ _ => trivial).and ?_ fun s a s' _ hf hc h => hf.step hc h
  rintro s rfl h
  cases h

/-- **A worker is left** in the runs that start on an empty `threads_`: fewer workers than there are
hold a slot, and the shared count is the sum of the workers' own. -/
theorem one_worker_left {s : State} (h : slots.Reach StartsFresh s) :
    (s.isRunning = true → s.holders < s.workers.length) ∧ s.waitSlotCount = s.held := by
  obtain ⟨hs, hf⟩ := fresh_inductive.reach h
  refine ⟨fun hrun => ?_, hs.held⟩
  obtain ⟨hths, hpos⟩ := hf hrun
  calc s.holders ≤ s.held := countP_le_sum s.workers
    _ = s.waitSlotCount := hs.held.symm
    _ ≤ s.threads - 1 := hs.bound
    _ < s.workers.length := by omega

/-- Of two workers one takes the slot and the other one finds none. -/
def leftRun : List Action :=
  [.start 2, .tryAcquire 0, .tryAcquire 1, .next 0 false, .next 1 false, .next 0 false,
    .next 1 false, .next 0 false, .next 1 false, .next 1 false]

theorem one_worker_left_leftRun : ∃ s : State, s.holders = 1 ∧ s.workers.length = 2 ∧
    s.holders < s.workers.length ∧ s.waitSlotCount = s.held := by
  have hrun : ∃ s, slots.execWhen StartsFresh {} leftRun = some s ∧ s.isRunning = true ∧
      s.holders = 1 ∧ s.workers.length = 2 := by decide
  obtain ⟨s, hs, hrunning, h1, h2⟩ := hrun
  obtain ⟨hlt, hheld⟩ := one_worker_left (.execWhen (.init rfl) hs)
  exact ⟨s, h1, h2, hlt hrunning, hheld⟩

/-- After a stop both workers of the second cycle take a slot. -/
def drainedRun : List Action :=
  [.start 2, .stop, .start 2, .tryAcquire 0, .next 0 false, .next 0 false, .next 0 false,
    .tryAcquire 1, .next 1 false, .next 1 false, .next 1 false]

theorem drainedRun_none_left : ¬ ∀ s, slots.Reachable s →
    (s.isRunning = true → s.holders < s.workers.length) ∧ s.waitSlotCount = s.held := by
  intro h
  have hrun : ∃ s, slots.exec {} drainedRun = some s ∧ s.isRunning = true ∧ ¬ s.holders < s.workers.length := by decide
  obtain ⟨s, hs, hrunning, hlt⟩ := hrun
  exact hlt ((h s (.exec (.init rfl) hs)).1 hrunning)

end Brookesia.TaskScheduler.WaitSlots
