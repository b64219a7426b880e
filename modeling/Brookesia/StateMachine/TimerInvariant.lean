import Brookesia.StateMachine.Model

/-! # An invariant of the timers

A transition takes the ids of the current timers and cancels them before it assigns the next state.
It misses a timer whose id is not stored yet: the one that `start` is setting up on another thread,
and the one of a transition that a callback has dispatched after the ids were taken. `KeepsTimers`
leaves out these two.

* `TimersCurrent`: what is executed, and stored, belongs to the latest entry.
* `Known`: the id of a timer is stored, or some thread is about to store it or to cancel it.
* `Inv`: every timer is current and known. Below it, what becomes of it when a frame, the call of
  `start`, the stored ids or the current state change. -/

namespace Brookesia.StateMachine.Timers

open Transition Model List

/-- The timer was posted for the latest entry, and that was of the current state. -/
def Current (s : State) (t : Timer) : Prop := t.owner = s.currentState ∧ t.entry = s.entries

def Timer.isUpdate (t : Timer) : Bool := t.kind = .update

/-- A stored id is 0 or that of a current timer of its kind. -/
def StoredOk (s : State) (isUpdate : Bool) (id : TaskId) : Prop :=
  id = 0 ∨ ∃ t, s.posted id = some t ∧ Current s t ∧ Timer.isUpdate t = isUpdate

/-- A timer that is about to be executed is current, `on_update` and the timeout action alike, and
the stored ids are those of current timers. -/
structure TimersCurrent (s : State) : Prop where
  update : ∀ t, s.stack.head? = some (.update t false) → Current s t
  timeout : ∀ t, s.stack.head? = some (.timeout t false) → Current s t
  action : ∀ f t, s.stack.head? = some (.trigger f) → f.trigger.timer = some t →
    f.stage = .entered ∨ f.stage = .looking → Current s t
  timeoutTaskId : StoredOk s false s.timeoutTaskId
  updateTaskId : StoredOk s true s.updateTaskId

/-! ### The condition -/

/-- `setup_state_tasks(name)` has still to post or to store a task. -/
def pendingSetup (chart : Chart) (name : StateName) : SetupStage → Bool
  | .checking | .reading | .postingUpdate =>
    0 < ((chart.findState name).getD {}).updateInterval || ((chart.findState name).getD {}).hasTimeout
  | .postingTimeout => ((chart.findState name).getD {}).hasTimeout
  | .storingUpdate _ | .storingTimeout _ => true

/-- `start` has assigned the initial state and has still to post or to store a task of it. -/
def startPending (chart : Chart) (s : State) : Bool :=
  match s.control with
  | .starting initialState (.settingUp _ u) => pendingSetup chart initialState u
  | _ => false

/-- The action does not take the ids while `start` has still to post or store a task, and assigns a
state only while no id is stored. -/
def KeepsFrame (chart : Chart) (s : State) (f : TriggerFrame) : Prop :=
  (f.stage = .cancelling .taking → startPending chart s = false) ∧
    (f.stage = .assigning ∨ f.stage = .reassigning → s.timeoutTaskId = 0 ∧ s.updateTaskId = 0)

instance (chart : Chart) (s : State) (f : TriggerFrame) : Decidable (KeepsFrame chart s f) :=
  inferInstanceAs (Decidable (_ ∧ _))

def KeepsTimers (chart : Chart) (s : State) : Action → Prop
  | .strand _ => match s.stack with
    | .trigger f :: _ => KeepsFrame chart s f
    | _ => True
  | _ => True

instance (chart : Chart) (s : State) (a : Action) : Decidable (KeepsTimers chart s a) :=
  match a with
  | .strand _ =>
    have top : (frames : List Frame) → Decidable (match frames with
      | .trigger f :: _ => KeepsFrame chart s f
      | _ => True)
      | .trigger f :: _ => inferInstanceAs (Decidable (KeepsFrame _ _ _))
      | .update .. :: _ | .timeout .. :: _ | [] => isTrue trivial
    top s.stack
  | .start _ | .stop | .control _ | .accept _ | .post _ | .expire _ | .take | .dispatch _ => isTrue trivial

/-- The steps of the runs without `stop` that keep the timers. -/
def Unstopped (chart : Chart) (s : State) (a : Action) : Prop := a ≠ .stop ∧ KeepsTimers chart s a

instance (chart : Chart) (s : State) (a : Action) : Decidable (Unstopped chart s a) :=
  inferInstanceAs (Decidable (_ ∧ _))

/-! ### The invariant -/

/-- Before the ids are taken, or after the tasks are set up. -/
def early : Stage → Bool
  | .entered | .looking | .validating | .exiting | .cancelling .taking => true
  | .finishing | .calling | .called | .releasing => true
  | _ => false

/-- What a frame below the top does: it is in a callback of the user, or in `trigger_action`. -/
def waiting : Frame → Bool
  | .timeout _ triggered => triggered
  | frame => frame.inCallback

def storingIds : SetupStage → List TaskId
  | .storingUpdate id | .storingTimeout id => [id]
  | _ => []

def cancelIds : CancelStage → List TaskId
  | .taking => []
  | .timeout timeoutId updateId => [timeoutId, updateId]
  | .update updateId => [updateId]

/-- The ids that the top frame is about to store or to cancel. -/
def frameIds : Frame → List TaskId
  | .trigger f => match f.stage with
    | .cancelling c => cancelIds c
    | .settingUp u _ => storingIds u
    | _ => []
  | _ => []

def stackIds : List Frame → List TaskId
  | [] => []
  | frame :: _ => frameIds frame

def controlIds : Control → List TaskId
  | .starting _ (.settingUp _ u) => storingIds u
  | _ => []

/-- The id is stored, or about to be stored or cancelled. -/
def Known (s : State) (id : TaskId) : Prop :=
  id = s.timeoutTaskId ∨ id = s.updateTaskId ∨ id ∈ controlIds s.control ∨ id ∈ stackIds s.stack

def PostedOk (s : State) (isUpdate : Bool) (id : TaskId) : Prop :=
  id < s.nextTaskId ∧ ∃ t, s.posted id = some t ∧ Current s t ∧ Timer.isUpdate t = isUpdate

/-- The ids that `setup_state_tasks` has not stored yet are 0. -/
def SetupOk (s : State) : SetupStage → Prop
  | .checking | .reading | .postingUpdate => s.updateTaskId = 0 ∧ s.timeoutTaskId = 0
  | .storingUpdate id => s.updateTaskId = 0 ∧ s.timeoutTaskId = 0 ∧ PostedOk s true id
  | .postingTimeout => s.timeoutTaskId = 0
  | .storingTimeout id => s.timeoutTaskId = 0 ∧ PostedOk s false id

def TopOk (s : State) : Frame → Prop
  | .update t false | .timeout t false => Current s t
  | .trigger f =>
    (f.stage = .entered ∨ f.stage = .looking → ∀ t, f.trigger.timer = some t → Current s t) ∧
      ∀ u ok, f.stage = .settingUp u ok → f.target ok = s.currentState ∧ f.entry = s.entries ∧ SetupOk s u
  | _ => True

/-- The call of `start` or `stop`. -/
def ControlOk (chart : Chart) (s : State) : Control → Prop
  | .idle | .starting _ .checking => True
  | .starting _ .locking | .stopping _ => s.entries = 0
  | .starting _ (.cancelling _) | .starting _ .finding => s.entries = 0 ∧ s.isRunning = true
  | .starting initialState .entering | .starting initialState .assigning =>
    s.entries = 0 ∧ s.isRunning = true ∧ (chart.findState initialState).isSome = true
  | .starting initialState (.settingUp entry u) =>
    s.entries ≠ 0 ∧ (chart.findState initialState).isSome = true ∧ (pendingSetup chart initialState u = true →
        initialState = s.currentState ∧ entry = s.entries ∧ SetupOk s u)

def UnenteredFrame : Frame → Prop
  | .trigger f => f.trigger.timer = none ∧
    (f.stage = .entered ∨ f.stage = .looking ∨ f.stage = .releasing)
  | _ => False

def Unentered (s : State) : Prop :=
  s.currentState = "" ∧ s.tasks = [] ∧ s.timeoutTaskId = 0 ∧ s.updateTaskId = 0 ∧
    ∀ frame ∈ s.stack, UnenteredFrame frame

/-- `extra` are ids that are known for another reason, in the middle of a step. -/
structure Inv (chart : Chart) (extra : List TaskId) (s : State) : Prop where
  armed : ∀ t ∈ s.armed, t ∈ s.tasks
  queue : ∀ t, .timer t ∈ s.queue → t ∈ s.tasks
  plain : ∀ t, t ∈ s.posting ∨ .trigger t ∈ s.queue → t.timer = none
  tail : ∀ frame ∈ s.stack.tail, waiting frame = true
  tasks : ∀ t ∈ s.tasks, t.id ≠ 0 ∧ Current s t ∧ (t.id ∈ extra ∨ Known s t.id)
  timeoutId : s.timeoutTaskId ≠ 0 → PostedOk s false s.timeoutTaskId
  updateId : s.updateTaskId ≠ 0 → PostedOk s true s.updateTaskId
  top : ∀ frame ∈ s.stack.head?, TopOk s frame
  control : ControlOk chart s s.control
  running : s.entries ≠ 0 → s.isRunning = true
  pending : startPending chart s = true → ∀ f, .trigger f ∈ s.stack → early f.stage = true
  unentered : s.entries = 0 → Unentered s
  fresh : s.nextTaskId ≠ 0

section Unentered
variable {s : State} (h : Unentered s)
include h

theorem Unentered.currentState : s.currentState = "" := h.1

theorem Unentered.tasks : s.tasks = [] := h.2.1

theorem Unentered.timeoutTaskId : s.timeoutTaskId = 0 := h.2.2.1

theorem Unentered.updateTaskId : s.updateTaskId = 0 := h.2.2.2.1

theorem Unentered.stack : ∀ frame ∈ s.stack, UnenteredFrame frame := h.2.2.2.2

end Unentered

/-! ### Frames -/

variable {chart : Chart} {extra : List TaskId} {frame : Frame} {s s' : State}

theorem waiting_of_inCallback (h : frame.inCallback = true) : waiting frame = true := by
  cases frame with
  | timeout => cases h
  | _ => exact h

def quiet : Stage → Bool
  | .entered | .looking | .settingUp _ _ => false
  | _ => true

theorem topOk_of_quiet {f : TriggerFrame} (h : quiet f.stage = true) : TopOk s (.trigger f) := by
  refine ⟨fun hs => ?_, fun u ok hs => ?_⟩
  · rcases hs with hs | hs <;> rw [hs] at h <;> cases h
  · rw [hs] at h; cases h

theorem topOk_of_unentered (h : UnenteredFrame frame) : TopOk s frame := by
  cases frame with
  | trigger f =>
    refine ⟨fun _ t ht => ?_, fun u ok hs => ?_⟩
    · rw [h.1] at ht; cases ht
    · rcases h.2 with h | h | h <;> rw [h] at hs <;> cases hs
  | update t running => cases h
  | timeout t triggered => cases h

theorem topOk_of_waiting (h : waiting frame = true) : TopOk s frame := by
  cases frame with
  | trigger f =>
    simp only [waiting, Frame.inCallback, Bool.or_eq_true, decide_eq_true_eq] at h
    refine topOk_of_quiet ?_
    rcases h with ((h | h) | h) | h <;> rw [h] <;> rfl
  | update t running => cases h; trivial
  | timeout t triggered => cases h; trivial

theorem frameIds_of_waiting (h : waiting frame = true) : frameIds frame = [] := by
  cases frame with
  | trigger f =>
    simp only [waiting, Frame.inCallback, Bool.or_eq_true, decide_eq_true_eq] at h
    rcases h with ((h | h) | h) | h <;> simp [frameIds, h]
  | _ => rfl

theorem SetupOk.congr {u : SetupStage} (h : SetupOk s u) (hu : s.updateTaskId = 0 → s'.updateTaskId = 0)
    (ht : s.timeoutTaskId = 0 → s'.timeoutTaskId = 0)
    (hp : ∀ b id, PostedOk s b id → PostedOk s' b id) : SetupOk s' u := by
  cases u with
  | storingUpdate id => exact ⟨hu h.1, ht h.2.1, hp _ _ h.2.2⟩
  | storingTimeout id => exact ⟨ht h.1, hp _ _ h.2⟩
  | postingTimeout => exact ht h
  | _ => exact ⟨hu h.1, ht h.2⟩

theorem TopOk.congr (h : TopOk s frame) (hstate : s'.currentState = s.currentState) (hents : s'.entries = s.entries)
    (hsetup : ∀ u, SetupOk s u → SetupOk s' u) : TopOk s' frame := by
  have hcur : ∀ t, Current s t → Current s' t := fun t ht => by
    rwa [Current, hstate, hents]
  cases frame with
  | trigger f =>
    refine ⟨fun hs t ht => hcur t (h.1 hs t ht), fun u ok hs => ?_⟩
    obtain ⟨h1, h2, h3⟩ := h.2 u ok hs
    exact ⟨h1.trans hstate.symm, h2.trans hents.symm, hsetup u h3⟩
  | update t running => cases running <;> first | exact hcur t h | trivial
  | timeout t triggered => cases triggered <;> first | exact hcur t h | trivial

theorem TopOk.congr_of_early (h : TopOk s frame)
    (hstate : s'.currentState = s.currentState) (hents : s'.entries = s.entries)
    (hearly : ∀ f, frame = .trigger f → early f.stage = true) : TopOk s' frame := by
  have hcur : ∀ t, Current s t → Current s' t := fun t ht => by
    rwa [Current, hstate, hents]
  cases frame with
  | trigger f =>
    refine ⟨fun hs t ht => hcur t (h.1 hs t ht), fun u ok hs => ?_⟩
    have := hearly f rfl
    rw [hs] at this
    cases this
  | update t running => cases running <;> first | exact hcur t h | trivial
  | timeout t triggered => cases triggered <;> first | exact hcur t h | trivial

theorem ControlOk.congr {control : Control} (h : ControlOk chart s control) (hstate : s'.currentState = s.currentState)
    (hents : s'.entries = s.entries) (hrun : s'.isRunning = s.isRunning)
    (hsetup : ∀ u, SetupOk s u → SetupOk s' u) : ControlOk chart s' control := by
  cases control with
  | idle => trivial
  | stopping stage => exact hents.trans h
  | starting initialState stage =>
    cases stage with
    | checking => trivial
    | locking => exact hents.trans h
    | cancelling c => exact ⟨hents.trans h.1, hrun.trans h.2⟩
    | finding => exact ⟨hents.trans h.1, hrun.trans h.2⟩
    | entering => exact ⟨hents.trans h.1, hrun.trans h.2.1, h.2.2⟩
    | assigning => exact ⟨hents.trans h.1, hrun.trans h.2.1, h.2.2⟩
    | settingUp entry u =>
      refine ⟨hents ▸ h.1, h.2.1, fun hp => ?_⟩
      obtain ⟨h1, h2, h3⟩ := h.2.2 hp
      exact ⟨h1.trans hstate.symm, h2.trans hents.symm, hsetup u h3⟩

theorem controlIds_of_not_pending (h : startPending chart s = false) : controlIds s.control = [] := by
  unfold startPending at h
  unfold controlIds
  split <;> rename_i hc
  · rw [hc] at h
    simp only at h
    rename_i u
    cases u <;> first | rfl | cases h
  · rfl

/-! ### Parts of a step -/

/-- What a step of `setup_state_tasks` does while the machine runs. -/
inductive SetupEffect (chart : Chart) (s : State) (name : StateName) (entry : ℕ) :
    SetupStage → State × SetupNext → Prop
  | goes {u u' : SetupStage} (hids : storingIds u = []) (hids' : storingIds u' = [])
      (hok : SetupOk s u → SetupOk s u')
      (hpend : pendingSetup chart name u' = true → pendingSetup chart name u = true) :
      SetupEffect chart s name entry u (s, .goes u')
  | returns {u : SetupStage} {ready : Bool} (hids : storingIds u = [])
      (hready : (chart.findState name).isSome = true → ready = true) :
      SetupEffect chart s name entry u (s, .returns ready)
  | postUpdate (hpend : pendingSetup chart name .postingUpdate = true) :
      SetupEffect chart s name entry .postingUpdate
        (s.postTimer .update name entry, .goes (.storingUpdate s.nextTaskId))
  | storeUpdate {id : TaskId} : SetupEffect chart s name entry (.storingUpdate id)
      ({ s with updateTaskId := id }, .goes .postingTimeout)
  | postTimeout {action : ActionName} (hpend : pendingSetup chart name .postingTimeout = true) :
      SetupEffect chart s name entry .postingTimeout
        (s.postTimer (.timeout action) name entry, .goes (.storingTimeout s.nextTaskId))
  | storeTimeout {id : TaskId} : SetupEffect chart s name entry (.storingTimeout id)
      ({ s with timeoutTaskId := id }, .returns true)

theorem setupStep_effect (chart : Chart) (hrun : s.isRunning = true) (name : StateName) (entry : ℕ) (u : SetupStage) :
    SetupEffect chart s name entry u (setupStep chart s name entry u) := by
  cases u with
  | checking =>
    rw [setupStep, hrun]
    exact .goes rfl rfl id id
  | reading =>
    rw [setupStep, hrun, Bool.true_and]
    split
    · exact .goes rfl rfl id id
    · next h => exact .returns rfl fun h' => absurd h' h
  | postingUpdate =>
    rw [setupStep]
    cases hfind : chart.findState name with
    | none => exact .returns rfl fun h => by rw [hfind] at h; cases h
    | some state =>
      by_cases hint : 0 < state.updateInterval
      · simp only [if_pos hint]
        exact .postUpdate (by simp [pendingSetup, hfind, hint])
      · simp only [if_neg hint]
        exact .goes rfl rfl And.right fun h => by
          simp only [pendingSetup, Bool.or_eq_true] at h ⊢
          exact .inr h
  | storingUpdate id => exact .storeUpdate
  | postingTimeout =>
    rw [setupStep]
    cases hfind : chart.findState name with
    | none => exact .returns rfl fun h => by rw [hfind] at h; cases h
    | some state =>
      by_cases htmo : state.hasTimeout = true
      · simp only [if_pos htmo]
        exact .postTimeout (by simp [pendingSetup, hfind, htmo])
      · simp only [if_neg htmo]
        exact .returns rfl fun _ => rfl
  | storingTimeout id => exact .storeTimeout

section Inv
variable {chart : Chart} {extra : List TaskId} {s : State} (hi : Inv chart extra s)
include hi

theorem Inv.setTop {frame frame' : Frame} {rest : List Frame} (hstk : s.stack = frame :: rest) (htop : TopOk s frame')
    {extra' : List TaskId} (hknown : ∀ t ∈ s.tasks, t.id ∈ extra ∨ t.id ∈ frameIds frame →
      t.id ∈ extra' ∨ t.id ∈ frameIds frame' ∨ t.id = s.timeoutTaskId ∨ t.id = s.updateTaskId)
    (hearly : startPending chart s = true → ∀ f, frame' = .trigger f → early f.stage = true)
    (hun : s.entries = 0 → UnenteredFrame frame') :
    Inv chart extra' { s with stack := frame' :: rest } := by
  have htail := hi.tail
  rw [hstk] at htail
  refine { hi with
    tail := htail
    tasks := fun t ht => ?_
    top := fun _ h => by cases h; exact htop
    pending := fun hp f hf => ?_
    unentered := fun h0 => ?_ }
  · obtain ⟨h0, hcur, hk⟩ := hi.tasks t ht
    refine ⟨h0, hcur, ?_⟩
    have : t.id ∈ extra ∨ t.id ∈ frameIds frame → t.id ∈ extra' ∨ Known { s with stack := frame' :: rest } t.id := by
      intro h
      rcases hknown t ht h with h | h | h | h
      · exact .inl h
      · exact .inr (.inr (.inr (.inr h)))
      · exact .inr (.inl h)
      · exact .inr (.inr (.inl h))
    rcases hk with h | h | h | h | h
    · exact this (.inl h)
    · exact .inr (.inl h)
    · exact .inr (.inr (.inl h))
    · exact .inr (.inr (.inr (.inl h)))
    · rw [hstk] at h; exact this (.inr h)
  · rcases mem_cons.mp hf with h | h
    · exact hearly hp f h.symm
    · exact hi.pending hp f (by rw [hstk]; exact mem_cons_of_mem _ h)
  · have hu := hi.unentered h0
    refine ⟨hu.currentState, hu.tasks, hu.timeoutTaskId, hu.updateTaskId, fun g hg => ?_⟩
    rcases mem_cons.mp hg with rfl | h
    · exact hun h0
    · exact hu.stack g (by rw [hstk]; exact mem_cons_of_mem _ h)

theorem Inv.pop {frame : Frame} {rest : List Frame} (hstk : s.stack = frame :: rest)
    (hknown : ∀ t ∈ s.tasks, t.id ∈ extra ∨ t.id ∈ frameIds frame → t.id = s.timeoutTaskId ∨ t.id = s.updateTaskId) :
    Inv chart [] { s with stack := rest } := by
  have htail := hi.tail
  rw [hstk] at htail
  refine { hi with
    tail := fun g hg => htail g (mem_of_mem_tail hg)
    tasks := fun t ht => ?_
    top := fun g hg => topOk_of_waiting (htail g (mem_of_mem_head? hg))
    pending := fun hp f hf => hi.pending hp f (by rw [hstk]; exact mem_cons_of_mem _ hf)
    unentered := fun h0 => ?_ }
  · obtain ⟨h0, hcur, hk⟩ := hi.tasks t ht
    refine ⟨h0, hcur, .inr ?_⟩
    have : t.id ∈ extra ∨ t.id ∈ frameIds frame → Known { s with stack := rest } t.id := by
      intro h
      rcases hknown t ht h with h | h
      · exact .inl h
      · exact .inr (.inl h)
    rcases hk with h | h | h | h | h
    · exact this (.inl h)
    · exact .inl h
    · exact .inr (.inl h)
    · exact .inr (.inr (.inl h))
    · rw [hstk] at h; exact this (.inr h)
  · have hu := hi.unentered h0
    exact ⟨hu.currentState, hu.tasks, hu.timeoutTaskId, hu.updateTaskId, fun g hg =>
      hu.stack g (by rw [hstk]; exact mem_cons_of_mem _ hg)⟩

theorem Inv.cancel (id : TaskId) : Inv chart extra (s.cancel id) := by
  have hmem : ∀ t : Timer, t ∈ (s.cancel id).tasks ↔ t ∈ s.tasks ∧ t.id ≠ id := by
    simp [State.cancel]
  refine { hi with
    armed := fun t ht => ?_
    queue := fun t ht => ?_
    plain := fun t ht => hi.plain t (ht.imp_right fun h => mem_of_mem_filter h)
    tasks := fun t ht => hi.tasks t ((hmem t).mp ht).1
    unentered := fun h0 => ?_ }
  · obtain ⟨h1, h2⟩ := mem_filter.mp ht
    exact (hmem t).mpr ⟨hi.armed t h1, by simpa using h2⟩
  · obtain ⟨h1, h2⟩ := mem_filter.mp ht
    exact (hmem t).mpr ⟨hi.queue t h1, by simpa using h2⟩
  · have hu := hi.unentered h0
    exact ⟨hu.currentState, by simp [State.cancel, hu.tasks], hu.timeoutTaskId, hu.updateTaskId, hu.stack⟩

theorem Inv.cancelOne (id : TaskId) : ∃ s', (if id = 0 then s else s.cancel id) = s' ∧
    Inv chart extra s' ∧ (∀ t ∈ s'.tasks, t.id ≠ id) ∧ s'.stack = s.stack ∧
      s'.entries = s.entries ∧ startPending chart s' = startPending chart s := by
  split
  · next h0 => exact ⟨s, rfl, hi, fun t ht => h0 ▸ (hi.tasks t ht).1, rfl, rfl, rfl⟩
  · refine ⟨_, rfl, hi.cancel id, fun t ht => ?_, rfl, rfl, rfl⟩
    simpa using (mem_filter.mp ht).2

theorem Inv.push (hwait : ∀ g ∈ s.stack.head?, waiting g = true) (frame : Frame) (htop : TopOk s frame)
    (hearly : startPending chart s = true → ∀ f, frame = .trigger f → early f.stage = true)
    (hun : s.entries = 0 → UnenteredFrame frame) :
    Inv chart extra { s with stack := frame :: s.stack } := by
  have hids : stackIds s.stack = [] := by
    cases hs : s.stack with
    | nil => rfl
    | cons g rest => exact frameIds_of_waiting (hwait g (by simp [hs]))
  refine { hi with
    tail := fun g hg => ?_
    tasks := fun t ht => ?_
    top := fun _ h => by cases h; exact htop
    pending := fun hp f hf => ?_
    unentered := fun h0 => ?_ }
  · cases hs : s.stack with
    | nil => simp [hs] at hg
    | cons g' rest =>
      rw [tail_cons, hs] at hg
      rcases mem_cons.mp hg with rfl | hg
      · exact hwait g (by simp [hs])
      · exact hi.tail g (by rw [hs]; exact hg)
  · obtain ⟨h0, hcur, hk⟩ := hi.tasks t ht
    refine ⟨h0, hcur, hk.imp_right ?_⟩
    rintro (h | h | h | h)
    · exact .inl h
    · exact .inr (.inl h)
    · exact .inr (.inr (.inl h))
    · rw [hids] at h; cases h
  · rcases mem_cons.mp hf with h | h
    · exact hearly hp f h.symm
    · exact hi.pending hp f h
  · have hu := hi.unentered h0
    refine ⟨hu.currentState, hu.tasks, hu.timeoutTaskId, hu.updateTaskId, fun g hg => ?_⟩
    rcases mem_cons.mp hg with rfl | h
    · exact hun h0
    · exact hu.stack g h

theorem Inv.setControl (control : Control) (hok : ControlOk chart s control)
    {e : List TaskId} (hknown : ∀ t ∈ s.tasks, t.id ∈ extra ∨ t.id ∈ controlIds s.control →
      t.id ∈ e ∨ t.id ∈ controlIds control ∨ t.id = s.timeoutTaskId ∨ t.id = s.updateTaskId)
    (hpend : startPending chart { s with control := control } = true → startPending chart s = true) :
    Inv chart e { s with control := control } := by
  refine { hi with
    control := hok.congr rfl rfl rfl fun _ h => h
    tasks := fun t ht => ?_
    pending := fun hp => hi.pending (hpend hp) }
  · obtain ⟨h0, hcur, hk⟩ := hi.tasks t ht
    refine ⟨h0, hcur, ?_⟩
    have : t.id ∈ extra ∨ t.id ∈ controlIds s.control → t.id ∈ e ∨ Known { s with control := control } t.id := by
      intro h
      rcases hknown t ht h with h | h | h | h
      · exact .inl h
      · exact .inr (.inr (.inr (.inl h)))
      · exact .inr (.inl h)
      · exact .inr (.inr (.inl h))
    rcases hk with h | h | h | h | h
    · exact this (.inl h)
    · exact .inr (.inl h)
    · exact .inr (.inr (.inl h))
    · exact this (.inr h)
    · exact .inr (.inr (.inr (.inr h)))

end Inv

theorem Inv.takeIds (hi : Inv chart [] s) : Inv chart [s.timeoutTaskId, s.updateTaskId]
      { s with timeoutTaskId := 0, updateTaskId := 0 } := by
  have hsetup : ∀ u, SetupOk s u → SetupOk { s with timeoutTaskId := 0, updateTaskId := 0 } u :=
    fun u h => h.congr (fun _ => rfl) (fun _ => rfl) fun _ _ hp => hp
  refine { hi with
    tasks := fun t ht => ?_
    timeoutId := fun h => absurd rfl h
    updateId := fun h => absurd rfl h
    top := fun g hg => (hi.top g hg).congr rfl rfl hsetup
    control := hi.control.congr rfl rfl rfl hsetup
    unentered := fun h0 => ?_ }
  · obtain ⟨h0, hcur, hk⟩ := hi.tasks t ht
    refine ⟨h0, hcur, ?_⟩
    rcases hk with h | h | h | h | h
    · cases h
    · exact .inl (by simp [h])
    · exact .inl (by simp [h])
    · exact .inr (.inr (.inr (.inl h)))
    · exact .inr (.inr (.inr (.inr h)))
  · have hu := hi.unentered h0
    exact ⟨hu.currentState, hu.tasks, rfl, rfl, hu.stack⟩

theorem Inv.postTimer (hi : Inv chart [] s) (h0 : s.entries ≠ 0)
    (kind : TimerKind) {name : StateName} {entry : ℕ} (hname : name = s.currentState)
    (hent : entry = s.entries) : Inv chart [s.nextTaskId] (s.postTimer kind name entry) ∧
      PostedOk (s.postTimer kind name entry) (kind = .update) s.nextTaskId := by
  subst hname hent
  have hpost : ∀ b id, PostedOk s b id → PostedOk (s.postTimer kind s.currentState s.entries) b id := by
    rintro b id ⟨hlt, t, ht, hcur, hb⟩
    refine ⟨Nat.lt_succ_of_lt hlt, t, ?_, hcur, hb⟩
    simpa [State.postTimer, Function.update_of_ne (Nat.ne_of_lt hlt)] using ht
  have hsetup : ∀ u, SetupOk s u → SetupOk (s.postTimer kind s.currentState s.entries) u :=
    fun u h => h.congr id id hpost
  constructor
  · refine { hi with
      armed := fun t ht => ?_
      queue := fun t ht => mem_append_left _ (hi.queue t ht)
      tasks := fun t ht => ?_
      timeoutId := fun h => hpost _ _ (hi.timeoutId h)
      updateId := fun h => hpost _ _ (hi.updateId h)
      top := fun g hg => (hi.top g hg).congr rfl rfl hsetup
      control := hi.control.congr rfl rfl rfl hsetup
      unentered := fun h => absurd h h0
      fresh := Nat.succ_ne_zero _ }
    · rcases mem_append.mp ht with h | h
      · exact mem_append_left _ (hi.armed t h)
      · exact mem_append_right _ h
    · rcases mem_append.mp ht with h | h
      · obtain ⟨h1, h2, h3⟩ := hi.tasks t h
        exact ⟨h1, h2, h3.imp_left fun h => by cases h⟩
      · rw [mem_singleton.mp h]
        exact ⟨hi.fresh, ⟨rfl, rfl⟩, .inl (by simp)⟩
  · exact ⟨Nat.lt_succ_self _, _, by simp [State.postTimer]; rfl, ⟨rfl, rfl⟩, rfl⟩

section store
variable {chart : Chart} {s : State} {id : TaskId} (hi : Inv chart [id] s)
include hi

theorem Inv.storeUpdate (h0 : s.updateTaskId = 0) (hp : PostedOk s true id)
    (htop : ∀ frame ∈ s.stack.head?, TopOk { s with updateTaskId := id } frame)
    (hctl : ControlOk chart { s with updateTaskId := id } s.control) (hentd : s.entries ≠ 0) :
    Inv chart [] { s with updateTaskId := id } := by
  refine { hi with
    tasks := fun t ht => ?_
    updateId := fun _ => hp
    top := htop
    control := hctl
    unentered := fun h => absurd h hentd }
  obtain ⟨h1, hcur, hk⟩ := hi.tasks t ht
  refine ⟨h1, hcur, .inr ?_⟩
  rcases hk with h | h | h | h | h
  · exact .inr (.inl (mem_singleton.mp h))
  · exact .inl h
  · exact absurd (h.trans h0) h1
  · exact .inr (.inr (.inl h))
  · exact .inr (.inr (.inr h))

theorem Inv.storeTimeout (h0 : s.timeoutTaskId = 0) (hp : PostedOk s false id)
    (htop : ∀ frame ∈ s.stack.head?, TopOk { s with timeoutTaskId := id } frame)
    (hctl : ControlOk chart { s with timeoutTaskId := id } s.control) (hentd : s.entries ≠ 0) :
    Inv chart [] { s with timeoutTaskId := id } := by
  refine { hi with
    tasks := fun t ht => ?_
    timeoutId := fun _ => hp
    top := htop
    control := hctl
    unentered := fun h => absurd h hentd }
  obtain ⟨h1, hcur, hk⟩ := hi.tasks t ht
  refine ⟨h1, hcur, .inr ?_⟩
  rcases hk with h | h | h | h | h
  · exact .inl (mem_singleton.mp h)
  · exact absurd (h.trans h0) h1
  · exact .inr (.inl h)
  · exact .inr (.inr (.inl h))
  · exact .inr (.inr (.inr h))

end store

theorem Inv.assign (hi : Inv chart [] s) {name : StateName} (control : Control) (htks : s.tasks = [])
    (hids : s.timeoutTaskId = 0 ∧ s.updateTaskId = 0) (hrun : s.isRunning = true)
    (htop : ∀ frame ∈ s.stack.head?, TopOk (s.assign name) frame)
    (hctl : ControlOk chart (s.assign name) control)
    (hpend : startPending chart { s with control := control } = true →
      ∀ f, .trigger f ∈ s.stack → early f.stage = true) :
    Inv chart [] { s.assign name with control := control } := by
  refine { hi with
    tasks := fun t ht => ?_
    timeoutId := fun h => absurd hids.1 h
    updateId := fun h => absurd hids.2 h
    top := fun g hg => (htop g hg).congr rfl rfl fun _ h => h
    control := hctl.congr rfl rfl rfl fun _ h => h
    running := fun _ => hrun
    pending := hpend
    unentered := fun h => absurd h (Nat.succ_ne_zero _) }
  change t ∈ s.tasks at ht
  rw [htks] at ht
  cases ht

theorem Inv.rearm (hi : Inv chart extra s)
    {t : Timer} (ht : t ∈ s.tasks) : Inv chart extra { s with armed := s.armed ++ [t] } :=
  { hi with
    armed := fun t' ht' => by
      rcases mem_append.mp ht' with h | h
      · exact hi.armed t' h
      · rwa [mem_singleton.mp h] }

theorem Inv.count (hi : Inv chart extra s) (n : ℕ) : Inv chart extra { s with transitionCount := n } :=
  { hi with }

theorem noteLeak_setStack (s : State) (t : Trigger) (stack : List Frame) :
    { s.noteLeak t with stack := stack } = { s with stack := stack }.noteLeak t := by
  unfold State.noteLeak; split <;> rfl

theorem Inv.noteLeak (hi : Inv chart extra s) (t : Trigger) : Inv chart extra (s.noteLeak t) := by
  unfold State.noteLeak
  split
  · exact hi
  · exact { hi with }

end Brookesia.StateMachine.Timers
