import Brookesia.Hal.References

/-! # Devices live as long as their handles

What holds between the calls of the host, over all runs: whatever `probe`, `on_init`, the callbacks and
the casts answer, and whatever the scripts of the devices do. -/

namespace Brookesia.Hal

open Transition List

/-- `device` has been initialised and not deinitialised since. -/
def active (device : Device) : List Event → Bool
  | [] => false
  | .initialized d :: history => d == device || active device history
  | .deinitialized d :: history => d != device && active device history
  | _ :: history => active device history

/-- How often the global pre-init callback has run since the number of initialised devices was last 0. -/
def preInits : List Event → Nat
  | [] => 0
  | .preInit :: history => preInits history + 1
  | .countBecomesZero :: _ => 0
  | _ :: history => preInits history

/-- What the runs are to keep. -/
structure DevicesLive (c : Config) (s : State) : Prop where
  counts : s.calls = [] → ∀ d, s.referenceCount d = handleCount s.handles s.nextHandle d
  alive : s.calls = [] → ∀ handle held, s.handles handle = some held →
    s.isInitialized held.device = true ∧ s.interfaces held.device held.instanceName = some held.interface
  /-- `on_init` and `on_deinit` alternate. -/
  initialized : ∀ d before, (.initialized d :: before) <:+ s.history → active d before = false
  deinitialized : ∀ d before, (.deinitialized d :: before) <:+ s.history → active d before = true
  count : s.calls = [] → s.initializedDeviceCount = (List.range c.devices.length).countP s.isInitialized
  /-- The global pre-init callback runs once before the number changes from 0. -/
  preInit : c.preInitCallback = true → ∀ before, (.countLeavesZero :: before) <:+ s.history → preInits before = 1
  /-- The global post-deinit callback runs after the number has changed to 0, and only then. -/
  postDeinit : c.postDeinitCallback = true → ∀ before, (.countBecomesZero :: before) <:+ s.history →
    (.postDeinit :: .countBecomesZero :: before) <:+ s.history
  postDeinit_only : ∀ before, (.postDeinit :: before) <:+ s.history → ∃ before', before = .countBecomesZero :: before'

/-! ### Conditions -/

/-- `on_init` of `device` may succeed: no acquisition from inside has left the device initialised, and
where no device is, the global pre-init callback has run. -/
def mayInit (c : Config) (s : State) (device : Device) : Prop :=
  s.isInitialized device = false ∧ (c.preInitCallback = true → s.initializedDeviceCount = 0 → preInits s.history ≠ 0)

/-- `device` may be acquired: it is not in its `on_deinit`, and the global pre-init callback is not run
a second time while no device is initialised. -/
def mayAcquire (c : Config) (s : State) (device : Device) : Prop :=
  .onDeinit device ∉ s.calls ∧ (runsPreInit c s device = true → preInits s.history = 0)

instance (c : Config) (s : State) (device : Device) : Decidable (mayInit c s device) :=
  inferInstanceAs (Decidable (_ ∧ _))

instance (c : Config) (s : State) (device : Device) : Decidable (mayAcquire c s device) :=
  inferInstanceAs (Decidable (_ ∧ _))

def returnsWell (c : Config) (s : State) (ok : Bool) : Frame → Prop
  | .onInit device _ _ => ok = true → mayInit c s device
  | .onDeinit _ | .acquiring _ | .casting _ | .moving _ _ => True

/-- Nothing is published over an interface of a device that is initialised. -/
def publishesNew (s : State) (name : String) : Frame → Prop
  | .onInit device _ _ => s.isInitialized device = false ∨ s.interfaces device name = none
  | .onDeinit _ | .acquiring _ | .casting _ | .moving _ _ => True

/-- No script has filled the handle that is being assigned. -/
def advancesWell (c : Config) (s : State) (env : Env) : Frame → Prop
  | .acquiring loop => ∀ candidate ∈ loop.candidates.head?, env.probe = true → mayAcquire c s candidate.1
  | .moving handle _ => s.handles handle = none
  | .onInit _ _ _ | .onDeinit _ | .casting _ => True

instance (c : Config) (s : State) (ok : Bool) : DecidablePred (returnsWell c s ok)
  | .onInit _ _ _ => inferInstanceAs (Decidable (_ → _))
  | .onDeinit _ => isTrue trivial
  | .acquiring _ => isTrue trivial
  | .casting _ => isTrue trivial
  | .moving _ _ => isTrue trivial

instance (s : State) (name : String) : DecidablePred (publishesNew s name)
  | .onInit _ _ _ => inferInstanceAs (Decidable (_ ∨ _))
  | .onDeinit _ => isTrue trivial
  | .acquiring _ => isTrue trivial
  | .casting _ => isTrue trivial
  | .moving _ _ => isTrue trivial

instance (c : Config) (s : State) (env : Env) : DecidablePred (advancesWell c s env)
  | .acquiring _ => inferInstanceAs (Decidable (∀ _ ∈ _, _))
  | .moving _ _ => inferInstanceAs (Decidable (_ = _))
  | .onInit _ _ _ => isTrue trivial
  | .onDeinit _ => isTrue trivial
  | .casting _ => isTrue trivial

def Condition (c : Config) (s : State) : Label → Prop
  | .returns ok => ∀ f ∈ s.calls.head?, returnsWell c s ok f
  | .publishInterface name _ => ∀ f ∈ s.calls.head?, publishesNew s name f
  | .advance env => ∀ f ∈ s.calls.head?, advancesWell c s env f
  | .acquireInterface _ _ | .acquireFirstInterface _ | .acquireInterfaces _ | .declare | .reset _ | .moveAssign _ _ => True

instance (c : Config) (s : State) (label : Label) : Decidable (Condition c s label) :=
  match label with
  | .returns _ => inferInstanceAs (Decidable (∀ _ ∈ _, _))
  | .publishInterface _ _ => inferInstanceAs (Decidable (∀ _ ∈ _, _))
  | .advance _ => inferInstanceAs (Decidable (∀ _ ∈ _, _))
  | .acquireInterface _ _ => isTrue trivial
  | .acquireFirstInterface _ => isTrue trivial
  | .acquireInterfaces _ => isTrue trivial
  | .declare => isTrue trivial
  | .reset _ => isTrue trivial
  | .moveAssign _ _ => isTrue trivial

/-! ### The number of initialised devices -/

/-- The number of initialised devices and the history fit the devices. -/
structure Counts (c : Config) (isInitialized : Device → Bool) (count : Nat) (history : List Event) : Prop where
  count : count = (List.range c.devices.length).countP isInitialized
  range : ∀ d, isInitialized d = true → d < c.devices.length
  active : ∀ d, active d history = isInitialized d
  initialized : ∀ d before, (.initialized d :: before) <:+ history → Hal.active d before = false
  deinitialized : ∀ d before, (.deinitialized d :: before) <:+ history → Hal.active d before = true
  ranOnce : preInits history ≤ 1
  preInit : c.preInitCallback = true → ∀ before, (.countLeavesZero :: before) <:+ history → Hal.preInits before = 1
  postDeinit : c.postDeinitCallback = true → ∀ before, (.countBecomesZero :: before) <:+ history →
    (.postDeinit :: .countBecomesZero :: before) <:+ history
  postDeinit_only : ∀ before, (.postDeinit :: before) <:+ history → ∃ before', before = .countBecomesZero :: before'

section

variable {c : Config} {isInitialized : Device → Bool} {count : Nat} {history : List Event} {d : Device}

/-- What holds of all places of an event is kept by another event, if it holds at the new one. -/
theorem suffix_cons {P : List Event → Prop} {e e' : Event} (h : ∀ before, (e :: before) <:+ history → P before)
    (hnew : e' = e → P history) : ∀ before, (e :: before) <:+ (e' :: history) → P before := by
  intro before hsuf
  obtain heq | hsuf := suffix_cons_iff.mp hsuf
  · obtain ⟨rfl, rfl⟩ := cons.inj heq
    exact hnew rfl
  · exact h before hsuf

theorem countP_update_true (hd : d < c.devices.length) (hoff : isInitialized d = false) :
    (List.range c.devices.length).countP (Function.update isInitialized d true) =
      (List.range c.devices.length).countP isInitialized + 1 := by
  have hcnt := countP_update id isInitialized true nodup_range (mem_range.mpr hd)
  rw [hoff] at hcnt
  exact hcnt

theorem countP_update_false (hd : d < c.devices.length) (hon : isInitialized d = true) :
    (List.range c.devices.length).countP (Function.update isInitialized d false) + 1 =
      (List.range c.devices.length).countP isInitialized := by
  have hcnt := countP_update id isInitialized false nodup_range (mem_range.mpr hd)
  rw [hon] at hcnt
  exact hcnt

theorem Counts.logInitialized (h : Counts c isInitialized count history) (hd : d < c.devices.length)
    (hoff : isInitialized d = false) :
    Counts c (Function.update isInitialized d true) (count + 1) (.initialized d :: history) := by
  refine ⟨?_, fun d' hd' => ?_, fun d' => ?_, fun d' => suffix_cons (h.initialized d') fun heq => ?_,
    fun d' => suffix_cons (h.deinitialized d') fun heq => Event.noConfusion heq, h.ranOnce,
    fun hcb => suffix_cons (h.preInit hcb) fun heq => Event.noConfusion heq, fun hcb before => ?_,
    suffix_cons h.postDeinit_only fun heq => Event.noConfusion heq⟩
  · rw [countP_update_true hd hoff, h.count]
  · by_cases heq : d' = d
    · exact heq ▸ hd
    · rw [Function.update_of_ne heq] at hd'
      exact h.range d' hd'
  · unfold Hal.active
    rw [h.active d', Function.update_apply]
    by_cases heq : d' = d
    · simp [heq]
    · simp [heq, Ne.symm heq]
  · obtain rfl := Event.initialized.inj heq
    rw [h.active, hoff]
  · exact suffix_cons (fun before hsuf => (h.postDeinit hcb before hsuf).trans (List.suffix_cons _ _))
      (fun heq => Event.noConfusion heq) before

theorem Counts.logLeaves (h : Counts c isInitialized count history) (hran : c.preInitCallback = true → preInits history = 1) :
    Counts c isInitialized count (.countLeavesZero :: history) where
  count := h.count
  range := h.range
  active := h.active
  initialized := fun d => suffix_cons (h.initialized d) fun heq => Event.noConfusion heq
  deinitialized := fun d => suffix_cons (h.deinitialized d) fun heq => Event.noConfusion heq
  ranOnce := h.ranOnce
  preInit := fun hcb => suffix_cons (h.preInit hcb) fun _ => hran hcb
  postDeinit := fun hcb => suffix_cons
    (fun before hsuf => (h.postDeinit hcb before hsuf).trans (List.suffix_cons _ _)) fun heq => Event.noConfusion heq
  postDeinit_only := suffix_cons h.postDeinit_only fun heq => Event.noConfusion heq

theorem Counts.logPreInit (h : Counts c isInitialized count history) (hnot : preInits history = 0) :
    Counts c isInitialized count (.preInit :: history) where
  count := h.count
  range := h.range
  active := h.active
  initialized := fun d => suffix_cons (h.initialized d) fun heq => Event.noConfusion heq
  deinitialized := fun d => suffix_cons (h.deinitialized d) fun heq => Event.noConfusion heq
  ranOnce := by
    change Hal.preInits history + 1 ≤ 1
    rw [hnot]
  preInit := fun hcb => suffix_cons (h.preInit hcb) fun heq => Event.noConfusion heq
  postDeinit := fun hcb => suffix_cons
    (fun before hsuf => (h.postDeinit hcb before hsuf).trans (List.suffix_cons _ _)) fun heq => Event.noConfusion heq
  postDeinit_only := suffix_cons h.postDeinit_only fun heq => Event.noConfusion heq

theorem Counts.logDeinitialized (h : Counts c isInitialized count history) (hon : isInitialized d = true) :
    Counts c (Function.update isInitialized d false) (count - 1) (.deinitialized d :: history) := by
  have hd := h.range d hon
  refine ⟨?_, fun d' hd' => ?_, fun d' => ?_, fun d' => suffix_cons (h.initialized d') fun heq => Event.noConfusion heq,
    fun d' => suffix_cons (h.deinitialized d') fun heq => ?_, h.ranOnce,
    fun hcb => suffix_cons (h.preInit hcb) fun heq => Event.noConfusion heq, fun hcb => ?_,
    suffix_cons h.postDeinit_only fun heq => Event.noConfusion heq⟩
  · have hcnt := countP_update_false hd hon
    rw [← h.count] at hcnt
    omega
  · by_cases heq : d' = d
    · exact heq ▸ hd
    · rw [Function.update_of_ne heq] at hd'
      exact h.range d' hd'
  · unfold Hal.active
    rw [h.active d', Function.update_apply]
    by_cases heq : d' = d
    · simp [heq]
    · simp [heq, Ne.symm heq]
  · obtain rfl := Event.deinitialized.inj heq
    rw [h.active, hon]
  · exact suffix_cons (fun before hsuf => (h.postDeinit hcb before hsuf).trans (List.suffix_cons _ _))
      fun heq => Event.noConfusion heq

theorem Counts.logBecomes (h : Counts c isInitialized count history) : Counts c isInitialized count
    ((if c.postDeinitCallback then [.postDeinit] else []) ++ .countBecomesZero :: history) := by
  have hbare : ∀ d before, (.initialized d :: before) <:+ (.countBecomesZero :: history) → Hal.active d before = false :=
    fun d => suffix_cons (h.initialized d) fun heq => Event.noConfusion heq
  have hbare' : ∀ d before, (.deinitialized d :: before) <:+ (.countBecomesZero :: history) → Hal.active d before = true :=
    fun d => suffix_cons (h.deinitialized d) fun heq => Event.noConfusion heq
  have hpre : c.preInitCallback = true → ∀ before, (.countLeavesZero :: before) <:+ (.countBecomesZero :: history) →
      Hal.preInits before = 1 := fun hcb => suffix_cons (h.preInit hcb) fun heq => Event.noConfusion heq
  have hpost : ∀ before, (.postDeinit :: before) <:+ (.countBecomesZero :: history) → ∃ before', before = .countBecomesZero :: before' :=
    suffix_cons h.postDeinit_only fun heq => Event.noConfusion heq
  by_cases hcb : c.postDeinitCallback = true
  · rw [if_pos hcb]
    refine ⟨h.count, h.range, h.active, fun d => suffix_cons (hbare d) fun heq => Event.noConfusion heq,
      fun d => suffix_cons (hbare' d) fun heq => Event.noConfusion heq, Nat.zero_le 1,
      fun hpreCallback => suffix_cons (hpre hpreCallback) fun heq => Event.noConfusion heq, fun _ before hsuf => ?_,
      suffix_cons hpost fun _ => ⟨history, rfl⟩⟩
    obtain heq | hsuf := suffix_cons_iff.mp hsuf
    · cases heq
    · obtain heq | hsuf := suffix_cons_iff.mp hsuf
      · rw [heq]
        exact suffix_rfl
      · exact (h.postDeinit hcb before hsuf).trans ((List.suffix_cons _ _).trans (List.suffix_cons _ _))
  · rw [if_neg hcb]
    exact ⟨h.count, h.range, h.active, hbare, hbare', Nat.zero_le 1, hpre, fun hcb' => absurd hcb' hcb, hpost⟩

end

/-! ### Steps -/

def Framed (c : Config) (nextHandle : Nat) : Frame → Prop
  | .acquiring loop => ∀ candidate ∈ loop.candidates, candidate.1 < c.devices.length
  | .onInit device _ loop => device < c.devices.length ∧ ∀ candidate ∈ loop.candidates, candidate.1 < c.devices.length
  | .moving handle source => handle ≠ source ∧ handle < nextHandle ∧ source < nextHandle
  | .onDeinit _ | .casting _ => True

/-- The parts of a state that `Counts` is about. -/
abbrev State.Counted (c : Config) (s : State) : Prop :=
  Counts c s.isInitialized s.initializedDeviceCount s.history

abbrev State.FramesOk (c : Config) (s : State) : Prop := ∀ f ∈ s.calls, Framed c s.nextHandle f

structure Inv (c : Config) (s : State) : Prop where
  refs : Refs s [] []
  counted : s.Counted c
  framed : s.FramesOk c

variable {c : Config} {s s' : State} {d : Device} {loop : Loop} {instanceName : String} {env : Env} {rest : List Frame}

theorem Inv.devicesLive (h : Inv c s) : DevicesLive c s where
  counts := fun hnil d => by
    have hrefs := h.refs.refs d
    rw [hnil] at hrefs
    exact hrefs
  alive := fun _ handle held hheld => ⟨h.refs.alive _ (h.refs.handle_pos hheld), h.refs.handles handle held hheld⟩
  initialized := h.counted.initialized
  deinitialized := h.counted.deinitialized
  count := fun _ => h.counted.count
  preInit := h.counted.preInit
  postDeinit := h.counted.postDeinit
  postDeinit_only := h.counted.postDeinit_only

theorem releaseInterface_keeps (c : Config) (s : State) (d : Device) (hcnt : s.Counted c) (hfrm : s.FramesOk c) :
    (releaseInterface c s d).Counted c ∧ (releaseInterface c s d).FramesOk c := by
  unfold releaseInterface
  split
  · exact ⟨hcnt, hfrm⟩
  · dsimp only
    split
    · refine ⟨hcnt, fun f hf => ?_⟩
      obtain rfl | hf := mem_cons.mp hf
      · exact trivial
      · exact hfrm f hf
    · exact ⟨hcnt, hfrm⟩

theorem goOn_framed (hfrm : s.FramesOk c) (hloop : ∀ candidate ∈ loop.candidates, candidate.1 < c.devices.length) :
    (goOn s loop).FramesOk c := by
  intro f hf
  obtain rfl | hf := mem_cons.mp hf
  · exact hloop
  · exact hfrm f hf

theorem afterAcquire_keeps (d : Device) (instanceName : String) (hcnt : s.Counted c) (hfrm : s.FramesOk c)
    (hloop : ∀ candidate ∈ loop.candidates, candidate.1 < c.devices.length) :
    (afterAcquire c s d instanceName loop).Counted c ∧ (afterAcquire c s d instanceName loop).FramesOk c := by
  unfold afterAcquire
  split
  · dsimp only
    split
    · refine ⟨hcnt, fun f hf => ?_⟩
      obtain rfl | hf := mem_cons.mp hf
      · exact trivial
      · exact hfrm f hf
    · exact ⟨hcnt, goOn_framed hfrm hloop⟩
  · exact releaseInterface_keeps c _ d hcnt (goOn_framed hfrm hloop)

theorem acquire_keeps (hrefs : Refs s loop.acquired []) (hcnt : s.Counted c) (hfrm : s.FramesOk c)
    (hd : d < c.devices.length) (hloop : ∀ candidate ∈ loop.candidates, candidate.1 < c.devices.length) :
    (acquire c s d instanceName loop env).Counted c ∧ (acquire c s d instanceName loop env).FramesOk c := by
  unfold acquire
  split
  · next hpos =>
    dsimp only
    rw [if_pos (hrefs.alive d hpos)]
    exact afterAcquire_keeps d instanceName hcnt hfrm hloop
  · split
    · exact afterAcquire_keeps d instanceName hcnt hfrm hloop
    · split
      · refine ⟨hcnt, fun f hf => ?_⟩
        obtain rfl | hf := mem_cons.mp hf
        · exact ⟨hd, hloop⟩
        · exact hfrm f hf
      · exact ⟨hcnt, goOn_framed hfrm hloop⟩

theorem acquireDevice_inv (hrefs : Refs s loop.acquired []) (hcnt : s.Counted c) (hfrm : s.FramesOk c)
    (hd : d < c.devices.length) (hloop : ∀ candidate ∈ loop.candidates, candidate.1 < c.devices.length)
    (hmay : env.probe = true → mayAcquire c s d) : Inv c (acquireDevice c s d instanceName loop env) := by
  have hboth : (acquireDevice c s d instanceName loop env).Counted c ∧
      (acquireDevice c s d instanceName loop env).FramesOk c := by
    unfold acquireDevice
    split
    · next hprobe =>
      split
      · next hruns =>
        have hlog := hcnt.logPreInit ((hmay hprobe).2 hruns)
        dsimp only
        split
        · exact acquire_keeps (s := { s with history := .preInit :: s.history }) { hrefs with } hlog hfrm hd hloop
        · exact ⟨hlog, goOn_framed hfrm hloop⟩
      · exact acquire_keeps hrefs hcnt hfrm hd hloop
    · exact ⟨hcnt, goOn_framed hfrm hloop⟩
  exact ⟨hrefs.acquireDevice fun hprobe => (hmay hprobe).1, hboth.1, hboth.2⟩

theorem finishInit_inv (hrefs : Refs s loop.acquired []) (hcnt : s.Counted c) (hfrm : s.FramesOk c)
    (hd : d < c.devices.length) (hloop : ∀ candidate ∈ loop.candidates, candidate.1 < c.devices.length) {ok : Bool}
    (hmay : ok = true → mayInit c s d) : Inv c (finishInit c s d instanceName loop ok) := by
  have hboth : (finishInit c s d instanceName loop ok).Counted c ∧ (finishInit c s d instanceName loop ok).FramesOk c := by
    unfold finishInit
    split
    · next hok =>
      obtain ⟨hoff, hran⟩ := hmay hok
      have hlog := hcnt.logInitialized hd hoff
      have hraised : Counts c (Function.update s.isInitialized d true) (s.initializedDeviceCount + 1)
          ((if s.initializedDeviceCount = 0 then [.countLeavesZero] else []) ++ .initialized d :: s.history) := by
        split
        · next hzero =>
          refine hlog.logLeaves fun hcb => ?_
          have hnot := hran hcb hzero
          have hle := hcnt.ranOnce
          change preInits s.history = 1
          omega
        · exact hlog
      exact afterAcquire_keeps d instanceName hraised hfrm hloop
    · exact ⟨hcnt, goOn_framed hfrm hloop⟩
  exact ⟨hrefs.finishInit fun hok => (hmay hok).1, hboth.1, hboth.2⟩

theorem finishDeinit_inv (hrefs : Refs s [] []) (hcnt : s.Counted c) (hfrm : s.FramesOk c)
    (hzero : s.referenceCount d = 0) (hnot : .onDeinit d ∉ s.calls) (hon : s.isInitialized d = true) :
    Inv c (finishDeinit c s d) := by
  have hlog := hcnt.logDeinitialized hon
  have hpos : s.initializedDeviceCount ≠ 0 := by
    have hmem : 0 < (List.range c.devices.length).countP s.isInitialized :=
      countP_pos_iff.mpr ⟨d, mem_range.mpr (hcnt.range d hon), hon⟩
    rw [hcnt.count]
    omega
  refine ⟨hrefs.finishDeinit hzero hnot, ?_, ?_⟩
  · unfold finishDeinit lowerCount
    rw [if_neg hpos]
    change Counts c _ (s.initializedDeviceCount - 1) (if s.initializedDeviceCount = 1 then _ else _)
    split
    · exact hlog.logBecomes
    · exact hlog
  · unfold finishDeinit lowerCount
    rw [if_neg hpos]
    exact hfrm

theorem mem_candidates {matching : InterfaceSpec → Bool} {candidate : Device × String}
    (h : candidate ∈ candidates c matching) : candidate.1 < c.devices.length := by
  obtain ⟨entry, hent, hcand⟩ := mem_flatMap.mp h
  obtain ⟨spec, -, rfl⟩ := mem_map.mp hcand
  exact (mem_zipIdx hent).2.1.trans_eq (Nat.zero_add _)

theorem Inv.popped (h : Inv c s) {f : Frame} (hcs : s.calls = f :: rest) :
    Refs { s with calls := rest } f.acquired [] ∧ State.Counted c { s with calls := rest } ∧
      State.FramesOk c { s with calls := rest } ∧ Framed c s.nextHandle f :=
  ⟨h.refs.pop hcs, h.counted, fun g hg => h.framed g (hcs ▸ mem_cons_of_mem f hg), h.framed f (hcs ▸ mem_cons_self)⟩

theorem Inv.beginLoop (h : Inv c s) (first : Bool) (matching : InterfaceSpec → Bool) :
    Inv c (beginLoop c s first matching) := by
  have hrefs : Refs (Hal.goOn s { first := first, candidates := candidates c matching }) [] [] := Refs.goOn h.refs
  exact ⟨hrefs, h.counted, goOn_framed h.framed fun _ => mem_candidates⟩

theorem Inv.reset (h : Inv c s) {handle : Nat} (hhdl : handle < s.nextHandle) : Inv c (reset c s handle) := by
  have hboth : (Hal.reset c s handle).Counted c ∧ (Hal.reset c s handle).FramesOk c := by
    unfold Hal.reset
    split
    · exact ⟨h.counted, h.framed⟩
    · exact releaseInterface_keeps c _ _ h.counted h.framed
  exact ⟨h.refs.reset hhdl, hboth.1, hboth.2⟩

theorem Inv.advance (h : Inv c s) (hwell : ∀ f ∈ s.calls.head?, advancesWell c s env f) (hst : advance c s env = some s') :
    Inv c s' := by
  unfold Hal.advance at hst
  split at hst
  · next loop rest hcs =>
    obtain ⟨hrefs, hcnt, hfrm, hloop⟩ := h.popped hcs
    have hloop : ∀ candidate ∈ loop.candidates, candidate.1 < c.devices.length := hloop
    have hwell : ∀ candidate ∈ loop.candidates.head?, env.probe = true → mayAcquire c s candidate.1 :=
      hwell (.acquiring loop) (by rw [hcs]; rfl)
    split at hst
    · next hcandidates =>
      cases hst
      have hfrs : State.FramesOk c { s with calls := .casting loop.acquired :: rest } := fun f hf => by
        obtain rfl | hf := mem_cons.mp hf
        · exact trivial
        · exact hfrm f hf
      exact ⟨hrefs.push (fun _ => Frame.noConfusion) rfl, hcnt, hfrs⟩
    · next candidate candidates hcandidates =>
      cases hst
      rw [hcandidates] at hloop hwell
      refine acquireDevice_inv hrefs hcnt hfrm (hloop candidate mem_cons_self)
        (fun other hoth => hloop other (mem_cons_of_mem _ hoth)) fun hprobe => ?_
      obtain ⟨hnot, hran⟩ := hwell candidate rfl hprobe
      exact ⟨fun hmem => hnot (hcs ▸ mem_cons_of_mem _ hmem), hran⟩
  · next rest hcs =>
    cases hst
    obtain ⟨hrefs, hcnt, hfrm, -⟩ := h.popped hcs
    exact ⟨hrefs, hcnt, hfrm⟩
  · next held acquired rest hcs =>
    obtain ⟨-, hcnt, hfrm, -⟩ := h.popped hcs
    obtain ⟨hrefs, hpubd⟩ := h.refs.uncast hcs
    have hfrs : ∀ next, s.nextHandle ≤ next → ∀ f ∈ .casting acquired :: rest, Framed c next f := by
      intro next hnext f hf
      obtain rfl | hf := mem_cons.mp hf
      · exact trivial
      · have := hfrm f hf
        cases f with
        | moving handle source =>
          obtain ⟨hne, hhdl, hsrc⟩ := this
          exact ⟨hne, lt_of_lt_of_le hhdl hnext, lt_of_lt_of_le hsrc hnext⟩
        | acquiring loop => exact this
        | onInit device name loop => exact this
        | onDeinit device => exact trivial
        | casting acquired => exact trivial
    dsimp only at hst
    split at hst
    · cases hst
      exact ⟨hrefs.newHandle hpubd, hcnt, hfrs _ (Nat.le_succ _)⟩
    · cases hst
      obtain ⟨hcnt', hfrm'⟩ := releaseInterface_keeps c { s with calls := .casting acquired :: rest } held.device hcnt
        (hfrs _ le_rfl)
      exact ⟨hrefs.release, hcnt', hfrm'⟩
  · next handle source rest hcs =>
    cases hst
    obtain ⟨hrefs, hcnt, hfrm, hne, hhdl, hsrc⟩ := h.popped hcs
    have hemp : s.handles handle = none := hwell (.moving handle source) (by rw [hcs]; rfl)
    exact ⟨hrefs.moveFrom hne hhdl hsrc hemp, hcnt, hfrm⟩
  · cases hst
  · cases hst
  · cases hst

theorem Inv.returns (h : Inv c s) {ok : Bool} (hwell : ∀ f ∈ s.calls.head?, returnsWell c s ok f)
    (hst : step c s (.returns ok) = some s') : Inv c s' := by
  unfold step at hst
  dsimp only at hst
  split at hst
  · next device instanceName loop rest hcs =>
    cases hst
    obtain ⟨hrefs, hcnt, hfrm, hdev, hloop⟩ := h.popped hcs
    have hmay : ok = true → mayInit c s device := hwell (.onInit device instanceName loop) (by rw [hcs]; rfl)
    exact finishInit_inv hrefs hcnt hfrm hdev hloop hmay
  · next device rest hcs =>
    cases hst
    obtain ⟨hrefs, hcnt, hfrm, -⟩ := h.popped hcs
    obtain ⟨hzero, hon⟩ := h.refs.deinits device (hcs ▸ mem_cons_self)
    have honce := h.refs.once
    rw [hcs] at honce
    exact finishDeinit_inv hrefs hcnt hfrm hzero (fun hmem => (pairwise_cons.mp honce).1 _ hmem device rfl rfl) hon
  · cases hst

theorem inv_init : Inv c init where
  refs := by
    refine ⟨fun d => ?_, fun d hpos => absurd hpos (Nat.lt_irrefl 0), fun handle held hheld => ?_, fun held hheld => ?_,
      fun _ _ => rfl, fun d hd => absurd hd not_mem_nil, .nil⟩
    · simp [init, handleCount, inProgress]
    · exact absurd hheld (Option.some_ne_none held).symm
    · exact absurd hheld not_mem_nil
  counted := by
    refine ⟨?_, fun d hd => absurd hd Bool.false_ne_true, fun _ => rfl, fun d before hsuf => ?_, fun d before hsuf => ?_,
      Nat.zero_le 1, fun _ before hsuf => ?_, fun _ before hsuf => ?_, fun before hsuf => ?_⟩
    · simp [init]
    all_goals exact absurd (suffix_nil.mp hsuf) (cons_ne_nil _ _)
  framed := fun f hf => absurd hf not_mem_nil

theorem inv_inductive (c : Config) : (machine c).Inductive (Condition c) (Inv c) where
  init := by
    rintro _ rfl
    exact inv_init
  step := by
    intro s label s' h hcond hst
    have hst : step c s label = some s' := hst
    cases label with
    | returns ok => exact h.returns hcond hst
    | advance env => exact h.advance hcond hst
    | acquireInterface typeName instanceName =>
      obtain ⟨-, rfl⟩ := of_guard hst
      exact h.beginLoop true _
    | acquireFirstInterface typeName =>
      obtain ⟨-, rfl⟩ := of_guard hst
      exact h.beginLoop true _
    | acquireInterfaces typeName =>
      obtain ⟨-, rfl⟩ := of_guard hst
      exact h.beginLoop false _
    | declare =>
      obtain ⟨-, rfl⟩ := of_guard hst
      refine ⟨h.refs.declare, h.counted, fun f hf => ?_⟩
      have hold := h.framed f hf
      cases f with
      | moving handle source => exact ⟨hold.1, Nat.lt_succ_of_lt hold.2.1, Nat.lt_succ_of_lt hold.2.2⟩
      | acquiring loop => exact hold
      | onInit device name loop => exact hold
      | onDeinit device => exact trivial
      | casting acquired => exact trivial
    | reset handle =>
      obtain ⟨⟨-, hhdl⟩, rfl⟩ := of_guard hst
      exact h.reset hhdl
    | moveAssign handle source =>
      unfold step at hst
      obtain ⟨⟨-, hhdl, hsrc⟩, hst⟩ := Option.ite_none_right_eq_some.mp hst
      split at hst
      · cases hst
        exact h
      · next hne =>
        cases hst
        have hpush : Inv c { s with calls := .moving handle source :: s.calls } := by
          refine ⟨h.refs.push (fun _ => Frame.noConfusion) rfl, h.counted, fun f hf => ?_⟩
          obtain rfl | hf := mem_cons.mp hf
          · exact ⟨hne, hhdl, hsrc⟩
          · exact h.framed f hf
        exact hpush.reset hhdl
    | publishInterface name interface =>
      unfold step at hst
      dsimp only at hst
      split at hst
      · next device instanceName loop rest hcs =>
        split at hst
        · cases hst
        · cases hst
          have hnew : s.isInitialized device = false ∨ s.interfaces device name = none :=
            hcond (.onInit device instanceName loop) (by rw [hcs]; rfl)
          exact ⟨h.refs.publishInterface name interface hnew, h.counted, h.framed⟩
      · cases hst

/-- **Devices live exactly as long as their handles**, in every run that meets the condition; and where
an acquisition leaves the handles as they were, all reference counts are. -/
theorem devices_live (c : Config) (s : State) (h : (machine c).Reach (Condition c) s) : DevicesLive c s ∧
    ∀ s', (machine c).Reach (Condition c) s' → s.calls = [] → s'.calls = [] →
      (∀ d, handleCount s'.handles s'.nextHandle d = handleCount s.handles s.nextHandle d) →
      s'.referenceCount = s.referenceCount := by
  have hlive := ((inv_inductive c).reach h).devicesLive
  refine ⟨hlive, fun s' h' hnil hnil' hhdls => funext fun d => ?_⟩
  have hlive' := ((inv_inductive c).reach h').devicesLive
  rw [hlive.counts hnil d, hlive'.counts hnil' d, hhdls d]

/-- A display whose `on_init` uses a bus, and the bus. -/
def boardConfig : Config where
  devices := [⟨[⟨"Display", "lcd"⟩], true⟩, ⟨[⟨"Bus", "i2c"⟩], true⟩]
  preInitCallback := true
  postDeinitCallback := true

def wellEnv : Env := ⟨true, true, true, true⟩

/-- The host holds the bus when it acquires the display, whose `on_init` takes a handle of the bus too;
then all is released. -/
def boardRun : List Label :=
  [.acquireFirstInterface "Bus", .advance wellEnv, .publishInterface "i2c" 7, .returns true, .advance wellEnv, .advance wellEnv,
   .acquireInterface "Display" "lcd", .advance wellEnv, .acquireFirstInterface "Bus", .advance wellEnv, .advance wellEnv,
   .advance wellEnv, .publishInterface "lcd" 3, .returns true, .advance wellEnv, .advance wellEnv,
   .declare, .moveAssign 3 2, .advance wellEnv, .reset 3, .reset 1, .returns true, .reset 0, .returns true]

/-- `devices_live` on `boardRun`. -/
theorem devices_live_boardRun : ∃ s, (machine boardConfig).Reach (Condition boardConfig) s ∧
    s.calls = [] ∧ s.history.length = 8 ∧ DevicesLive boardConfig s := by
  obtain ⟨s, hs, hfacts⟩ := Option.map_eq_some_iff.mp (by decide +kernel :
    ((machine boardConfig).execWhen (Condition boardConfig) init boardRun).map
      (fun s => (s.calls, s.history.length)) = some ([], 8))
  obtain ⟨hcs, hlen⟩ := Prod.mk.inj hfacts
  have hreach : (machine boardConfig).Reach (Condition boardConfig) s := .execWhen (.init rfl) hs
  exact ⟨s, hreach, hcs, hlen, (devices_live boardConfig s hreach).1⟩

/-- The host acquires the display while nothing is initialised. -/
def nestedRun : List Label :=
  [.acquireFirstInterface "Display", .advance wellEnv, .acquireFirstInterface "Bus", .advance wellEnv, .returns true]

/-- The global pre-init callback runs for the display and, inside its `on_init`, for the bus, before the
number of initialised devices leaves 0. -/
theorem nestedRun_runsTwice : ¬ ∀ c s, (machine c).Reachable s → DevicesLive c s := by
  intro hall
  obtain ⟨s, hs, hfacts⟩ := Option.map_eq_some_iff.mp (by decide +kernel :
    ((machine boardConfig).exec init nestedRun).map (fun s => s.history) =
      some [.countLeavesZero, .initialized 1, .preInit, .preInit])
  have hhist : s.history = [.countLeavesZero, .initialized 1, .preInit, .preInit] := hfacts
  have hreach : (machine boardConfig).Reachable s := .exec (.init rfl) hs
  have honce := (hall boardConfig s hreach).preInit rfl [.initialized 1, .preInit, .preInit] (hhist ▸ suffix_rfl)
  exact absurd honce (by decide)

end Brookesia.Hal
