import Brookesia.StateMachine.Model

/-! # Actions and later runs

`stop` leaves accepted actions where they are, and when they run they ask `is_running()`. An action
that is still on its way at the next `start` therefore runs in the new run. `no_leaks`: none does
anything there if `start` sets `task_scheduler_` only when every action accepted before has ended. -/

namespace Brookesia.StateMachine.Runs

open Transition Model List Option

def Job.isTrigger : Job → Bool
  | .trigger _ => true
  | .timer _ => false

def Frame.isTrigger : Frame → Bool
  | .trigger _ => true
  | _ => false

theorem isTrigger_frame (job : Job) : Frame.isTrigger job.frame = Job.isTrigger job := by
  cases job with
  | trigger t => rfl
  | timer t => cases hk : t.kind <;> simp [Job.frame, hk, Frame.isTrigger, Job.isTrigger]

/-- Every accepted action has ended. -/
structure Drained (s : State) : Prop where
  posting : s.posting = []
  queue : ∀ job ∈ s.queue, Job.isTrigger job = false
  stack : ∀ frame ∈ s.stack, Frame.isTrigger frame = false

instance (s : State) : Decidable (Drained s) :=
  decidable_of_iff (s.posting = [] ∧ (∀ job ∈ s.queue, Job.isTrigger job = false) ∧
    ∀ frame ∈ s.stack, Frame.isTrigger frame = false)
    ⟨fun h => ⟨h.1, h.2.1, h.2.2⟩, fun h => ⟨h.posting, h.queue, h.stack⟩⟩

/-- The next step of the call of `start` sets `task_scheduler_`. -/
def setsScheduler (chart : Chart) (s : State) : Bool :=
  match s.control with
  | .starting initialState .locking => (chart.findState initialState).isSome
  | _ => false

/-- `start` sets `task_scheduler_` only when every accepted action has ended. -/
def StartsDrained (chart : Chart) (s : State) : Action → Prop
  | .control _ => setsScheduler chart s = true → Drained s
  | _ => True

instance (chart : Chart) (s : State) (a : Action) : Decidable (StartsDrained chart s a) := by
  cases a <;> unfold StartsDrained <;> infer_instance

/-- Every action that has not ended was accepted in this run, and none has leaked. -/
structure OwnRun (s : State) : Prop where
  posting : ∀ t ∈ s.posting, t.run = s.runs
  queue : ∀ t, .trigger t ∈ s.queue → t.run = s.runs
  stack : ∀ f, .trigger f ∈ s.stack → f.trigger.run = s.runs
  leaks : s.leaks = 0

/-! ### What the shared functions leave -/

/-- What `OwnRun` speaks of is left as it is; the queue may lose tasks. -/
structure Keeps (s s' : State) : Prop where
  runs : s'.runs = s.runs
  posting : s'.posting = s.posting
  stack : s'.stack = s.stack
  leaks : s'.leaks = s.leaks
  queue : ∀ job ∈ s'.queue, job ∈ s.queue

theorem Keeps.refl (s : State) : Keeps s s := ⟨rfl, rfl, rfl, rfl, fun _ h => h⟩

theorem Keeps.cancel (s : State) (id : TaskId) : Keeps s (s.cancel id) :=
  ⟨rfl, rfl, rfl, rfl, fun _ h => mem_of_mem_filter h⟩

theorem keeps_cancelStep (s : State) (c : CancelStage) : Keeps s (cancelStep s c).1 := by
  cases c <;> simp only [cancelStep]
  · exact ⟨rfl, rfl, rfl, rfl, fun _ h => h⟩
  all_goals split
  all_goals first | exact .refl s | exact .cancel s _

theorem keeps_setupStep (chart : Chart) (s : State) (name : StateName) (entry : ℕ)
    (u : SetupStage) : Keeps s (setupStep chart s name entry u).1 := by
  cases u <;> simp only [setupStep]
  · exact .refl s
  · exact .refl s
  · split
    · exact .refl s
    · split <;> exact ⟨rfl, rfl, rfl, rfl, fun _ h => h⟩
  · exact ⟨rfl, rfl, rfl, rfl, fun _ h => h⟩
  · split
    · exact .refl s
    · split <;> exact ⟨rfl, rfl, rfl, rfl, fun _ h => h⟩
  · exact ⟨rfl, rfl, rfl, rfl, fun _ h => h⟩

theorem noteLeak_eq {s : State} {t : Trigger} (h : t.run = s.runs) : s.noteLeak t = s := by
  unfold State.noteLeak; rw [if_pos h]

theorem keeps_triggerStep (chart : Chart) {s : State} {f : TriggerFrame} (ok : Bool)
    (hf : f.trigger.run = s.runs) : Keeps s (triggerStep chart s f ok).1 ∧
      ∀ f', (triggerStep chart s f ok).2 = some f' → f'.trigger = f.trigger := by
  unfold triggerStep
  split
  · refine ⟨.refl s, fun f' h => ?_⟩
    simp only at h
    split_ifs at h
    cases h; rfl
  · split
    · exact ⟨.refl s, by rintro _ ⟨⟩; rfl⟩
    · split <;> exact ⟨.refl s, by rintro _ ⟨⟩; rfl⟩
  · split
    · exact ⟨.refl s, by rintro _ ⟨⟩; rfl⟩
    · split <;> exact ⟨.refl s, by rintro _ ⟨⟩; rfl⟩
  · exact ⟨.refl s, by rintro _ ⟨⟩; rfl⟩
  · next c _ =>
    have hk := keeps_cancelStep s c
    split <;> next hc => exact ⟨by rwa [hc] at hk, by rintro _ ⟨⟩; rfl⟩
  · exact ⟨.refl s, by rintro _ ⟨⟩; rfl⟩
  · rw [noteLeak_eq (s := s.assign f.nextState) hf]
    exact ⟨⟨rfl, rfl, rfl, rfl, fun _ h => h⟩, by rintro _ ⟨⟩; rfl⟩
  · exact ⟨.refl s, by rintro _ ⟨⟩; rfl⟩
  · rw [noteLeak_eq (s := s.assign f.previousState) hf]
    exact ⟨⟨rfl, rfl, rfl, rfl, fun _ h => h⟩, by rintro _ ⟨⟩; rfl⟩
  · next u success _ =>
    have hk := keeps_setupStep chart s (f.target success) f.entry u
    split <;> next hu => exact ⟨by rwa [hu] at hk, by rintro _ ⟨⟩; rfl⟩
  · exact ⟨.refl s, by rintro _ ⟨⟩; rfl⟩
  · rw [noteLeak_eq hf]
    exact ⟨.refl s, by rintro _ ⟨⟩; rfl⟩
  · exact ⟨.refl s, by rintro _ ⟨⟩; rfl⟩
  · split
    · rw [noteLeak_eq (s := { s with transitionCount := s.transitionCount - 1 }) hf]
      exact ⟨⟨rfl, rfl, rfl, rfl, fun _ h => h⟩, by simp⟩
    · exact ⟨.refl s, by simp⟩

/-! ### Steps -/

section OwnRun
variable {s s' : State} (ho : OwnRun s)
include ho

theorem OwnRun.keeps (h : Keeps s s') : OwnRun s' :=
  ⟨by rw [h.posting, h.runs]; exact ho.posting, fun t ht => h.runs ▸ ho.queue t (h.queue _ ht),
    by rw [h.stack, h.runs]; exact ho.stack, h.leaks.trans ho.leaks⟩

theorem OwnRun.setStack {stack : List Frame}
    (h : ∀ f, .trigger f ∈ stack → f.trigger.run = s.runs) : OwnRun { s with stack := stack } :=
  ⟨ho.posting, ho.queue, h, ho.leaks⟩

theorem OwnRun.setControl {control : Control} : OwnRun { s with control := control } :=
  ⟨ho.posting, ho.queue, ho.stack, ho.leaks⟩

theorem OwnRun.frameStep (chart : Chart) {frame : Frame} {rest : List Frame}
    (hstk : s.stack = frame :: rest) (ok : Bool) :
    OwnRun (frameStep chart s frame rest ok) := by
  have hrest : ∀ f, .trigger f ∈ rest → f.trigger.run = s.runs := fun f hf =>
    ho.stack f (by rw [hstk]; exact mem_cons_of_mem _ hf)
  have hpush : ∀ g : Frame, Frame.isTrigger g = false → ∀ f, .trigger f ∈ g :: rest → f.trigger.run = s.runs := by
    intro g hg f hf
    rcases mem_cons.mp hf with rfl | hf
    · cases hg
    · exact hrest f hf
  cases frame with
  | trigger f =>
    have hf : f.trigger.run = s.runs := ho.stack f (by rw [hstk]; exact mem_cons_self ..)
    obtain ⟨hk, htrigger⟩ := keeps_triggerStep chart ok hf
    simp only [Model.frameStep]
    split
    · next s₁ f' heq =>
      rw [heq] at hk htrigger
      refine (ho.keeps hk).setStack fun g hg => ?_
      rcases mem_cons.mp hg with h | hg
      · cases h
        rw [htrigger f' rfl, hk.runs, hf]
      · rw [hk.runs]; exact hrest g hg
    · next s₁ heq =>
      rw [heq] at hk
      exact (ho.keeps hk).setStack fun g hg => by rw [hk.runs]; exact hrest g hg
  | update t running =>
    cases running with
    | false => exact ho.setStack (hpush (.update t true) rfl)
    | true => exact ⟨ho.posting, ho.queue, hrest, ho.leaks⟩
  | timeout t triggered =>
    cases triggered with
    | true => exact (ho.keeps (.cancel s t.id)).setStack hrest
    | false =>
      simp only [Model.frameStep]
      split
      · exact ho.setStack (hpush (.timeout t true) rfl)
      · split
        · refine ⟨ho.posting, ho.queue, fun f hf => ?_, ho.leaks⟩
          rcases mem_cons.mp hf with h | hf
          · cases h; rfl
          · exact hpush (.timeout t true) rfl f hf
        · exact ho.setStack (hpush (.timeout t true) rfl)

theorem OwnRun.startStep (chart : Chart) {initialState : StateName} {stage : StartStage}
    (hctl : s.control = .starting initialState stage)
    (hc : setsScheduler chart s = true → Drained s) (ok : Bool) :
    OwnRun (startStep chart s initialState ok stage) := by
  cases stage with
  | locking =>
    simp only [Model.startStep]
    split
    · next hsome =>
      have hd := hc (by rw [setsScheduler, hctl]; exact hsome)
      refine ⟨by simp [hd.posting], fun t ht => ?_, fun f hf => ?_, ho.leaks⟩
      · have := hd.queue _ ht; cases this
      · have := hd.stack _ hf; cases this
    · exact ho.setControl
  | cancelling c =>
    have hk := keeps_cancelStep s c
    simp only [Model.startStep]
    split <;> next heq =>
      rw [heq] at hk
      exact (ho.keeps hk).setControl
  | settingUp entry u =>
    have hk := keeps_setupStep chart s initialState entry u
    simp only [Model.startStep]
    split <;> next heq =>
      rw [heq] at hk
      exact (ho.keeps hk).setControl
  | assigning => exact ⟨ho.posting, ho.queue, ho.stack, ho.leaks⟩
  | _ => exact ho.setControl

theorem OwnRun.stopStep (stage : StopStage) : OwnRun (stopStep s stage) := by
  cases stage with
  | checking => exact ho.setControl
  | cancelling c =>
    have hk := keeps_cancelStep s c
    simp only [Model.stopStep]
    split <;> next heq =>
      rw [heq] at hk
      exact (ho.keeps hk).setControl
  | clearing => exact ⟨ho.posting, ho.queue, ho.stack, ho.leaks⟩

theorem OwnRun.step {chart : Chart} {a : Action} (hc : StartsDrained chart s a)
    (h : step chart s a = some s') : OwnRun s' := by
  cases a with
  | start initialState =>
    simp only [Model.step, ite_none_right_eq_some] at h
    obtain ⟨-, h⟩ := h
    cases h
    exact ho.setControl
  | stop =>
    simp only [Model.step, ite_none_right_eq_some] at h
    obtain ⟨-, h⟩ := h
    cases h
    exact ho.setControl
  | control ok =>
    simp only [Model.step] at h
    split at h
    · cases h
    · next hctl => cases h; exact ho.startStep chart hctl hc ok
    · cases h; exact ho.stopStep _
  | accept action =>
    simp only [Model.step, ite_none_right_eq_some] at h
    obtain ⟨-, h⟩ := h
    cases h
    refine ⟨fun t ht => ?_, ho.queue, ho.stack, ho.leaks⟩
    rcases mem_append.mp ht with ht | ht
    · exact ho.posting t ht
    · rw [mem_singleton.mp ht]; rfl
  | post t =>
    simp only [Model.step, ite_none_right_eq_some] at h
    obtain ⟨ht, h⟩ := h
    cases h
    refine ⟨fun t' ht' => ho.posting t' (mem_of_mem_erase ht'), fun t' ht' => ?_, ho.stack, ho.leaks⟩
    rcases mem_append.mp ht' with h | h
    · exact ho.queue t' h
    · cases mem_singleton.mp h; exact ho.posting _ ht
  | expire t =>
    simp only [Model.step, ite_none_right_eq_some] at h
    obtain ⟨-, h⟩ := h
    cases h
    refine ⟨ho.posting, fun t' ht' => ho.queue t' ?_, ho.stack, ho.leaks⟩
    rcases mem_append.mp ht' with h | h
    · exact h
    · cases mem_singleton.mp h
  | take =>
    simp only [Model.step] at h
    split at h
    · cases h
    · next job rest hque =>
      split_ifs at h
      cases h
      refine ⟨ho.posting, fun t ht => ho.queue t ?_, fun f hf => ?_, ho.leaks⟩
      · rw [hque]; exact mem_cons_of_mem _ ht
      · cases job with
        | trigger t =>
          cases mem_singleton.mp hf
          exact ho.queue t (by rw [hque]; exact mem_cons_self ..)
        | timer t =>
          have htim := isTrigger_frame (.timer t)
          rw [← mem_singleton.mp hf] at htim
          cases htim
  | strand ok =>
    simp only [Model.step] at h
    split at h
    · cases h
    · next hstk => cases h; exact ho.frameStep chart hstk ok
  | dispatch action =>
    simp only [Model.step] at h
    split at h
    · cases h
    · next frame rest hstk =>
      split_ifs at h
      cases h
      refine ⟨ho.posting, ho.queue, fun f hf => ?_, ho.leaks⟩
      rcases mem_cons.mp hf with h | hf
      · cases h; rfl
      · exact ho.stack f (by rw [hstk]; exact hf)

end OwnRun

theorem ownRun_inductive (chart : Chart) : (stateMachine chart).Inductive (StartsDrained chart) OwnRun where
  init := by rintro s rfl; exact ⟨by simp, by simp, by simp, rfl⟩
  step _ _ _ ho hc h := ho.step hc h

/-- **Runs do not leak into each other**: no action accepted before a `stop` has changed the state,
called the finish callback or decremented `transition_count_` after a later `start`, in the runs in
which `start` waits for the accepted actions. -/
theorem no_leaks {chart : Chart} {s : State} (h : (stateMachine chart).Reach (StartsDrained chart) s) : s.leaks = 0 :=
  ((ownRun_inductive chart).reach h).leaks

/-- Two states without timers, and one action between them. -/
def twoStates : Chart where
  findState name := if name = "A" ∨ name = "B" then some {} else none
  transition name action := if name = "A" ∧ action = "go" then some "B" else none

/-- The steps of a `start` that succeeds, of a `stop`, and of an action that takes the strand. -/
def startRun : List Action := .start "A" :: List.replicate 12 (.control true)

def stopRun : List Action := .stop :: List.replicate 5 (.control true)

def actionRun : List Action := .take :: List.replicate 17 (.strand true)

/-- The action of the first run ends before the machine is stopped and started again. -/
def drainedRun : List Action :=
  startRun ++ [.accept "go", .post ⟨"go", 1, none⟩] ++ actionRun ++ stopRun ++ startRun ++
    [.accept "go", .post ⟨"go", 2, none⟩] ++ actionRun

theorem no_leaks_drainedRun : ∃ s : State, s.runs = 2 ∧ s.currentState = "B" ∧ s.entries = 4 ∧ s.leaks = 0 := by
  have hrun : ∃ s, (stateMachine twoStates).execWhen (StartsDrained twoStates) {} drainedRun =
      some s ∧ s.runs = 2 ∧ s.currentState = "B" ∧ s.entries = 4 := by decide
  obtain ⟨s, hs, h1, h2, h3⟩ := hrun
  exact ⟨s, h1, h2, h3, no_leaks (.execWhen (.init rfl) hs)⟩

/-- The action of the first run is still queued when the machine is stopped and started again. -/
def leakingRun : List Action :=
  startRun ++ [.accept "go", .post ⟨"go", 1, none⟩] ++ stopRun ++ startRun ++ actionRun

theorem leakingRun_leaks : ¬ ∀ (chart : Chart) (s : State), (stateMachine chart).Reachable s → s.leaks = 0 := by
  intro h
  have hrun : ∃ s, (stateMachine twoStates).exec {} leakingRun = some s ∧
      s.currentState = "B" ∧ s.leaks = 2 := by decide
  obtain ⟨s, hs, -, hleaks⟩ := hrun
  have := h twoStates s (.exec (.init rfl) hs)
  omega

end Brookesia.StateMachine.Runs
