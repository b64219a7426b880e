import Brookesia.Transition.Machine

/-! # The registry of published interfaces

`Device::init` and `Device::deinit`, one call after another. What `on_init` publishes and returns is a part of the label. A plugin
gives the instance with which it was registered, whether it is cached or made by the factory. -/

namespace Brookesia.Hal.Published

open Transition Option

abbrev Device : Type := ℕ

abbrev Instance : Type := ℕ

structure State where
  isInitialized : Device → Bool
  interfaces : Device → String → Option Instance
  /-- The plugins of `PublishedInterfacePluginRegistry`. -/
  plugins : String → Option Instance

inductive Label
  | init (device : Device) (preInit : Bool) (published : List (String × Instance)) (onInit : Bool)
  | deinit (device : Device)
  /-- `Device::~Device`. -/
  | destroy (device : Device)

def publishInterface (interfaces : String → Option Instance) (e : String × Instance) : String → Option Instance :=
  if e.1 = "" then interfaces else Function.update interfaces e.1 (some e.2)

def init (s : State) (device : Device) (preInit : Bool) (published : List (String × Instance)) (onInit : Bool) : State :=
  if s.isInitialized device then s
  else if !preInit then s
  else
    let interfaces := published.foldl publishInterface fun _ => none
    let s := { s with interfaces := Function.update s.interfaces device interfaces }
    if !onInit then s
    else { s with
      -- a name that is registered is skipped
      plugins := fun name => (s.plugins name).or (interfaces name)
      isInitialized := Function.update s.isInitialized device true }

/-- Every name of the device is removed, whoever has registered it. -/
def deinit (s : State) (device : Device) : State :=
  if !s.isInitialized device then s
  else
    { isInitialized := Function.update s.isInitialized device false
      interfaces := Function.update s.interfaces device fun _ => none
      plugins := fun name => if (s.interfaces device name).isSome then none else s.plugins name }

def start : State := ⟨fun _ => false, fun _ _ => none, fun _ => none⟩

def machine : Machine State Label where
  init s := s = start
  step s
    | .init device preInit published onInit => some (init s device preInit published onInit)
    | .deinit device => some (deinit s device)
    | .destroy device => some (deinit s device)

/-- The device is initialised and publishes the instance under the name. -/
def State.Publishes (s : State) (device : Device) (name : String) (i : Instance) : Prop :=
  s.isInitialized device = true ∧ s.interfaces device name = some i

structure Mirrors (s : State) : Prop where
  registered : ∀ name, (∃ i, s.plugins name = some i) ↔ ∃ device i, s.Publishes device name i
  current : ∀ name i, s.plugins name = some i → ∃ device, s.Publishes device name i

/-- No other initialised device has a name of the device that goes. -/
def Alone (s : State) (device : Device) : Prop :=
  ∀ other name i i', other ≠ device → s.Publishes device name i → ¬s.Publishes other name i'

def Apart (s : State) : Label → Prop
  | .init _ _ _ _ => True
  | .deinit device => Alone s device
  | .destroy device => Alone s device

variable {s : State} {device other : Device} {name : String} {i : Instance} {interfaces : String → Option Instance} {b : Bool}
  {plugins : String → Option Instance}

theorem publishes_update : State.Publishes
    ⟨Function.update s.isInitialized device b, Function.update s.interfaces device interfaces, plugins⟩ other name i ↔
      if other = device then b = true ∧ interfaces name = some i else s.Publishes other name i := by
  unfold State.Publishes
  dsimp only
  split_ifs with heq
  · rw [heq, Function.update_self, Function.update_self]
  · rw [Function.update_of_ne heq, Function.update_of_ne heq]

theorem Mirrors.of (hpub : ∀ device name i, s.Publishes device name i → s.plugins name ≠ none)
    (hcur : ∀ name i, s.plugins name = some i → ∃ device, s.Publishes device name i) : Mirrors s := by
  refine ⟨fun name => ⟨?_, ?_⟩, hcur⟩
  · rintro ⟨i, hi⟩
    obtain ⟨device, hp⟩ := hcur name i hi
    exact ⟨device, i, hp⟩
  · rintro ⟨device, i, hp⟩
    exact ne_none_iff_exists'.mp (hpub device name i hp)

theorem Mirrors.published (h : Mirrors s) (hp : s.Publishes device name i) : s.plugins name ≠ none :=
  ne_none_iff_exists'.mpr ((h.registered name).mpr ⟨device, i, hp⟩)

theorem Mirrors.init (h : Mirrors s) (preInit : Bool) (published : List (String × Instance)) (onInit : Bool) :
    Mirrors (init s device preInit published onInit) := by
  unfold Published.init
  dsimp only
  split_ifs with hinit hpre hon
  · exact h
  · exact h
  all_goals
    generalize published.foldl publishInterface (fun _ => none) = interfaces
    have hoth : ∀ {other name i}, s.Publishes other name i → other ≠ device := by
      rintro other name i hp rfl
      exact hinit hp.1
  · have hsame : s.isInitialized = Function.update s.isInitialized device false := by
      rw [← Bool.eq_false_iff.mpr hinit, Function.update_eq_self]
    rw [hsame]
    refine .of (fun other name i hp => ?_) fun name i hi => ?_
    · rw [publishes_update] at hp
      split_ifs at hp
      · cases hp.1
      · exact h.published hp
    · obtain ⟨other, hp⟩ := h.current name i hi
      exact ⟨other, publishes_update.mpr (by rwa [if_neg (hoth hp)])⟩
  · refine .of (fun other name i hp => ?_) fun name i hi => ?_
    · rw [publishes_update] at hp
      split_ifs at hp
      · exact fun hnone => some_ne_none i (hp.2.symm.trans (or_eq_none_iff.mp hnone).2)
      · exact fun hnone => h.published hp (or_eq_none_iff.mp hnone).1
    · rcases or_eq_some_iff.mp hi with hold | ⟨-, hnew⟩
      · obtain ⟨other, hp⟩ := h.current name i hold
        exact ⟨other, publishes_update.mpr (by rwa [if_neg (hoth hp)])⟩
      · exact ⟨device, publishes_update.mpr (by rw [if_pos rfl]; exact ⟨rfl, hnew⟩)⟩

theorem Mirrors.deinit (h : Mirrors s) (halone : Alone s device) : Mirrors (deinit s device) := by
  unfold Published.deinit
  split_ifs with hinit
  · exact h
  have hinit : s.isInitialized device = true := by simpa using hinit
  refine .of (fun other name i hp => ?_) fun name i hi => ?_
  · rw [publishes_update] at hp
    split_ifs at hp with heq
    · cases hp.1
    · dsimp only
      cases hnone : s.interfaces device name with
      | none => exact h.published hp
      | some i' => exact absurd hp (halone other name i' i heq ⟨hinit, hnone⟩)
  · dsimp only at hi
    split_ifs at hi with hmine
    obtain ⟨other, hp⟩ := h.current name i hi
    refine ⟨other, publishes_update.mpr ?_⟩
    rw [if_neg fun heq => hmine ?_]
    · exact hp
    · rw [← heq, hp.2]
      rfl

theorem not_mirrors_deinit (hnot : ¬Alone s device) : ¬Mirrors (deinit s device) := by
  unfold Alone at hnot
  push Not at hnot
  obtain ⟨other, name, i, i', hne, hp, hp'⟩ := hnot
  have hinit : ¬(!s.isInitialized device) = true := by rw [hp.1]; exact Bool.false_ne_true
  unfold Published.deinit
  rw [if_neg hinit]
  intro h
  refine h.published (?_ : State.Publishes _ other name i') ?_
  · refine publishes_update.mpr ?_
    rwa [if_neg hne]
  · dsimp only
    rw [hp.2]
    rfl

theorem mirrors_inductive : machine.Inductive Apart Mirrors := by
  constructor
  · rintro s rfl
    exact .of (fun _ _ _ hp => absurd hp.1 Bool.false_ne_true) fun name i hi => by cases hi
  · intro s label s' h hapart hst
    cases label with
    | init device preInit published onInit =>
      cases hst
      exact h.init preInit published onInit
    | deinit device =>
      cases hst
      exact h.deinit hapart
    | destroy device =>
      cases hst
      exact h.deinit hapart

/-- **The registry mirrors the devices** after all calls if and only if no device goes while another has a name of it. -/
theorem registry_mirrors_iff (labels : List Label) : machine.Always Mirrors start labels ↔ machine.Keeps Apart start labels := by
  refine mirrors_inductive.exact (fun _ h => h) (fun s label s' _ hnot hst => ?_) labels start (mirrors_inductive.init start rfl)
  cases label with
  | init => exact absurd trivial hnot
  | deinit device =>
    cases hst
    exact not_mirrors_deinit hnot
  | destroy device =>
    cases hst
    exact not_mirrors_deinit hnot

/-- Two devices with one name, and the one that has registered it goes. -/
def sharedName : List Label := [.init 0 true [("display", 10)] true, .init 1 true [("display", 11)] true, .deinit 0]

theorem sharedName_not_mirrored : ¬ ∀ labels, machine.Always Mirrors start labels := by
  intro h
  have hmirrors := (h sharedName).exec rfl
  obtain ⟨i, hi⟩ := (hmirrors.registered "display").mpr ⟨1, 11, rfl, rfl⟩
  cases hi

end Brookesia.Hal.Published
