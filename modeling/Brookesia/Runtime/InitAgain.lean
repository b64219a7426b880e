import Brookesia.Runtime.Model

/-! # Calls of `Runtime::init` and `Runtime::deinit`

The plugins that a call finds, and the backends that fail to initialise in it, are a part of its label. -/

namespace Brookesia.Runtime.InitAgain

open Transition List
open Function (update update_self update_of_ne)

structure Backend where
  id : ℕ
  type : BackendType
  deriving DecidableEq

structure NativeFunction where
  name : String
  function : Bool
  asyncFunction : Bool
  deriving DecidableEq

structure NativeModule where
  name : String
  functions : List NativeFunction
  deriving DecidableEq

/-- A plugin of `RuntimeFunctionProviderRegistry`, without modules where its instance is null. -/
structure Provider where
  name : String
  modules : Option (List NativeModule)
  deriving DecidableEq

structure FunctionBridge where
  modules : List NativeModule
  discoveredProviders : List String

/-- The successful initialisations of a backend since its last `deinit`, and whether `init` was called again in between. -/
structure Inits where
  count : Backend → ℕ
  again : Bool

structure State where
  backends : List Backend
  functionBridge : FunctionBridge
  initialized : Bool
  inits : Inits
  /-- The providers that the last call found, if it was an `init` that returned success. -/
  ready : Option (List Provider)
  destroyed : Bool

inductive Label
  | init (plugins : List (Option Backend)) (providers : List Provider) (fails : Backend → Bool)
  | deinit
  | destroy

/-- The map of the backends is a list in the order of the types. -/
def discoverRegisteredBackends : List Backend → List (Option Backend) → List Backend × Bool
  | backends, [] => (backends, true)
  | backends, none :: plugins => discoverRegisteredBackends backends plugins
  | backends, some backend :: plugins =>
    if backend.type = .unknown then (backends, false)
    else
      match backends.find? fun b => b.type = backend.type with
      | some b => if b ≠ backend then (backends, false) else discoverRegisteredBackends backends plugins
      | none =>
        discoverRegisteredBackends (backends.orderedInsert (fun a b => a.type.ctorIdx ≤ b.type.ctorIdx) backend) plugins

/-- The checks of `add_module`. -/
def Accepted (modules : List NativeModule) (module : NativeModule) : Prop :=
  module.name ≠ "" ∧ (∀ f ∈ module.functions, f.name ≠ "" ∧ f.function ≠ f.asyncFunction) ∧
    (module.functions.map (·.name)).Nodup ∧ module.name ∉ modules.map (·.name)

instance (modules : List NativeModule) (module : NativeModule) : Decidable (Accepted modules module) :=
  inferInstanceAs (Decidable (_ ∧ (∀ _ ∈ _, _) ∧ _))

def addModules : List NativeModule → List NativeModule → List NativeModule × Bool
  | modules, [] => (modules, true)
  | modules, module :: rest =>
    if Accepted modules module then addModules (modules ++ [module]) rest else (modules, false)

def discoverRegisteredProviders : FunctionBridge → List Provider → FunctionBridge × Bool
  | bridge, [] => (bridge, true)
  | bridge, provider :: rest =>
    match provider.modules with
    | none => discoverRegisteredProviders bridge rest
    | some modules =>
      if provider.name ∈ bridge.discoveredProviders then discoverRegisteredProviders bridge rest
      else
        let added := addModules bridge.modules modules
        let bridge := ⟨added.1, provider.name :: bridge.discoveredProviders⟩
        if added.2 then discoverRegisteredProviders bridge rest else (bridge, false)

def initBackends (fails : Backend → Bool) : List Backend → Inits → Inits × Bool
  | [], inits => (inits, true)
  | backend :: rest, inits =>
    let again := inits.again || inits.count backend ≠ 0
    if fails backend then ({ inits with again }, false)
    else initBackends fails rest ⟨update inits.count backend (inits.count backend + 1), again⟩

def init (s : State) (plugins : List (Option Backend)) (providers : List Provider) (fails : Backend → Bool) : State :=
  let found := discoverRegisteredBackends s.backends plugins
  let s := { s with backends := found.1, ready := none }
  if !found.2 then s
  else
    let discovered := discoverRegisteredProviders s.functionBridge providers
    let s := { s with functionBridge := discovered.1 }
    if !discovered.2 then s
    else if s.backends = [] then s
    else if s.initialized then { s with ready := some providers }
    else
      let tried := initBackends fails s.backends s.inits
      let s := { s with inits := tried.1 }
      if !tried.2 then s else { s with initialized := true, ready := some providers }

def deinit (s : State) : State :=
  if !s.initialized then { s with ready := none }
  else
    { s with
      initialized := false
      ready := none
      inits := { s.inits with count := fun b => if b ∈ s.backends then 0 else s.inits.count b } }

def start : State :=
  ⟨[], ⟨[], []⟩, false, ⟨fun _ => 0, false⟩, none, false⟩

def machine : Machine State Label where
  init s := s = start
  step s
    | .init plugins providers fails =>
      if s.destroyed = false ∧ (providers.map (·.name)).Nodup then some (init s plugins providers fails) else none
    | .deinit => if s.destroyed = false then some (deinit s) else none
    | .destroy => if s.destroyed = false then some { deinit s with destroyed := true } else none

def Provider.RegisteredIn (provider : Provider) (modules : List NativeModule) : Prop :=
  ∀ new ∈ provider.modules, new ⊆ modules

/-- Success means that everything is registered and initialised once, no backend is initialised again before it is
deinitialised, and none is left when the Runtime is destroyed. -/
def InitsOnce (s : State) : Prop :=
  (∀ providers ∈ s.ready, (∀ p ∈ providers, p.RegisteredIn s.functionBridge.modules) ∧
    ∀ b ∈ s.backends, s.inits.count b = 1) ∧
  s.inits.again = false ∧ (s.destroyed = true → ∀ b, s.inits.count b = 0)

/-- `init` does not skip a provider that is marked although its modules were not all added, finds no new backend while
the Runtime is initialised, and fails at no backend after one that it has initialised. -/
def Clean (s : State) : Label → Prop
  | .init plugins providers fails =>
    let backends := (discoverRegisteredBackends s.backends plugins).1
    (∀ p ∈ providers, p.name ∈ s.functionBridge.discoveredProviders → p.RegisteredIn s.functionBridge.modules) ∧
    (s.initialized = true → backends = s.backends) ∧
    (s.initialized = false → (∀ b ∈ backends.head?, fails b = true) ∨ ∀ b ∈ backends, fails b = false)
  | _ => True

/-! ### Discovery -/

variable {s s' : State}

theorem nodup_discoverRegisteredBackends {backends : List Backend} {plugins : List (Option Backend)}
    (h : backends.Nodup) : (discoverRegisteredBackends backends plugins).1.Nodup := by
  fun_induction discoverRegisteredBackends backends plugins with
  | case1 | case3 | case4 => exact h
  | case2 _ _ ih | case5 _ _ _ _ _ _ _ ih => exact ih h
  | case6 backends backend plugins _ hnone ih =>
    refine ih ((perm_orderedInsert _ _ _).nodup_iff.mpr (nodup_cons.mpr ⟨fun hmem => ?_, h⟩))
    exact find?_eq_none.mp hnone backend hmem (decide_eq_true rfl)

theorem subset_addModules {modules new : List NativeModule} : modules ⊆ (addModules modules new).1 ∧
    ((addModules modules new).2 = true → new ⊆ (addModules modules new).1) := by
  fun_induction addModules modules new with
  | case1 => exact ⟨Subset.refl _, fun _ => nil_subset _⟩
  | case2 modules module rest _ ih =>
    have hold := fun x hx => ih.1 (mem_append_left [module] (a := x) hx)
    exact ⟨hold, fun hok => cons_subset.mpr ⟨ih.1 (mem_append_right _ (mem_singleton_self _)), ih.2 hok⟩⟩
  | case3 => exact ⟨Subset.refl _, fun hok => absurd hok Bool.false_ne_true⟩

theorem registered_discoverRegisteredProviders {bridge : FunctionBridge} {providers : List Provider}
    (hnames : (providers.map (·.name)).Nodup)
    (hskip : ∀ p ∈ providers, p.name ∈ bridge.discoveredProviders → p.RegisteredIn bridge.modules) :
    bridge.modules ⊆ (discoverRegisteredProviders bridge providers).1.modules ∧
      ((discoverRegisteredProviders bridge providers).2 = true →
        ∀ p ∈ providers, p.RegisteredIn (discoverRegisteredProviders bridge providers).1.modules) := by
  fun_induction discoverRegisteredProviders bridge providers with
  | case1 => exact ⟨Subset.refl _, fun _ p hp => absurd hp not_mem_nil⟩
  | case2 bridge provider rest hnone ih =>
    obtain ⟨hold, hnew⟩ := ih (nodup_cons.mp hnames).2 fun p hp => hskip p (mem_cons_of_mem _ hp)
    refine ⟨hold, fun hok => forall_mem_cons.mpr ⟨fun new hmem => ?_, hnew hok⟩⟩
    exact absurd (hnone ▸ hmem) (Option.not_mem_none new)
  | case3 bridge provider rest modules _ hmem ih =>
    obtain ⟨hold, hnew⟩ := ih (nodup_cons.mp hnames).2 fun p hp => hskip p (mem_cons_of_mem _ hp)
    have hreg := hskip provider mem_cons_self hmem
    exact ⟨hold, fun hok => forall_mem_cons.mpr ⟨fun new hn _ hx => hold (hreg new hn hx), hnew hok⟩⟩
  | case4 bridge provider rest modules hsome hmem added bridge' hok ih =>
    obtain ⟨hadded, hnewAdded⟩ := @subset_addModules bridge.modules modules
    obtain ⟨hold, hnew⟩ := ih (nodup_cons.mp hnames).2 fun p hp hname new hn => by
      rcases mem_cons.mp hname with heq | hbefore
      · exact absurd (mem_map.mpr ⟨p, hp, heq⟩) (nodup_cons.mp hnames).1
      · exact fun _ hx => hadded (hskip p (mem_cons_of_mem _ hp) hbefore new hn hx)
    refine ⟨fun _ hx => hold (hadded hx), fun hok' => forall_mem_cons.mpr ⟨fun new hn => ?_, hnew hok'⟩⟩
    obtain rfl : modules = new := Option.some.inj (hsome.symm.trans hn)
    exact fun _ hx => hold (hnewAdded hok hx)
  | case5 => exact ⟨subset_addModules.1, fun hok => absurd hok Bool.false_ne_true⟩

theorem initBackends_eq {fails : Backend → Bool} {backends : List Backend} {inits : Inits} (hnodup : backends.Nodup)
    (hagain : inits.again = false) (hzero : ∀ b ∈ backends, inits.count b = 0)
    (hfails : ∀ b ∈ backends, fails b = false) :
    initBackends fails backends inits = (⟨fun b => if b ∈ backends then 1 else inits.count b, false⟩, true) := by
  induction backends generalizing inits with
  | nil => exact Prod.ext (congrArg (Inits.mk _) hagain) rfl
  | cons backend rest ih =>
    obtain ⟨hnot, hrest⟩ := nodup_cons.mp hnodup
    obtain ⟨hz, hzs⟩ := forall_mem_cons.mp hzero
    obtain ⟨hf, hfs⟩ := forall_mem_cons.mp hfails
    unfold initBackends
    rw [if_neg (hf ▸ Bool.false_ne_true), ih hrest (by simp [hagain, hz]) (fun b hb => ?_) hfs]
    · congr 2
      funext b
      by_cases heq : b = backend
      · subst heq
        simp only [hnot, mem_cons_self, if_true, if_false, update_self, hz]
      · simp only [mem_cons, heq, false_or, update_of_ne heq]
    · exact (update_of_ne (ne_of_mem_of_not_mem hb hnot) _ _).trans (hzs b hb)

theorem initBackends_or {fails : Backend → Bool} {backends : List Backend} {inits : Inits} (hnodup : backends.Nodup)
    (hagain : inits.again = false) (hzero : ∀ b, inits.count b = 0) (hne : backends ≠ [])
    (hfails : (∀ b ∈ backends.head?, fails b = true) ∨ ∀ b ∈ backends, fails b = false) :
    initBackends fails backends inits = (⟨fun b => if b ∈ backends then 1 else 0, false⟩, true) ∨
      initBackends fails backends inits = (inits, false) := by
  rcases hfails with hfirst | hnone
  · obtain ⟨b, rest, rfl⟩ := exists_cons_of_ne_nil hne
    unfold initBackends
    rw [if_pos (hfirst b rfl), hzero b, decide_eq_false fun h => h rfl, Bool.or_false]
    exact .inr rfl
  · rw [initBackends_eq hnodup hagain (fun b _ => hzero b) hnone, funext hzero]
    exact .inl rfl

/-! ### Runs -/

structure Inv (s : State) : Prop where
  nodup : s.backends.Nodup
  again : s.inits.again = false
  count : ∀ b, s.inits.count b = if s.initialized = true ∧ b ∈ s.backends then 1 else 0
  ready : ∀ providers ∈ s.ready, s.initialized = true ∧ ∀ p ∈ providers, p.RegisteredIn s.functionBridge.modules
  destroyed : s.destroyed = true → s.initialized = false

theorem Inv.deinit (hi : Inv s) : Inv (deinit s) ∧ (InitAgain.deinit s).initialized = false := by
  unfold InitAgain.deinit
  split_ifs with hinit
  · rw [Bool.not_eq_true'] at hinit
    exact ⟨{ hi with ready := fun providers hp => absurd hp (Option.not_mem_none _) }, hinit⟩
  · refine ⟨{ hi with
      count := fun b => ?_
      ready := fun providers hp => absurd hp (Option.not_mem_none _)
      destroyed := fun _ => rfl }, rfl⟩
    dsimp only
    by_cases hmem : b ∈ s.backends
    · simp only [hmem, if_true, Bool.false_eq_true, false_and, if_false]
    · simp only [hmem, if_false, and_false, hi.count b]

theorem Inv.init {plugins : List (Option Backend)} {providers : List Provider} {fails : Backend → Bool} (hi : Inv s)
    (hlive : s.destroyed = false) (hnames : (providers.map (·.name)).Nodup)
    (hc : Clean s (.init plugins providers fails)) : Inv (init s plugins providers fails) := by
  obtain ⟨hskip, hnew, hfails⟩ := hc
  obtain ⟨-, hreg⟩ := registered_discoverRegisteredProviders hnames hskip
  have hnodup := @nodup_discoverRegisteredBackends _ plugins hi.nodup
  have hnone : ∀ {modules}, ∀ p ∈ (none : Option (List Provider)), s.initialized = true ∧
      ∀ x ∈ p, x.RegisteredIn modules := fun p hp => absurd hp (Option.not_mem_none p)
  have hdead : s.destroyed = true → s.initialized = false := fun hd => absurd (hlive.symm.trans hd) Bool.false_ne_true
  unfold InitAgain.init
  dsimp only
  generalize discoverRegisteredBackends s.backends plugins = found at *
  generalize discoverRegisteredProviders s.functionBridge providers = discovered at *
  by_cases hinit : s.initialized = true
  · rw [hnew hinit] at hnodup ⊢
    rw [if_pos hinit]
    split_ifs with hfound hdisc hempty
    · exact { hi with ready := hnone }
    · exact { hi with ready := hnone }
    · exact { hi with ready := hnone }
    · refine { hi with ready := fun ps hp => ?_ }
      obtain rfl := Option.some.inj hp
      exact ⟨hinit, hreg (by simpa using hdisc)⟩
  · have hzero : ∀ b, s.inits.count b = 0 := fun b => (hi.count b).trans (if_neg fun h => hinit h.1)
    have hcount : ∀ b, s.inits.count b = if s.initialized = true ∧ b ∈ found.1 then 1 else 0 :=
      fun b => (hzero b).trans (if_neg fun h => hinit h.1).symm
    split_ifs with hfound hdisc hempty htried
    · exact ⟨hnodup, hi.again, hcount, hnone, hdead⟩
    · exact ⟨hnodup, hi.again, hcount, hnone, hdead⟩
    · exact ⟨hnodup, hi.again, hcount, hnone, hdead⟩
    · rcases initBackends_or hnodup hi.again hzero hempty (hfails (Bool.eq_false_of_not_eq_true hinit)) with heq | heq
      · exact absurd htried (by rw [heq]; exact Bool.false_ne_true)
      · rw [heq]
        exact ⟨hnodup, hi.again, hcount, hnone, hdead⟩
    · rcases initBackends_or hnodup hi.again hzero hempty (hfails (Bool.eq_false_of_not_eq_true hinit)) with heq | heq
      · rw [heq]
        refine ⟨hnodup, rfl, fun b => by simp only [true_and], fun ps hp => ?_, fun hd => ?_⟩
        · obtain rfl := Option.some.inj hp
          exact ⟨rfl, hreg (by simpa using hdisc)⟩
        · exact absurd (hlive.symm.trans hd) Bool.false_ne_true
      · exact absurd (by rw [heq]; rfl) htried

theorem inv_inductive : machine.Inductive Clean Inv where
  init s hs := by
    rw [hs]
    exact ⟨nodup_nil, rfl, fun b => rfl, fun ps hp => absurd hp (Option.not_mem_none ps), fun _ => rfl⟩
  step s a s' hi hc hst := by
    cases a with
    | init plugins providers fails =>
      obtain ⟨⟨hlive, hnames⟩, rfl⟩ := of_guard hst
      exact hi.init hlive hnames hc
    | deinit =>
      obtain ⟨-, rfl⟩ := of_guard hst
      exact hi.deinit.1
    | destroy =>
      obtain ⟨-, rfl⟩ := of_guard hst
      exact { hi.deinit.1 with destroyed := fun _ => hi.deinit.2 }

theorem inits_once (h : machine.Reach Clean s) : InitsOnce s := by
  have hi := inv_inductive.reach h
  refine ⟨fun ps hp => ?_, hi.again, fun hd b => ?_⟩
  · obtain ⟨hinit, hreg⟩ := hi.ready ps hp
    exact ⟨hreg, fun b hb => (hi.count b).trans (if_pos ⟨hinit, hb⟩)⟩
  · exact (hi.count b).trans (if_neg fun hb => Bool.false_ne_true ((hi.destroyed hd).symm.trans hb.1))

def twoBackends : List (Option Backend) :=
  [some ⟨0, .lua⟩, some ⟨1, .javaScript⟩]

theorem inits_once_two : InitsOnce (init start twoBackends [⟨"storage", some [⟨"storage", []⟩]⟩] fun _ => false) :=
  inits_once (.step (a := .init twoBackends _ _) (.init rfl) ⟨fun _ _ h => absurd h not_mem_nil, fun h => absurd h Bool.false_ne_true,
    fun _ => .inr fun _ _ => rfl⟩ (if_pos ⟨rfl, by decide⟩))

/-- The second backend fails in the first call, so the second call initialises the first backend again. -/
theorem not_inits_once : ¬ ∀ s, machine.Reachable s → InitsOnce s := by
  intro h
  obtain ⟨s, hs, hagain⟩ := Option.map_eq_some_iff.mp
    (by decide +kernel : (machine.exec start [.init twoBackends [] fun b => b.id = 1,
      .init twoBackends [] fun _ => false]).map (·.inits.again) = some true)
  exact absurd ((h s (.exec (.init rfl) hs)).2.1.symm.trans hagain) Bool.false_ne_true

end Brookesia.Runtime.InitAgain
