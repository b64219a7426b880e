import Brookesia.ServiceManager.Model
import Brookesia.Transition.Cycles

/-! # The recursion of `bind`

`bind` calls itself for each dependency before it starts the service. Here one thread runs at a time and every call is a function of
the manager's state; `starts` says what the code of a service makes of its `start`.

* `bind` gets the number of calls that may be inside one another. `none` means that these were not enough.
* `Calls s name dependency`: `bind(name)` comes to the call `bind(dependency)`. It does if the service is registered and bindable and
  its dependencies before that one are `Bindable`.
* `bind_returns_iff`: `bind` comes back exactly if no chain of such calls comes round to a name again. -/

namespace Brookesia.ServiceManager.Recursion

open Transition Service Model List Option
open Function (update update_of_ne update_self)

/-! ### The calls -/

/-- `start` of a service, and what it returns. -/
def start (b : ServiceBase) (ok : Bool) : ServiceBase × Bool :=
  if b.isRunning then (b, true)
  else if b.isInitialized then ({ b with isRunning := ok }, ok)
  else (b, false)

def stop (b : ServiceBase) : ServiceBase := { b with isRunning := false }

def unbind (s : State) (reference : Reference) : State :=
  if s.isInitialized then
    match s.services reference.name with
    | none => s
    | some info =>
      if info.refCount = 0 then s
      else if info.refCount = 1 then
        (s.setObject info.service (stop (s.objects info.service))).setInfo reference.name
          { info with refCount := 0, state := .stopped }
      else s.setInfo reference.name { info with refCount := info.refCount - 1 }
  else s

/-- `release` of a binding and of those of its dependencies. -/
def release (s : State) (b : ServiceBinding) : State := b.foldl unbind s

/-- `bind` from the lock on. An entry in transition is waited for. -/
def acquire (starts : ServiceId → Bool) (s : State) (name : ServiceName) (bound : ServiceBinding) :
    Option (State × ServiceBinding) :=
  match s.services name with
  | none => some (release s bound, [])
  | some info =>
    match info.state with
    | .starting | .stopping => none
    | .running =>
      some (s.setInfo name { info with refCount := info.refCount + 1 }, ⟨name, info.service, info.registration⟩ :: bound)
    | .stopped =>
      let started := start (s.objects info.service) (starts info.service)
      let s := s.setObject info.service started.1
      if started.2 then
        some (s.setInfo name { info with state := .running, refCount := info.refCount + 1 },
          ⟨name, info.service, info.registration⟩ :: bound)
      else some (release s bound, [])

/-- The loop over the dependencies, and whether it comes to its end. -/
def bindDependencies (bind : State → ServiceName → Option (State × ServiceBinding)) (s : State) :
    List ServiceName → ServiceBinding → Option (State × ServiceBinding × Bool)
  | [], bound => some (s, bound, true)
  | dependency :: dependencies, bound =>
    match bind s dependency with
    | none => none
    | some (s, binding) =>
      if s.isValid binding then bindDependencies bind s dependencies (bound ++ binding)
      else some (s, binding ++ bound, false)

def bind (cat : Catalog) (starts : ServiceId → Bool) : ℕ → State → ServiceName → Option (State × ServiceBinding)
  | 0, _, _ => none
  | fuel + 1, s, name =>
    if s.isInitialized then
      match s.services name with
      | none => some (s, [])
      | some info =>
        if (cat info.service).bindable then
          match bindDependencies (bind cat starts fuel) s (cat info.service).dependencies [] with
          | none => none
          | some (s, bound, true) => acquire starts s name bound
          | some (s, bound, false) => some (release s bound, [])
        else some (s, [])
    else some (s, [])

/-- `init` of the service returns `ok`. -/
def addService (cat : Catalog) (s : State) (service : ServiceId) (ok : Bool) : State :=
  let name := (cat service).name
  let emplace (s : State) : State :=
    { s.setInfo name { service := service, registration := s.nextRegistration } with
      initOrder := s.initOrder ++ [name]
      nextRegistration := s.nextRegistration + 1 }
  match s.services name with
  | some _ => s
  | none =>
    if (s.objects service).isInitialized then emplace s
    else if ok then emplace (s.setObject service { s.objects service with isInitialized := true })
    else s

def removeService (s : State) (name : ServiceName) : State :=
  if name = "" then s
  else match s.services name with
    | none => s
    | some info =>
      let s := if (s.objects info.service).isInitialized then
          s.setObject info.service { s.objects info.service with isInitialized := false, isRunning := false }
        else s
      { s with
        services := Function.update s.services name none
        initOrder := s.initOrder.filter (· ≠ name) }

/-! ### The manager, one call after the other -/

inductive Call
  | add (service : ServiceId) (ok : Bool)
  | remove (name : ServiceName)
  /-- A call of `bind` that returns, with so many calls inside one another. -/
  | bind (name : ServiceName) (starts : ServiceId → Bool) (fuel : ℕ)
  | release (target : Variable)

def step (cat : Catalog) (s : State) : Call → Option State
  | .add service ok => some (addService cat s service ok)
  | .remove name => some (removeService s name)
  | .bind name starts fuel =>
    match bind cat starts fuel s name with
    | none => none
    | some (s, binding) => some { s with bindings := s.bindings ++ [binding] }
  | .release target =>
    match s.bindings[target]? with
    | none => none
    | some binding => some { release s binding with bindings := s.bindings.set target [] }

/-- From an empty manager, before `init` or after it. -/
def serialManager (cat : Catalog) : Machine State Call where
  init s := ∃ isInitialized, s = { isInitialized := isInitialized, bindings := [], threads := [] }
  step := step cat

/-! ### What `bind` meets -/

/-- The service that is registered as `name`. -/
def registered (s : State) (name : ServiceName) : Option ServiceId := (s.services name).map RuntimeServiceInfo.service

/-- The service under `name` runs, or it can be started. -/
def Opens (starts : ServiceId → Bool) (s : State) (name : ServiceName) : Prop :=
  ∃ info, s.services name = some info ∧ (info.state = .running ∧ (s.objects info.service).isRunning = true ∨
      info.state = .stopped ∧ (start (s.objects info.service) (starts info.service)).2 = true)

/-- The service under `name` is registered and bindable and runs or can be started, and so are its dependencies and theirs. -/
inductive Bindable (cat : Catalog) (starts : ServiceId → Bool) (s : State) : ServiceName → Prop
  | intro {name : ServiceName} {service : ServiceId} (hservice : registered s name = some service)
      (hbindable : (cat service).bindable = true)
      (hdependencies : ∀ dependency ∈ (cat service).dependencies, Bindable cat starts s dependency)
      (hopens : Opens starts s name) : Bindable cat starts s name

/-- `bind(name)` comes to the call `bind(dependency)`. -/
def Calls (cat : Catalog) (starts : ServiceId → Bool) (s : State) (name dependency : ServiceName) : Prop :=
  ∃ service before after, registered s name = some service ∧ (cat service).bindable = true ∧
    (cat service).dependencies = before ++ dependency :: after ∧
    ∀ earlier ∈ before, Bindable cat starts s earlier

/-! ### Between calls -/

/-- What is registered is listed under its own name, and no start or stop is in progress. -/
structure Between (cat : Catalog) (s : State) : Prop where
  name : ∀ name info, s.services name = some info → (cat info.service).name = name
  settled : ∀ name info, s.services name = some info → info.state = .stopped ∨ info.state = .running
  listed : ∀ name info, s.services name = some info → name ∈ s.initOrder

section
variable {cat : Catalog} {starts : ServiceId → Bool} {s s' s₁ s₂ : State} {name : ServiceName} {info info' : RuntimeServiceInfo}
  {bound b : ServiceBinding}

theorem Between.setObject (hs : Between cat s) (service : ServiceId) (object : ServiceBase) :
    Between cat (s.setObject service object) := ⟨hs.name, hs.settled, hs.listed⟩

theorem Between.setInfo (hs : Between cat s) (hinfo : s.services name = some info) (hserv : info'.service = info.service)
    (hstate : info'.state = .stopped ∨ info'.state = .running) : Between cat (s.setInfo name info') := by
  have hcases : ∀ n i, (s.setInfo name info').services n = some i → (n = name ∧ i = info') ∨ s.services n = some i := by
    intro n i hi
    by_cases hn : n = name
    · subst hn
      have hself : (s.setInfo n info').services n = some info' := update_self _ _ _
      exact .inl ⟨rfl, (some.inj (hself.symm.trans hi)).symm⟩
    · have hoth : (s.setInfo name info').services n = s.services n := update_of_ne hn _ _
      exact .inr (hoth ▸ hi)
  refine ⟨fun n i hi => ?_, fun n i hi => ?_, fun n i hi => ?_⟩ <;> rcases hcases n i hi with ⟨rfl, rfl⟩ | hold
  · exact hserv ▸ hs.name n info hinfo
  · exact hs.name n i hold
  · exact hstate
  · exact hs.settled n i hold
  · exact hs.listed n info hinfo
  · exact hs.listed n i hold

theorem Between.unbind (hs : Between cat s) (reference : Reference) : Between cat (unbind s reference) := by
  unfold Recursion.unbind
  split_ifs
  · split
    · exact hs
    next info hinfo =>
      split_ifs
      · exact hs
      · exact (hs.setObject _ _).setInfo hinfo rfl (.inl rfl)
      · exact hs.setInfo hinfo rfl (hs.settled _ info hinfo)
  · exact hs

theorem Between.release (hs : Between cat s) (b : ServiceBinding) : Between cat (release s b) := by
  induction b generalizing s with
  | nil => exact hs
  | cons reference b ih => exact ih (hs.unbind reference)

theorem Between.acquire (hs : Between cat s) (h : acquire starts s name bound = some (s', b)) : Between cat s' := by
  unfold Recursion.acquire at h
  split at h
  · cases h
    exact hs.release bound
  next info hinfo =>
    split at h
    · cases h
    · cases h
    next hstate =>
      cases h
      exact hs.setInfo hinfo rfl (.inr hstate)
    next hstate =>
      dsimp only at h
      split_ifs at h <;> cases h
      · exact (hs.setObject _ _).setInfo hinfo rfl (.inr rfl)
      · exact (hs.setObject _ _).release bound

/-! ### What a call that succeeds leaves as it was -/

/-- The same services are registered, and the same can be started. -/
structure Agrees (cat : Catalog) (starts : ServiceId → Bool) (s s' : State) : Prop where
  between : Between cat s'
  isInitialized : s'.isInitialized = s.isInitialized
  registered : ∀ name, registered s' name = registered s name
  opens : ∀ name, Opens starts s' name ↔ Opens starts s name

theorem Agrees.refl (hs : Between cat s) : Agrees cat starts s s := ⟨hs, rfl, fun _ => rfl, fun _ => Iff.rfl⟩

theorem Agrees.trans (h : Agrees cat starts s s₁) (h' : Agrees cat starts s₁ s₂) : Agrees cat starts s s₂ :=
  ⟨h'.between, h'.isInitialized.trans h.isInitialized, fun n => (h'.registered n).trans (h.registered n),
    fun n => (h'.opens n).trans (h.opens n)⟩

theorem Agrees.symm (hs : Between cat s) (h : Agrees cat starts s s') : Agrees cat starts s' s :=
  ⟨hs, h.isInitialized.symm, fun n => (h.registered n).symm, fun n => (h.opens n).symm⟩

theorem Agrees.bindable (h : Agrees cat starts s s') (hb : Bindable cat starts s name) : Bindable cat starts s' name := by
  induction hb with
  | intro hserv hbind _ hopens ih =>
    exact .intro ((h.registered _).trans hserv) hbind ih ((h.opens _).mpr hopens)

theorem start_isRunning {object : ServiceBase} {ok : Bool} (h : (start object ok).2 = true) :
    (start object ok).1.isRunning = true := by
  unfold start at h ⊢
  split_ifs at h ⊢ with hrun hinitialized
  · exact hrun
  · exact h

theorem Agrees.setInfo (hs : Between cat s) (hinfo : s.services name = some info) (hopens : Opens starts s name)
    {object : ServiceBase} (hobj : object.isRunning = true) (hserv : info'.service = info.service)
    (hstate : info'.state = .running) :
    Agrees cat starts s ((s.setObject info.service object).setInfo name info') := by
  have hself : ((s.setObject info.service object).setInfo name info').services name = some info' :=
    update_self _ _ _
  have hoth : ∀ n ≠ name, ((s.setObject info.service object).setInfo name info').services n = s.services n :=
    fun n hn => update_of_ne hn _ _
  have hrun : ((s.setObject info.service object).setInfo name info').objects info.service = object :=
    update_self _ _ _
  have hobjs : ∀ n ≠ name, ∀ i, s.services n = some i →
      ((s.setObject info.service object).setInfo name info').objects i.service = s.objects i.service := by
    intro n hn i hi
    refine update_of_ne (fun hsame => hn ?_) _ _
    exact (hs.name n i hi).symm.trans ((congrArg (fun service => (cat service).name) hsame).trans (hs.name name info hinfo))
  refine ⟨(hs.setObject _ _).setInfo hinfo hserv (.inr hstate), rfl, fun n => ?_, fun n => ?_⟩
  · by_cases hn : n = name
    · subst hn
      unfold Recursion.registered
      rw [hself, hinfo]
      exact congrArg some hserv
    · unfold Recursion.registered
      rw [hoth n hn]
  · by_cases hn : n = name
    · subst hn
      refine iff_of_true ⟨info', hself, .inl ⟨hstate, ?_⟩⟩ hopens
      rw [hserv, hrun]
      exact hobj
    · constructor
      · rintro ⟨i, hi, hi'⟩
        rw [hoth n hn] at hi
        rw [hobjs n hn i hi] at hi'
        exact ⟨i, hi, hi'⟩
      · rintro ⟨i, hi, hi'⟩
        refine ⟨i, (hoth n hn).trans hi, ?_⟩
        rw [hobjs n hn i hi]
        exact hi'

/-- A binding that is valid comes from an entry that could be opened, and the other way round. -/
theorem acquire_opens (hs : Between cat s) (h : acquire starts s name bound = some (s', b)) :
    (s'.isValid b = true → Opens starts s name ∧ Agrees cat starts s s') ∧
      (Opens starts s name → s'.isValid b = true) := by
  unfold acquire at h
  split at h
  next hnone =>
    cases h
    refine ⟨fun hvalid => absurd hvalid Bool.false_ne_true, ?_⟩
    rintro ⟨info, hinfo, -⟩
    exact absurd (hnone.symm.trans hinfo) (some_ne_none info).symm
  next info hinfo =>
    split at h
    · cases h
    · cases h
    next hstate =>
      cases h
      have hsame : s.setObject info.service (s.objects info.service) = s := by
        unfold State.setObject
        rw [Function.update_eq_self]
      constructor
      · intro hvalid
        have hrun : (s.objects info.service).isRunning = true := hvalid
        have hopens : Opens starts s name := ⟨info, hinfo, .inl ⟨hstate, hrun⟩⟩
        have hagr : Agrees cat starts s ((s.setObject info.service (s.objects info.service)).setInfo name
            { info with refCount := info.refCount + 1 }) := Agrees.setInfo hs hinfo hopens hrun rfl hstate
        rw [hsame] at hagr
        exact ⟨hopens, hagr⟩
      · rintro ⟨info', hinfo', hcase⟩
        obtain rfl := some.inj (hinfo.symm.trans hinfo')
        rcases hcase with ⟨-, hrun⟩ | ⟨hstop, -⟩
        · exact hrun
        · exact ServiceState.noConfusion (hstate.symm.trans hstop)
    next hstate =>
      dsimp only at h
      split_ifs at h with hstd
      · cases h
        have hopens : Opens starts s name := ⟨info, hinfo, .inr ⟨hstate, hstd⟩⟩
        have hrun := start_isRunning hstd
        refine ⟨fun _ => ⟨hopens, Agrees.setInfo hs hinfo hopens hrun rfl rfl⟩, fun _ => ?_⟩
        show ((update s.objects info.service _) info.service).isRunning = true
        rw [update_self]
        exact hrun
      · cases h
        refine ⟨fun hvalid => absurd hvalid Bool.false_ne_true, ?_⟩
        rintro ⟨info', hinfo', hcase⟩
        obtain rfl := some.inj (hinfo.symm.trans hinfo')
        rcases hcase with ⟨hrun, -⟩ | ⟨-, hcan⟩
        · exact ServiceState.noConfusion (hstate.symm.trans hrun)
        · exact absurd hcan hstd

end

/-! ### What `bind` returns -/

section
variable {cat : Catalog} {starts : ServiceId → Bool} {f : State → ServiceName → Option (State × ServiceBinding)}

/-- `f` is right about what can be bound, and leaves the rest as it was. -/
def Binds (cat : Catalog) (starts : ServiceId → Bool) (f : State → ServiceName → Option (State × ServiceBinding)) : Prop :=
  ∀ s name s' b, Between cat s → s.isInitialized = true → f s name = some (s', b) →
    Between cat s' ∧ (s'.isValid b = true → Bindable cat starts s name ∧ Agrees cat starts s s') ∧
      (Bindable cat starts s name → s'.isValid b = true)

theorem Binds.dependencies (hf : Binds cat starts f) {dependencies : List ServiceName} {s s' : State}
    {bound bound' : ServiceBinding} {all : Bool} (hs : Between cat s) (hinit : s.isInitialized = true)
    (h : bindDependencies f s dependencies bound = some (s', bound', all)) :
    Between cat s' ∧ (all = true → (∀ d ∈ dependencies, Bindable cat starts s d) ∧ Agrees cat starts s s') ∧
      ((∀ d ∈ dependencies, Bindable cat starts s d) → all = true) := by
  induction dependencies generalizing s bound with
  | nil =>
    unfold bindDependencies at h
    obtain ⟨rfl, hrest⟩ := Prod.mk.inj (some.inj h)
    obtain ⟨-, rfl⟩ := Prod.mk.inj hrest
    exact ⟨hs, fun _ => ⟨fun d hd => absurd hd not_mem_nil, .refl hs⟩, fun _ => rfl⟩
  | cons dependency dependencies ih =>
    unfold bindDependencies at h
    split at h
    · cases h
    next s₁ binding hcall =>
      obtain ⟨hs₁, hvalid, hbind⟩ := hf s dependency s₁ binding hs hinit hcall
      split_ifs at h with hok
      · obtain ⟨hfst, hagr⟩ := hvalid hok
        obtain ⟨hs', hall, hconverse⟩ := ih hs₁ (hagr.isInitialized.trans hinit) h
        refine ⟨hs', fun htrue => ?_, fun hdeps => hconverse fun d hd => ?_⟩
        · obtain ⟨hrest, hagr'⟩ := hall htrue
          refine ⟨forall_mem_cons.mpr ⟨hfst, fun d hd => ?_⟩, hagr.trans hagr'⟩
          exact (hagr.symm hs).bindable (hrest d hd)
        · exact hagr.bindable (hdeps d (mem_cons_of_mem _ hd))
      · obtain ⟨rfl, hrest⟩ := Prod.mk.inj (some.inj h)
        obtain ⟨-, rfl⟩ := Prod.mk.inj hrest
        refine ⟨hs₁, fun hfalse => absurd hfalse Bool.false_ne_true, fun hdeps => ?_⟩
        exact absurd (hbind (hdeps dependency mem_cons_self)) hok

theorem bind_binds (fuel : ℕ) : Binds cat starts (bind cat starts fuel) := by
  induction fuel with
  | zero =>
    intro s name s' b _ _ h
    cases h
  | succ fuel ih =>
    intro s name s' b hs hinit h
    unfold bind at h
    rw [if_pos hinit] at h
    split at h
    next hnone =>
      cases h
      refine ⟨hs, fun hvalid => absurd hvalid Bool.false_ne_true, ?_⟩
      rintro ⟨hserv, -, -, -⟩
      unfold registered at hserv
      rw [hnone] at hserv
      cases hserv
    next info hinfo =>
      have hreg : registered s name = some info.service := by
        unfold registered
        rw [hinfo]
        rfl
      split_ifs at h with hattr
      · split at h
        · cases h
        next s₁ bound hloop =>
          obtain ⟨hs₁, hall, -⟩ := ih.dependencies hs hinit hloop
          obtain ⟨hdeps, hagr⟩ := hall rfl
          obtain ⟨hvalid, hopens⟩ := acquire_opens hs₁ h
          refine ⟨hs₁.acquire h, fun htrue => ?_, ?_⟩
          · obtain ⟨hopen, hagr'⟩ := hvalid htrue
            exact ⟨.intro hreg hattr hdeps ((hagr.opens name).mp hopen), hagr.trans hagr'⟩
          · rintro ⟨-, -, -, hopen⟩
            exact hopens ((hagr.opens name).mpr hopen)
        next s₁ bound hloop =>
          obtain ⟨hs₁, -, hconverse⟩ := ih.dependencies hs hinit hloop
          cases h
          refine ⟨hs₁.release bound, fun hvalid => absurd hvalid Bool.false_ne_true, ?_⟩
          rintro ⟨hserv, -, hdeps, -⟩
          obtain rfl := some.inj (hreg.symm.trans hserv)
          exact absurd (hconverse hdeps) Bool.false_ne_true
      · cases h
        refine ⟨hs, fun hvalid => absurd hvalid Bool.false_ne_true, ?_⟩
        rintro ⟨hserv, hbind, -, -⟩
        obtain rfl := some.inj (hreg.symm.trans hserv)
        exact absurd hbind hattr

end

/-! ### Enough calls inside one another -/

section
variable {cat : Catalog} {starts : ServiceId → Bool} {f g : State → ServiceName → Option (State × ServiceBinding)}
  {s s' : State} {name : ServiceName}

theorem bindDependencies_mono (hfg : ∀ s name x, f s name = some x → g s name = some x) {dependencies : List ServiceName}
    {bound : ServiceBinding} {x : State × ServiceBinding × Bool} (h : bindDependencies f s dependencies bound = some x) :
    bindDependencies g s dependencies bound = some x := by
  induction dependencies generalizing s bound with
  | nil => exact h
  | cons dependency dependencies ih =>
    unfold bindDependencies at h ⊢
    split at h
    · cases h
    next s₁ binding hcall =>
      rw [hfg _ _ _ hcall]
      dsimp only
      split_ifs at h ⊢
      · exact ih h
      · exact h

theorem bind_succ {fuel : ℕ} {x : State × ServiceBinding} (h : bind cat starts fuel s name = some x) :
    bind cat starts (fuel + 1) s name = some x := by
  induction fuel generalizing s name x with
  | zero => cases h
  | succ fuel ih =>
    have hmono : ∀ s name x, bind cat starts fuel s name = some x → bind cat starts (fuel + 1) s name = some x :=
      fun s name x hx => ih hx
    unfold bind at h ⊢
    split_ifs at h ⊢
    · split at h
      · exact h
      next info hinfo =>
        split_ifs at h ⊢
        · split at h
          · cases h
          next hloop =>
            rw [bindDependencies_mono hmono hloop]
            exact h
          next hloop =>
            rw [bindDependencies_mono hmono hloop]
            exact h
        · exact h
    · exact h

theorem bind_mono {fuel fuel' : ℕ} (hle : fuel ≤ fuel') (h : (bind cat starts fuel s name).isSome = true) :
    (bind cat starts fuel' s name).isSome = true := by
  induction hle with
  | refl => exact h
  | step _ ih =>
    obtain ⟨x, hx⟩ := isSome_iff_exists.mp ih
    exact isSome_iff_exists.mpr ⟨x, bind_succ hx⟩

/-- The calls for some dependencies of a list come back in one bound if each that is made comes back. -/
theorem common_fuel {P : ServiceName → Prop} (names : List ServiceName)
    (h : ∀ d ∈ names, P d → ∃ fuel, ∀ s', Agrees cat starts s s' → (bind cat starts fuel s' d).isSome = true) :
    ∃ fuel, ∀ d ∈ names, P d → ∀ s', Agrees cat starts s s' → (bind cat starts fuel s' d).isSome = true := by
  induction names with
  | nil => exact ⟨0, fun d hd => absurd hd not_mem_nil⟩
  | cons first names ih =>
    obtain ⟨fuel, hrest⟩ := ih fun d hd => h d (mem_cons_of_mem _ hd)
    by_cases hP : P first
    · obtain ⟨fuel', hfst⟩ := h first mem_cons_self hP
      refine ⟨max fuel fuel', forall_mem_cons.mpr ⟨fun _ s' hs' => ?_, fun d hd hPd s' hs' => ?_⟩⟩
      · exact bind_mono (le_max_right _ _) (hfst s' hs')
      · exact bind_mono (le_max_left _ _) (hrest d hd hPd s' hs')
    · exact ⟨fuel, forall_mem_cons.mpr ⟨fun hp => absurd hp hP, hrest⟩⟩

theorem acquire_isSome {bound : ServiceBinding} (hs : Between cat s) : (acquire starts s name bound).isSome = true := by
  unfold acquire
  split
  · rfl
  next info hinfo =>
    rcases hs.settled name info hinfo with hstate | hstate
    · rw [hstate]
      dsimp only
      split_ifs <;> rfl
    · rw [hstate]
      rfl

theorem dependencies_return {fuel : ℕ} (hinit : s.isInitialized = true) {before dependencies : List ServiceName}
    (hbef : ∀ d ∈ before, Bindable cat starts s d)
    (hcs : ∀ pre d post, before ++ dependencies = pre ++ d :: post → (∀ e ∈ pre, Bindable cat starts s e) →
      ∀ s', Agrees cat starts s s' → (bind cat starts fuel s' d).isSome = true)
    (hs : Between cat s) (hagr : Agrees cat starts s s') (bound : ServiceBinding) :
    (bindDependencies (bind cat starts fuel) s' dependencies bound).isSome = true := by
  induction dependencies generalizing before s' bound with
  | nil => rfl
  | cons dependency dependencies ih =>
    obtain ⟨⟨s₁, binding⟩, hcall⟩ := isSome_iff_exists.mp (hcs before dependency dependencies rfl hbef s' hagr)
    obtain ⟨-, hvalid, -⟩ := bind_binds fuel s' dependency s₁ binding hagr.between (hagr.isInitialized.trans hinit) hcall
    unfold bindDependencies
    rw [hcall]
    dsimp only
    split_ifs with hok
    · obtain ⟨hbind, hagr'⟩ := hvalid hok
      have hbound : ∀ d ∈ before ++ [dependency], Bindable cat starts s d := by
        intro d hd
        rcases mem_append.mp hd with hold | hlast
        · exact hbef d hold
        · rw [mem_singleton.mp hlast]
          exact (hagr.symm hs).bindable hbind
      refine ih hbound (fun pre d post hsplit => hcs pre d post ?_) (hagr.trans hagr') _
      rw [← hsplit, append_assoc, singleton_append]
    · rfl

theorem bind_of_acc (hs : Between cat s) (hinit : s.isInitialized = true)
    (hacc : Acc (fun dependency name => Calls cat starts s name dependency) name) :
    ∃ fuel, ∀ s', Agrees cat starts s s' → (bind cat starts fuel s' name).isSome = true := by
  induction hacc with
  | intro name _ ih =>
    cases hreg : registered s name with
    | none =>
      refine ⟨1, fun s' hagr => ?_⟩
      have hnone : s'.services name = none := map_eq_none_iff.mp ((hagr.registered name).trans hreg)
      unfold bind
      rw [hnone]
      split_ifs <;> rfl
    | some service =>
      by_cases hattr : (cat service).bindable = true
      · obtain ⟨fuel, hfuel⟩ := common_fuel (P := Calls cat starts s name) (cat service).dependencies
          fun d _ hcall => ih d hcall
        refine ⟨fuel + 1, fun s' hagr => ?_⟩
        obtain ⟨info, hinfo, hserv⟩ := map_eq_some_iff.mp ((hagr.registered name).trans hreg)
        have hmem : ∀ {pre d post}, [] ++ (cat service).dependencies = pre ++ d :: post → d ∈ (cat service).dependencies := by
          intro pre d post hsplit
          rw [show (cat service).dependencies = pre ++ d :: post from hsplit]
          exact mem_append_right _ mem_cons_self
        have hcs : ∀ pre d post, [] ++ (cat service).dependencies = pre ++ d :: post →
            (∀ e ∈ pre, Bindable cat starts s e) → ∀ s', Agrees cat starts s s' → (bind cat starts fuel s' d).isSome = true :=
          fun pre d post hsplit hpre => hfuel d (hmem hsplit) ⟨service, pre, post, hreg, hattr, hsplit, hpre⟩
        have hloop := dependencies_return hinit (fun d hd => absurd hd not_mem_nil) hcs hs hagr []
        obtain ⟨⟨s₁, bound, all⟩, hsome⟩ := isSome_iff_exists.mp hloop
        have hs₁ := ((bind_binds fuel).dependencies hagr.between (hagr.isInitialized.trans hinit) (hserv ▸ hsome)).1
        unfold bind
        rw [if_pos (hagr.isInitialized.trans hinit), hinfo]
        dsimp only
        rw [hserv, if_pos hattr, hsome]
        cases all with
        | true => exact acquire_isSome hs₁
        | false => rfl
      · refine ⟨1, fun s' hagr => ?_⟩
        obtain ⟨info, hinfo, hserv⟩ := map_eq_some_iff.mp ((hagr.registered name).trans hreg)
        unfold bind
        rw [if_pos (hagr.isInitialized.trans hinit), hinfo]
        dsimp only
        rw [hserv, if_neg hattr]
        rfl

theorem bind_of_leadsToCycle (hinit : s.isInitialized = true)
    (h : LeadsToCycle (Calls cat starts s) name) (fuel : ℕ) (hagr : Agrees cat starts s s') :
    bind cat starts fuel s' name = none := by
  induction fuel generalizing s' name with
  | zero => rfl
  | succ fuel ih =>
    obtain ⟨dependency, ⟨service, before, after, hreg, hattr, hsplit, hbef⟩, hcycle⟩ := h.next
    obtain ⟨info, hinfo, hserv⟩ := map_eq_some_iff.mp ((hagr.registered name).trans hreg)
    have hloop : ∀ before, (∀ d ∈ before, Bindable cat starts s d) → ∀ s', Agrees cat starts s s' → ∀ bound,
        bindDependencies (bind cat starts fuel) s' (before ++ dependency :: after) bound = none := by
      intro before
      induction before with
      | nil =>
        intro _ s' hagr bound
        show bindDependencies _ s' (dependency :: after) bound = none
        unfold bindDependencies
        rw [ih hcycle hagr]
      | cons first before ihloop =>
        intro hbef s' hagr bound
        obtain ⟨hfst, hrest⟩ := forall_mem_cons.mp hbef
        show bindDependencies _ s' (first :: (before ++ dependency :: after)) bound = none
        unfold bindDependencies
        cases hcall : bind cat starts fuel s' first with
        | none => rfl
        | some x =>
          obtain ⟨s₁, binding⟩ := x
          obtain ⟨-, hvalid, hbind⟩ :=
            bind_binds fuel s' first s₁ binding hagr.between (hagr.isInitialized.trans hinit) hcall
          have hok := hbind (hagr.bindable hfst)
          dsimp only
          rw [if_pos hok]
          exact ihloop hrest s₁ (hagr.trans (hvalid hok).2) _
    unfold bind
    rw [if_pos (hagr.isInitialized.trans hinit), hinfo]
    dsimp only
    rw [hserv, if_pos hattr, hsplit, hloop before hbef s' hagr []]

end

/-! ### Every registry -/

section
variable {cat : Catalog} {s s' : State}

theorem Between.removeService (hs : Between cat s) (name : ServiceName) : Between cat (removeService s name) := by
  unfold Recursion.removeService
  split_ifs
  · exact hs
  · split
    · exact hs
    next info _ =>
      have hgone : ∀ n i, update s.services name none n = some i → n ≠ name ∧ s.services n = some i := by
        intro n i hi
        by_cases hn : n = name
        · subst hn
          rw [update_self] at hi
          cases hi
        · rw [update_of_ne hn] at hi
          exact ⟨hn, hi⟩
      dsimp only
      split_ifs <;> refine ⟨fun n i hi => ?_, fun n i hi => ?_, fun n i hi => ?_⟩ <;> obtain ⟨hn, hold⟩ := hgone n i hi
      · exact hs.name n i hold
      · exact hs.settled n i hold
      · exact mem_filter.mpr ⟨hs.listed n i hold, decide_eq_true hn⟩
      · exact hs.name n i hold
      · exact hs.settled n i hold
      · exact mem_filter.mpr ⟨hs.listed n i hold, decide_eq_true hn⟩

theorem Between.addService (hs : Between cat s) (service : ServiceId) (ok : Bool) : Between cat (addService cat s service ok) := by
  have hemplace : ∀ {s : State}, Between cat s → Between cat
      { s.setInfo (cat service).name { service := service, registration := s.nextRegistration } with
        initOrder := s.initOrder ++ [(cat service).name]
        nextRegistration := s.nextRegistration + 1 } := by
    intro s hs
    have hcases : ∀ n i, update s.services (cat service).name
        (some { service := service, registration := s.nextRegistration }) n = some i →
          (n = (cat service).name ∧ i = { service := service, registration := s.nextRegistration }) ∨ s.services n = some i := by
      intro n i hi
      by_cases hn : n = (cat service).name
      · subst hn
        rw [update_self] at hi
        exact .inl ⟨rfl, (some.inj hi).symm⟩
      · rw [update_of_ne hn] at hi
        exact .inr hi
    refine ⟨fun n i hi => ?_, fun n i hi => ?_, fun n i hi => ?_⟩ <;> rcases hcases n i hi with ⟨rfl, rfl⟩ | hold
    · rfl
    · exact hs.name n i hold
    · exact .inl rfl
    · exact hs.settled n i hold
    · exact mem_append_right _ (mem_singleton_self _)
    · exact mem_append_left _ (hs.listed n i hold)
  unfold Recursion.addService
  dsimp only
  split
  · exact hs
  · split_ifs
    · exact hemplace hs
    · exact hemplace (hs.setObject service _)
    · exact hs

theorem Between.bind (hs : Between cat s) {starts : ServiceId → Bool} {fuel : ℕ} {name : ServiceName} {b : ServiceBinding}
    (h : bind cat starts fuel s name = some (s', b)) : Between cat s' := by
  by_cases hinit : s.isInitialized = true
  · exact (bind_binds fuel s name s' b hs hinit h).1
  · cases fuel with
    | zero => cases h
    | succ fuel =>
      unfold Recursion.bind at h
      rw [if_neg hinit] at h
      cases h
      exact hs

theorem between_inductive (cat : Catalog) : (serialManager cat).Inductive (fun _ _ => True) (Between cat) where
  init s hs := by
    obtain ⟨isInitialized, rfl⟩ := hs
    refine ⟨?_, ?_, ?_⟩ <;> intro name info hinfo <;> cases hinfo
  step s call s' hs _ hst := by
    have hst : step cat s call = some s' := hst
    unfold step at hst
    cases call with
    | add service ok => exact some.inj hst ▸ hs.addService service ok
    | remove name => exact some.inj hst ▸ hs.removeService name
    | bind name starts fuel =>
      dsimp only at hst
      split at hst
      · cases hst
      next s₁ b hbind =>
        cases hst
        have hs₁ := hs.bind hbind
        exact ⟨hs₁.name, hs₁.settled, hs₁.listed⟩
    | release target =>
      dsimp only at hst
      split at hst
      · cases hst
      next binding _ =>
        cases hst
        have hs₁ := hs.release binding
        exact ⟨hs₁.name, hs₁.settled, hs₁.listed⟩

end

/-- **When `bind` comes back.** For every registry that calls can make, whatever the starts come to. -/
theorem bind_returns_iff {cat : Catalog} {s : State} (h : (serialManager cat).Reachable s) (starts : ServiceId → Bool)
    (name : ServiceName) :
    (∃ fuel, (bind cat starts fuel s name).isSome = true) ↔
      (s.isInitialized = true → ¬ LeadsToCycle (Calls cat starts s) name) := by
  have hs : Between cat s := (between_inductive cat).reach h
  constructor
  · rintro ⟨fuel, hrets⟩ hinit hcycle
    rw [bind_of_leadsToCycle hinit hcycle fuel (.refl hs)] at hrets
    exact Bool.false_ne_true hrets
  · intro hnot
    by_cases hinit : s.isInitialized = true
    · have hfinite : {name | ∃ dependency, Calls cat starts s name dependency}.Finite := by
        refine s.initOrder.finite_toSet.subset ?_
        rintro name ⟨dependency, service, before, after, hreg, -⟩
        obtain ⟨info, hinfo, -⟩ := map_eq_some_iff.mp hreg
        exact hs.listed name info hinfo
      obtain ⟨fuel, hfuel⟩ := bind_of_acc hs hinit (acc_of_not_leadsToCycle hfinite (hnot hinit))
      exact ⟨fuel, hfuel s (.refl hs)⟩
    · refine ⟨1, ?_⟩
      unfold bind
      rw [if_neg hinit]
      rfl

/-- `x` depends on `y`, and `y` on `w` and then on `x`. -/
def circle : Catalog
  | 0 => { name := "x", dependencies := ["y"] }
  | 1 => { name := "y", dependencies := ["w", "x"] }
  | _ => { name := "w" }

def circleRun : List Call := [.add 0 true, .add 1 true]

/-- While `w` is missing `bind` comes back. -/
theorem bind_returns_iff_circleRun : ∃ s, (serialManager circle).exec { isInitialized := true, bindings := [], threads := [] }
    circleRun = some s ∧ ¬ LeadsToCycle (Calls circle (fun _ => true) s) "x" := by
  obtain ⟨s, hs, hfacts⟩ := map_eq_some_iff.mp (by decide +kernel : ((serialManager circle).exec
    { isInitialized := true, bindings := [], threads := [] } circleRun).map
      (fun s => (s.isInitialized, (bind circle (fun _ => true) 3 s "x").isSome)) = some (true, true))
  obtain ⟨hinit, hbind⟩ := Prod.mk.inj hfacts
  exact ⟨s, hs, (bind_returns_iff (.exec (.init ⟨true, rfl⟩) hs) _ _).mp ⟨3, hbind⟩ hinit⟩

/-- With `w` registered it does not. -/
theorem bind_not_returns : ¬ ∀ (cat : Catalog) (s : State), (serialManager cat).Reachable s →
    ∀ (starts : ServiceId → Bool) (name : ServiceName), ∃ fuel, (bind cat starts fuel s name).isSome = true := by
  intro hall
  obtain ⟨s, hs, hfacts⟩ := map_eq_some_iff.mp (by decide +kernel : ((serialManager circle).exec
    { isInitialized := true, bindings := [], threads := [] } (circleRun ++ [.add 2 true])).map (fun s =>
      ((s.isInitialized, registered s "x", registered s "y", registered s "w"),
        s.services "w", (start (s.objects 2) true).2)) =
      some ((true, some 0, some 1, some 2), some { service := 2, registration := 2 }, true))
  obtain ⟨hreg, hw⟩ := Prod.mk.inj hfacts
  obtain ⟨hinit, hx, hy, hw'⟩ : s.isInitialized = true ∧ registered s "x" = some 0 ∧ registered s "y" = some 1 ∧
      registered s "w" = some 2 := by simpa using hreg
  obtain ⟨hinfo, hstart⟩ := Prod.mk.inj hw
  have hbind : Bindable circle (fun _ => true) s "w" :=
    .intro hw' rfl (fun d hd => absurd hd not_mem_nil) ⟨_, hinfo, .inr ⟨rfl, hstart⟩⟩
  have hxy : Calls circle (fun _ => true) s "x" "y" := ⟨0, [], [], hx, rfl, rfl, fun d hd => absurd hd not_mem_nil⟩
  have hyx : Calls circle (fun _ => true) s "y" "x" :=
    ⟨1, ["w"], [], hy, rfl, rfl, fun d hd => mem_singleton.mp hd ▸ hbind⟩
  have hreach : (serialManager circle).Reachable s := .exec (.init ⟨true, rfl⟩) hs
  obtain ⟨fuel, hrets⟩ := hall circle s hreach (fun _ => true) "x"
  have hbtw : Between circle s := (between_inductive circle).reach hreach
  have hcycle : LeadsToCycle (Calls circle (fun _ => true) s) "x" := ⟨"x", .refl, .head hxy (.single hyx)⟩
  rw [bind_of_leadsToCycle hinit hcycle fuel (.refl hbtw)] at hrets
  exact Bool.false_ne_true hrets

end Brookesia.ServiceManager.Recursion
