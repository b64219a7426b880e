import Brookesia.Runtime.Requests

/-! # Requests of an app run end with it

What is left of an app's finish requests and tokens at the exits of the runtime's operations, over all
runs: every script and every success of the backend. -/

namespace Brookesia.Runtime

open Transition List Option
open Function (update update_of_ne update_apply)

/-- The exits after which an app has nothing left: `stop_app`, `unload_app`, a failed `start_app` and a
failed `load_app`. -/
def endsRun : Operation → Bool → Bool
  | .stopApp, _ | .unloadApp, _ => true
  | .startApp, ok | .loadApp, ok => !ok
  | .callFunction, _ => false

/-- What the runs are to keep, on a thread whose current app is `ambient` outside of the runtime. -/
structure RequestsEnd (ambient : Option AppId) (s : State) : Prop where
  /-- What an app asks during a start or a call of it is answered when the outermost one returns. -/
  answered : ∀ app, unanswered true app s.history = true → inCall s.calls app = true
  /-- An app is stopped on a request when its outermost start or call has returned, not before. -/
  outermost : s.calls.Pairwise fun f g => f.stopping = true → g.isCall = true → g.app ≠ f.app
  /-- An app is stopped on a request only where it has asked itself and was not answered since. -/
  own : ∀ app before, (.requestStop app :: before) <:+ s.history → unanswered false app before = true
  released : s.calls = [] → ∀ operation app ok before, s.history = .returned operation app ok :: before →
    endsRun operation ok = true →
    app ∉ s.finishRequests ∧ s.appIdToToken app = none ∧ ∀ token, s.tokenToAppId token ≠ some app
  restored : s.calls = [] → s.currentAppId = ambient

/-- What the backend's return to an `operation` of the app of `f` is not to leave behind. -/
def leavesNothing (s : State) (f : Frame) (rest : List Frame) : Operation → Bool → Prop
  | .loadApp, false | .unloadApp, _ => f.app ∉ s.finishRequests ∧ s.appIdToToken f.app = none
  | .startApp, true | .callFunction, true => f.app ∈ s.finishRequests → inCall rest f.app = false
  | .callFunction, false => unanswered true f.app s.history = true → inCall rest f.app = true
  | .loadApp, true | .startApp, false | .stopApp, _ => True

/-- The backend's return to `f` over `rest` leaves no request behind. -/
def returnsClean (s : State) (f : Frame) (rest : List Frame) (ok : Bool) : Prop :=
  f.stopping = true ∨ leavesNothing s f rest f.operation ok

/-- Scripts reach the runtime through the modules of their own app, and the backend returns when
nothing is left behind. -/
def Condition (s : State) : Label → Prop
  | .finishApp | .currentAppContext => ∀ f ∈ s.calls.head?, modulesOf s f = f.app
  | .backendReturns ok => ∀ f ∈ s.calls.head?, returnsClean s f s.calls.tail ok
  | .loadApp _ | .unloadApp _ | .startApp _ | .stopApp _ | .callFunction _ | .attachAppContext _ | .detachAppContext => True

instance (s : State) (f : Frame) (rest : List Frame) (operation : Operation) (ok : Bool) :
    Decidable (leavesNothing s f rest operation ok) :=
  match operation, ok with
  | .loadApp, false => inferInstanceAs (Decidable (_ ∧ _))
  | .unloadApp, false => inferInstanceAs (Decidable (_ ∧ _))
  | .unloadApp, true => inferInstanceAs (Decidable (_ ∧ _))
  | .startApp, true => inferInstanceAs (Decidable (_ → _))
  | .callFunction, true => inferInstanceAs (Decidable (_ → _))
  | .callFunction, false => inferInstanceAs (Decidable (_ → _))
  | .loadApp, true => isTrue trivial
  | .startApp, false => isTrue trivial
  | .stopApp, false => isTrue trivial
  | .stopApp, true => isTrue trivial

instance (s : State) (f : Frame) (rest : List Frame) (ok : Bool) : Decidable (returnsClean s f rest ok) :=
  inferInstanceAs (Decidable (_ ∨ _))

instance (s : State) (label : Label) : Decidable (Condition s label) :=
  match label with
  | .finishApp => inferInstanceAs (Decidable (∀ _ ∈ _, _))
  | .currentAppContext => inferInstanceAs (Decidable (∀ _ ∈ _, _))
  | .backendReturns _ => inferInstanceAs (Decidable (∀ _ ∈ _, _))
  | .loadApp _ => isTrue trivial
  | .unloadApp _ => isTrue trivial
  | .startApp _ => isTrue trivial
  | .stopApp _ => isTrue trivial
  | .callFunction _ => isTrue trivial
  | .attachAppContext _ => isTrue trivial
  | .detachAppContext => isTrue trivial

structure Inv (ambient : Option AppId) (s : State) : Prop where
  tokens : s.TokensAgree
  loaded : Loaded s
  fits : Fits s.calls s.finishRequests s.history
  released : s.calls = [] → ∀ operation app ok before, s.history = .returned operation app ok :: before →
    endsRun operation ok = true → Released s app
  unwinds : unwind s.calls s.currentAppId = ambient

variable {s : State} {ambient : Option AppId} {id : AppId} {f : Frame} {rest : List Frame} {ok : Bool}

theorem Inv.requestsEnd (h : Inv ambient s) : RequestsEnd ambient s where
  answered := fun app happ => (h.fits.answered app happ).1
  outermost := h.fits.outermost
  own := h.fits.own
  released := fun hnil operation app ok before hhist hends => by
    obtain ⟨hreq, htoken⟩ := h.released hnil operation app ok before hhist hends
    refine ⟨hreq, htoken, fun token heq => ?_⟩
    rw [h.tokens.agree, htoken] at heq
    cases heq
  restored := fun hnil => by
    have hunw := h.unwinds
    rw [hnil] at hunw
    exact hunw

/-! ### Operations begin -/

theorem Inv.refuse (h : Inv ambient s) {operation : Operation} (hop : s.calls = [] ∨ operation = .callFunction)
    (hnone : getAppAndBackend s id = none) : Inv ambient (refuse s operation id) := by
  have hclean : s.calls = [] → Released s id := fun hnil =>
    h.loaded.clean id (h.loaded.apps_eq_none hnone) fun f hf => absurd (hnil ▸ hf) not_mem_nil
  refine ⟨h.tokens, { h.loaded with }, h.fits.refuse fun hstart => ?_, fun hnil => ?_, h.unwinds⟩
  · obtain hnil | rfl := hop
    · exact (hclean hnil).1
    · cases hstart
  · intro _ app _ _ hhist _
    obtain ⟨-, rfl, -⟩ := Event.returned.inj (cons.inj hhist).1
    exact hclean hnil

theorem Inv.enter (h : Inv ambient s) {operation : Operation} {backend : BackendType} {guards : List AppContextGuard}
    {current : Option AppId} (hknown : operation ≠ .loadApp → (s.apps id).isSome = true)
    (hnest : operation = .callFunction ∨ s.calls = []) (hback : getBackend s backend = some backend)
    (hguards : destroy guards current = s.currentAppId) :
    Inv ambient (enter { s with currentAppId := current } operation id backend guards) where
  tokens := h.tokens
  loaded := Loaded.enter (s := { s with currentAppId := current }) { h.loaded with } hknown hnest hback
  fits := h.fits.push rfl
  released := fun hnil => absurd hnil (cons_ne_nil _ _)
  unwinds := by
    change unwind s.calls (destroy guards current) = ambient
    rw [hguards]
    exact h.unwinds

theorem Inv.begin (h : Inv ambient s) {operation : Operation} {backend : BackendType}
    (hknown : operation ≠ .loadApp → (s.apps id).isSome = true)
    (hnest : operation = .callFunction ∨ s.calls = []) (hback : getBackend s backend = some backend) :
    Inv ambient (Runtime.enter s operation id backend []) :=
  h.enter hknown hnest hback rfl

theorem Inv.loadApp (h : Inv ambient s) (hnil : s.calls = []) (type : BackendType) : Inv ambient (loadApp s type) := by
  unfold Runtime.loadApp
  split
  · split
    · exact h
    · next backend hback =>
      let t : State := { s with
        nextAppId := s.nextAppId + 1
        nativeModules := update s.nativeModules backend s.nextAppId }
      have ht : Inv ambient t := ⟨h.tokens, { h.loaded with }, h.fits, h.released, h.unwinds⟩
      have hback : getBackend t backend = some backend := getBackend_idem hback
      exact ht.begin (fun hop => absurd rfl hop) (.inr hnil) hback
  · exact h

theorem Inv.unloadApp (h : Inv ambient s) (hnil : s.calls = []) (id : AppId) : Inv ambient (unloadApp s id) := by
  unfold Runtime.unloadApp
  split
  · next hnone => exact h.refuse (.inl hnil) hnone
  · next backend hback =>
    obtain ⟨hsome, hback⟩ := getAppAndBackend_some hback
    have hfits : Fits [] (s.finishRequests.erase id) s.history :=
      Fits.drop (hnil ▸ h.fits) (Finset.erase_subset _ _)
    have heq := releaseAppResources_eq s id
    have ht : Inv ambient (releaseAppResources s id) := by
      refine ⟨h.tokens.releaseResources id, h.loaded.release id, ?_, ?_, ?_⟩
      · rw [heq, hnil]
        exact hfits
      · intro _ operation app ok before hhist hends
        rw [heq] at hhist
        exact (h.released hnil operation app ok before hhist hends).release id
      · rw [heq]
        exact h.unwinds
    have hsome : ((releaseAppResources s id).apps id).isSome = true := by rw [heq]; exact hsome
    have hback : getBackend (releaseAppResources s id) backend = some backend := by rw [heq]; exact hback
    have hnil : (releaseAppResources s id).calls = [] := by rw [heq]; exact hnil
    exact ht.begin (fun _ => hsome) (.inr hnil) hback

theorem Inv.startApp (h : Inv ambient s) (hnil : s.calls = []) (id : AppId) : Inv ambient (startApp s id) := by
  unfold Runtime.startApp
  split
  · next hnone => exact h.refuse (.inl hnil) hnone
  · next backend hback =>
    obtain ⟨hsome, hback⟩ := getAppAndBackend_some hback
    exact h.enter (fun _ => hsome) (.inr hnil) hback rfl

theorem Inv.stopApp (h : Inv ambient s) (hnil : s.calls = []) (id : AppId) : Inv ambient (stopApp s id) := by
  unfold Runtime.stopApp
  split
  · next hnone => exact h.refuse (.inl hnil) hnone
  · next backend hback =>
    obtain ⟨hsome, hback⟩ := getAppAndBackend_some hback
    let t : State := (consumeAppFinishRequest s id).2
    have hfewer : s.finishRequests.erase id ⊆ s.finishRequests := Finset.erase_subset _ _
    have ht : Inv ambient t := by
      refine ⟨h.tokens, { h.loaded with clean := fun app happ hldg => ?_ }, ?_, ?_, h.unwinds⟩
      · exact (h.loaded.clean app happ hldg).imp_left fun hnot hmem => hnot (hfewer hmem)
      · change Fits s.calls (s.finishRequests.erase id) s.history
        rw [hnil]
        exact Fits.drop (hnil ▸ h.fits) hfewer
      · intro _ operation app ok before hhist hends
        exact (h.released hnil operation app ok before hhist hends).imp_left fun hnot hmem => hnot (hfewer hmem)
    exact ht.begin (fun _ => hsome) (.inr hnil) hback

theorem callFunctionNative_eq (s : State) (f : Frame) (id : AppId) :
    callFunctionNative s f id = match getAppAndBackend s id with
      | none => refuse s .callFunction id
      | some backend =>
        enter { s with currentAppId := some id } .callFunction id backend
          [⟨some (modulesOf s f)⟩, ⟨s.currentAppId⟩] := rfl

theorem Inv.callFunction (h : Inv ambient s) (id : AppId) : Inv ambient (callFunction s id []) := by
  unfold Runtime.callFunction
  split
  · next hnone => exact h.refuse (.inr rfl) hnone
  · next backend hback =>
    obtain ⟨hsome, hback⟩ := getAppAndBackend_some hback
    exact h.enter (fun _ => hsome) (.inl rfl) hback rfl

theorem Inv.callFunctionNative (h : Inv ambient s) (f : Frame) (id : AppId) :
    Inv ambient (callFunctionNative s f id) := by
  rw [callFunctionNative_eq]
  split
  · next hnone => exact h.refuse (.inr rfl) hnone
  · next backend hback =>
    obtain ⟨hsome, hback⟩ := getAppAndBackend_some hback
    exact h.enter (fun _ => hsome) (.inl rfl) hback rfl

/-! ### Scripts -/

/-- The context a script attaches is gone when the native function returns. -/
theorem callNative_attachContext (s : State) (f : Frame) (token : Nat) :
    callNative s f (attachContext · token) = s := by
  unfold callNative attachContext
  dsimp only [makeAppContextGuard]
  split <;> rfl

theorem callNative_detachContext (s : State) (f : Frame) : callNative s f detachContext = s := rfl

theorem getCurrentAppId_some (s : State) (id : AppId) :
    getCurrentAppId { s with currentAppId := some id } = if id = invalidAppId then none else some id := by
  unfold getCurrentAppId
  by_cases h : id = invalidAppId <;> simp [h, Option.filter]

theorem callNative_finishApp (s : State) (f : Frame) (hown : modulesOf s f = f.app) (called : Bool) :
    callNative s f (finishApp · f.app called) = if f.app = invalidAppId then s else { s with
      finishRequests := insert f.app s.finishRequests
      history := .finishApp f.app called :: s.history } := by
  unfold callNative finishApp
  dsimp only [makeAppContextGuard]
  rw [hown, getCurrentAppId_some]
  split_ifs <;> rfl

theorem callNative_currentAppContext (s : State) (f : Frame) (hown : modulesOf s f = f.app) :
    callNative s f currentAppContext = if f.app = invalidAppId then s else getOrCreateContextToken s f.app := by
  unfold callNative currentAppContext getOrCreateContextToken
  dsimp only [makeAppContextGuard]
  rw [hown, getCurrentAppId_some]
  split_ifs
  · rfl
  · dsimp only
    split <;> rfl

theorem Loaded.grant (h : Loaded s) (hf : f ∈ s.calls) {t : State} (hsame : s.calls = t.calls ∧ s.apps = t.apps ∧
    s.appBackendTypes = t.appBackendTypes ∧ s.backends = t.backends)
    (hoth : ∀ app ≠ f.app, Released s app → Released t app) : Loaded t := by
  obtain ⟨hcs, happs, htypes, hbackends⟩ := hsame
  have hgetBackend : ∀ type, getBackend t type = getBackend s type := fun type => by
    unfold getBackend
    rw [hbackends]
  refine ⟨hcs ▸ happs ▸ h.known, hcs ▸ h.nested, ?_, ?_, happs ▸ htypes ▸ h.hasType, fun app happ hldg => ?_⟩
  · exact fun g hg => (hgetBackend _).trans (h.running g (hcs ▸ hg))
  · exact fun app type htype => (hgetBackend _).trans (h.typed app type (htypes ▸ htype))
  · rw [← happs] at happ
    rw [← hcs] at hldg
    refine hoth app ?_ (h.clean app happ hldg)
    rintro rfl
    by_cases hop : f.operation = .loadApp
    · exact hldg f hf hop rfl
    · have hsome := h.known f hf hop
      rw [happ] at hsome
      cases hsome

theorem Inv.finishApp (h : Inv ambient s) (hf : f ∈ s.calls) (hown : modulesOf s f = f.app) :
    Inv ambient (callNative s f (finishApp · f.app (inCall s.calls f.app))) := by
  rw [callNative_finishApp s f hown]
  split
  · exact h
  · refine ⟨h.tokens, h.loaded.grant hf ⟨rfl, rfl, rfl, rfl⟩ ?_, h.fits.finish f.app, ?_, h.unwinds⟩
    · intro app hne hrel
      refine ⟨fun hmem => ?_, hrel.2⟩
      obtain heq | hmem := Finset.mem_insert.mp hmem
      · exact hne heq
      · exact hrel.1 hmem
    · exact fun hnil => absurd (hnil ▸ hf) not_mem_nil

theorem Inv.currentAppContext (h : Inv ambient s) (hf : f ∈ s.calls) (hown : modulesOf s f = f.app) :
    Inv ambient (callNative s f currentAppContext) := by
  rw [callNative_currentAppContext s f hown]
  split
  · exact h
  · have htoks := h.tokens.getOrCreate f.app
    unfold getOrCreateContextToken at htoks ⊢
    split
    · exact h
    · next hnone =>
      rw [hnone] at htoks
      refine ⟨htoks, h.loaded.grant hf ⟨rfl, rfl, rfl, rfl⟩ ?_, h.fits, ?_, h.unwinds⟩
      · intro app hne hrel
        exact ⟨hrel.1, (update_of_ne hne _ _).trans hrel.2⟩
      · exact fun hnil => absurd (hnil ▸ hf) not_mem_nil

/-! ### Operations end -/

theorem unwind_leave (h : Inv ambient s) (hcs : s.calls = f :: rest) :
    unwind rest (destroy f.guards s.currentAppId) = ambient := by
  have hunw := h.unwinds
  rw [hcs] at hunw
  exact hunw

theorem Inv.leave (h : Inv ambient s) (hcs : s.calls = f :: rest) (hstpg : f.stopping = false)
    (hload : f.operation = .loadApp → s.apps f.app = none → Released s f.app)
    (hstart : f.operation = .startApp → ok = true)
    (hleft : f.isCall = true → unanswered true f.app s.history = true → inCall rest f.app = true)
    (hrel : endsRun f.operation ok = true → Released s f.app) : Inv ambient (leave s f rest ok) where
  tokens := h.tokens
  loaded := h.loaded.leave hcs ok hload
  fits := Fits.leave (hcs ▸ h.fits) hstpg hstart hleft
  released := fun _ operation app ok' before hhist hends => by
    obtain ⟨rfl, rfl, rfl⟩ := Event.returned.inj (cons.inj hhist).1
    exact hrel hends
  unwinds := unwind_leave h hcs

theorem Inv.setAppState (h : Inv ambient s) (id : AppId) (state : AppState) : Inv ambient (setAppState s id state) :=
  ⟨h.tokens, h.loaded.setAppState id state, h.fits, h.released, h.unwinds⟩

theorem isCall_iff : f.isCall = true ↔ f.operation = .startApp ∨ f.operation = .callFunction := by
  simp [Frame.isCall]

theorem endsRun_of_isCall (hcall : f.isCall = true) : endsRun f.operation true = false ∧ f.operation ≠ .loadApp := by
  obtain hop | hop := isCall_iff.mp hcall
  · simp [hop, endsRun]
  · simp [hop, endsRun]

theorem Inv.stopAppIfFinishRequested (h : Inv ambient s) (hcs : s.calls = f :: rest) (hstpg : f.stopping = false)
    (hcall : f.isCall = true) {settled : State → State} (hsett : Inv ambient (settled s))
    (hsame : (settled s).calls = s.calls ∧ (settled s).finishRequests = s.finishRequests ∧ (settled s).history = s.history)
    (hclean : f.app ∈ s.finishRequests → inCall rest f.app = false) :
    Inv ambient (stopAppIfFinishRequested s f rest settled) := by
  have hfits : Fits (f :: rest) s.finishRequests s.history := hcs ▸ h.fits
  unfold Runtime.stopAppIfFinishRequested consumeAppFinishRequest
  by_cases hasked : f.app ∈ s.finishRequests
  · have hfewer : s.finishRequests.erase f.app ⊆ s.finishRequests := Finset.erase_subset _ _
    simp only [hasked, decide_true, if_true]
    refine ⟨h.tokens, ?_, hfits.stop hcall hasked (hclean hasked), fun hnil => absurd hnil (cons_ne_nil _ _), ?_⟩
    · -- the frame is the same one but for `stopping`
      have hfr : ∀ g ∈ { f with stopping := true } :: rest, ∃ g' ∈ s.calls,
          g'.operation = g.operation ∧ g'.app = g.app ∧ g'.backend = g.backend := by
        intro g hg
        rw [hcs]
        obtain rfl | hg := mem_cons.mp hg
        · exact ⟨f, mem_cons_self, rfl, rfl, rfl⟩
        · exact ⟨g, mem_cons_of_mem f hg, rfl, rfl, rfl⟩
      refine { h.loaded with known := ?_, nested := ?_, running := ?_, clean := ?_ }
      · intro g hg hop
        obtain ⟨g', hg', hop', happ, -⟩ := hfr g hg
        exact happ ▸ h.loaded.known g' hg' (hop' ▸ hop)
      · intro g hg
        cases hrest : rest with
        | nil => simp [hrest] at hg
        | cons g' rest' =>
          have hnest := h.loaded.nested
          rw [hcs, hrest, dropLast_cons_cons] at hnest
          change g ∈ ({ f with stopping := true } :: rest).dropLast at hg
          rw [hrest, dropLast_cons_cons] at hg
          obtain rfl | hg := mem_cons.mp hg
          · exact hnest f mem_cons_self
          · exact hnest g (mem_cons_of_mem f hg)
      · intro g hg
        obtain ⟨g', hg', -, -, hback⟩ := hfr g hg
        exact hback ▸ h.loaded.running g' hg'
      · intro app happ hldg
        refine (h.loaded.clean app happ fun g hg hop => ?_).imp_left fun hnot hmem => hnot (hfewer hmem)
        rw [hcs] at hg
        obtain rfl | hg := mem_cons.mp hg
        · exact absurd hop (endsRun_of_isCall hcall).2
        · exact hldg g (mem_cons_of_mem _ hg) hop
    · have hunw := h.unwinds
      rw [hcs] at hunw
      exact hunw
  · have hkept : { s with finishRequests := s.finishRequests.erase f.app } = s := by
      rw [Finset.erase_eq_of_notMem hasked]
    simp only [hasked, decide_false, Bool.false_eq_true, if_false]
    rw [hkept]
    obtain ⟨hcallsSame, hrequestsSame, hhistorySame⟩ := hsame
    refine hsett.leave (hcallsSame.trans hcs) hstpg (fun hop => absurd hop (endsRun_of_isCall hcall).2)
      (fun _ => rfl) (fun _ hun => ?_) fun hends => ?_
    · rw [hhistorySame] at hun
      exact hfits.not_unanswered hstpg hasked hun
    · rw [(endsRun_of_isCall hcall).1] at hends
      cases hends

theorem Inv.leaveReleased (h : Inv ambient s) (hcs : s.calls = f :: rest) (state : AppState) {before : List Event}
    (hoth : ∀ onlyInCall, ∀ app ≠ f.app,
      unanswered onlyInCall app (.returned f.operation f.app ok :: before) = unanswered onlyInCall app s.history)
    (hself : unanswered true f.app (.returned f.operation f.app ok :: before) = false)
    (hown : ∀ app earlier, (.requestStop app :: earlier) <:+ before → unanswered false app earlier = true) :
    Inv ambient (Runtime.leave (Runtime.setAppState { releaseAppResources s f.app with history := before } f.app state)
      f rest ok) := by
  have heq := releaseAppResources_eq s f.app
  have hrel := released_releaseAppResources s f.app
  have hfits : Fits (f :: rest) s.finishRequests s.history := hcs ▸ h.fits
  have hcallsRel : (releaseAppResources s f.app).calls = f :: rest := by rw [heq]; exact hcs
  have hloaded : Loaded { releaseAppResources s f.app with history := before } := { h.loaded.release f.app with }
  refine ⟨h.tokens.releaseResources f.app, (hloaded.setAppState f.app state).leave hcallsRel ok fun _ _ => hrel,
    ?_, ?_, ?_⟩
  · have hreqs : (releaseAppResources s f.app).finishRequests = s.finishRequests.erase f.app := by rw [heq]
    change Fits rest (releaseAppResources s f.app).finishRequests _
    rw [hreqs]
    exact hfits.answer hoth hself (own_cons hown fun app heq => Event.noConfusion heq)
  · intro _ operation app ok' earlier hhist _
    obtain ⟨-, rfl, -⟩ := Event.returned.inj (cons.inj hhist).1
    exact hrel
  · have hcur : (releaseAppResources s f.app).currentAppId = s.currentAppId := by rw [heq]
    change unwind rest (destroy f.guards (releaseAppResources s f.app).currentAppId) = ambient
    rw [hcur]
    exact unwind_leave h hcs

theorem Inv.afterStop (h : Inv ambient s) (hcs : s.calls = f :: rest) (ok : Bool) : Inv ambient (afterStop s f rest ok) := by
  have hhist : (releaseAppResources s f.app).history = s.history := by rw [releaseAppResources_eq]
  unfold Runtime.afterStop
  dsimp only
  rw [hhist]
  refine h.leaveReleased hcs (stoppedState ok) (fun onlyInCall app hne => ?_) ?_ ?_
  · have hansw : (Event.returned f.operation f.app ok).answers app = false := by
      cases hop : f.operation <;> cases ok <;> simp [Event.answers, Ne.symm hne]
    change (!(Event.returned f.operation f.app ok).answers app && unanswered _ app _) = _
    rw [hansw, unanswered_stopped, beq_false_of_ne (Ne.symm hne)]
    rfl
  · change (_ && unanswered _ _ _) = false
    rw [unanswered_stopped, beq_self_eq_true]
    exact Bool.and_false _
  · exact own_cons h.fits.own fun app heq => Event.noConfusion heq

theorem Inv.startFailed (h : Inv ambient s) (hcs : s.calls = f :: rest) (hop : f.operation = .startApp) :
    Inv ambient (Runtime.leave (Runtime.setAppState (releaseAppResources s f.app) f.app .error) f rest false) := by
  have hhist : releaseAppResources s f.app = { releaseAppResources s f.app with history := s.history } := by
    rw [releaseAppResources_eq]
  rw [hhist]
  refine h.leaveReleased hcs .error (fun onlyInCall app hne => ?_) ?_ h.fits.own
  · have hansw : (Event.returned f.operation f.app false).answers app = false := by
      simp [hop, Event.answers, Ne.symm hne]
    change (!(Event.returned f.operation f.app false).answers app && unanswered _ app _) = _
    rw [hansw]
    rfl
  · have hansw : (Event.returned f.operation f.app false).answers f.app = true := by
      simp [hop, Event.answers]
    change (!(Event.returned f.operation f.app false).answers f.app && unanswered _ _ _) = _
    rw [hansw]
    rfl

theorem Inv.appLoaded (h : Inv ambient s) (hf : f ∈ s.calls) : Inv ambient { s with
    apps := update s.apps f.app ((s.apps f.app).or (some .loaded))
    appBackendTypes := update s.appBackendTypes f.app ((s.appBackendTypes f.app).or (some f.backend)) } := by
  have hsome : ∀ app, (s.apps app).isSome = true →
      (update s.apps f.app ((s.apps f.app).or (some .loaded)) app).isSome = true := by
    intro app happ
    simp only [update_apply]
    split
    · simp
    · exact happ
  refine ⟨h.tokens, { h.loaded with known := ?_, typed := ?_, hasType := ?_, clean := ?_ }, h.fits, h.released, h.unwinds⟩
  · exact fun g hg hop => hsome g.app (h.loaded.known g hg hop)
  · intro app type htype
    simp only [update_apply] at htype
    split at htype
    · obtain htype | ⟨-, htype⟩ := or_eq_some_iff.mp htype
      · exact h.loaded.typed _ type htype
      · cases htype
        exact h.loaded.running f hf
    · exact h.loaded.typed app type htype
  · intro app happ
    simp only [update_apply] at happ ⊢
    split
    · simp
    · next hne =>
      rw [if_neg hne] at happ
      exact h.loaded.hasType app happ
  · intro app happ hldg
    refine h.loaded.clean app ?_ hldg
    by_contra hold
    exact isSome_iff_ne_none.mp (hsome app (isSome_iff_ne_none.mpr hold)) happ

theorem Inv.appUnloaded (h : Inv ambient s) (hnil : s.calls = []) (hrel : Released s id) : Inv ambient { s with
    apps := update s.apps id none
    appBackendTypes := update s.appBackendTypes id none } := by
  refine ⟨h.tokens, { h.loaded with known := ?_, typed := ?_, hasType := ?_, clean := ?_ }, h.fits, h.released, h.unwinds⟩
  · exact fun g hg => absurd (hnil ▸ hg) not_mem_nil
  · intro app type htype
    simp only [update_apply] at htype
    split at htype
    · cases htype
    · exact h.loaded.typed app type htype
  · intro app happ
    simp only [update_apply] at happ ⊢
    split
    · next heq => simp [heq] at happ
    · next hne =>
      rw [if_neg hne] at happ
      exact h.loaded.hasType app happ
  · intro app happ hldg
    simp only [update_apply] at happ
    split at happ
    · next heq => exact heq ▸ hrel
    · exact h.loaded.clean app happ hldg

theorem Inv.backendReturns (h : Inv ambient s) (hcs : s.calls = f :: rest) (hclean : returnsClean s f rest ok) :
    Inv ambient (backendReturns s f rest ok) := by
  have hf : f ∈ s.calls := hcs ▸ mem_cons_self
  unfold Runtime.backendReturns
  by_cases hstpg : f.stopping = true
  · rw [if_pos hstpg]
    exact h.afterStop hcs ok
  · have hnotStopping : f.stopping = false := Bool.eq_false_iff.mpr hstpg
    have hclean := hclean.resolve_left hstpg
    rw [if_neg hstpg]
    have hnoCall : f.operation ≠ .startApp → f.operation ≠ .callFunction → f.isCall ≠ true := fun h1 h2 hcall =>
      (isCall_iff.mp hcall).elim h1 h2
    cases hop : f.operation with
    | loadApp =>
      have hnot : f.isCall ≠ true := hnoCall (by simp [hop]) (by simp [hop])
      cases ok with
      | true =>
        refine (h.appLoaded hf).leave hcs hnotStopping (fun _ happ => ?_) (fun hstart => ?_) (fun hcall => absurd hcall hnot)
          fun hends => ?_
        · simp at happ
        · rfl
        · simp [hop, endsRun] at hends
      | false =>
        rw [hop] at hclean
        exact h.leave hcs hnotStopping (fun _ _ => hclean) (fun hstart => by simp [hop] at hstart)
          (fun hcall => absurd hcall hnot) fun _ => hclean
    | unloadApp =>
      have hnot : f.isCall ≠ true := hnoCall (by simp [hop]) (by simp [hop])
      have hnil : rest = [] := h.loaded.rest_eq_nil hcs (by simp [hop])
      have hrel : Released s f.app := by
        rw [hop] at hclean
        cases ok <;> exact hclean
      have hleave : ∀ ok, Inv ambient (Runtime.leave s f rest ok) := fun ok =>
        h.leave hcs hnotStopping (fun hload => by simp [hop] at hload) (fun hstart => by simp [hop] at hstart)
          (fun hcall => absurd hcall hnot) fun _ => hrel
      cases ok with
      | true => exact (hleave true).appUnloaded hnil hrel
      | false => exact (hleave false).setAppState f.app .error
    | startApp =>
      have hcall : f.isCall = true := isCall_iff.mpr (.inl hop)
      cases ok with
      | true =>
        rw [hop] at hclean
        change Inv ambient (Runtime.stopAppIfFinishRequested s f rest fun s =>
          if s.apps f.app = some .stopped then s else Runtime.setAppState s f.app .running)
        refine h.stopAppIfFinishRequested hcs hnotStopping hcall ?_ ?_ hclean
        · split
          · exact h
          · exact h.setAppState f.app .running
        · split
          · exact ⟨rfl, rfl, rfl⟩
          · exact ⟨rfl, rfl, rfl⟩
      | false => exact h.startFailed hcs hop
    | stopApp => exact h.afterStop hcs ok
    | callFunction =>
      have hcall : f.isCall = true := isCall_iff.mpr (.inr hop)
      rw [hop] at hclean
      cases ok with
      | true => exact h.stopAppIfFinishRequested hcs hnotStopping hcall h ⟨rfl, rfl, rfl⟩ hclean
      | false =>
        exact h.leave hcs hnotStopping (fun hload => by simp [hop] at hload) (fun hstart => by simp [hop] at hstart)
          (fun _ => hclean) fun hends => by simp [hop, endsRun] at hends

/-! ### Runs -/

theorem inv_init (backends : List BackendType) (initialized : Bool) : Inv ambient (init backends initialized ambient) where
  tokens := by
    constructor
    · exact fun token app => ⟨fun h => absurd h (some_ne_none app).symm, fun h => absurd h (some_ne_none token).symm⟩
    · exact fun app token h => absurd h (some_ne_none token).symm
  loaded := by
    refine ⟨?_, ?_, ?_, ?_, ?_, fun app _ _ => ⟨Finset.notMem_empty app, rfl⟩⟩
    · exact fun f hf => absurd hf not_mem_nil
    · exact fun f hf => absurd hf not_mem_nil
    · exact fun f hf => absurd hf not_mem_nil
    · exact fun app type h => absurd h (some_ne_none type).symm
    · exact fun app h => absurd h Bool.false_ne_true
  fits := by
    refine ⟨fun app happ => absurd happ (Finset.notMem_empty app), fun app happ => absurd happ Bool.false_ne_true, ?_, .nil, ?_⟩
    · exact fun f hf => absurd hf not_mem_nil
    · exact fun app before hsuf => absurd (suffix_nil.mp hsuf) (cons_ne_nil _ _)
  released := fun _ operation app ok before h => absurd h (cons_ne_nil _ _).symm
  unwinds := rfl

theorem inv_inductive (ambient : Option AppId) : (machine ambient).Inductive Condition (Inv ambient) where
  init := by
    rintro _ ⟨backends, initialized, rfl⟩
    exact inv_init backends initialized
  step := by
    intro s label s' h hcond hst
    have hst : step s label = some s' := hst
    unfold step at hst
    cases label with
    | loadApp type =>
      obtain ⟨hnil, rfl⟩ := of_guard hst
      exact h.loadApp hnil type
    | unloadApp id =>
      obtain ⟨hnil, rfl⟩ := of_guard hst
      exact h.unloadApp hnil id
    | startApp id =>
      obtain ⟨hnil, rfl⟩ := of_guard hst
      exact h.startApp hnil id
    | stopApp id =>
      obtain ⟨hnil, rfl⟩ := of_guard hst
      exact h.stopApp hnil id
    | callFunction id =>
      dsimp only at hst
      split at hst
      · cases hst
        exact h.callFunction id
      · next f _ _ =>
        cases hst
        exact h.callFunctionNative f id
    | finishApp =>
      obtain ⟨f, hf, rfl⟩ := map_eq_some_iff.mp hst
      exact h.finishApp (mem_of_head? hf) (hcond f hf)
    | currentAppContext =>
      obtain ⟨f, hf, rfl⟩ := map_eq_some_iff.mp hst
      exact h.currentAppContext (mem_of_head? hf) (hcond f hf)
    | attachAppContext token =>
      obtain ⟨f, -, rfl⟩ := map_eq_some_iff.mp hst
      rw [callNative_attachContext]
      exact h
    | detachAppContext =>
      obtain ⟨f, -, rfl⟩ := map_eq_some_iff.mp hst
      rw [callNative_detachContext]
      exact h
    | backendReturns ok =>
      unfold Condition at hcond
      dsimp only at hst
      split at hst
      · cases hst
      · next f rest hcs =>
        cases hst
        have hclean := hcond f (by rw [hcs]; rfl)
        rw [hcs] at hclean
        exact h.backendReturns hcs hclean

/-- **Requests of an app run end with it**, in every run in which scripts reach the runtime through the
modules of their own app and the backend returns with nothing left behind. -/
theorem requests_end (ambient : Option AppId) (s : State) (h : (machine ambient).Reach Condition s) :
    RequestsEnd ambient s :=
  ((inv_inductive ambient).reach h).requestsEnd

/-- An app that calls another one, which asks to finish and is stopped; the first app asks then, and its
token goes with it. -/
def nestedRun : List Label :=
  [.loadApp .lua, .backendReturns true, .loadApp .lua, .backendReturns true,
   .startApp 1, .currentAppContext, .callFunction 2, .finishApp, .attachAppContext 1, .backendReturns true,
   .backendReturns true, .finishApp, .backendReturns true, .backendReturns true, .unloadApp 1, .backendReturns true]

/-- `requests_end` on `nestedRun`, in which both apps are stopped, the called one first. -/
theorem requests_end_nestedRun : ∃ s, (machine (some 7)).Reach Condition s ∧
    s.history.filter (fun event => event == .requestStop 1 || event == .requestStop 2) = [.requestStop 1, .requestStop 2] ∧
    RequestsEnd (some 7) s := by
  obtain ⟨s, hs, hfacts⟩ := map_eq_some_iff.mp (by decide +kernel :
    ((machine (some 7)).execWhen Condition (init [.lua] true (some 7)) nestedRun).map
      (fun s => s.history.filter fun event => event == .requestStop 1 || event == .requestStop 2) =
      some [.requestStop 1, .requestStop 2])
  have hreach : (machine (some 7)).Reach Condition s := .execWhen (.init ⟨_, _, rfl⟩) hs
  exact ⟨s, hreach, hfacts, requests_end (some 7) s hreach⟩

/-! ### What is left behind -/

def failingRun : List Label :=
  [.loadApp .lua, .backendReturns true, .startApp 1, .backendReturns true, .callFunction 1, .finishApp, .backendReturns false]

/-- The app is not stopped: its request is there for a later run of it. -/
theorem failingRun_unanswered : ¬ ∀ ambient s, (machine ambient).Reachable s → RequestsEnd ambient s := by
  intro hall
  obtain ⟨s, hs, hfacts⟩ := map_eq_some_iff.mp (by decide +kernel :
    ((machine none).exec (init [.lua] true none) failingRun).map (fun s => (s.calls, unanswered true 1 s.history)) =
      some ([], true))
  obtain ⟨hcs, hun⟩ := Prod.mk.inj hfacts
  have hreach : (machine none).Reachable s := .exec (.init ⟨_, _, rfl⟩) hs
  have hin := (hall none s hreach).answered 1 hun
  rw [hcs] at hin
  cases hin

end Brookesia.Runtime
