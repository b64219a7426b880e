import Brookesia.Runtime.Model

/-! # What the apps hold in the runtime

Three things that every step keeps. The two token maps of the function bridge agree (`Tokens`); an
app that is neither loaded nor being loaded holds no finish request and no token (`Loaded`); and the
guards of the operations in progress put the current app of the thread back (`unwind`). -/

namespace Brookesia.Runtime

open List Option

variable {s : State} {ambient : Option AppId} {id : AppId} {f : Frame} {rest : List Frame}

/-! ### Steps field by field -/

theorem releaseAppResources_eq (s : State) (id : AppId) : releaseAppResources s id = { s with
      finishRequests := s.finishRequests.erase id
      appIdToToken := (releaseAppContext s id).appIdToToken
      tokenToAppId := (releaseAppContext s id).tokenToAppId } := by
  unfold releaseAppResources releaseAppContext
  dsimp only
  split <;> rfl

theorem getBackend_idem {type backend : BackendType} (h : getBackend s type = some backend) :
    getBackend s backend = some backend := by
  unfold getBackend at h ⊢
  split at h
  · split at h
    · next hbackends =>
      cases h
      simp [hbackends]
    · cases h
  · next hknown =>
    obtain ⟨hmem, heq⟩ := ite_none_right_eq_some.mp h
    cases heq
    rw [if_neg hknown, if_pos hmem]

theorem getAppAndBackend_some {backend : BackendType} (h : getAppAndBackend s id = some backend) :
    (s.apps id).isSome = true ∧ getBackend s backend = some backend := by
  obtain ⟨state, happ, hback⟩ := bind_eq_some_iff.mp h
  obtain ⟨type, -, htype⟩ := bind_eq_some_iff.mp hback
  exact ⟨isSome_of_mem happ, getBackend_idem htype⟩

/-! ### Tokens -/

/-- The maps of the function bridge. -/
structure Tokens (appIdToToken : AppId → Option Nat) (tokenToAppId : Nat → Option AppId) (next : Nat) : Prop where
  agree : ∀ token app, tokenToAppId token = some app ↔ appIdToToken app = some token
  fresh : ∀ app token, appIdToToken app = some token → token < next

abbrev State.TokensAgree (s : State) : Prop := Tokens s.appIdToToken s.tokenToAppId s.nextTokenId

theorem Tokens.getOrCreate (h : s.TokensAgree) (id : AppId) : (getOrCreateContextToken s id).TokensAgree := by
  unfold getOrCreateContextToken
  split
  · exact h
  · next hnone =>
    constructor
    · intro token app
      simp only [Function.update_apply]
      by_cases htoken : token = s.nextTokenId
      · subst htoken
        rw [if_pos rfl]
        by_cases happ : app = id
        · simp [happ]
        · rw [if_neg happ]
          have hold : s.appIdToToken app ≠ some s.nextTokenId := fun hold =>
            absurd (h.fresh app _ hold) (Nat.lt_irrefl _)
          simp [hold, Ne.symm happ]
      · rw [if_neg htoken]
        by_cases happ : app = id
        · subst happ
          have hold : s.tokenToAppId token ≠ some app := fun hold => by
            rw [h.agree, hnone] at hold
            cases hold
          simp [hold, Ne.symm htoken]
        · rw [if_neg happ]
          exact h.agree token app
    · intro app token
      simp only [Function.update_apply]
      split
      · intro htoken
        have : s.nextTokenId = token := some.inj htoken
        omega
      · intro htoken
        have := h.fresh app token htoken
        omega

theorem Tokens.release (h : s.TokensAgree) (id : AppId) : (releaseAppContext s id).TokensAgree := by
  unfold releaseAppContext
  split
  · exact h
  · next held hheld =>
    constructor
    · intro token app
      simp only [Function.update_apply]
      by_cases htoken : token = held
      · subst htoken
        rw [if_pos rfl]
        by_cases happ : app = id
        · simp [happ]
        · have hoth : s.appIdToToken app ≠ some token := fun hoth => by
            have hid := (h.agree token id).mpr hheld
            rw [(h.agree token app).mpr hoth] at hid
            exact happ (some.inj hid)
          simp [happ, hoth]
      · rw [if_neg htoken]
        by_cases happ : app = id
        · subst happ
          have hoth : s.tokenToAppId token ≠ some app := fun hoth => by
            rw [h.agree, hheld] at hoth
            exact htoken (some.inj hoth).symm
          simp [hoth]
        · rw [if_neg happ]
          exact h.agree token app
    · intro app token
      simp only [Function.update_apply]
      split
      · intro htoken
        cases htoken
      · exact h.fresh app token

theorem Tokens.releaseResources (h : s.TokensAgree) (id : AppId) : (releaseAppResources s id).TokensAgree :=
  Tokens.release (s := { s with finishRequests := s.finishRequests.erase id }) h id

/-! ### Loaded apps -/

/-- `app` holds no finish request and no token. -/
def Released (s : State) (app : AppId) : Prop :=
  app ∉ s.finishRequests ∧ s.appIdToToken app = none

structure Loaded (s : State) : Prop where
  /-- Every operation but a load is about an app that is loaded. -/
  known : ∀ f ∈ s.calls, f.operation ≠ .loadApp → (s.apps f.app).isSome = true
  /-- The scripts call `call_function` only. -/
  nested : ∀ f ∈ s.calls.dropLast, f.operation = .callFunction
  running : ∀ f ∈ s.calls, getBackend s f.backend = some f.backend
  typed : ∀ app type, s.appBackendTypes app = some type → getBackend s type = some type
  hasType : ∀ app, (s.apps app).isSome = true → (s.appBackendTypes app).isSome = true
  clean : ∀ app, s.apps app = none → (∀ f ∈ s.calls, f.operation = .loadApp → f.app ≠ app) → Released s app

theorem Loaded.apps_eq_none (h : Loaded s) (hnone : getAppAndBackend s id = none) : s.apps id = none := by
  by_contra hsome
  obtain ⟨state, hstate⟩ := ne_none_iff_exists'.mp hsome
  obtain ⟨type, htype⟩ := isSome_iff_exists.mp (h.hasType id (isSome_of_mem hstate))
  have hback : getAppAndBackend s id = some type := by
    simp [getAppAndBackend, getAppBackend, hstate, htype, h.typed id type htype]
  rw [hnone] at hback
  cases hback

theorem Released.release {app : AppId} (h : Released s app) (id : AppId) : Released (releaseAppResources s id) app := by
  rw [releaseAppResources_eq]
  refine ⟨fun hmem => h.1 (Finset.mem_of_mem_erase hmem), ?_⟩
  change (releaseAppContext s id).appIdToToken app = none
  unfold releaseAppContext
  split
  · exact h.2
  · simp only [Function.update_apply]
    split
    · rfl
    · exact h.2

theorem Loaded.release (h : Loaded s) (id : AppId) : Loaded (releaseAppResources s id) := by
  rw [releaseAppResources_eq]
  exact { h with clean := fun app happ hldg => releaseAppResources_eq s id ▸ (h.clean app happ hldg).release id }

theorem released_releaseAppResources (s : State) (id : AppId) : Released (releaseAppResources s id) id := by
  rw [releaseAppResources_eq]
  refine ⟨Finset.notMem_erase id _, ?_⟩
  change (releaseAppContext s id).appIdToToken id = none
  unfold releaseAppContext
  split
  · next hnone => exact hnone
  · exact Function.update_self id none s.appIdToToken

theorem Loaded.setAppState (h : Loaded s) (id : AppId) (state : AppState) : Loaded (setAppState s id state) := by
  have hsome : ∀ app, ((Runtime.setAppState s id state).apps app).isSome = (s.apps app).isSome := by
    intro app
    simp only [Runtime.setAppState, Function.update_apply]
    split
    · next heq => rw [heq, isSome_map]
    · rfl
  refine { h with known := fun f hf hop => ?_, hasType := fun app happ => ?_, clean := fun app happ hldg => ?_ }
  · rw [hsome]
    exact h.known f hf hop
  · exact h.hasType app (hsome app ▸ happ)
  · refine h.clean app ?_ hldg
    rw [← isNone_iff_eq_none, ← not_isSome, ← hsome, not_isSome, happ]
    rfl

theorem Loaded.enter (h : Loaded s) {operation : Operation} {backend : BackendType} {guards : List AppContextGuard}
    (hknown : operation ≠ .loadApp → (s.apps id).isSome = true)
    (hnest : operation = .callFunction ∨ s.calls = []) (hback : getBackend s backend = some backend) :
    Loaded (enter s operation id backend guards) := by
  refine { h with known := ?_, nested := ?_, running := ?_, clean := ?_ }
  · intro f hf hop
    obtain rfl | hf := mem_cons.mp hf
    · exact hknown hop
    · exact h.known f hf hop
  · intro f hf
    obtain hop | hnil := hnest
    · change f ∈ (_ :: s.calls).dropLast at hf
      cases hcs : s.calls with
      | nil => simp [hcs] at hf
      | cons g calls =>
        rw [hcs, dropLast_cons_cons] at hf
        obtain rfl | hf := mem_cons.mp hf
        · exact hop
        · exact h.nested f (hcs ▸ hf)
    · simp [Runtime.enter, hnil] at hf
  · intro f hf
    obtain rfl | hf := mem_cons.mp hf
    · exact hback
    · exact h.running f hf
  · exact fun app happ hldg => h.clean app happ fun f hf => hldg f (mem_cons_of_mem _ hf)

theorem Loaded.leave (h : Loaded s) (hcs : s.calls = f :: rest) (ok : Bool)
    (hload : f.operation = .loadApp → s.apps f.app = none → Released s f.app) : Loaded (leave s f rest ok) := by
  have hmem : ∀ g ∈ rest, g ∈ s.calls := fun g hg => hcs ▸ mem_cons_of_mem f hg
  refine ⟨fun g hg => h.known g (hmem g hg), ?_, fun g hg => h.running g (hmem g hg), h.typed, h.hasType, ?_⟩
  · intro g hg
    cases rest with
    | nil => cases hg
    | cons g' rest =>
      refine h.nested g ?_
      rw [hcs, dropLast_cons_cons]
      exact mem_cons_of_mem f hg
  · intro app happ hldg
    by_cases hf : f.operation = .loadApp ∧ f.app = app
    · obtain ⟨hop, rfl⟩ := hf
      exact hload hop happ
    · refine h.clean app happ fun g hg hop heq => ?_
      rw [hcs] at hg
      obtain rfl | hg := mem_cons.mp hg
      · exact hf ⟨hop, heq⟩
      · exact hldg g hg hop heq

theorem Loaded.rest_eq_nil (h : Loaded s) (hcs : s.calls = f :: rest) (hop : f.operation ≠ .callFunction) :
    rest = [] := by
  cases rest with
  | nil => rfl
  | cons g rest =>
    refine absurd (h.nested f ?_) hop
    rw [hcs, dropLast_cons_cons]
    exact mem_cons_self

/-! ### The current app -/

/-- The current app of the thread once all operations have ended. -/
def unwind : List Frame → Option AppId → Option AppId
  | [], current => current
  | f :: rest, current => unwind rest (destroy f.guards current)

end Brookesia.Runtime
