import Brookesia.SystemCore.HostBridgeCalls

/-! # The handles of an app

`start_service` and the `subscribe` functions get a binding or a connection outside `mutex_`, and insert
its record later. `InsertsInTime` are the runs where no record is inserted after the section of a release
of its app.

* `HandleTable.Consistent`: the two maps of a table are inverse to each other, which needs no condition.
* `Owned`: each binding and each connection is in a record, in a request or in a release.
* `handles_of_live_apps`: under `InsertsInTime` nothing is left of an app that is released. -/

namespace Brookesia.SystemCore.HostBridgeHandles

open Transition HostBridge List Option
open Function (update update_of_ne update_apply)

/-! ### Tables -/

def Consistent (t : HandleTable) : Prop :=
  ∀ app handle, (∃ r, t.records handle = some r ∧ r.app = app) ↔ handle ∈ t.handles app

variable {t : HandleTable} {handle : Handle} {r : HandleRecord} {app : AppId}

theorem find_eq_some : t.find app handle = some r ↔ t.records handle = some r ∧ r.app = app := by
  unfold HandleTable.find
  rw [filter_eq_some_iff, decide_eq_true_iff]

theorem insert_records (h : t.records handle = none) (r : HandleRecord) (handle' : Handle) :
    (t.insert handle r).records handle' = if handle' = handle then some r else t.records handle' := by
  show (if t.records handle = none then update t.records handle (some r) else t.records) handle' = _
  rw [if_pos h, update_apply]

theorem Consistent.insert (ht : Consistent t) (h : t.records handle = none) (r : HandleRecord) :
    Consistent (t.insert handle r) := by
  intro app handle'
  have hhdls : handle' ∈ (t.insert handle r).handles app ↔
      (handle' = handle ∧ app = r.app) ∨ handle' ∈ t.handles app := by
    show handle' ∈ update t.handles r.app (handle :: (t.handles r.app).erase handle) app ↔ _
    have hnot : handle ∉ t.handles r.app := by
      rw [← ht r.app handle, h]
      simp
    rw [update_apply, erase_of_not_mem hnot]
    split_ifs with heq
    · subst heq
      simp
    · simp [heq]
  rw [hhdls, insert_records h]
  split_ifs with heq
  · subst heq
    rw [← ht app handle', h]
    simp [eq_comm]
  · rw [ht app handle']
    simp [heq]

theorem Consistent.erase (ht : Consistent t) (h : t.records handle = some r) : Consistent (t.erase handle r) := by
  intro app handle'
  show (∃ r', update t.records handle none handle' = some r' ∧ r'.app = app) ↔
    handle' ∈ update t.handles r.app ((t.handles r.app).filter (· ≠ handle)) app
  rw [update_apply, update_apply]
  by_cases heq : handle' = handle
  · subst heq
    rw [if_pos rfl]
    split_ifs with happ
    · simp
    · rw [← ht app handle', h]
      simpa [eq_comm] using happ
  · rw [if_neg heq, ht app handle']
    split_ifs with happ
    · subst happ
      simp [heq]
    · rfl

theorem release_records (app : AppId) (handle : Handle) :
    (t.release app).records handle = if handle ∈ t.handles app then none else t.records handle := rfl

theorem Consistent.release (ht : Consistent t) (app : AppId) : Consistent (t.release app) := by
  intro app' handle
  show (∃ r, (t.release app).records handle = some r ∧ r.app = app') ↔ handle ∈ update t.handles app [] app'
  rw [release_records, update_apply]
  split_ifs with hin happ happ
  · simp
  · obtain ⟨r, hr, hra⟩ := (ht app handle).mpr hin
    rw [← ht app' handle, hr]
    simpa [hra] using Ne.symm happ
  · subst happ
    rw [ht app' handle]
    simpa using hin
  · exact ht app' handle

theorem mem_released (h : t.records handle = some r) (hin : handle ∈ t.handles app) : r.resource ∈ t.released app :=
  mem_filterMap.mpr ⟨handle, hin, by simp [h]⟩

/-! ### Owners -/

def bindingOf : RequestPoint → Option Resource
  | .bound b => some b
  | .unbinding b => some b
  | _ => none

def connectionOf : RequestPoint → Option Resource
  | .connected c => some c
  | .disconnecting c => some c
  | _ => none

/-- A resource of an app is in a record, in a request or in a release of this app. -/
def Owned (t : HandleTable) (held : RequestPoint → Option Resource) (requests : List RequestCall)
    (moved : Release → List Resource) (releasing : List Release) (x : Resource) : Prop :=
  (∃ handle r, t.records handle = some r ∧ r.app = x.app ∧ r.resource = x) ∨
    (∃ c ∈ requests, c.app = x.app ∧ held c.point = some x) ∨
    ∃ r ∈ releasing, r.app = x.app ∧ x ∈ moved r

variable {held : RequestPoint → Option Resource} {requests : List RequestCall}
  {moved : Release → List Resource} {releasing : List Release} {x : Resource} {c : RequestCall}

theorem Owned.request (h : Owned t held requests moved releasing x) (c : RequestCall) :
    Owned t held (c :: requests) moved releasing x := by
  rcases h with h | ⟨c', hc', h⟩ | h
  · exact .inl h
  · exact .inr (.inl ⟨c', mem_cons_of_mem _ hc', h⟩)
  · exact .inr (.inr h)

theorem Owned.erase_request (h : Owned t held requests moved releasing x) (hc : held c.point ≠ some x) :
    Owned t held (requests.erase c) moved releasing x := by
  rcases h with h | ⟨c', hc', happ, h⟩ | h
  · exact .inl h
  · refine .inr (.inl ⟨c', (mem_erase_of_ne ?_).mpr hc', happ, h⟩)
    rintro rfl
    exact hc h
  · exact .inr (.inr h)

theorem Owned.insert (h : Owned t held requests moved releasing x) (hfree : t.records handle = none)
    {y : Resource} (hc : held c.point = some y) :
    Owned (t.insert handle ⟨c.app, y⟩) held (requests.erase c) moved releasing x := by
  rcases h with ⟨handle', r, hr, h⟩ | ⟨c', hc', happ, h⟩ | h
  · refine .inl ⟨handle', r, ?_, h⟩
    rw [insert_records hfree, if_neg]
    · exact hr
    · rintro rfl
      rw [hfree] at hr
      cases hr
  · by_cases heq : c' = c
    · subst heq
      rw [hc] at h
      refine .inl ⟨handle, ⟨c'.app, y⟩, ?_, happ, some.inj h⟩
      rw [insert_records hfree, if_pos rfl]
    · exact .inr (.inl ⟨c', (mem_erase_of_ne heq).mpr hc', happ, h⟩)
  · exact .inr (.inr h)

theorem Owned.erase_record (h : Owned t held requests moved releasing x)
    (hr : t.find c.app handle = some r) {point : RequestPoint} (hc : held c.point = none)
    (hp : held point = some r.resource) :
    Owned (t.erase handle r) held (⟨c.app, point⟩ :: requests.erase c) moved releasing x := by
  obtain ⟨hr, happ⟩ := find_eq_some.mp hr
  rcases h with ⟨handle', r', hr', happ', h⟩ | ⟨c', hc', happ', h⟩ | h
  · by_cases heq : handle' = handle
    · subst heq
      rw [hr] at hr'
      cases hr'
      exact .inr (.inl ⟨_, mem_cons_self, happ.symm.trans happ', hp.trans (congrArg some h)⟩)
    · refine .inl ⟨handle', r', ?_, happ', h⟩
      show update t.records handle none handle' = some r'
      rw [update_of_ne heq]
      exact hr'
  · refine .inr (.inl ⟨c', mem_cons_of_mem _ ((mem_erase_of_ne ?_).mpr hc'), happ', h⟩)
    rintro rfl
    rw [hc] at h
    cases h
  · exact .inr (.inr h)

theorem Owned.release (h : Owned t held requests moved releasing x) (ht : Consistent t) {new : Release}
    (hnew : moved new = t.released new.app) :
    Owned (t.release new.app) held requests moved (new :: releasing) x := by
  rcases h with ⟨handle, r, hr, happ, h⟩ | h | ⟨r, hr, h⟩
  · by_cases hin : handle ∈ t.handles new.app
    · obtain ⟨r', hr', hra⟩ := (ht new.app handle).mpr hin
      rw [hr] at hr'
      cases hr'
      refine .inr (.inr ⟨new, mem_cons_self, hra.symm.trans happ, ?_⟩)
      rw [hnew, ← h]
      exact mem_released hr hin
    · refine .inl ⟨handle, r, ?_, happ, h⟩
      rw [release_records, if_neg hin]
      exact hr
  · exact .inr (.inl h)
  · exact .inr (.inr ⟨r, mem_cons_of_mem _ hr, h⟩)

theorem Owned.release_returns (h : Owned t held requests moved releasing x) {r : Release}
    (hx : x ∉ moved r) : Owned t held requests moved (releasing.erase r) x := by
  rcases h with h | h | ⟨r', hr', happ, h⟩
  · exact .inl h
  · exact .inr (.inl h)
  · refine .inr (.inr ⟨r', (mem_erase_of_ne ?_).mpr hr', happ, h⟩)
    rintro rfl
    exact hx h

/-! ### The invariant -/

/-- Nothing of `app` is in the table. -/
def IsClear (t : HandleTable) (app : AppId) : Prop :=
  t.handles app = [] ∧ ∀ handle r, t.records handle = some r → r.app ≠ app

/-- The two maps of each table agree; and when the run of an app has been released and none of its requests
and releases is in progress, nothing of the app is left. -/
structure HandlesOfLiveApps (s : State) : Prop where
  services : Consistent s.services
  subscriptions : Consistent s.subscriptions
  nothingLeft : ∀ app, s.run app ≤ s.returned app → (∀ c ∈ s.requests, c.app ≠ app) → (∀ r ∈ s.releasing, r.app ≠ app) →
    IsClear s.services app ∧ IsClear s.subscriptions app ∧ (∀ c ∈ s.asyncCalls, c.app ≠ app) ∧
      (∀ b ∈ s.bindings, b.app ≠ app) ∧ ∀ c ∈ s.connections, c.app ≠ app

/-- The next step of a request at this point inserts a record. -/
def inserts : RequestPoint → Bool
  | .bound _ => true
  | .connected _ => true
  | _ => false

/-- A record is inserted before a release of its app has begun, in the current run of the app. -/
def InsertsInTime (s : State) : Action → Prop
  | .proceed c _ => inserts c.point = true → s.begun c.app < s.run c.app
  | .create c => s.begun c.app < s.run c.app
  | _ => True

instance (s : State) (a : Action) : Decidable (InsertsInTime s a) :=
  match a with
  | .proceed _ _ => inferInstanceAs (Decidable (_ → _))
  | .create _ => inferInstanceAs (Decidable (_ < _))
  | .startApp _ | .request .. | .enter _ | .refuse _ | .schedule .. | .submit _ | .submitted .. | .report _
  | .fireTimeout _ | .invoke _ | .release _ | .releaseReturn _ => isTrue trivial

def Live (t : HandleTable) (begun run : AppId → ℕ) : Prop :=
  ∀ handle r, t.records handle = some r → begun r.app < run r.app

/-- The handles from `next` on are new. -/
def FreshFrom (t : HandleTable) (next : Handle) : Prop := ∀ handle, next ≤ handle → t.records handle = none

/-- What holds of a table, with the resources of its kind. -/
structure TableInv (t : HandleTable) (next : Handle) (begun run : AppId → ℕ)
    (held : RequestPoint → Option Resource) (requests : List RequestCall)
    (moved : Release → List Resource) (releasing : List Release) (resources : List Resource) : Prop where
  consistent : Consistent t
  fresh : FreshFrom t next
  live : Live t begun run
  owned : ∀ x ∈ resources, Owned t held requests moved releasing x

structure Inv (s : State) : Prop where
  ordered : Ordered s.returned s.begun s.run s.releasing
  services : TableInv s.services s.nextHandleId s.begun s.run bindingOf s.requests (·.services) s.releasing s.bindings
  subscriptions : TableInv s.subscriptions s.nextHandleId s.begun s.run connectionOf s.requests
    (·.subscriptions) s.releasing s.connections
  asyncCalls : ∀ c ∈ s.asyncCalls, s.begun c.app < s.run c.app

variable {s : State} {next : Handle} {begun run : AppId → ℕ} {resources : List Resource}

/-! ### Steps of a table -/

namespace TableInv

theorem request (h : TableInv t next begun run held requests moved releasing resources)
    (c : RequestCall) : TableInv t next begun run held (c :: requests) moved releasing resources :=
  { h with owned := fun x hx => (h.owned x hx).request c }

theorem endRequest (h : TableInv t next begun run held requests moved releasing resources) (hc : held c.point = none) :
    TableInv t next begun run held (requests.erase c) moved releasing resources :=
  { h with owned := fun x hx => (h.owned x hx).erase_request (by rw [hc]; simp) }

theorem acquire (h : TableInv t next begun run held requests moved releasing resources)
    (hc : held c.point = none) {point : RequestPoint} {x : Resource} (hp : held point = some x)
    (hx : x.app = c.app) :
    TableInv t next begun run held (⟨c.app, point⟩ :: requests.erase c) moved releasing (x :: resources) := by
  refine { h.endRequest hc with owned := fun y hy => ?_ }
  rcases mem_cons.mp hy with rfl | hy
  · exact .inr (.inl ⟨_, mem_cons_self, hx.symm, hp⟩)
  · exact ((h.endRequest hc).owned y hy).request _

theorem dropHeld (h : TableInv t next begun run held requests moved releasing resources)
    {x : Resource} (hc : held c.point = some x) :
    TableInv t next begun run held (requests.erase c) moved releasing (resources.filter (· ∉ [x])) := by
  refine { h with owned := fun y hy => ?_ }
  obtain ⟨hy, hne⟩ := mem_filter.mp hy
  refine (h.owned y hy).erase_request ?_
  rw [hc]
  rintro heq
  simp [some.inj heq] at hne

theorem nextHandle (h : TableInv t next begun run held requests moved releasing resources) :
    TableInv t (next + 1) begun run held requests moved releasing resources :=
  { h with fresh := fun handle hle => h.fresh handle (Nat.le_of_succ_le hle) }

theorem insert (h : TableInv t next begun run held requests moved releasing resources)
    {x : Resource} (hc : held c.point = some x) (hlive : begun c.app < run c.app) :
    TableInv (t.insert next ⟨c.app, x⟩) (next + 1) begun run held (requests.erase c) moved releasing
      resources := by
  have hfree : t.records next = none := h.fresh next le_rfl
  refine ⟨h.consistent.insert hfree _, fun handle hle => ?_, fun handle r hr => ?_,
    fun y hy => (h.owned y hy).insert hfree hc⟩
  · rw [insert_records hfree, if_neg (Nat.ne_of_gt hle)]
    exact h.fresh handle (Nat.le_of_succ_le hle)
  · rw [insert_records hfree] at hr
    split_ifs at hr
    · cases hr
      exact hlive
    · exact h.live handle r hr

theorem eraseRecord (h : TableInv t next begun run held requests moved releasing resources)
    (hr : t.find c.app handle = some r) {point : RequestPoint} (hc : held c.point = none)
    (hp : held point = some r.resource) :
    TableInv (t.erase handle r) next begun run held (⟨c.app, point⟩ :: requests.erase c) moved releasing
      resources := by
  have hrecs : ∀ handle', (t.erase handle r).records handle' =
      if handle' = handle then none else t.records handle' := fun handle' => update_apply ..
  refine ⟨h.consistent.erase (find_eq_some.mp hr).1, fun handle' hle => ?_, fun handle' r' hr' => ?_,
    fun y hy => (h.owned y hy).erase_record hr hc hp⟩
  · rw [hrecs]
    split_ifs
    · rfl
    · exact h.fresh handle' hle
  · rw [hrecs] at hr'
    split_ifs at hr'
    exact h.live handle' r' hr'

theorem startApp (h : TableInv t next begun run held requests moved releasing resources) (app : AppId) :
    TableInv t next begun (update run app (run app + 1)) held requests moved releasing
      resources :=
  { h with live := fun handle r hr => (h.live handle r hr).trans_le (le_startApp run app r.app) }

/-- No record of the app is left, so those that are left are of apps that are not released. -/
theorem release (h : TableInv t next begun run held requests moved releasing resources) (new : Release)
    (hnew : moved new = t.released new.app) :
    TableInv (t.release new.app) next (update begun new.app (run new.app)) run held requests
      moved (new :: releasing) resources := by
  refine ⟨h.consistent.release _, fun handle hle => ?_, fun handle r hr => ?_,
    fun y hy => (h.owned y hy).release h.consistent hnew⟩
  · rw [release_records]
    split_ifs
    · rfl
    · exact h.fresh handle hle
  · rw [release_records] at hr
    split_ifs at hr with hin
    rw [update_apply, if_neg]
    · exact h.live handle r hr
    · intro happ
      exact hin ((h.consistent new.app handle).mp ⟨r, hr, happ⟩)

theorem releaseReturn (h : TableInv t next begun run held requests moved releasing resources) (r : Release) :
    TableInv t next begun run held requests moved (releasing.erase r) (resources.filter (· ∉ moved r)) := by
  refine { h with owned := fun x hx => ?_ }
  obtain ⟨hx, hnot⟩ := mem_filter.mp hx
  exact (h.owned x hx).release_returns (by simpa using hnot)

theorem isClear (h : TableInv t next begun run held requests moved releasing resources) {app : AppId}
    (happ : run app ≤ begun app) : IsClear t app := by
  have hnone : ∀ handle r, t.records handle = some r → r.app ≠ app := by
    rintro handle r hr rfl
    exact absurd (h.live handle r hr) (not_lt.mpr happ)
  refine ⟨eq_nil_iff_forall_not_mem.mpr fun handle hin => ?_, hnone⟩
  obtain ⟨r, hr, hra⟩ := (h.consistent app handle).mpr hin
  exact hnone handle r hr hra

theorem noResource (h : TableInv t next begun run held requests moved releasing resources) {app : AppId}
    (happ : run app ≤ begun app) (hreqs : ∀ c ∈ requests, c.app ≠ app)
    (hrelg : ∀ r ∈ releasing, r.app ≠ app) : ∀ x ∈ resources, x.app ≠ app := by
  rintro x hx rfl
  rcases h.owned x hx with ⟨handle, r, hr, hra, _⟩ | ⟨c, hc, hca, _⟩ | ⟨r, hr, hra, _⟩
  · exact (h.isClear happ).2 handle r hr hra
  · exact hreqs c hc hca
  · exact hrelg r hr hra

end TableInv

theorem Inv.handlesOfLiveApps (h : Inv s) : HandlesOfLiveApps s where
  services := h.services.consistent
  subscriptions := h.subscriptions.consistent
  nothingLeft app happ hreqs hrelg := by
    have hbegun : s.run app ≤ s.begun app := happ.trans (h.ordered.returnedLe app)
    refine ⟨h.services.isClear hbegun, h.subscriptions.isClear hbegun, ?_, h.services.noResource hbegun hreqs hrelg,
      h.subscriptions.noResource hbegun hreqs hrelg⟩
    rintro c hc rfl
    exact absurd (h.asyncCalls c hc) (not_lt.mpr hbegun)

/-! ### Steps -/

theorem Inv.endRequest (h : Inv s) (hb : bindingOf c.point = none) (hc : connectionOf c.point = none) :
    Inv (s.endRequest c) :=
  { h with services := h.services.endRequest hb, subscriptions := h.subscriptions.endRequest hc }

theorem Inv.moveRequest (h : Inv s) (hb : bindingOf c.point = none) (hc : connectionOf c.point = none)
    (point : RequestPoint) : Inv (s.moveRequest c point) :=
  { h with
    services := (h.services.endRequest hb).request _
    subscriptions := (h.subscriptions.endRequest hc).request _ }

theorem Inv.stepRequest (h : Inv s) (ok : Bool)
    (hok : inserts c.point = true → s.begun c.app < s.run c.app) : Inv (stepRequest s c ok) := by
  obtain ⟨app, point⟩ := c
  cases point with
  | called request =>
    cases ok with
    | false => exact h.endRequest rfl rfl
    | true =>
      cases request with
      | startService =>
        exact { h with
          services := h.services.acquire rfl rfl rfl
          subscriptions := (h.subscriptions.endRequest rfl).request _ }
      | stopService handle =>
        show Inv (s.stopService _ handle)
        unfold State.stopService
        split
        · exact h.endRequest rfl rfl
        · next r hr =>
          exact { h with
            services := h.services.eraseRecord hr rfl rfl
            subscriptions := (h.subscriptions.endRequest rfl).request _ }
      | subscribeEvent handle =>
        show Inv (s.findService _ handle)
        unfold State.findService
        split
        · exact h.endRequest rfl rfl
        · exact h.moveRequest rfl rfl _
      | subscribeServiceEvent => exact h.moveRequest rfl rfl _
      | unsubscribeEvent handle =>
        show Inv (s.unsubscribe _ handle)
        unfold State.unsubscribe
        split
        · exact h.endRequest rfl rfl
        · next r hr =>
          exact { h with
            services := (h.services.endRequest rfl).request _
            subscriptions := h.subscriptions.eraseRecord hr rfl rfl }
  | bound binding =>
    exact { h with
      services := h.services.insert rfl (hok rfl)
      subscriptions := (h.subscriptions.endRequest rfl).nextHandle }
  | serviceFound =>
    cases ok with
    | false => exact h.endRequest rfl rfl
    | true =>
      exact { h with
        services := (h.services.endRequest rfl).request _
        subscriptions := h.subscriptions.acquire rfl rfl rfl }
  | connected connection =>
    exact { h with
      services := (h.services.endRequest rfl).nextHandle
      subscriptions := h.subscriptions.insert rfl (hok rfl) }
  | unbinding binding =>
    have hsub := h.subscriptions.endRequest (c := ⟨app, .unbinding binding⟩) rfl
    exact { h with
      services := h.services.dropHeld rfl
      subscriptions := { hsub with owned := fun x hx => hsub.owned x (mem_of_mem_filter hx) } }
  | disconnecting connection =>
    have hser := h.services.endRequest (c := ⟨app, .disconnecting connection⟩) rfl
    exact { h with
      services := { hser with owned := fun x hx => hser.owned x (mem_of_mem_filter hx) }
      subscriptions := h.subscriptions.dropHeld rfl }

theorem Inv.completeAsyncCall (h : Inv s) (c : Call) (source : Source) : Inv (s.completeAsyncCall c source) := by
  unfold State.completeAsyncCall
  split_ifs
  · exact { h with }
  · exact { h with asyncCalls := fun c' hc' => h.asyncCalls c' (mem_of_mem_erase hc') }

theorem Inv.setPoint (h : Inv s) (c : Call) (point : CallPoint) : Inv (s.setPoint c point) := { h with }

theorem Inv.schedule (h : Inv s) (c : Call) (posted : Bool) : Inv (s.schedule c posted) := by
  unfold State.schedule
  split_ifs
  · exact { h with }
  · exact (h.setPoint c _).completeAsyncCall c _

theorem Inv.returnSubmitted (h : Inv s) (c : Call) (accepted : Bool) : Inv (s.returnSubmitted c accepted) := by
  unfold State.returnSubmitted
  split_ifs
  · exact h.setPoint c _
  · exact (h.setPoint c _).completeAsyncCall c _

theorem Inv.fireTimeout (h : Inv s) (c : Call) : Inv (s.fireTimeout c) := by
  have he : Inv { s with timeouts := s.timeouts.erase c } := { h with }
  exact he.completeAsyncCall c _

theorem Inv.release (h : Inv s) (app : AppId) : Inv (s.release app) where
  ordered := h.ordered.release app _ _
  services := h.services.release ⟨app, s.run app, s.services.released app, s.subscriptions.released app⟩ rfl
  subscriptions := h.subscriptions.release ⟨app, s.run app, s.services.released app, s.subscriptions.released app⟩ rfl
  asyncCalls c hc := by
    obtain ⟨hc, hne⟩ := mem_filter.mp hc
    show update s.begun app (s.run app) c.app < s.run c.app
    rw [update_of_ne (by simpa using hne)]
    exact h.asyncCalls c hc

theorem Inv.startApp (h : Inv s) (app : AppId) : Inv { s with run := update s.run app (s.run app + 1) } where
  ordered := h.ordered.startApp app
  services := h.services.startApp app
  subscriptions := h.subscriptions.startApp app
  asyncCalls c hc := (h.asyncCalls c hc).trans_le (le_startApp s.run app c.app)

/-! ### Runs -/

theorem handles_inductive : hostBridge.Inductive InsertsInTime Inv where
  init s hs := by
    subst hs
    have ht : ∀ held moved, TableInv {} 1 (fun _ => 0) (fun _ => 1) held [] moved [] [] :=
      fun _ _ => ⟨by simp [Consistent], by simp [FreshFrom], by simp [Live], by simp⟩
    exact ⟨⟨by simp, by simp, by simp⟩, ht _ _, ht _ _, by simp⟩
  step s a s' h hok hst := by
    cases a with
    | startApp app => exact some.inj hst ▸ h.startApp app
    | request app request =>
      cases some.inj hst
      exact { h with services := h.services.request _, subscriptions := h.subscriptions.request _ }
    | proceed c ok =>
      obtain ⟨_, rfl⟩ := of_guard hst
      exact h.stepRequest ok hok
    | enter c =>
      obtain ⟨_, rfl⟩ := of_guard hst
      exact h.setPoint c _
    | refuse c =>
      obtain ⟨_, rfl⟩ := of_guard hst
      exact { h with }
    | create c =>
      obtain ⟨_, rfl⟩ := of_guard hst
      refine { h with asyncCalls := fun c' hc' => ?_ }
      rcases mem_cons.mp hc' with rfl | hc'
      · exact hok
      · exact h.asyncCalls c' hc'
    | schedule c posted =>
      obtain ⟨_, rfl⟩ := of_guard hst
      exact h.schedule c posted
    | submit c =>
      obtain ⟨_, rfl⟩ := of_guard hst
      exact h.setPoint c _
    | submitted c accepted =>
      obtain ⟨_, rfl⟩ := of_guard hst
      exact h.returnSubmitted c accepted
    | report c =>
      obtain ⟨_, rfl⟩ := of_guard hst
      exact h.completeAsyncCall c _
    | fireTimeout c =>
      obtain ⟨_, rfl⟩ := of_guard hst
      exact h.fireTimeout c
    | invoke c =>
      obtain ⟨_, rfl⟩ := of_guard hst
      exact { h with }
    | release app => exact some.inj hst ▸ h.release app
    | releaseReturn r =>
      obtain ⟨hr, rfl⟩ := of_guard hst
      exact { h with
        ordered := h.ordered.releaseReturn hr
        services := h.services.releaseReturn r
        subscriptions := h.subscriptions.releaseReturn r }

/-- **Handles belong to live apps.** The maps of handles agree; and while records are inserted in time,
nothing is left of an app whose run has been released and whose requests have ended. -/
theorem handles_of_live_apps (h : hostBridge.Reach InsertsInTime s) : HandlesOfLiveApps s :=
  (handles_inductive.reach h).handlesOfLiveApps

/-! ### Two runs -/

def servicePoint (point : RequestPoint) : Action := .proceed ⟨7, point⟩ true

/-- The requests to start a service and to subscribe to an event of it are complete before the release. -/
def orderlyRun : List Action :=
  [.request 7 .startService, servicePoint (.called .startService), servicePoint (.bound ⟨0, 7⟩),
    .request 7 (.subscribeEvent 1), servicePoint (.called (.subscribeEvent 1)),
    servicePoint .serviceFound, servicePoint (.connected ⟨1, 7⟩),
    .release 7, .releaseReturn ⟨7, 1, [⟨0, 7⟩], [⟨1, 7⟩]⟩]

/-- A release falls between the binding of a service and its record. -/
def lateRecordRun : List Action :=
  [.request 7 .startService, servicePoint (.called .startService), .release 7,
    .releaseReturn ⟨7, 1, [], []⟩, servicePoint (.bound ⟨0, 7⟩)]

theorem handles_of_live_apps_orderlyRun :
    ∃ s, hostBridge.execWhen InsertsInTime {} orderlyRun = some s ∧ HandlesOfLiveApps s := by
  obtain ⟨s, hs⟩ := isSome_iff_exists.mp (by decide : (hostBridge.execWhen InsertsInTime {} orderlyRun).isSome = true)
  exact ⟨s, hs, handles_of_live_apps (.execWhen (.init rfl) hs)⟩

/-- The record and the binding are left for ever. -/
theorem lateRecordRun_leaves : ∃ s, hostBridge.Reachable s ∧ ¬ HandlesOfLiveApps s := by
  obtain ⟨s, hs⟩ := isSome_iff_exists.mp (by decide : (hostBridge.exec {} lateRecordRun).isSome = true)
  have hfacts : (hostBridge.exec {} lateRecordRun).map (fun s =>
      (s.run 7, s.returned 7, s.requests, s.releasing, s.bindings)) = some (1, 1, [], [], [⟨0, 7⟩]) := rfl
  rw [hs] at hfacts
  obtain ⟨hrun, hret, hreqs, hrelg, hbinds⟩ :
      s.run 7 = 1 ∧ s.returned 7 = 1 ∧ s.requests = [] ∧ s.releasing = [] ∧ s.bindings = [⟨0, 7⟩] := by
    simpa using hfacts
  refine ⟨s, .exec (.init rfl) hs, fun h => ?_⟩
  obtain ⟨_, _, _, hnone, _⟩ := h.nothingLeft 7 (by rw [hrun, hret]) (by simp [hreqs]) (by simp [hrelg])
  exact hnone ⟨0, 7⟩ (by simp [hbinds]) rfl

end Brookesia.SystemCore.HostBridgeHandles
